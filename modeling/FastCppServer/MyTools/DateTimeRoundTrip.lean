import FastCppServer.MyTools.MyDateTime

/-!
# Time stamps through their texts

In a zone with a constant offset, the text of a time stamp names its second, which `mktime` finds,
and its fraction, which has as many digits as are read (`parseWithFraction_formatWithFraction`).
What comes back is another number where the second is `-1`, which is taken for a failure of
`mktime`, and nothing where the seconds, multiplied, are no `int64_t` any more
(`survives_iff`).
-/

namespace MyTools.DateTimeTools

open Scan

/-! ## What is written -/

/-- The division is rounded down. -/
theorem splitTimestamp_eq (timestamp : Int) {unit : Int} (hunit : 0 < unit) :
    splitTimestamp timestamp unit = (timestamp / unit, timestamp % unit) := by
  have hmod := Int.emod_nonneg timestamp hunit.ne'
  have hlt := Int.emod_lt_of_pos timestamp hunit
  rw [splitTimestamp, Int.tdiv_eq_ediv, Int.tmod_eq_emod]
  split
  · rw [if_neg (by omega), Int.add_zero, Int.natCast_zero, Int.sub_zero]
  · rw [if_pos (by omega), Int.sign_eq_one_of_pos hunit]
    congr 1 <;> omega

/-- The fraction is printed with leading zeros. -/
theorem formatFraction_eq {value : Int} (h : 0 ≤ value) (width : Nat) :
    formatFraction value width = padded width value.toNat := by
  have habs : value.natAbs = value.toNat := by omega
  rw [formatFraction, showInt, if_neg (Int.not_lt.2 h), habs, padded]

/-- A padded number is a number to the scanner. -/
theorem isNumber_padded (width n : Nat) : IsNumber (padded width n) :=
  ⟨padded_ne_nil width n, padded_digits width n⟩

/-- One conversion of the format. -/
theorem put_time_conversion (c : Strftime) (tm : Tm) (spec : UInt8) (format : Text) :
    c.put_time tm ('%'.toUInt8 :: spec :: format) =
      c.conversion tm spec ++ c.put_time tm format := if_pos rfl

/-- One plain character of the format. -/
theorem put_time_plain (c : Strftime) (tm : Tm) {d : UInt8} (hd : d ≠ '%'.toUInt8) (spec : UInt8)
    (format : Text) :
    c.put_time tm (d :: spec :: format) = d :: c.put_time tm (spec :: format) := if_neg hd

/-- The text of a time of the years from 0 on. -/
theorem put_time_defaultFormat (c : Strftime) {tm : Tm} (hyear : 0 ≤ tm.tm_year + 1900) :
    c.put_time tm defaultFormat =
      stamp (padded c.yearWidth (tm.tm_year + 1900).toNat) (padded 2 (tm.tm_mon + 1).toNat)
        (padded 2 tm.tm_mday.toNat) (padded 2 tm.tm_hour.toNat) (padded 2 tm.tm_min.toNat)
        (padded 2 tm.tm_sec.toNat) := by
  have hY : c.conversion tm 'Y'.toUInt8 = padded c.yearWidth (tm.tm_year + 1900).toNat := by
    rw [Strftime.conversion, if_pos rfl, if_neg (Int.not_lt.2 hyear)]
  have hm : c.conversion tm 'm'.toUInt8 = padded 2 (tm.tm_mon + 1).toNat := rfl
  have hd : c.conversion tm 'd'.toUInt8 = padded 2 tm.tm_mday.toNat := rfl
  have hH : c.conversion tm 'H'.toUInt8 = padded 2 tm.tm_hour.toNat := rfl
  have hM : c.conversion tm 'M'.toUInt8 = padded 2 tm.tm_min.toNat := rfl
  have hS : c.conversion tm 'S'.toUInt8 = padded 2 tm.tm_sec.toNat := rfl
  have hend : c.put_time tm [] = [] := by rw [Strftime.put_time]
  simp only [defaultFormat, List.map_cons, List.map_nil]
  rw [put_time_conversion, put_time_plain c tm (by decide), put_time_conversion,
    put_time_plain c tm (by decide), put_time_conversion, put_time_plain c tm (by decide),
    put_time_conversion, put_time_plain c tm (by decide), put_time_conversion,
    put_time_plain c tm (by decide), put_time_conversion, hend, List.append_nil, hY, hm, hd, hH,
    hM, hS, stamp]

/-! ## The local time of an instant -/

section
variable {offset seconds : Int}

/-- The year on the local calendar. -/
def localYear (offset seconds : Int) : Int := Calendar.yearOf ((seconds + offset) / 86400)

/-- The fields of the local time of an instant. -/
def localFields (offset seconds : Int) : Fields :=
  let date := Calendar.ofDays ((seconds + offset) / 86400)
  let second := (seconds + offset) % 86400
  ⟨date.year, date.month + 1, date.day, second / 3600, second / 60 % 60, second % 60⟩

/-- The local year is one of four digits. -/
def HasYear (offset seconds : Int) : Prop :=
  0 ≤ localYear offset seconds ∧ localYear offset seconds ≤ 9999

instance : Decidable (HasYear offset seconds) := inferInstanceAs (Decidable (_ ∧ _))

/-- The broken-down time of a fixed zone, by the calendar. -/
theorem fixedLocaltime_eq (h : HasYear offset seconds) :
    fixedLocaltime offset seconds =
      some (tmOf (Calendar.ofDays ((seconds + offset) / 86400)) ((seconds + offset) % 86400)) := by
  have hyear : IsSigned 32 (localYear offset seconds - 1900) := by
    rw [HasYear] at h
    rw [IsSigned]
    omega
  exact if_pos hyear

/-- Which is the time of the local fields. -/
theorem tmOf_sameTime :
    (tmOf (Calendar.ofDays ((seconds + offset) / 86400)) ((seconds + offset) % 86400)).SameTime
      (localFields offset seconds).tm :=
  ⟨rfl, (Int.add_sub_cancel _ _).symm, rfl, rfl, rfl, rfl⟩

/-- In a fixed zone every local time exists. -/
theorem localFields_exists (h : HasYear offset seconds) (hsigned : IsSigned 64 seconds) :
    (localFields offset seconds).Exists (fixedOffset offset) :=
  ⟨seconds, _, hsigned, fixedLocaltime_eq h, tmOf_sameTime⟩

/-- The instant is found again, and is taken for a failure where it is `-1`. -/
theorem localFields_seconds (h : HasYear offset seconds) (hsigned : IsSigned 64 seconds) :
    (localFields offset seconds).seconds (fixedOffset offset) =
      if seconds = -1 then none else some seconds := by
  have hmktime : (fixedOffset offset).mktime (localFields offset seconds).tm = seconds :=
    fixedMktime_of_localtime hsigned (fixedLocaltime_eq h) tmOf_sameTime
  split
  · next hfail => rw [Fields.seconds, hmktime, if_pos hfail]
  · next hfail =>
    exact seconds_eq_some.2 ⟨localFields_exists h hsigned, hmktime, hfail⟩

/-- The text of an instant. -/
theorem formatLocal_eq (c : Strftime) (h : HasYear offset seconds) :
    formatLocal (fixedOffset offset) c seconds defaultFormat =
      stamp (padded c.yearWidth (localFields offset seconds).year.toNat)
        (padded 2 (localFields offset seconds).month.toNat)
        (padded 2 (localFields offset seconds).day.toNat)
        (padded 2 (localFields offset seconds).hour.toNat)
        (padded 2 (localFields offset seconds).minute.toNat)
        (padded 2 (localFields offset seconds).second.toNat) := by
  have hlocal : (fixedOffset offset).localtime_r seconds = _ := fixedLocaltime_eq h
  have hyear : (tmOf (Calendar.ofDays ((seconds + offset) / 86400))
      ((seconds + offset) % 86400)).tm_year + 1900 = (localFields offset seconds).year :=
    Int.sub_add_cancel _ _
  rw [formatLocal, hlocal]
  dsimp only
  rw [put_time_defaultFormat c (by rw [hyear]; exact h.1), hyear]
  rfl

/-- The digits of a number that fits in an `int` are read as that number. -/
theorem storeInt_padded {n : Int} (hlow : 0 ≤ n) (hhigh : n < 2 ^ 31) (width : Nat) :
    storeInt (value (padded width n.toNat)) = n := by
  have hn : (n.toNat : Int) = n := Int.toNat_of_nonneg hlow
  rw [value_padded, hn]
  exact storeInt_eq (by omega) hhigh

/-- **The text of an instant is read as its fields.** -/
theorem reads_formatLocal (c : Strftime) (h : HasYear offset seconds)
    (hsigned : IsSigned 64 seconds) (frac : Text) :
    reads (formatLocal (fixedOffset offset) c seconds defaultFormat ++ '.'.toUInt8 :: frac) =
      some (localFields offset seconds) := by
  have hrange := (localFields_exists h hsigned).inRange
  have hyear : 0 ≤ (localFields offset seconds).year ∧ (localFields offset seconds).year ≤ 9999 := h
  rw [Fields.InRange] at hrange
  rw [formatLocal_eq c h, reads_stamp (isNumber_padded _ _) (isNumber_padded _ _)
    (isNumber_padded _ _) (isNumber_padded _ _) (isNumber_padded _ _) (isNumber_padded _ _)
    (.inr ⟨frac, rfl⟩)]
  rw [storeInt_padded (by omega) (by omega), storeInt_padded (by omega) (by omega),
    storeInt_padded (by omega) (by omega), storeInt_padded (by omega) (by omega),
    storeInt_padded (by omega) (by omega), storeInt_padded (by omega) (by omega)]

/-- **The instant is read from its text**, but for the second that is taken for a failure. -/
theorem parseDateTimeToSeconds_formatLocal (c : Strftime) (h : HasYear offset seconds)
    (hsigned : IsSigned 64 seconds) (frac : Text) :
    parseDateTimeToSeconds (fixedOffset offset)
        (formatLocal (fixedOffset offset) c seconds defaultFormat ++ '.'.toUInt8 :: frac) =
      some (if seconds = -1 then none else some seconds) := by
  have hyear : 0 ≤ (localFields offset seconds).year ∧ (localFields offset seconds).year ≤ 9999 := h
  have hyear32 : IsSigned 32 ((localFields offset seconds).year - 1900) := by
    rw [IsSigned]
    omega
  rw [parseDateTimeToSeconds_of_reads _ (reads_formatLocal c h hsigned frac),
    if_pos (localFields_exists h hsigned).inRange, signed, if_pos hyear32, Option.map_some,
    localFields_seconds h hsigned]

/-- The formatted time is not empty. -/
theorem formatLocal_ne_nil (c : Strftime) (h : HasYear offset seconds) :
    formatLocal (fixedOffset offset) c seconds defaultFormat ≠ [] := by
  rw [formatLocal_eq c h, stamp]
  exact List.append_ne_nil_of_left_ne_nil (padded_ne_nil _ _) _

/-- The first point is the one of the fraction. -/
theorem find_formatLocal (c : Strftime) (h : HasYear offset seconds) (frac : Text) :
    find '.'.toUInt8
        (formatLocal (fixedOffset offset) c seconds defaultFormat ++ '.'.toUInt8 :: frac) =
      some (formatLocal (fixedOffset offset) c seconds defaultFormat).length := by
  rw [formatLocal_eq c h]
  exact find_append (notMem_stamp (isNumber_padded _ _) (isNumber_padded _ _) (isNumber_padded _ _)
    (isNumber_padded _ _) (isNumber_padded _ _) (isNumber_padded _ _) (.inl rfl)) _

end

/-! ## The round trip -/

/-- The printed text: the seconds, a point, and the padded fraction. -/
theorem formatWithFraction_eq (c : Strftime) {offset timestamp : Int} {width : Nat}
    (hyear : HasYear offset (timestamp / 10 ^ width)) :
    formatWithFraction (fixedOffset offset) c timestamp (10 ^ width) width defaultFormat =
      formatLocal (fixedOffset offset) c (timestamp / 10 ^ width) defaultFormat ++
        '.'.toUInt8 :: padded width (timestamp % 10 ^ width).toNat := by
  have hunit : (0 : Int) < 10 ^ width := Int.pow_pos (by decide)
  rw [formatWithFraction, splitTimestamp_eq timestamp hunit]
  dsimp only
  rw [if_neg (formatLocal_ne_nil c hyear), formatFraction_eq (Int.emod_nonneg timestamp hunit.ne')]

/-- Reading that fraction back. -/
theorem parseFraction_padded (base : Text) {width n : Nat} (hw : 0 < width) (hn : n < 10 ^ width) :
    parseFraction (base ++ '.'.toUInt8 :: padded width n) (some base.length) width =
      some (n : Int) := by
  have hdrop : (base ++ '.'.toUInt8 :: padded width n).drop (base.length + 1) =
      padded width n := by
    rw [List.drop_append, List.drop_eq_nil_of_le (Nat.le_succ _), Nat.add_sub_cancel_left]
    rfl
  rw [parseFraction_digits hw hdrop (padded_ne_nil width n) (padded_digits width n), value_padded,
    length_padded hw hn, Nat.mul_div_cancel _ (Nat.pow_pos (by decide))]

/-- Dividing by a unit stays within 64 bits. -/
theorem isSigned_ediv {n unit : Int} (hunit : 0 < unit) (h : IsSigned 64 n) :
    IsSigned 64 (n / unit) := by
  have hlow : -2 ^ 63 ≤ n := h.1
  have hhigh : n < 2 ^ 63 := h.2
  constructor
  · rw [Int.le_ediv_iff_mul_le hunit]
    exact (Int.mul_le_mul_of_nonpos_left (by decide) hunit).trans hlow
  · rw [Int.ediv_lt_iff_lt_mul hunit]
    have hmul : 2 ^ 63 * 1 ≤ 2 ^ 63 * unit := Int.mul_le_mul_of_nonneg_left hunit (by decide)
    exact hhigh.trans_le hmul

/-- **What comes back**, for the unit of so many digits. -/
theorem parseWithFraction_formatWithFraction (c : Strftime) {offset timestamp : Int} {width : Nat}
    (hw : 0 < width) (hsigned : IsSigned 64 timestamp)
    (hyear : HasYear offset (timestamp / 10 ^ width)) :
    parseWithFraction (fixedOffset offset)
        (formatWithFraction (fixedOffset offset) c timestamp (10 ^ width) width defaultFormat)
        (10 ^ width) width =
      if timestamp / 10 ^ width = -1 then some (-1)
      else if IsSigned 64 (timestamp / 10 ^ width * 10 ^ width) then some timestamp
      else none := by
  have hunit : (0 : Int) < 10 ^ width := Int.pow_pos (by decide)
  have hmod := Int.emod_nonneg timestamp hunit.ne'
  have hlt := Int.emod_lt_of_pos timestamp hunit
  have hdivmod := Int.ediv_mul_add_emod timestamp (10 ^ width)
  have hseconds := isSigned_ediv hunit hsigned
  have hfraction : (timestamp % 10 ^ width).toNat < 10 ^ width := by
    rw [Int.toNat_lt hmod]
    exact_mod_cast hlt
  rw [formatWithFraction_eq c hyear, parseWithFraction,
    parseDateTimeToSeconds_formatLocal c hyear hseconds, find_formatLocal c hyear]
  by_cases hfail : timestamp / 10 ^ width = -1
  · rw [if_pos hfail, if_pos hfail]
  · rw [if_neg hfail, if_neg hfail]
    dsimp only
    rw [parseFraction_padded _ hw hfraction, Int.toNat_of_nonneg hmod]
    dsimp only
    rw [signed]
    split
    · rw [Option.bind_eq_bind, Option.bind_some, hdivmod, signed, if_pos hsigned]
    · rfl

/-- Not in the second that is taken for a failure, except for its last unit, and the whole seconds
in units are an `int64_t`. -/
def Returns (unit timestamp : Int) : Prop :=
  (timestamp < -unit ∨ -1 ≤ timestamp) ∧ -2 ^ 63 ≤ timestamp / unit * unit

instance (unit timestamp : Int) : Decidable (Returns unit timestamp) :=
  inferInstanceAs (Decidable (_ ∧ _))

/-- **Reading back what was printed**, in a unit of any width. -/
theorem parse_format_iff (c : Strftime) {offset timestamp unit : Int} {width : Nat}
    (hw : 0 < width) (hunit : unit = 10 ^ width) (hmax : unit ≤ 2 ^ 63)
    (hsigned : IsSigned 64 timestamp) (hyear : HasYear offset (timestamp / unit)) :
    parseWithFraction (fixedOffset offset)
        (formatWithFraction (fixedOffset offset) c timestamp unit width defaultFormat) unit width =
      some timestamp ↔ Returns unit timestamp := by
  subst hunit
  have hpos : (0 : Int) < 10 ^ width := Int.pow_pos (by decide)
  have hmod := Int.emod_nonneg timestamp hpos.ne'
  have hlt := Int.emod_lt_of_pos timestamp hpos
  have hdivmod := Int.ediv_mul_add_emod timestamp (10 ^ width)
  rw [parseWithFraction_formatWithFraction c hw hsigned hyear, Returns]
  by_cases hfail : timestamp / 10 ^ width = -1
  · have hsecond : timestamp / 10 ^ width * 10 ^ width = -10 ^ width := by
      rw [hfail, Int.neg_one_mul]
    rw [if_pos hfail, Option.some.injEq]
    omega
  · rw [if_neg hfail]
    have hsecond : timestamp < -10 ^ width ∨ -1 ≤ timestamp := by
      by_contra hin
      refine hfail (Int.ediv_eq_iff_of_pos hpos |>.2 ?_)
      omega
    split
    · next hfits => exact iff_of_true rfl ⟨hsecond, hfits.1⟩
    · next hfits =>
      have hhigh : timestamp < 2 ^ 63 := hsigned.2
      refine iff_of_false (by simp) fun h => hfits ⟨h.2, ?_⟩
      exact Int.lt_of_le_of_lt (Int.le_of_sub_nonneg (by omega)) hhigh

/-- **Time stamps survive formatting and parsing** exactly where they are not in the second before
1970, UTC, and their whole seconds do not overflow. -/
theorem survives_iff (c : Strftime) (offset timestamp : Int) (hsigned : IsSigned 64 timestamp) :
    (HasYear offset (timestamp / kMillisPerSecond) →
      (parseMs (fixedOffset offset) (formatMs (fixedOffset offset) c timestamp defaultFormat) =
        some timestamp ↔ Returns kMillisPerSecond timestamp)) ∧
    (HasYear offset (timestamp / kMicrosPerSecond) →
      (parseUs (fixedOffset offset) (formatUs (fixedOffset offset) c timestamp defaultFormat) =
        some timestamp ↔ Returns kMicrosPerSecond timestamp)) ∧
    (HasYear offset (timestamp / kNanosPerSecond) →
      (parseNs (fixedOffset offset) (formatNs (fixedOffset offset) c timestamp defaultFormat) =
        some timestamp ↔ Returns kNanosPerSecond timestamp)) :=
  ⟨parse_format_iff c (by decide) rfl (by decide) hsigned,
    parse_format_iff c (by decide) rfl (by decide) hsigned,
    parse_format_iff c (by decide) rfl (by decide) hsigned⟩

/-- A moment of 2023 in the zone eight hours east. -/
theorem survives_iff_2023 :
    parseMs (fixedOffset 28800)
        (formatMs (fixedOffset 28800) ⟨1, fun _ _ => []⟩ 1700000000123 defaultFormat) =
      some 1700000000123 :=
  ((survives_iff ⟨1, fun _ _ => []⟩ 28800 1700000000123 (by decide)).1 (by decide)).2 (by decide)

/-- One second before 1970, UTC. -/
theorem not_survives :
    ¬ ∀ (c : Strftime) (offset timestamp : Int), IsSigned 64 timestamp →
      (HasYear offset (timestamp / kMillisPerSecond) →
        parseMs (fixedOffset offset) (formatMs (fixedOffset offset) c timestamp defaultFormat) =
          some timestamp) ∧
      (HasYear offset (timestamp / kMicrosPerSecond) →
        parseUs (fixedOffset offset) (formatUs (fixedOffset offset) c timestamp defaultFormat) =
          some timestamp) ∧
      (HasYear offset (timestamp / kNanosPerSecond) →
        parseNs (fixedOffset offset) (formatNs (fixedOffset offset) c timestamp defaultFormat) =
          some timestamp) := by
  intro h
  have hyear : HasYear 0 (-1000 / kMillisPerSecond) := by decide
  have hback := (h ⟨4, fun _ _ => []⟩ 0 (-1000) (by decide)).1 hyear
  have hlost := parseWithFraction_formatWithFraction ⟨4, fun _ _ => []⟩ (by decide : 0 < 3)
    (by decide) hyear
  cases hback.symm.trans hlost

end MyTools.DateTimeTools
