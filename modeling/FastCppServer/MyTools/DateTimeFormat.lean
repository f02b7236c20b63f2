import FastCppServer.MyTools.MyDateTime

/-!
# The format of a date

`Written` is the format that the parsers document. Such a text is read as its numbers
(`written_reads`) and its fraction is the part of a second that it says, rounded down to the unit
(`parseFraction_written`). The parsers take other texts as well: `sscanf` reads a number with
blanks and a sign before it and with any number of digits, what stands behind a NUL is not seen,
`Parse` does not look at the fraction, and the others look at as many of its characters as they
keep. `meets_iff` says which texts a parser treats as documented, by what it does with the seconds.
-/

namespace MyTools.DateTimeTools

open Scan

/-- So many digits and nothing else. -/
def Digits (width : Nat) (t : Text) : Prop := t.length = width ∧ ∀ c ∈ t, isDigit c = true

/-- `yyyy-MM-dd HH:mm:ss`, and a point with digits behind it or nothing. -/
def Written (datetime : Text) (f : Fields) (frac : Text) : Prop :=
  ∃ year month day hour minute second tail,
    datetime = stamp year month day hour minute second ++ tail ∧
    Digits 4 year ∧ Digits 2 month ∧ Digits 2 day ∧ Digits 2 hour ∧ Digits 2 minute ∧
    Digits 2 second ∧
    f = ⟨value year, value month, value day, value hour, value minute, value second⟩ ∧
    (tail = [] ∧ frac = [] ∨
      frac ≠ [] ∧ (∀ c ∈ frac, isDigit c = true) ∧ tail = '.'.toUInt8 :: frac)

/-- The number of units of an instant and of a fraction of a second, rounded down. -/
def exactUnits (unit seconds : Int) (frac : Text) : Int :=
  seconds * unit + value frac * unit / 10 ^ frac.length

/-- The failure value stands for a number that is no `int64_t`. -/
def orFailure (n : Int) : Int := if IsSigned 64 n then n else -1

/-- The parser treats the text as documented. The instant of a local time is the one that `mktime`
gives, one of two where the clock was set back. -/
structure Meets (zone : Zone) (parser : Text → Option Int) (unit : Int) (datetime : Text) :
    Prop where
  no_overflow : parser datetime ≠ none
  sound : ∀ result, parser datetime = some result → result ≠ -1 →
    ∃ f frac, Written datetime f frac ∧ f.Exists zone
  exact : ∀ f frac, Written datetime f frac → f.Exists zone →
    parser datetime = some (orFailure (exactUnits unit (zone.mktime f.tm) frac))

/-! ## What is taken -/

/-- The part before the point, up to a NUL, consists of six numbers with the marks between them.
Each may have blanks and a sign before it, and any number of digits. The hour begins with a blank
or with its sign. -/
def Loose (datetime : Text) (f : Fields) : Prop :=
  ∃ (year month day hour minute second : Text) (y mo d h mi s : Int),
    cString (mainPart datetime) = year ++ '-'.toUInt8 :: (month ++ '-'.toUInt8 ::
      (day ++ (hour ++ ':'.toUInt8 :: (minute ++ ':'.toUInt8 :: second)))) ∧
    Numeral year y ∧ Numeral month mo ∧ Numeral day d ∧ Numeral hour h ∧ Numeral minute mi ∧
    Numeral second s ∧ (∀ c ∈ hour.head?, isDigit c = false) ∧
    f = ⟨storeInt y, storeInt mo, storeInt d, storeInt h, storeInt mi, storeInt s⟩

/-- The fields are read when the scan stores all six of them. -/
theorem reads_eq_some {datetime : Text} {f : Fields} :
    reads datetime = some f ↔ sscanf scanFormat (cString (mainPart datetime)) =
      [f.year, f.month, f.day, f.hour, f.minute, f.second] := by
  rw [reads]
  constructor
  · intro h
    split at h
    · next hscan =>
      cases h
      exact hscan
    · cases h
  · intro h
    rw [h]

/-- A number, and a mark behind it. -/
theorem sscanf_numeral_mark {c : UInt8} (hc : isDigit c = false) {format : List Directive}
    {s : Text} {v w : Int} {vs : List Int} :
    sscanf (.int :: .literal c :: format) s = v :: w :: vs ↔
      ∃ t n rest, s = t ++ c :: rest ∧ Numeral t n ∧ storeInt n = v ∧
        sscanf format rest = w :: vs := by
  rw [sscanf_int_eq_cons]
  constructor
  · rintro ⟨n, rest, hread, hstore, hmark⟩
    obtain ⟨rest, rfl, hscan⟩ := sscanf_literal_eq_cons.1 hmark
    obtain ⟨t, rfl, hnumeral, -⟩ := readInt_eq_some.1 hread
    exact ⟨t, n, rest, rfl, hnumeral, hstore, hscan⟩
  · rintro ⟨t, n, rest, rfl, hnumeral, hstore, hscan⟩
    refine ⟨n, c :: rest, readInt_eq_some.2 ⟨t, rfl, hnumeral, ?_⟩, hstore,
      sscanf_literal_eq_cons.2 ⟨rest, rfl, hscan⟩⟩
    rintro d ⟨⟩
    exact hc

/-- The last number is all of the rest. -/
theorem sscanf_numeral_end {s : Text} {v : Int} :
    sscanf [.int, .char] s = [v] ↔ ∃ n, Numeral s n ∧ storeInt n = v := by
  rw [sscanf_int_eq_cons]
  constructor
  · rintro ⟨n, rest, hread, hstore, hend⟩
    cases sscanf_char_eq_nil.1 hend
    obtain ⟨t, rfl, hnumeral, -⟩ := readInt_eq_some.1 hread
    rw [List.append_nil]
    exact ⟨n, hnumeral, hstore⟩
  · rintro ⟨n, hnumeral, hstore⟩
    refine ⟨n, [], readInt_eq_some.2 ⟨s, (List.append_nil s).symm, hnumeral, ?_⟩, hstore, rfl⟩
    intro c hc
    cases hc

/-- **What `sscanf` takes.** -/
theorem reads_iff_loose {datetime : Text} {f : Fields} :
    reads datetime = some f ↔ Loose datetime f := by
  have hdash : isDigit '-'.toUInt8 = false := rfl
  have hcolon : isDigit ':'.toUInt8 = false := rfl
  obtain ⟨fy, fmo, fd, fh, fmi, fs⟩ := f
  rw [reads_eq_some, scanFormat, sscanf_numeral_mark hdash, Loose]
  constructor
  · rintro ⟨year, y, _, hmain, hyear, rfl, hafter⟩
    obtain ⟨month, mo, _, rfl, hmonth, rfl, hdays⟩ := (sscanf_numeral_mark hdash).1 hafter
    obtain ⟨d, _, hread, rfl, hblank⟩ := sscanf_int_eq_cons.1 hdays
    obtain ⟨day, rfl, hday, hnext⟩ := readInt_eq_some.1 hread
    rw [sscanf_blank_int] at hblank
    obtain ⟨hour, h, _, rfl, hhour, rfl, hlast⟩ := (sscanf_numeral_mark hcolon).1 hblank
    obtain ⟨minute, mi, second, rfl, hminute, rfl, hend⟩ := (sscanf_numeral_mark hcolon).1 hlast
    obtain ⟨s, hsecond, rfl⟩ := sscanf_numeral_end.1 hend
    rw [List.head?_append_of_ne_nil _ hhour.ne_nil] at hnext
    exact ⟨year, month, day, hour, minute, second, y, mo, d, h, mi, s, hmain, hyear, hmonth, hday,
      hhour, hminute, hsecond, hnext, rfl⟩
  · rintro ⟨year, month, day, hour, minute, second, y, mo, d, h, mi, s, hmain, hyear, hmonth, hday,
      hhour, hminute, hsecond, hnext, heq⟩
    cases heq
    refine ⟨year, y, _, hmain, hyear, rfl, (sscanf_numeral_mark hdash).2
      ⟨month, mo, _, rfl, hmonth, rfl, sscanf_int_eq_cons.2 ⟨d, _, readInt_eq_some.2
        ⟨day, rfl, hday, ?_⟩, rfl, ?_⟩⟩⟩
    · rw [List.head?_append_of_ne_nil _ hhour.ne_nil]
      exact hnext
    · rw [sscanf_blank_int]
      exact (sscanf_numeral_mark hcolon).2 ⟨hour, h, _, rfl, hhour, rfl,
        (sscanf_numeral_mark hcolon).2 ⟨minute, mi, second, rfl, hminute, rfl,
          sscanf_numeral_end.2 ⟨s, hsecond, rfl⟩⟩⟩

/-! ## Texts of the format -/

/-- A run of digits is a number to the scanner. -/
theorem Digits.isNumber {width : Nat} {t : Text} (h : Digits (width + 1) t) : IsNumber t :=
  ⟨List.ne_nil_of_length_eq_add_one h.1, h.2⟩

/-- Up to four digits are stored as their value. -/
theorem Digits.storeInt {width : Nat} {t : Text} (h : Digits width t) (hwidth : width ≤ 4) :
    storeInt (value t) = value t := by
  have hlt := value_lt h.2
  have hmax : 10 ^ t.length ≤ 10 ^ 4 := Nat.pow_le_pow_right (by decide) (h.1.trans_le hwidth)
  have hint : value t < 2 ^ 31 := by omega
  exact storeInt_eq (by omega) (by exact_mod_cast hint)

/-- **A text of the format is read as its numbers.** -/
theorem written_reads {datetime : Text} {f : Fields} {frac : Text} (h : Written datetime f frac) :
    reads datetime = some f := by
  obtain ⟨year, month, day, hour, minute, second, tail, rfl, hyear, hmonth, hday, hhour, hminute,
    hsecond, rfl, htail⟩ := h
  have htail : tail = [] ∨ ∃ frac, tail = '.'.toUInt8 :: frac :=
    htail.imp (·.1) fun h => ⟨frac, h.2.2⟩
  rw [reads_stamp hyear.isNumber hmonth.isNumber hday.isNumber hhour.isNumber hminute.isNumber
    hsecond.isNumber htail, hyear.storeInt (by decide), hmonth.storeInt (by decide),
    hday.storeInt (by decide), hhour.storeInt (by decide), hminute.storeInt (by decide),
    hsecond.storeInt (by decide)]

/-- A text is written in one way. -/
theorem written_fields {datetime : Text} {f f' : Fields} {frac : Text}
    (hreads : reads datetime = some f) (h : Written datetime f' frac) : f' = f :=
  Option.some.inj ((written_reads h).symm.trans hreads)

/-- **The fraction of a text of the format**, in units of so many digits. -/
theorem parseFraction_written {datetime : Text} {f : Fields} {frac : Text} {width : Nat}
    (hw : 0 < width) (h : Written datetime f frac) :
    parseFraction datetime (find '.'.toUInt8 datetime) width =
      some ((value frac * 10 ^ width / 10 ^ frac.length : Nat) : Int) := by
  obtain ⟨year, month, day, hour, minute, second, tail, rfl, hyear, hmonth, hday, hhour, hminute,
    hsecond, -, htail⟩ := h
  have hdot := notMem_stamp hyear.isNumber hmonth.isNumber hday.isNumber hhour.isNumber
    hminute.isNumber hsecond.isNumber (.inl rfl)
  rcases htail with ⟨rfl, rfl⟩ | ⟨hne, hdigits, rfl⟩
  · have hzero : value [] = 0 := rfl
    rw [List.append_nil, find_eq_none.2 hdot, hzero, Nat.zero_mul, Nat.zero_div]
    rfl
  · rw [find_append hdot]
    refine parseFraction_digits hw ?_ hne hdigits
    rw [List.drop_append, List.drop_eq_nil_of_le (Nat.le_succ _), Nat.add_sub_cancel_left]
    rfl

/-! ## Which texts are treated as documented -/

/-- A parser by what it does with the seconds: `none` is an overflow, `-1` a failure. -/
def finishWith (zone : Zone) (datetime : Text) (finish : Int → Option Int) : Option Int :=
  match parseDateTimeToSeconds zone datetime with
  | none => none
  | some none => some (-1)
  | some (some seconds) => finish seconds

section
variable {zone : Zone} {datetime : Text} {finish : Int → Option Int}

/-- A text that is not read gives -1. -/
theorem finishWith_of_not_reads (h : reads datetime = none) :
    finishWith zone datetime finish = some (-1) := by
  rw [finishWith, parseDateTimeToSeconds_of_not_reads zone h]

/-- So do fields out of range. -/
theorem finishWith_of_not_inRange {f : Fields} (h : reads datetime = some f) (hf : ¬ f.InRange) :
    finishWith zone datetime finish = some (-1) := by
  rw [finishWith, parseDateTimeToSeconds_of_reads zone h, if_neg hf]

/-- A year that does not fit in `tm_year` overflows. -/
theorem finishWith_of_overflow {f : Fields} (h : reads datetime = some f) (hf : f.InRange)
    (hyear : ¬ IsSigned 32 (f.year - 1900)) : finishWith zone datetime finish = none := by
  rw [finishWith, parseDateTimeToSeconds_of_reads zone h, if_pos hf, signed, if_neg hyear]
  rfl

/-- The six numbers, once they are numbers of a `tm`. -/
theorem finishWith_of_reads {f : Fields} (h : reads datetime = some f) (hf : f.InRange)
    (hyear : IsSigned 32 (f.year - 1900)) :
    finishWith zone datetime finish =
      match f.seconds zone with
      | none => some (-1)
      | some seconds => finish seconds := by
  rw [finishWith, parseDateTimeToSeconds_of_reads zone h, if_pos hf, signed, if_pos hyear,
    Option.map_some]
  cases f.seconds zone with
  | none => rfl
  | some seconds => rfl

/-- The instant of an existing time, which is taken for a failure where it is `-1`. -/
theorem finishWith_of_exists {f : Fields} (h : reads datetime = some f)
    (hyear : IsSigned 32 (f.year - 1900)) (hexists : f.Exists zone) :
    finishWith zone datetime finish =
      if zone.mktime f.tm = -1 then some (-1) else finish (zone.mktime f.tm) := by
  rw [finishWith_of_reads h hexists.inRange hyear]
  by_cases hfail : zone.mktime f.tm = -1
  · rw [Fields.seconds, if_pos hfail, if_pos hfail]
  · rw [seconds_eq_some.2 ⟨hexists, rfl, hfail⟩, if_neg hfail]

/-- Without an overflow of the year, a text is rejected or its seconds are finished. -/
theorem finishWith_cases
    (hyear : ∀ f, reads datetime = some f → f.InRange → IsSigned 32 (f.year - 1900)) :
    finishWith zone datetime finish = some (-1) ∨
      ∃ f, reads datetime = some f ∧ f.Exists zone ∧ zone.mktime f.tm ≠ -1 ∧
        finishWith zone datetime finish = finish (zone.mktime f.tm) := by
  cases hreads : reads datetime with
  | none => exact .inl (finishWith_of_not_reads hreads)
  | some f =>
    by_cases hrange : f.InRange
    · rw [finishWith_of_reads hreads hrange (hyear f hreads hrange)]
      cases hseconds : f.seconds zone with
      | none => exact .inl rfl
      | some seconds =>
        obtain ⟨hexists, rfl, hfail⟩ := seconds_eq_some.1 hseconds
        exact .inr ⟨f, rfl, hexists, hfail, rfl⟩
    · exact .inl (finishWith_of_not_inRange hreads hrange)

/-- **When a parser does as documented**, by what it does with the seconds. -/
theorem finishWith_meets_iff {unit : Int} {finish : Text → Int → Option Int} :
    Meets zone (fun datetime => finishWith zone datetime (finish datetime)) unit datetime ↔
      ∀ f, reads datetime = some f → f.InRange → IsSigned 32 (f.year - 1900) ∧
        (f.Exists zone →
          (zone.mktime f.tm ≠ -1 →
            finish datetime (zone.mktime f.tm) ≠ none ∧
            (finish datetime (zone.mktime f.tm) ≠ some (-1) → ∃ frac, Written datetime f frac) ∧
            ∀ frac, Written datetime f frac → finish datetime (zone.mktime f.tm) =
              some (orFailure (exactUnits unit (zone.mktime f.tm) frac))) ∧
          (zone.mktime f.tm = -1 → ∀ frac, Written datetime f frac →
            orFailure (exactUnits unit (-1) frac) = -1)) := by
  constructor
  · intro h f hreads hrange
    have hyear : IsSigned 32 (f.year - 1900) := by
      by_contra hyear
      exact h.no_overflow (finishWith_of_overflow hreads hrange hyear)
    refine ⟨hyear, fun hexists => ?_⟩
    have hresult : finishWith zone datetime (finish datetime) = _ :=
      finishWith_of_exists hreads hyear hexists
    constructor
    · intro hfail
      rw [if_neg hfail] at hresult
      refine ⟨hresult ▸ h.no_overflow, fun hne => ?_, fun frac hwritten => ?_⟩
      · obtain ⟨result, hsome⟩ := Option.ne_none_iff_exists'.1 (hresult ▸ h.no_overflow)
        obtain ⟨f', frac, hwritten, -⟩ := h.sound result (hresult.trans hsome)
          (fun heq => hne (hsome.trans (congrArg some heq)))
        exact ⟨frac, written_fields hreads hwritten ▸ hwritten⟩
      · exact hresult.symm.trans (h.exact f frac hwritten hexists)
    · intro hfail frac hwritten
      rw [if_pos hfail] at hresult
      have hexact := hresult.symm.trans (h.exact f frac hwritten hexists)
      rw [hfail] at hexact
      exact (Option.some.inj hexact).symm
  · intro h
    have hcases : finishWith zone datetime (finish datetime) = some (-1) ∨ _ :=
      finishWith_cases fun f hreads hrange => (h f hreads hrange).1
    refine ⟨?_, fun result hresult hne => ?_, fun f frac hwritten hexists => ?_⟩
    · rcases hcases with hrejected | ⟨f, hreads, hexists, hfail, hfinish⟩
      · exact hrejected ▸ Option.some_ne_none _
      · exact hfinish ▸ (((h f hreads hexists.inRange).2 hexists).1 hfail).1
    · rcases hcases with hrejected | ⟨f, hreads, hexists, hfail, hfinish⟩
      · exact absurd (Option.some.inj (hresult.symm.trans hrejected)) hne
      · have haccepted : finish datetime (zone.mktime f.tm) ≠ some (-1) := fun heq =>
          hne (Option.some.inj (hresult.symm.trans (hfinish.trans heq)))
        obtain ⟨frac, hwritten⟩ :=
          (((h f hreads hexists.inRange).2 hexists).1 hfail).2.1 haccepted
        exact ⟨f, frac, hwritten, hexists⟩
    · have hreads := written_reads hwritten
      obtain ⟨hyear, hfinish⟩ := h f hreads hexists.inRange
      have hresult : finishWith zone datetime (finish datetime) = _ :=
        finishWith_of_exists hreads hyear hexists
      by_cases hfail : zone.mktime f.tm = -1
      · rw [if_pos hfail] at hresult
        rw [hresult, hfail, (hfinish hexists).2 hfail frac hwritten]
      · rw [if_neg hfail] at hresult
        exact hresult.trans (((hfinish hexists).1 hfail).2.2 frac hwritten)

/-- What stands behind the point begins with digits, as far as it is kept. -/
def FractionTaken (width : Nat) (datetime : Text) : Prop :=
  ∀ rest, (find '.'.toUInt8 datetime).map (fun dot_pos => datetime.drop (dot_pos + 1)) = some rest →
    rest ≠ [] ∧ ∀ c ∈ rest.take width, isDigit c = true

/-- When the fraction is accepted. -/
theorem parseFraction_isSome {width : Nat} :
    (parseFraction datetime (find '.'.toUInt8 datetime) width).isSome ↔
      FractionTaken width datetime := by
  rw [FractionTaken]
  cases find '.'.toUInt8 datetime with
  | none => simp [parseFraction]
  | some dot_pos =>
    rw [parseFraction, Option.map_some]
    dsimp only
    constructor
    · rintro h rest ⟨⟩
      split at h
      · cases h
      · next hne =>
        rw [resize_eq] at h
        split at h
        · next hall => exact ⟨hne, List.all_eq_true.1 hall⟩
        · cases h
    · intro h
      obtain ⟨hne, hall⟩ := h _ rfl
      rw [if_neg hne, resize_eq, if_pos (List.all_eq_true.2 hall)]
      rfl

/-- The units of a text of the format. -/
theorem exactUnits_eq {f : Fields} {frac : Text} {width : Nat} {unit fraction : Int}
    (hw : 0 < width)
    (hunit : unit = 10 ^ width) (hwritten : Written datetime f frac)
    (h : parseFraction datetime (find '.'.toUInt8 datetime) width = some fraction) (seconds : Int) :
    exactUnits unit seconds frac = seconds * unit + fraction := by
  rw [parseFraction_written hw hwritten, Option.some.injEq] at h
  rw [exactUnits, ← h, hunit]
  push_cast
  rfl

/-- Only the second `-1` has the unit `-1`. -/
theorem units_ne_failure {seconds unit fraction : Int} (hfail : seconds ≠ -1)
    (hfraction : 0 ≤ fraction ∧ fraction < unit) : seconds * unit + fraction ≠ -1 := by
  intro h
  rcases Int.lt_or_lt_of_ne hfail with hlt | hgt
  · have hle : seconds * unit ≤ -2 * unit := Int.mul_le_mul_of_nonneg_right (by omega) (by omega)
    omega
  · have hge : 0 * unit ≤ seconds * unit := Int.mul_le_mul_of_nonneg_right (by omega) (by omega)
    omega

/-- The seconds as they are. -/
def secondsOnly (_ : Text) (seconds : Int) : Option Int := some seconds

/-- The seconds, multiplied and with the fraction. -/
def withFraction (unit : Int) (width : Nat) (datetime : Text) (seconds : Int) : Option Int :=
  match parseFraction datetime (find '.'.toUInt8 datetime) width with
  | none => some (-1)
  | some fraction => do
    let units ← signed 64 (seconds * unit)
    signed 64 (units + fraction)

/-- A product and a sum that both must fit. -/
theorem signed_bind_signed {a b : Int} :
    ((signed 64 a).bind fun units => signed 64 (units + b)) =
      if IsSigned 64 a ∧ IsSigned 64 (a + b) then some (a + b) else none := by
  rw [signed]
  by_cases ha : IsSigned 64 a
  · simp only [ha, if_true, Option.bind_some, signed, true_and]
  · simp only [ha, if_false, Option.bind_none, false_and]

/-- When `Parse` does as documented. -/
def SecondsDocumented (zone : Zone) (datetime : Text) : Prop :=
  ∀ f, Loose datetime f → f.InRange → IsSigned 32 (f.year - 1900) ∧
    (f.Exists zone → zone.mktime f.tm ≠ -1 → ∃ frac, Written datetime f frac)

/-- When the parser of a unit does as documented. -/
def UnitsDocumented (zone : Zone) (unit : Int) (width : Nat) (datetime : Text) : Prop :=
  ∀ f, Loose datetime f → f.InRange → IsSigned 32 (f.year - 1900) ∧
    (f.Exists zone →
      (zone.mktime f.tm ≠ -1 → FractionTaken width datetime →
        ∃ frac, Written datetime f frac ∧ IsSigned 64 (zone.mktime f.tm * unit) ∧
          IsSigned 64 (exactUnits unit (zone.mktime f.tm) frac)) ∧
      (zone.mktime f.tm = -1 → ∀ frac, Written datetime f frac →
        exactUnits unit (-1) frac = -1))

/-- The fraction of a documented text consists of digits. -/
theorem Written.digits {f : Fields} {frac : Text} (h : Written datetime f frac) :
    ∀ c ∈ frac, isDigit c = true := by
  obtain ⟨_, _, _, _, _, _, _, -, -, -, -, -, -, -, -, htail⟩ := h
  rcases htail with ⟨-, rfl⟩ | ⟨-, hdigits, -⟩
  · intro c hc
    cases hc
  · exact hdigits

/-- A fraction of a second is no second. -/
theorem exactUnits_one {frac : Text} (h : ∀ c ∈ frac, isDigit c = true) (seconds : Int) :
    exactUnits 1 seconds frac = seconds := by
  have hlt : (value frac : Int) < 10 ^ frac.length := by exact_mod_cast value_lt h
  rw [exactUnits, Int.mul_one, Int.mul_one,
    Int.ediv_eq_zero_of_lt (Int.natCast_nonneg _) hlt, Int.add_zero]

/-- **The parser of seconds** meets its description exactly on these texts. -/
theorem parse_meets_iff :
    Meets zone (parse zone) 1 datetime ↔ SecondsDocumented zone datetime := by
  have hparse : parse zone = fun datetime => finishWith zone datetime (secondsOnly datetime) := rfl
  rw [hparse, finishWith_meets_iff, SecondsDocumented]
  refine forall_congr' fun f => ?_
  rw [reads_iff_loose]
  refine imp_congr_right fun _ => imp_congr_right fun _ => and_congr_right fun _ =>
    imp_congr_right fun _ => ?_
  have hsigned : ∀ frac, Written datetime f frac →
      orFailure (exactUnits 1 (zone.mktime f.tm) frac) = zone.mktime f.tm := by
    intro frac hwritten
    rw [exactUnits_one hwritten.digits, orFailure, if_pos (zone.mktime_signed _)]
  constructor
  · intro h hfail
    exact (h.1 hfail).2.1 (fun heq => hfail (Option.some.inj heq))
  · intro h
    refine ⟨fun hfail => ⟨Option.some_ne_none _, fun _ => h hfail, fun frac hwritten => ?_⟩,
      fun hfail frac hwritten => ?_⟩
    · rw [hsigned frac hwritten, secondsOnly]
    · rw [← hfail, hsigned frac hwritten]

/-- **The parsers of smaller units**, likewise. -/
theorem parseWithFraction_meets_iff {width : Nat} {unit : Int} (hw : 0 < width)
    (hunit : unit = 10 ^ width) (hmax : unit ≤ 2 ^ 63) :
    Meets zone (fun datetime => parseWithFraction zone datetime unit width) unit datetime ↔
      UnitsDocumented zone unit width datetime := by
  have hparse : (fun datetime => parseWithFraction zone datetime unit width) =
    fun datetime => finishWith zone datetime (withFraction unit width datetime) := rfl
  rw [hparse, finishWith_meets_iff, UnitsDocumented]
  refine forall_congr' fun f => ?_
  rw [reads_iff_loose]
  refine imp_congr_right fun _ => imp_congr_right fun _ => and_congr_right fun _ =>
    imp_congr_right fun _ => and_congr (imp_congr_right fun hfail => ?_)
      (imp_congr_right fun _ => forall_congr' fun frac => imp_congr_right fun hwritten => ?_)
  · rw [← parseFraction_isSome, withFraction]
    cases hfraction : parseFraction datetime (find '.'.toUInt8 datetime) width with
    | none =>
      have hnot : ∀ frac, ¬ Written datetime f frac := fun frac hwritten => by
        rw [parseFraction_written hw hwritten] at hfraction
        cases hfraction
      simp [hnot]
    | some fraction =>
      have hexact : ∀ frac, Written datetime f frac → exactUnits unit (zone.mktime f.tm) frac =
          zone.mktime f.tm * unit + fraction := fun frac hwritten =>
        exactUnits_eq hw hunit hwritten hfraction _
      have hne : zone.mktime f.tm * unit + fraction ≠ -1 :=
        units_ne_failure hfail (hunit ▸ parseFraction_range hw hfraction)
      dsimp only
      rw [Option.bind_eq_bind, signed_bind_signed]
      split
      · next hfits =>
        constructor
        · intro h _
          obtain ⟨frac, hwritten⟩ := h.2.1 fun heq => hne (Option.some.inj heq)
          exact ⟨frac, hwritten, hfits.1, hexact frac hwritten ▸ hfits.2⟩
        · intro h
          obtain ⟨frac, hwritten, -⟩ := h rfl
          refine ⟨Option.some_ne_none _, fun _ => ⟨frac, hwritten⟩, fun frac hwritten => ?_⟩
          rw [hexact frac hwritten, orFailure, if_pos hfits.2]
      · next hfits =>
        refine iff_of_false (fun h => h.1 rfl) fun h => ?_
        obtain ⟨frac, hwritten, hunits, hsum⟩ := h rfl
        exact hfits ⟨hunits, hexact frac hwritten ▸ hsum⟩
  · have hfraction := parseFraction_written hw hwritten
    have hrange := parseFraction_range hw hfraction
    rw [← hunit] at hrange
    have hsigned : IsSigned 64 (exactUnits unit (-1) frac) := by
      rw [exactUnits_eq hw hunit hwritten hfraction, IsSigned]
      omega
    rw [orFailure, if_pos hsigned]

end

/-- **Which texts the parsers treat as documented.** The others are texts in the loose shape of
`sscanf` that are taken although they are not of the format, years whose distance from 1900 is no
`int`, numbers of units that are no `int64_t` (which overflow), and the fractions of the second
before 1970, UTC, which is taken for a failure. -/
theorem format_iff (zone : Zone) (datetime : Text) :
    (Meets zone (parse zone) 1 datetime ↔ SecondsDocumented zone datetime) ∧
    (Meets zone (parseMs zone) kMillisPerSecond datetime ↔
      UnitsDocumented zone kMillisPerSecond 3 datetime) ∧
    (Meets zone (parseUs zone) kMicrosPerSecond datetime ↔
      UnitsDocumented zone kMicrosPerSecond 6 datetime) ∧
    (Meets zone (parseNs zone) kNanosPerSecond datetime ↔
      UnitsDocumented zone kNanosPerSecond 9 datetime) :=
  ⟨parse_meets_iff, parseWithFraction_meets_iff (by decide) rfl (by decide),
    parseWithFraction_meets_iff (by decide) rfl (by decide),
    parseWithFraction_meets_iff (by decide) rfl (by decide)⟩

/-- A blank before the year. -/
theorem not_format :
    ¬ ∀ (zone : Zone) (datetime : Text),
      Meets zone (parse zone) 1 datetime ∧ Meets zone (parseMs zone) kMillisPerSecond datetime ∧
        Meets zone (parseUs zone) kMicrosPerSecond datetime ∧
        Meets zone (parseNs zone) kNanosPerSecond datetime := by
  intro h
  have hparse : parse (fixedOffset 0) " 2025-01-02 03:04:05".toUTF8.data.toList =
      some 1735787045 := by decide +kernel
  obtain ⟨f, frac, hwritten, -⟩ := (h (fixedOffset 0) _).1.sound _ hparse (by decide)
  obtain ⟨year, _, _, _, _, _, _, htext, hyear, -⟩ := hwritten
  obtain ⟨c, year, rfl⟩ := List.exists_cons_of_ne_nil hyear.isNumber.1
  have hc := hyear.2 c List.mem_cons_self
  cases List.cons.inj htext |>.1
  cases hc

end MyTools.DateTimeTools
