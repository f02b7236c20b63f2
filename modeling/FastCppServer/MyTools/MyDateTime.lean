import FastCppServer.Lib.Calendar
import FastCppServer.Lib.Scanf

/-!
# Time stamps and their texts

`FormatMs`, `FormatUs` and `FormatNs` write the local time of an instant with a fraction of the
second behind it, and `Parse`, `ParseMs`, `ParseUs` and `ParseNs` read such a text. The clock of the
C library is a `Zone`: what `localtime_r` and `mktime` give, with what is documented of them. A zone
with a constant offset from UTC is the Gregorian calendar (`fixedOffset`).

A parser gives `none` where a signed operation overflows. `parseDateTimeToSeconds_of_exists` and the
lemmas before it say what the parsers do with a text, by the six numbers that `sscanf` reads in it
(`reads`).
-/

namespace MyTools.DateTimeTools

open Scan

/-- A text is its bytes. -/
abbrev Text := List UInt8

/-! ## The C library -/

/-- `std::tm`, without what is derived from the date. -/
structure Tm where
  (tm_year tm_mon tm_mday tm_hour tm_min tm_sec tm_isdst : Int)
deriving DecidableEq

/-- The same date and time of day. -/
def Tm.SameTime (a b : Tm) : Prop :=
  a.tm_year = b.tm_year ∧ a.tm_mon = b.tm_mon ∧ a.tm_mday = b.tm_mday ∧ a.tm_hour = b.tm_hour ∧
    a.tm_min = b.tm_min ∧ a.tm_sec = b.tm_sec

instance (a b : Tm) : Decidable (a.SameTime b) :=
  inferInstanceAs (Decidable (_ ∧ _ ∧ _ ∧ _ ∧ _ ∧ _))

/-- A number of the signed type with so many bits. -/
def IsSigned (bits : Nat) (n : Int) : Prop := -2 ^ (bits - 1) ≤ n ∧ n < 2 ^ (bits - 1)

instance (bits : Nat) (n : Int) : Decidable (IsSigned bits n) :=
  inferInstanceAs (Decidable (_ ∧ _))

/-- The result of a signed operation. `none` is an overflow. -/
def signed (bits : Nat) (n : Int) : Option Int := if IsSigned bits n then some n else none

/-- The ranges that `std::tm` documents. -/
def Tm.Normal (tm : Tm) : Prop :=
  (0 ≤ tm.tm_mon ∧ tm.tm_mon ≤ 11) ∧ (1 ≤ tm.tm_mday ∧ tm.tm_mday ≤ 31) ∧
    (0 ≤ tm.tm_hour ∧ tm.tm_hour ≤ 23) ∧ (0 ≤ tm.tm_min ∧ tm.tm_min ≤ 59) ∧
    (0 ≤ tm.tm_sec ∧ tm.tm_sec ≤ 60)

/-- `localtime_r` and `mktime`. A local time that exists is found by `mktime`, asked with
`tm_isdst = -1`. -/
structure Zone where
  localtime_r : Int → Option Tm
  mktime : Tm → Int
  localtime_normal : ∀ {seconds tm}, localtime_r seconds = some tm → tm.Normal
  mktime_signed : ∀ tm, IsSigned 64 (mktime tm)
  mktime_exists : ∀ {tm tm' seconds}, tm.tm_isdst = -1 → IsSigned 64 seconds →
    localtime_r seconds = some tm' → tm'.SameTime tm →
    ∃ tm', localtime_r (mktime tm) = some tm' ∧ tm'.SameTime tm

/-- `strftime`: the least number of digits of `%Y`, and the conversions that no format here has. -/
structure Strftime where
  yearWidth : Nat
  other : UInt8 → Tm → Text

/-- What a conversion of a format is replaced by. -/
def Strftime.conversion (c : Strftime) (tm : Tm) (spec : UInt8) : Text :=
  if spec = 'Y'.toUInt8 then
    if tm.tm_year + 1900 < 0 then 45 :: padded c.yearWidth (tm.tm_year + 1900).natAbs
    else padded c.yearWidth (tm.tm_year + 1900).toNat
  else if spec = 'm'.toUInt8 then padded 2 (tm.tm_mon + 1).toNat
  else if spec = 'd'.toUInt8 then padded 2 tm.tm_mday.toNat
  else if spec = 'H'.toUInt8 then padded 2 tm.tm_hour.toNat
  else if spec = 'M'.toUInt8 then padded 2 tm.tm_min.toNat
  else if spec = 'S'.toUInt8 then padded 2 tm.tm_sec.toNat
  else if spec = '%'.toUInt8 then ['%'.toUInt8]
  else c.other spec tm

/-- `std::put_time`. -/
def Strftime.put_time (c : Strftime) (tm : Tm) : Text → Text
  | [] => []
  | [d] => [d]
  | d :: spec :: format =>
    if d = '%'.toUInt8 then c.conversion tm spec ++ c.put_time tm format
    else d :: c.put_time tm (spec :: format)

/-! ## Writing -/

/-- `"%Y-%m-%d %H:%M:%S"`. -/
def defaultFormat : Text :=
  ['%', 'Y', '-', '%', 'm', '-', '%', 'd', ' ', '%', 'H', ':', '%', 'M', ':', '%', 'S'].map
    Char.toUInt8

/-- The milliseconds of a second. -/
def kMillisPerSecond : Int := 1000

/-- The microseconds of a second. -/
def kMicrosPerSecond : Int := 1000000

/-- The nanoseconds of a second. -/
def kNanosPerSecond : Int := 1000000000

/-- `FormatLocal`. Nothing is written where there is no local time. -/
def formatLocal (zone : Zone) (c : Strftime) (seconds : Int) (format : Text) : Text :=
  match zone.localtime_r seconds with
  | none => []
  | some tm_value => c.put_time tm_value format

/-- Seconds and fraction. The division rounds to zero. -/
def splitTimestamp (timestamp unit_per_second : Int) : Int × Int :=
  let sec := timestamp.tdiv unit_per_second
  let frac := timestamp.tmod unit_per_second
  if frac < 0 then (sec - 1, frac + unit_per_second) else (sec, frac)

/-- The fraction, with zeros in front up to its width. -/
def formatFraction (value : Int) (width : Nat) : Text :=
  List.replicate (width - (showInt value).length) 48 ++ showInt value

/-- `FormatWithFraction`. -/
def formatWithFraction (zone : Zone) (c : Strftime) (timestamp unit_per_second : Int) (width : Nat)
    (format : Text) : Text :=
  let (seconds, fraction) := splitTimestamp timestamp unit_per_second
  let base := formatLocal zone c seconds format
  if base = [] then [] else base ++ '.'.toUInt8 :: formatFraction fraction width

section
variable (zone : Zone) (c : Strftime) (timestamp : Int) (format : Text)

/-- `FormatMs`. -/
def formatMs : Text := formatWithFraction zone c timestamp kMillisPerSecond 3 format

/-- `FormatUs`. -/
def formatUs : Text := formatWithFraction zone c timestamp kMicrosPerSecond 6 format

/-- `FormatNs`. -/
def formatNs : Text := formatWithFraction zone c timestamp kNanosPerSecond 9 format

end

/-! ## Reading -/

/-- `text.c_str()`. -/
def cString (s : Text) : Text := s.takeWhile (· ≠ 0)

/-- `"%d-%d-%d %d:%d:%d%c"`. -/
def scanFormat : List Directive :=
  [.int, .literal '-'.toUInt8, .int, .literal '-'.toUInt8, .int, .blank, .int,
    .literal ':'.toUInt8, .int, .literal ':'.toUInt8, .int, .char]

/-- `datetime.substr(0, dot_pos)`, up to the end where there is no point. -/
def mainPart (datetime : Text) : Text :=
  match find '.'.toUInt8 datetime with
  | some dot_pos => datetime.take dot_pos
  | none => datetime

/-- `ParseFraction`: digits behind the point, cut or filled up to the width. -/
def parseFraction (text : Text) (dot_pos : Option Nat) (target_width : Nat) : Option Int :=
  match dot_pos with
  | none => some 0
  | some dot_pos =>
    let digits := text.drop (dot_pos + 1)
    if digits = [] then none
    else
      let digits := if target_width < digits.length then digits.take target_width else digits
      if digits.all isDigit then
        (strtol (digits ++ List.replicate (target_width - digits.length) 48)).getD 0
      else none

/-- `none` where `year - 1900` overflows, `some none` for `false`. -/
def parseDateTimeToSeconds (zone : Zone) (datetime : Text) : Option (Option Int) :=
  match sscanf scanFormat (cString (mainPart datetime)) with
  | [year, month, day, hour, minute, second] =>
    if month < 1 ∨ 12 < month ∨ day < 1 ∨ 31 < day ∨ hour < 0 ∨ 23 < hour ∨ minute < 0 ∨
        59 < minute ∨ second < 0 ∨ 60 < second then some none
    else do
      let tm_year ← signed 32 (year - 1900)
      let tm_value : Tm :=
        { tm_year, tm_mon := month - 1, tm_mday := day, tm_hour := hour, tm_min := minute,
          tm_sec := second, tm_isdst := -1 }
      let parsed := zone.mktime tm_value
      if parsed = -1 then return none
      match zone.localtime_r parsed with
      | none => return none
      | some check_tm => if check_tm.SameTime tm_value then return some parsed else return none
  | _ => some none

/-- `ParseWithFraction`. An overflow is `none`. -/
def parseWithFraction (zone : Zone) (datetime : Text) (unit_per_second : Int)
    (fraction_width : Nat) : Option Int :=
  match parseDateTimeToSeconds zone datetime with
  | none => none
  | some none => some (-1)
  | some (some seconds) =>
    match parseFraction datetime (find '.'.toUInt8 datetime) fraction_width with
    | none => some (-1)
    | some fraction => do
      let units ← signed 64 (seconds * unit_per_second)
      signed 64 (units + fraction)

section
variable (zone : Zone) (datetime : Text)

/-- `Parse`, which gives whole seconds. -/
def parse : Option Int :=
  match parseDateTimeToSeconds zone datetime with
  | none => none
  | some none => some (-1)
  | some (some seconds) => some seconds

/-- `ParseMs`. -/
def parseMs : Option Int := parseWithFraction zone datetime kMillisPerSecond 3

/-- `ParseUs`. -/
def parseUs : Option Int := parseWithFraction zone datetime kMicrosPerSecond 6

/-- `ParseNs`. -/
def parseNs : Option Int := parseWithFraction zone datetime kNanosPerSecond 9

end

/-! ## A constant offset -/

/-- The `tm` of a date and of a second of the day. -/
def tmOf (date : Calendar.Date) (second : Int) : Tm where
  tm_year := date.year - 1900
  tm_mon := date.month
  tm_mday := date.day
  tm_hour := second / 3600
  tm_min := second / 60 % 60
  tm_sec := second % 60
  tm_isdst := 0

/-- The local time `offset` seconds ahead of UTC. There is none where `tm_year` is no `int`. -/
def fixedLocaltime (offset seconds : Int) : Option Tm :=
  let tm := tmOf (Calendar.ofDays ((seconds + offset) / 86400)) ((seconds + offset) % 86400)
  if IsSigned 32 tm.tm_year then some tm else none

/-- The seconds of a `tm`, its fields in any range. -/
def fixedMktime (offset : Int) (tm : Tm) : Int :=
  let day := Calendar.monthStart (tm.tm_year + 1900 + tm.tm_mon / 12) (tm.tm_mon % 12).toNat +
    (tm.tm_mday - 1)
  let seconds := day * 86400 + tm.tm_hour * 3600 + tm.tm_min * 60 + tm.tm_sec - offset
  if IsSigned 64 seconds then seconds else -1

/-- A local time is normal. -/
theorem fixedLocaltime_normal {offset seconds : Int} {tm : Tm}
    (h : fixedLocaltime offset seconds = some tm) : tm.Normal := by
  have h := (Option.ite_none_right_eq_some.1 h).2
  cases h
  have hmonth := (Calendar.ofDays ((seconds + offset) / 86400)).month_lt
  have hday := (Calendar.ofDays ((seconds + offset) / 86400)).day_pos
  have hday31 := (Calendar.ofDays ((seconds + offset) / 86400)).day_le_31
  rw [Tm.Normal, tmOf]
  dsimp only
  omega

/-- The instant of a local time is the one that it is the local time of. -/
theorem fixedMktime_of_localtime {offset seconds : Int} {tm tm' : Tm}
    (hseconds : IsSigned 64 seconds) (h : fixedLocaltime offset seconds = some tm)
    (hsame : tm.SameTime tm') : fixedMktime offset tm' = seconds := by
  rw [fixedLocaltime] at h
  have h := (Option.ite_none_right_eq_some.1 h).2
  cases h
  obtain ⟨hyear, hmon, hmday, hhour, hmin, hsec⟩ := hsame
  have hday := Calendar.toDays_ofDays ((seconds + offset) / 86400)
  generalize Calendar.ofDays ((seconds + offset) / 86400) = date at *
  have hmonth : (date.month : Int) < 12 := by exact_mod_cast date.month_lt
  simp only [tmOf] at hyear hmon hmday hhour hmin hsec
  have hstart : Calendar.monthStart (tm'.tm_year + 1900 + tm'.tm_mon / 12) (tm'.tm_mon % 12).toNat =
      Calendar.monthStart date.year date.month := by
    rw [← hyear, ← hmon]
    congr 1 <;> omega
  rw [Calendar.Date.toDays] at hday
  have hsum : (Calendar.monthStart date.year date.month + (tm'.tm_mday - 1)) * 86400 +
      tm'.tm_hour * 3600 + tm'.tm_min * 60 + tm'.tm_sec - offset = seconds := by
    rw [← hmday, hday, ← hhour, ← hmin, ← hsec]
    omega
  rw [fixedMktime, hstart]
  simp only [hsum, if_pos hseconds]

/-- A zone with one offset. -/
def fixedOffset (offset : Int) : Zone where
  localtime_r := fixedLocaltime offset
  mktime := fixedMktime offset
  localtime_normal := fixedLocaltime_normal
  mktime_signed tm := by
    rw [fixedMktime]
    split
    · assumption
    · decide
  mktime_exists _ hseconds hlocal hsame := by
    rw [fixedMktime_of_localtime hseconds hlocal hsame]
    exact ⟨_, hlocal, hsame⟩

/-! ## What is parsed -/

/-- The six numbers. -/
structure Fields where
  (year month day hour minute second : Int)
deriving DecidableEq

/-- What `sscanf` reads in the part before the point, where it is all of that part. -/
def reads (datetime : Text) : Option Fields :=
  match sscanf scanFormat (cString (mainPart datetime)) with
  | [year, month, day, hour, minute, second] => some ⟨year, month, day, hour, minute, second⟩
  | _ => none

/-- The ranges that the parsers check. -/
def Fields.InRange (f : Fields) : Prop :=
  (1 ≤ f.month ∧ f.month ≤ 12) ∧ (1 ≤ f.day ∧ f.day ≤ 31) ∧ (0 ≤ f.hour ∧ f.hour ≤ 23) ∧
    (0 ≤ f.minute ∧ f.minute ≤ 59) ∧ (0 ≤ f.second ∧ f.second ≤ 60)

instance (f : Fields) : Decidable f.InRange :=
  inferInstanceAs (Decidable (_ ∧ _ ∧ _ ∧ _ ∧ _))

/-- What `mktime` is asked for. -/
def Fields.tm (f : Fields) : Tm :=
  ⟨f.year - 1900, f.month - 1, f.day, f.hour, f.minute, f.second, -1⟩

/-- The date and time exist in the zone. -/
def Fields.Exists (zone : Zone) (f : Fields) : Prop :=
  ∃ seconds tm, IsSigned 64 seconds ∧ zone.localtime_r seconds = some tm ∧ tm.SameTime f.tm

/-- What exists is in its ranges. -/
theorem Fields.Exists.inRange {zone : Zone} {f : Fields} (h : f.Exists zone) : f.InRange := by
  obtain ⟨seconds, tm, -, hlocal, -, hmon, hmday, hhour, hmin, hsec⟩ := h
  have hnormal := zone.localtime_normal hlocal
  rw [Tm.Normal, hmon, hmday, hhour, hmin, hsec, Fields.tm] at hnormal
  rw [Fields.InRange]
  dsimp only at hnormal
  omega

/-- The instant of the fields, where it is neither rejected nor taken for a failure. -/
def Fields.seconds (zone : Zone) (f : Fields) : Option Int :=
  if zone.mktime f.tm = -1 then none
  else
    match zone.localtime_r (zone.mktime f.tm) with
    | none => none
    | some check_tm => if check_tm.SameTime f.tm then some (zone.mktime f.tm) else none

/-- **An existing time is accepted**, except for one instant. -/
theorem seconds_eq_some {zone : Zone} {f : Fields} {seconds : Int} :
    f.seconds zone = some seconds ↔
      f.Exists zone ∧ zone.mktime f.tm = seconds ∧ seconds ≠ -1 := by
  rw [Fields.seconds]
  constructor
  · intro h
    split at h
    · cases h
    · next hfail =>
      split at h
      · cases h
      · next tm hlocal =>
        obtain ⟨hsame, hsec⟩ := Option.ite_none_right_eq_some.1 h
        cases hsec
        exact ⟨⟨_, tm, zone.mktime_signed _, hlocal, hsame⟩, rfl, hfail⟩
  · rintro ⟨⟨sec, tm, hsigned, hlocal, hsame⟩, rfl, hfail⟩
    obtain ⟨tm', hlocal', hsame'⟩ := zone.mktime_exists rfl hsigned hlocal hsame
    rw [if_neg hfail, hlocal']
    exact if_pos hsame'

/-- What is parsed where six numbers are read. -/
theorem parseDateTimeToSeconds_of_reads (zone : Zone) {datetime : Text} {f : Fields}
    (h : reads datetime = some f) :
    parseDateTimeToSeconds zone datetime =
      if f.InRange then (signed 32 (f.year - 1900)).map fun _ => f.seconds zone
      else some none := by
  rw [reads] at h
  rw [parseDateTimeToSeconds]
  split at h
  · next year month day hour minute second hscan =>
    cases h
    dsimp only
    split
    · next hout =>
      have hrange : ¬ Fields.InRange ⟨year, month, day, hour, minute, second⟩ := by
        dsimp only [Fields.InRange]
        omega
      rw [if_neg hrange]
    · next hin =>
      have hrange : Fields.InRange ⟨year, month, day, hour, minute, second⟩ := by
        dsimp only [Fields.InRange]
        omega
      rw [if_pos hrange, signed]
      split
      · rw [Fields.seconds, Fields.tm]
        dsimp only [Option.bind_eq_bind, Option.bind_some, Option.map_some]
        split
        · rfl
        · split
          · rfl
          · split <;> rfl
      · rfl
  · cases h

/-- Nothing is parsed where they are not. -/
theorem parseDateTimeToSeconds_of_not_reads (zone : Zone) {datetime : Text}
    (h : reads datetime = none) : parseDateTimeToSeconds zone datetime = some none := by
  rw [reads] at h
  rw [parseDateTimeToSeconds]
  split at h
  · cases h
  · rfl

/-! ## Fractions -/

/-- `digits.resize(target_width)` where there are more. -/
theorem resize_eq (width : Nat) (digits : Text) :
    (if width < digits.length then digits.take width else digits) = digits.take width := by
  split
  · rfl
  · next hle => rw [List.take_of_length_le (Nat.not_lt.1 hle)]

/-- Digits behind the point, cut or filled to the width. -/
theorem parseFraction_digits {text frac : Text} {dot_pos width : Nat} (hw : 0 < width)
    (hdrop : text.drop (dot_pos + 1) = frac) (hne : frac ≠ [])
    (hdigits : ∀ c ∈ frac, isDigit c = true) :
    parseFraction text (some dot_pos) width =
      some ((value frac * 10 ^ width / 10 ^ frac.length : Nat) : Int) := by
  have hall : (frac.take width).all isDigit = true :=
    List.all_eq_true.2 fun c hc => hdigits c (List.mem_of_mem_take hc)
  have hfill : width - (frac.take width).length = width - frac.length := by
    rw [List.length_take]
    omega
  have hread := strtol_digits
    (List.append_ne_nil_of_left_ne_nil (fun hnil => hne (by simpa [hw.ne'] using hnil)) _)
    (isDigit_resize (List.all_eq_true.1 hall) (width - frac.length))
  rw [parseFraction]
  dsimp only
  rw [hdrop, if_neg hne, resize_eq, if_pos hall, hfill, hread, value_resize hdigits]
  rfl

/-- A fraction is less than a second. -/
theorem parseFraction_range {text : Text} {dot_pos : Option Nat} {width : Nat} {fraction : Int}
    (hw : 0 < width) (h : parseFraction text dot_pos width = some fraction) :
    0 ≤ fraction ∧ fraction < 10 ^ width := by
  cases dot_pos with
  | none =>
    cases h
    exact ⟨Int.le_refl 0, Int.pow_pos (by decide)⟩
  | some dot_pos =>
    rw [parseFraction] at h
    dsimp only at h
    split at h
    · cases h
    · next hne =>
      rw [resize_eq] at h
      generalize hcut : (text.drop (dot_pos + 1)).take width = digits at h
      have hlen : digits ≠ [] ∧ digits.length ≤ width := by
        rw [← hcut]
        refine ⟨fun hnil => hne ?_, List.length_take_le _ _⟩
        simpa [hw.ne'] using hnil
      obtain ⟨hall, h⟩ := Option.ite_none_right_eq_some.1 h
      have hdigits := isDigit_resize (List.all_eq_true.1 hall) (width - digits.length)
      rw [strtol_digits (List.append_ne_nil_of_left_ne_nil hlen.1 _) hdigits, Option.getD_some,
        Option.some.injEq] at h
      subst h
      have hlt := value_lt hdigits
      rw [List.length_append, List.length_replicate, Nat.add_sub_cancel' hlen.2] at hlt
      exact ⟨Int.natCast_nonneg _, by exact_mod_cast hlt⟩

/-! ## A written time -/

/-- Six texts with the marks between them. -/
def stamp (year month day hour minute second : Text) : Text :=
  year ++ '-'.toUInt8 :: (month ++ '-'.toUInt8 :: (day ++ ' '.toUInt8 ::
    (hour ++ ':'.toUInt8 :: (minute ++ ':'.toUInt8 :: second))))

/-- A number without sign. -/
def IsNumber (t : Text) : Prop := t ≠ [] ∧ ∀ c ∈ t, isDigit c = true

section
variable {year month day hour minute second : Text} (hyear : IsNumber year)
  (hmonth : IsNumber month) (hday : IsNumber day) (hhour : IsNumber hour)
  (hminute : IsNumber minute) (hsecond : IsNumber second)
include hyear hmonth hday hhour hminute hsecond

/-- **The six numbers of a stamp are read.** -/
theorem sscanf_stamp :
    sscanf scanFormat (stamp year month day hour minute second) =
      [storeInt (value year), storeInt (value month), storeInt (value day),
        storeInt (value hour), storeInt (value minute), storeInt (value second)] := by
  have hmark : ∀ (c : UInt8) (l : Text), isDigit c = false →
      ∀ d ∈ (c :: l).head?, isDigit d = false := by
    rintro c l hc d ⟨⟩
    exact hc
  rw [stamp, scanFormat, sscanf_int _ hyear.1 hyear.2 (hmark _ _ rfl), sscanf_literal,
    sscanf_int _ hmonth.1 hmonth.2 (hmark _ _ rfl), sscanf_literal,
    sscanf_int _ hday.1 hday.2 (hmark _ _ rfl), sscanf_blank_int, sscanf_int_space _ _ rfl,
    sscanf_int _ hhour.1 hhour.2 (hmark _ _ rfl), sscanf_literal,
    sscanf_int _ hminute.1 hminute.2 (hmark _ _ rfl), sscanf_literal]
  have hend : ∀ c ∈ ([] : Text).head?, isDigit c = false := by
    intro c hc
    cases hc
  have hlast := sscanf_int [.char] hsecond.1 hsecond.2 hend
  rw [List.append_nil] at hlast
  rw [hlast]
  rfl

/-- There are digits and the three marks in a stamp, and nothing else. -/
theorem mem_stamp {c : UInt8} (h : c ∈ stamp year month day hour minute second) :
    isDigit c = true ∨ c = '-'.toUInt8 ∨ c = ' '.toUInt8 ∨ c = ':'.toUInt8 := by
  simp only [stamp, List.mem_append, List.mem_cons] at h
  rcases h with h | h | h | h | h | h | h | h | h | h | h
  · exact .inl (hyear.2 c h)
  · exact .inr (.inl h)
  · exact .inl (hmonth.2 c h)
  · exact .inr (.inl h)
  · exact .inl (hday.2 c h)
  · exact .inr (.inr (.inl h))
  · exact .inl (hhour.2 c h)
  · exact .inr (.inr (.inr h))
  · exact .inl (hminute.2 c h)
  · exact .inr (.inr (.inr h))
  · exact .inl (hsecond.2 c h)

/-- There is neither a point nor a NUL in a stamp. -/
theorem notMem_stamp {c : UInt8} (hc : c = '.'.toUInt8 ∨ c = 0) :
    c ∉ stamp year month day hour minute second := by
  intro h
  have h := mem_stamp hyear hmonth hday hhour hminute hsecond h
  rcases hc with rfl | rfl <;> revert h <;> decide

/-- **A written time is read**, with a fraction or without. -/
theorem reads_stamp {tail : Text} (htail : tail = [] ∨ ∃ frac, tail = '.'.toUInt8 :: frac) :
    reads (stamp year month day hour minute second ++ tail) =
      some ⟨storeInt (value year), storeInt (value month), storeInt (value day),
        storeInt (value hour), storeInt (value minute), storeInt (value second)⟩ := by
  have hdot := notMem_stamp hyear hmonth hday hhour hminute hsecond (.inl rfl)
  have hnul := notMem_stamp hyear hmonth hday hhour hminute hsecond (.inr rfl)
  have hmain : mainPart (stamp year month day hour minute second ++ tail) =
      stamp year month day hour minute second := by
    rcases htail with rfl | ⟨frac, rfl⟩
    · rw [List.append_nil, mainPart, find_eq_none.2 hdot]
    · rw [mainPart, find_append hdot]
      exact List.take_left' rfl
  have hcut : cString (stamp year month day hour minute second) =
      stamp year month day hour minute second := by
    rw [cString, List.takeWhile_eq_self_iff]
    intro c hc
    rw [decide_eq_true_eq]
    rintro rfl
    exact hnul hc
  rw [reads, hmain, hcut, sscanf_stamp hyear hmonth hday hhour hminute hsecond]

end

end MyTools.DateTimeTools
