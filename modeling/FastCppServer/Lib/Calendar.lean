import Mathlib.Algebra.GroupWithZero.Nat
import Mathlib.Data.List.GetD
import Mathlib.Order.Lattice

/-!
# The proleptic Gregorian calendar

Days are counted from January 1, 1970. A year begins on `yearStart`, with the leap years before it;
a day lies in one year (`yearStart_yearOf`) and in one of its months (`locate`). A `Date` carries
the bounds of its fields, and is the day that it was made of (`toDays_ofDays`).
-/

namespace Calendar

/-! ## Years -/

/-- The leap years of the Gregorian calendar. -/
def IsLeap (year : Int) : Prop := year % 4 = 0 ∧ year % 100 ≠ 0 ∨ year % 400 = 0

instance (year : Int) : Decidable (IsLeap year) :=
  inferInstanceAs (Decidable (_ ∧ _ ∨ _))

/-- The number of days of a year. -/
def daysInYear (year : Int) : Nat := if IsLeap year then 366 else 365

/-- The day on which the year begins: 365 days a year, and the leap days before it. -/
def yearStart (year : Int) : Int :=
  365 * (year - 1970) + ((year - 1) / 4 - 492) - ((year - 1) / 100 - 19) + ((year - 1) / 400 - 4)

/-- A year begins where the one before it ends. -/
theorem yearStart_succ (year : Int) : yearStart (year + 1) = yearStart year + daysInYear year := by
  rw [daysInYear, yearStart, yearStart, Int.add_sub_cancel]
  split
  · next h =>
    rw [IsLeap] at h
    omega
  · next h =>
    rw [IsLeap] at h
    omega

/-- The year of a day. The quotient by the mean length of a year is off by one at most. -/
def yearOf (day : Int) : Int :=
  let year := 1970 + 400 * day / 146097
  if day < yearStart year then year - 1
  else if yearStart (year + 1) ≤ day then year + 1
  else year

/-- A day lies in its year. -/
theorem yearStart_yearOf (day : Int) :
    yearStart (yearOf day) ≤ day ∧ day < yearStart (yearOf day + 1) := by
  rw [yearOf]
  split
  · next h =>
    rw [yearStart] at h
    rw [Int.sub_add_cancel, yearStart, yearStart]
    omega
  · next h =>
    split
    · next hnext =>
      rw [yearStart] at hnext
      rw [yearStart, yearStart]
      omega
    · next hnext => exact ⟨Int.not_lt.1 h, Int.not_le.1 hnext⟩

/-! ## Months -/

/-- The block that a place lies in, and its place there. -/
def locate : List Nat → Nat → Nat × Nat
  | [], n => (0, n)
  | l :: ls, n => if n < l then (0, n) else ((locate ls (n - l)).1 + 1, (locate ls (n - l)).2)

/-- What `locate` finds: the part that the place lies in, and the offset within the part. -/
theorem locate_spec {ls : List Nat} {n : Nat} (h : n < ls.sum) :
    (locate ls n).1 < ls.length ∧ (locate ls n).2 < ls.getD (locate ls n).1 0 ∧
      (ls.take (locate ls n).1).sum + (locate ls n).2 = n := by
  induction ls generalizing n with
  | nil => cases h
  | cons l ls ih =>
    rw [List.sum_cons] at h
    rw [locate]
    split
    · next hn => exact ⟨Nat.succ_pos _, hn, Nat.zero_add n⟩
    · next hn =>
      obtain ⟨hblock, hplace, hsum⟩ := ih (n := n - l) (by omega)
      refine ⟨Nat.succ_lt_succ hblock, hplace, ?_⟩
      rw [List.take_succ_cons, List.sum_cons]
      omega

/-- The lengths of the months of a year. -/
def monthLengths (year : Int) : List Nat :=
  [31, if IsLeap year then 29 else 28, 31, 30, 31, 30, 31, 31, 30, 31, 30, 31]

/-- The months make up the year. -/
theorem sum_monthLengths (year : Int) : (monthLengths year).sum = daysInYear year := by
  rw [monthLengths, daysInYear]
  split <;> rfl

/-- No month is longer than 31 days. -/
theorem monthLengths_le {year : Int} {l : Nat} (h : l ∈ monthLengths year) : l ≤ 31 := by
  rw [monthLengths] at h
  split at h <;> revert l <;> decide

/-- The day on which a month begins, the months from `0`. -/
def monthStart (year : Int) (month : Nat) : Int :=
  yearStart year + ((monthLengths year).take month).sum

/-! ## Dates -/

/-- The months from `0`, the days from `1`. -/
structure Date where
  year : Int
  month : Nat
  day : Nat
  month_lt : month < 12
  day_pos : 0 < day
  day_le : day ≤ (monthLengths year).getD month 0

/-- The number of the day of a date. -/
def Date.toDays (date : Date) : Int := monthStart date.year date.month + (date.day - 1)

/-- So no day has a number above 31. -/
theorem Date.day_le_31 (date : Date) : date.day ≤ 31 := by
  have h := date.day_le
  have hlt : date.month < (monthLengths date.year).length := date.month_lt
  rw [List.getD_eq_getElem _ _ hlt] at h
  exact h.trans (monthLengths_le (List.getElem_mem hlt))

/-- The days of the year before the day. -/
def dayOfYear (day : Int) : Nat := (day - yearStart (yearOf day)).toNat

/-- The day of the year lies within its months. -/
theorem dayOfYear_lt (day : Int) : dayOfYear day < (monthLengths (yearOf day)).sum := by
  have h := yearStart_yearOf day
  rw [yearStart_succ] at h
  rw [sum_monthLengths, dayOfYear]
  omega

/-- The date of a day. -/
def ofDays (day : Int) : Date where
  year := yearOf day
  month := (locate (monthLengths (yearOf day)) (dayOfYear day)).1
  day := (locate (monthLengths (yearOf day)) (dayOfYear day)).2 + 1
  month_lt := (locate_spec (dayOfYear_lt day)).1
  day_pos := Nat.succ_pos _
  day_le := (locate_spec (dayOfYear_lt day)).2.1

/-- **A date is the day that it was made of.** -/
theorem toDays_ofDays (day : Int) : (ofDays day).toDays = day := by
  have hplace := (locate_spec (dayOfYear_lt day)).2.2
  have hyear : (dayOfYear day : Int) = day - yearStart (yearOf day) :=
    Int.toNat_of_nonneg (Int.sub_nonneg.2 (yearStart_yearOf day).1)
  rw [Date.toDays, monthStart]
  simp only [ofDays]
  omega

end Calendar
