import Mathlib.Algebra.Group.Nat.Defs
import Mathlib.Data.Nat.Size

/-!
# Rounding an integer to significant bits

`round p n` is the number of at most `p` significant bits that is nearest to `n`, and of two the one
with the even significand: a conversion of an integer to a floating point format of precision `p`
whose exponents reach that far. It is exact for what has that few bits (`round_eq_self_iff`), and
for nothing else.
-/

namespace Rounding

/-- How many low bits do not fit. -/
def excess (p n : Nat) : Nat := n.size - p

def roundNat (p n : Nat) : Nat :=
  let ulp := 2 ^ excess p n
  let q := n / ulp
  let r := n % ulp
  if ulp < 2 * r ∨ ulp = 2 * r ∧ q % 2 = 1 then (q + 1) * ulp else q * ulp

def round (p : Nat) (n : Int) : Int := if n < 0 then -roundNat p n.natAbs else roundNat p n.natAbs

/-- It has at most `p` significant bits. -/
def Fits (p : Nat) (n : Int) : Prop := 2 ^ excess p n.natAbs ∣ n.natAbs

instance (p : Nat) (n : Int) : Decidable (Fits p n) :=
  inferInstanceAs (Decidable (2 ^ excess p n.natAbs ∣ n.natAbs))

/-- Rounding gives a multiple of the unit. -/
theorem dvd_roundNat (p n : Nat) : 2 ^ excess p n ∣ roundNat p n := by
  unfold roundNat
  dsimp only
  split <;> exact Nat.dvd_mul_left _ _

theorem roundNat_of_dvd {p n : Nat} (h : 2 ^ excess p n ∣ n) : roundNat p n = n := by
  have hpos : 0 < 2 ^ excess p n := Nat.pow_pos (by decide)
  have hmod : n % 2 ^ excess p n = 0 := Nat.mod_eq_zero_of_dvd h
  rw [roundNat, if_neg (by omega), Nat.div_mul_cancel h]

/-- **Rounding is exact** for what fits. -/
theorem round_eq_self_iff {p : Nat} {n : Int} : round p n = n ↔ Fits p n := by
  have hnat : roundNat p n.natAbs = n.natAbs ↔ Fits p n := by
    refine ⟨fun h => ?_, roundNat_of_dvd⟩
    have hdvd := dvd_roundNat p n.natAbs
    rwa [h] at hdvd
  rw [← hnat, round]
  split <;> omega

end Rounding
