import Mathlib.Algebra.Group.Nat.Defs
import Mathlib.Data.Nat.ModEq

/-!
# End-around carry

A sum of digits to the base `m` is folded by adding what is above the digit to the digit
(`foldOnce`). Folding keeps the number modulo `m - 1`, and zero only for zero, so the digit that is
left at the end is determined by the number (`Folded.unique`): zero has two representations, and the
other one, `m - 1`, is the one a positive number folds to. A number below `m * m` is folded after
two rounds (`foldOnce_foldOnce_lt`), and adding the complement of its digit makes it fold to all
ones (`Folded.complement`).
-/

namespace Carry

variable {m : Nat}

/-- One round: the part above the digit is added to the digit. -/
def foldOnce (m n : Nat) : Nat := n % m + n / m

/-- The digit `r` that a number is folded to. -/
structure Folded (m n r : Nat) : Prop where
  lt : r < m
  modEq : r ≡ n [MOD m - 1]
  zero : r = 0 ↔ n = 0

theorem foldOnce_of_lt {n : Nat} (h : n < m) : foldOnce m n = n := by
  rw [foldOnce, Nat.mod_eq_of_lt h, Nat.div_eq_of_lt h, Nat.add_zero]

theorem foldOnce_eq_zero {n : Nat} : foldOnce m n = 0 ↔ n = 0 := by
  have hn := Nat.mod_add_div n m
  constructor
  · intro h
    have hmod : n % m = 0 := Nat.eq_zero_of_add_eq_zero_right h
    have hdiv : n / m = 0 := Nat.eq_zero_of_add_eq_zero_left h
    rw [← hn, hmod, hdiv, Nat.mul_zero]
  · rintro rfl
    rw [foldOnce, Nat.zero_mod, Nat.zero_div]

/-- A round takes away a multiple of `m - 1`. -/
theorem foldOnce_add {n : Nat} (hm : 0 < m) : foldOnce m n + (m - 1) * (n / m) = n := by
  have hn := Nat.mod_add_div n m
  have hsplit : m * (n / m) = (m - 1) * (n / m) + n / m := by
    rw [← Nat.succ_mul, Nat.succ_eq_add_one, Nat.sub_add_cancel hm]
  rw [foldOnce]
  omega

theorem foldOnce_modEq {n : Nat} (hm : 0 < m) : foldOnce m n ≡ n [MOD m - 1] := by
  have h := @foldOnce_add m n hm
  calc foldOnce m n ≡ foldOnce m n + (m - 1) * (n / m) [MOD m - 1] := by
        rw [Nat.ModEq, Nat.add_mul_mod_self_left]
    _ = n := h

/-- **Two rounds** fold a number of two digits. -/
theorem foldOnce_foldOnce_lt {n : Nat} (h : n < m * m) : foldOnce m (foldOnce m n) < m := by
  have hm : 0 < m := Nat.pos_of_mul_pos_left (Nat.zero_lt_of_lt h)
  have hmod : n % m < m := Nat.mod_lt n hm
  have hdiv : n / m < m := Nat.div_lt_of_lt_mul h
  by_cases hlt : foldOnce m n < m
  · rwa [foldOnce_of_lt hlt]
  · -- The first round leaves a carry of one, over a digit that is at most `m - 2`.
    have hbounds : m ≤ foldOnce m n ∧ foldOnce m n < m + m - 1 := by
      rw [foldOnce] at hlt ⊢
      omega
    have hcarry : foldOnce m n / m = 1 := by
      rw [Nat.div_eq_iff hm]
      omega
    have hrest := Nat.mod_add_div (foldOnce m n) m
    rw [hcarry, Nat.mul_one] at hrest
    rw [foldOnce, hcarry]
    omega

namespace Folded

theorem of_lt {n : Nat} (h : n < m) : Folded m n n := ⟨h, rfl, Iff.rfl⟩

/-- What is folded before a round is what is folded after it. -/
theorem of_foldOnce {n r : Nat} (h : Folded m (foldOnce m n) r) : Folded m n r where
  lt := h.lt
  modEq := h.modEq.trans (foldOnce_modEq (Nat.zero_lt_of_lt h.lt))
  zero := h.zero.trans foldOnce_eq_zero

/-- **The digit is determined by the number.** -/
theorem unique {n r r' : Nat} (h : Folded m n r) (h' : Folded m n r') : r = r' := by
  have hmod : r ≡ r' [MOD m - 1] := h.modEq.trans h'.modEq.symm
  have hzero : r = 0 ↔ r' = 0 := h.zero.trans h'.zero.symm
  have hlt := h.lt
  have hlt' := h'.lt
  -- The two ends `0` and `m - 1` are the only digits that agree modulo `m - 1`.
  rw [Nat.ModEq] at hmod
  by_cases hr : r < m - 1
  · by_cases hr' : r' < m - 1
    · rwa [Nat.mod_eq_of_lt hr, Nat.mod_eq_of_lt hr'] at hmod
    · have hend : r' = m - 1 := by omega
      rw [Nat.mod_eq_of_lt hr, hend, Nat.mod_self] at hmod
      exact hmod.trans (hzero.1 hmod).symm
  · have hend : r = m - 1 := by omega
    by_cases hr' : r' < m - 1
    · rw [Nat.mod_eq_of_lt hr', hend, Nat.mod_self] at hmod
      exact (hzero.2 hmod.symm).trans hmod
    · omega

/-- **With the complement added** a number folds to all ones. -/
theorem complement {n r : Nat} (hm : 1 < m) (h : Folded m n r) :
    Folded m (n + (m - 1 - r)) (m - 1) := by
  have hlt := h.lt
  have hmod : m - 1 ≡ n + (m - 1 - r) [MOD m - 1] := by
    have hsum : r + (m - 1 - r) = m - 1 := by omega
    have hadd := h.modEq.add_right (m - 1 - r)
    rwa [hsum] at hadd
  have hzero : m - 1 = 0 ↔ n + (m - 1 - r) = 0 := by
    have hr := h.zero
    omega
  exact ⟨by omega, hmod, hzero⟩

end Folded

end Carry
