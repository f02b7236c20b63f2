import Mathlib.Algebra.Group.Nat.Defs

/-!
# Prefix masks

A mask of ones above the last `k` bits cuts a bit vector into a prefix and the rest (`prefixMask`).
As numbers, the prefix is the vector rounded down to a multiple of `2 ^ k` (`toNat_and_prefixMask`),
and filling the rest with ones takes it to the end of the block (`toNat_or_not_prefixMask`).
-/

namespace Mask

variable {w k : Nat}

/-- All ones, then `k` zeros. -/
def prefixMask (w k : Nat) : BitVec w := BitVec.allOnes w <<< k

/-- The first `p` bits are the same. -/
def SamePrefix (p : Nat) (x y : BitVec w) : Prop := ∀ i < p, x.getMsbD i = y.getMsbD i

theorem getLsbD_prefixMask {i : Nat} (hi : i < w) :
    (prefixMask w k).getLsbD i = decide (k ≤ i) := by
  rw [prefixMask, BitVec.getLsbD_shiftLeft, BitVec.getLsbD_allOnes]
  by_cases hik : i < k
  · simp [hi, hik]
  · simp [hi, hik, Nat.not_lt.1 hik, Nat.lt_of_le_of_lt (Nat.sub_le i k) hi]

theorem and_prefixMask (x : BitVec w) : x &&& prefixMask w k = (x >>> k) <<< k := by
  apply BitVec.eq_of_getLsbD_eq
  intro i hi
  rw [BitVec.getLsbD_and, getLsbD_prefixMask hi, BitVec.getLsbD_shiftLeft,
    BitVec.getLsbD_ushiftRight]
  by_cases hik : i < k
  · simp [hik]
  · simp [hi, hik, Nat.not_lt.1 hik, Nat.add_sub_of_le (Nat.not_lt.1 hik)]

theorem toNat_and_prefixMask (x : BitVec w) :
    (x &&& prefixMask w k).toNat = x.toNat / 2 ^ k * 2 ^ k := by
  rw [and_prefixMask, BitVec.toNat_shiftLeft, BitVec.toNat_ushiftRight, Nat.shiftRight_eq_div_pow,
    Nat.shiftLeft_eq]
  exact Nat.mod_eq_of_lt (Nat.lt_of_le_of_lt (Nat.div_mul_le_self _ _) x.isLt)

theorem toNat_not_prefixMask (h : k ≤ w) : (~~~prefixMask w k).toNat = 2 ^ k - 1 := by
  have hones : ~~~prefixMask w k = (BitVec.allOnes k).setWidth w := by
    apply BitVec.eq_of_getLsbD_eq
    intro i hi
    rw [BitVec.getLsbD_not, getLsbD_prefixMask hi, BitVec.getLsbD_setWidth,
      BitVec.getLsbD_allOnes]
    by_cases hik : i < k
    · simp [hi, hik]
    · simp [hi, hik, Nat.not_lt.1 hik]
  have hlt : 2 ^ k - 1 < 2 ^ w :=
    Nat.lt_of_lt_of_le (Nat.sub_lt (Nat.two_pow_pos k) Nat.one_pos)
      (Nat.pow_le_pow_right (by decide) h)
  rw [hones, BitVec.toNat_setWidth, BitVec.toNat_allOnes, Nat.mod_eq_of_lt hlt]

/-- **The end of the block.** -/
theorem toNat_or_not_prefixMask (h : k ≤ w) (x : BitVec w) :
    (x &&& prefixMask w k ||| ~~~prefixMask w k).toNat =
      x.toNat / 2 ^ k * 2 ^ k + (2 ^ k - 1) := by
  rw [BitVec.toNat_or, toNat_and_prefixMask, toNat_not_prefixMask h, Nat.mul_comm]
  exact (Nat.two_pow_add_eq_or_of_lt (Nat.sub_lt (Nat.two_pow_pos k) Nat.one_pos) _).symm

/-- **A prefix is a block**, read as numbers. -/
theorem samePrefix_iff {x y : BitVec w} :
    SamePrefix (w - k) x y ↔ x.toNat / 2 ^ k = y.toNat / 2 ^ k := by
  have hshift : x.toNat / 2 ^ k = y.toNat / 2 ^ k ↔ x >>> k = y >>> k := by
    rw [← BitVec.toNat_inj, BitVec.toNat_ushiftRight, BitVec.toNat_ushiftRight,
      Nat.shiftRight_eq_div_pow, Nat.shiftRight_eq_div_pow]
  rw [hshift]
  constructor
  · intro h
    apply BitVec.eq_of_getLsbD_eq
    intro i _
    rw [BitVec.getLsbD_ushiftRight, BitVec.getLsbD_ushiftRight]
    by_cases hi : k + i < w
    · have hbit := h (w - 1 - (k + i)) (by omega)
      rwa [BitVec.getMsbD_eq_getLsbD, BitVec.getMsbD_eq_getLsbD,
        show w - 1 - (w - 1 - (k + i)) = k + i by omega, decide_eq_true (by omega),
        Bool.true_and, Bool.true_and] at hbit
    · rw [BitVec.getLsbD_of_ge _ _ (Nat.not_lt.1 hi), BitVec.getLsbD_of_ge _ _ (Nat.not_lt.1 hi)]
  · intro h i hi
    have hbit := congrArg (BitVec.getLsbD · (w - 1 - i - k)) h
    simp only [BitVec.getLsbD_ushiftRight, show k + (w - 1 - i - k) = w - 1 - i by omega] at hbit
    rw [BitVec.getMsbD_eq_getLsbD, BitVec.getMsbD_eq_getLsbD, hbit]

/-- The last `k` bits are all `b`. -/
def Rest (k : Nat) (b : Bool) (x : BitVec w) : Prop := ∀ i < k, x.getLsbD i = b

theorem rest_iff {x : BitVec w} {b : Bool} {y : BitVec k} (hy : ∀ i < k, y.getLsbD i = b) :
    Rest k b x ↔ x.toNat % 2 ^ k = y.toNat := by
  rw [← BitVec.toNat_setWidth, BitVec.toNat_inj]
  constructor
  · intro h
    apply BitVec.eq_of_getLsbD_eq
    intro i hi
    rw [BitVec.getLsbD_setWidth, h i hi, hy i hi, decide_eq_true hi, Bool.true_and]
  · intro h i hi
    rw [← hy i hi, ← h, BitVec.getLsbD_setWidth, decide_eq_true hi, Bool.true_and]

/-- The first of its block. -/
theorem rest_false_iff {x : BitVec w} : Rest k false x ↔ x.toNat % 2 ^ k = 0 :=
  rest_iff (y := 0#k) fun _ _ => BitVec.getLsbD_zero

/-- The last of its block. -/
theorem rest_true_iff {x : BitVec w} : Rest k true x ↔ x.toNat % 2 ^ k = 2 ^ k - 1 := by
  rw [rest_iff (y := BitVec.allOnes k), BitVec.toNat_allOnes]
  intro i hi
  rw [BitVec.getLsbD_allOnes, decide_eq_true hi]

end Mask
