import FastCppServer.Lib.Bytes
import Mathlib.Algebra.Group.Nat.Defs

/-!
# A word as bytes

The byte of a word at a place (`wordByte`) and the low bits of a word (`lowBits`), bit by bit. Bytes
are put together again from the low end by shifting each one to its place (`joinLow_wordByte`), or
from the high end by shifting what is there already (`joinHigh_wordByte`); either gives the low bits
that the bytes cover.
-/

namespace Bytes

/-- The byte at a place, counted from the low end. -/
def wordByte (value : UInt64) (i : Nat) : UInt8 := (value >>> UInt64.ofNat (i * 8)).toUInt8

/-- The word modulo `2 ^ n`. -/
def lowBits (value : UInt64) (n : Nat) : UInt64 := .ofNat (value.toNat % 2 ^ n)

/-- The ones of a byte, `n` less than all of them. -/
def byteMask (n : Nat) : UInt8 := 0xFF >>> UInt8.ofNat n

/-- Words with the same bits are the same word. -/
theorem word_eq_of_getLsbD {a b : UInt64}
    (h : ∀ j < 64, a.toBitVec.getLsbD j = b.toBitVec.getLsbD j) : a = b := by
  apply UInt64.eq_of_toBitVec_eq
  apply BitVec.eq_of_getLsbD_eq
  intro j hj
  exact h j hj

/-- The bits of a word shifted up. -/
theorem getLsbD_shiftLeft {n : Nat} (hn : n < 64) (value : UInt64) (j : Nat) :
    (value <<< UInt64.ofNat n).toBitVec.getLsbD j =
      (decide (j < 64) && !decide (j < n) && value.toBitVec.getLsbD (j - n)) := by
  have hshift : ((UInt64.ofNat n).toBitVec % 64).toNat = n := by
    have h64 : (64 : BitVec 64).toNat = 64 := rfl
    rw [BitVec.toNat_umod, UInt64.toNat_toBitVec, UInt64.toNat_ofNat', h64]
    omega
  rw [UInt64.toBitVec_shiftLeft, BitVec.shiftLeft_eq', hshift, BitVec.getLsbD_shiftLeft]

/-- The bits of a byte of a word. -/
theorem getLsbD_wordByte {i : Nat} (hi : i < 8) (value : UInt64) (j : Nat) :
    (wordByte value i).toBitVec.getLsbD j =
      (decide (j < 8) && value.toBitVec.getLsbD (8 * i + j)) := by
  have hshift : ((UInt64.ofNat (i * 8)).toBitVec % 64).toNat = 8 * i := by
    have h64 : (64 : BitVec 64).toNat = 64 := rfl
    rw [BitVec.toNat_umod, UInt64.toNat_toBitVec, UInt64.toNat_ofNat', h64]
    omega
  rw [wordByte, UInt64.toBitVec_toUInt8, BitVec.getLsbD_setWidth, UInt64.toBitVec_shiftRight,
    BitVec.ushiftRight_eq', hshift, BitVec.getLsbD_ushiftRight]

/-- The bits of a byte made a word. -/
theorem getLsbD_byteWord (b : UInt8) (j : Nat) :
    b.toUInt64.toBitVec.getLsbD j = b.toBitVec.getLsbD j := by
  rw [UInt8.toBitVec_toUInt64, BitVec.getLsbD_setWidth]
  by_cases hj : j < 64
  · rw [decide_eq_true hj, Bool.true_and]
  · rw [decide_eq_false hj, Bool.false_and, BitVec.getLsbD_of_ge _ _ (by omega)]

/-- The low bits of a word. -/
theorem getLsbD_lowBits (value : UInt64) (n j : Nat) :
    (lowBits value n).toBitVec.getLsbD j = (decide (j < n) && value.toBitVec.getLsbD j) := by
  have hle : value.toNat % 2 ^ n < 2 ^ 64 :=
    Nat.lt_of_le_of_lt (Nat.mod_le _ _) value.toNat_lt
  rw [← BitVec.testBit_toNat, ← BitVec.testBit_toNat, UInt64.toNat_toBitVec,
    UInt64.toNat_toBitVec, lowBits, UInt64.toNat_ofNat', Nat.mod_eq_of_lt hle,
    Nat.testBit_mod_two_pow]

/-- The bits of the mask of a part of a byte. -/
theorem getLsbD_byteMask {n : Nat} (hn : n < 8) (j : Nat) :
    (byteMask n).toBitVec.getLsbD j = decide (j < 8 - n) := by
  have hall : ∀ n < 8, ∀ j < 8, (byteMask n).toBitVec.getLsbD j = decide (j < 8 - n) := by decide
  by_cases hj : j < 8
  · exact hall n hn j hj
  · rw [BitVec.getLsbD_of_ge _ _ (by omega), decide_eq_false (by omega)]

/-- All the bits of a word are the word. -/
theorem lowBits_eq_self (value : UInt64) : lowBits value 64 = value := by
  rw [lowBits, Nat.mod_eq_of_lt value.toNat_lt, UInt64.ofNat_toNat]

/-- The mask of the readers. -/
theorem and_lowMask {n : Nat} (hn : n < 64) (value : UInt64) :
    value &&& ((1 <<< UInt64.ofNat n) - 1) = lowBits value n := by
  have hpow : 2 ^ n < 2 ^ 64 := Nat.pow_lt_pow_right Nat.one_lt_two hn
  have hpos : 0 < 2 ^ n := Nat.two_pow_pos n
  have hone : ((1 : UInt64) <<< UInt64.ofNat n).toNat = 2 ^ n := by
    rw [UInt64.toNat_shiftLeft, UInt64.toNat_ofNat']
    have hn64 : n % 2 ^ 64 % 64 = n := by omega
    rw [hn64, UInt64.toNat_one, Nat.one_shiftLeft, Nat.mod_eq_of_lt hpow]
  have hmask : ((1 : UInt64) <<< UInt64.ofNat n - 1).toNat = 2 ^ n - 1 := by
    rw [UInt64.toNat_sub_of_le, hone, UInt64.toNat_one]
    rw [UInt64.le_iff_toNat_le, hone, UInt64.toNat_one]
    exact hpos
  apply UInt64.toNat_inj.1
  rw [UInt64.toNat_and, hmask, Nat.and_two_pow_sub_one_eq_mod, lowBits, UInt64.toNat_ofNat',
    Nat.mod_eq_of_lt (Nat.lt_of_le_of_lt (Nat.mod_le _ _) value.toNat_lt)]

/-! ## The bytes of the low bits -/

/-- A byte below the cut. -/
theorem wordByte_lowBits {i n : Nat} (hi : i < 8) (hn : 8 * i + 8 ≤ n) (value : UInt64) :
    wordByte (lowBits value n) i = wordByte value i := by
  refine eq_of_getLsbD fun j hj => ?_
  have hlt : 8 * i + j < n := by omega
  rw [getLsbD_wordByte hi, getLsbD_wordByte hi, getLsbD_lowBits, decide_eq_true hlt, Bool.true_and]

/-- The byte that is cut. -/
theorem wordByte_lowBits_cut {i n : Nat} (hi : i < 8) (hlow : 8 * i < n) (hhigh : n ≤ 8 * i + 8)
    (value : UInt64) :
    wordByte (lowBits value n) i = wordByte value i &&& byteMask (8 * i + 8 - n) := by
  refine eq_of_getLsbD fun j hj => ?_
  have hbit : decide (8 * i + j < n) = decide (j < 8 - (8 * i + 8 - n)) := by
    apply decide_eq_decide.2
    omega
  rw [UInt8.toBitVec_and, BitVec.getLsbD_and, getLsbD_wordByte hi, getLsbD_wordByte hi,
    getLsbD_lowBits, getLsbD_byteMask (by omega), hbit, Bool.and_comm (decide (j < 8 - _)),
    Bool.and_assoc]

/-- Cutting to more bits changes nothing. -/
theorem lowBits_lowBits {m n : Nat} (h : n ≤ m) (value : UInt64) :
    lowBits (lowBits value n) m = lowBits value n := by
  refine word_eq_of_getLsbD fun j _ => ?_
  rw [getLsbD_lowBits, getLsbD_lowBits]
  by_cases hj : j < n
  · rw [decide_eq_true (Nat.lt_of_lt_of_le hj h), Bool.true_and]
  · rw [decide_eq_false hj, Bool.false_and, Bool.and_false]

/-- One byte of a buffer is changed. -/
theorem modify_middle (front : List UInt8) (b : UInt8) (back : List UInt8) (g : UInt8 → UInt8) :
    (front ++ b :: back).modify front.length g = front ++ g b :: back := by
  induction front with
  | nil => rfl
  | cons c front ih =>
    rw [List.cons_append, List.length_cons, List.modify_succ_cons, ih, List.cons_append]

/-! ## Joining bytes -/

/-- Each byte shifted to its place. -/
def joinLow (b : Nat → UInt8) (is : List Nat) (value : UInt64) : UInt64 :=
  is.foldl (fun value i => value ||| (b i).toUInt64 <<< UInt64.ofNat (8 * i)) value

/-- Each byte behind what is there. -/
def joinHigh (bytes : List UInt8) (value : UInt64) : UInt64 :=
  bytes.foldl (fun value b => value <<< 8 ||| b.toUInt64) value

/-- **From the low end.** -/
theorem joinLow_wordByte (value : UInt64) {n : Nat} (hn : n ≤ 8) :
    joinLow (wordByte value) (List.range n) 0 = lowBits value (8 * n) := by
  induction n with
  | zero => rw [Nat.mul_zero, lowBits, Nat.pow_zero, Nat.mod_one]; rfl
  | succ n ih =>
    have hsplit : joinLow (wordByte value) (List.range (n + 1)) 0 =
        joinLow (wordByte value) (List.range n) 0 |||
          (wordByte value n).toUInt64 <<< UInt64.ofNat (8 * n) := by
      rw [joinLow, List.range_succ, List.foldl_append]
      rfl
    rw [hsplit, ih (by omega)]
    refine word_eq_of_getLsbD fun j hj => ?_
    rw [UInt64.toBitVec_or, BitVec.getLsbD_or, getLsbD_shiftLeft (by omega), getLsbD_byteWord,
      getLsbD_wordByte (by omega), getLsbD_lowBits, getLsbD_lowBits]
    by_cases hlow : j < 8 * n
    · grind
    · have hplace : 8 * n + (j - 8 * n) = j := by omega
      rw [hplace]
      grind

/-- **From the high end**: the bytes below a place, behind a value. -/
theorem getLsbD_joinHigh (value : UInt64) {n : Nat} (hn : n ≤ 8) (acc : UInt64) {j : Nat}
    (hj : j < 64) :
    (joinHigh ((List.range n).reverse.map (wordByte value)) acc).toBitVec.getLsbD j =
      if j < 8 * n then value.toBitVec.getLsbD j else acc.toBitVec.getLsbD (j - 8 * n) := by
  induction n generalizing acc with
  | zero => simp [joinHigh]
  | succ n ih =>
    have hshift : acc <<< 8 = acc <<< UInt64.ofNat 8 := rfl
    rw [joinHigh, List.range_succ, List.reverse_append, List.reverse_singleton,
      List.singleton_append, List.map_cons, List.foldl_cons, ← joinHigh, ih (by omega), hshift,
      UInt64.toBitVec_or, BitVec.getLsbD_or, getLsbD_shiftLeft (by decide), getLsbD_byteWord,
      getLsbD_wordByte (by omega)]
    by_cases hlow : j < 8 * n
    · rw [if_pos hlow, if_pos (by omega)]
    · rw [if_neg hlow]
      by_cases hhere : j < 8 * (n + 1)
      · have hplace : 8 * n + (j - 8 * n) = j := by omega
        rw [if_pos hhere, hplace]
        grind
      · have hrest : j - 8 * n - 8 = j - 8 * (n + 1) := by omega
        rw [if_neg hhere, hrest]
        grind

/-- The bytes of a word, joined from the highest. -/
theorem joinHigh_wordByte (value : UInt64) {n : Nat} (hn : n ≤ 8) :
    joinHigh ((List.range n).reverse.map (wordByte value)) 0 = lowBits value (8 * n) := by
  refine word_eq_of_getLsbD fun j hj => ?_
  rw [getLsbD_joinHigh value hn 0 hj, getLsbD_lowBits]
  split
  · next hlow => rw [decide_eq_true hlow, Bool.true_and]
  · next hhigh =>
    rw [decide_eq_false hhigh, Bool.false_and]
    exact BitVec.getLsbD_zero

end Bytes
