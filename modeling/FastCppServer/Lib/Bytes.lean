import Mathlib.Algebra.Group.Nat.Defs
import Mathlib.Data.List.GetD

/-!
# Bytes of a buffer and of an integer

`byteAt` reads a buffer by index, as the parsers do; `uint16_recombine` and `uint32_recombine` put
an integer together again from its bytes.
-/

namespace Bytes

/-- The byte at an index, `0` past the end. -/
def byteAt (buffer : List UInt8) (i : Nat) : UInt8 := buffer.getD i 0

/-- The first byte. -/
@[simp] theorem byteAt_cons_zero (b : UInt8) (l : List UInt8) : byteAt (b :: l) 0 = b := rfl

/-- The bytes after the first. -/
@[simp] theorem byteAt_cons_succ (b : UInt8) (l : List UInt8) (i : Nat) :
    byteAt (b :: l) (i + 1) = byteAt l i := rfl

/-- A byte of the first part. -/
theorem byteAt_append_left {l : List UInt8} {i : Nat} (h : i < l.length) (x : List UInt8) :
    byteAt (l ++ x) i = byteAt l i := List.getD_append _ _ _ _ h

/-- A byte of the second part. -/
theorem byteAt_append_right {l : List UInt8} {i : Nat} (h : l.length ≤ i) (x : List UInt8) :
    byteAt (l ++ x) i = byteAt x (i - l.length) := List.getD_append_right _ _ _ _ h

/-- Two bytes, taken apart and put together. -/
theorem uint16_recombine (v : UInt16) :
    v.toUInt8.toUInt16 ||| (v >>> 8).toUInt8.toUInt16 <<< 8 = v := by
  apply UInt16.eq_of_toBitVec_eq
  apply BitVec.eq_of_getLsbD_eq
  intro i hi
  simp [-UInt16.toUInt16_toUInt8]
  grind

/-- Four bytes. -/
theorem uint32_recombine (v : UInt32) :
    v.toUInt8.toUInt32 ||| (v >>> 8).toUInt8.toUInt32 <<< 8 |||
      (v >>> 16).toUInt8.toUInt32 <<< 16 ||| (v >>> 24).toUInt8.toUInt32 <<< 24 = v := by
  apply UInt32.eq_of_toBitVec_eq
  apply BitVec.eq_of_getLsbD_eq
  intro i hi
  simp [-UInt32.toUInt32_toUInt8]
  grind

/-- Eight bytes. -/
theorem uint64_recombine (v : UInt64) :
    v.toUInt8.toUInt64 ||| (v >>> 8).toUInt8.toUInt64 <<< 8 |||
      (v >>> 16).toUInt8.toUInt64 <<< 16 ||| (v >>> 24).toUInt8.toUInt64 <<< 24 |||
      (v >>> 32).toUInt8.toUInt64 <<< 32 ||| (v >>> 40).toUInt8.toUInt64 <<< 40 |||
      (v >>> 48).toUInt8.toUInt64 <<< 48 ||| (v >>> 56).toUInt8.toUInt64 <<< 56 = v := by
  apply UInt64.eq_of_toBitVec_eq
  apply BitVec.eq_of_getLsbD_eq
  intro i hi
  simp [-UInt64.toUInt64_toUInt8]
  grind

/-- Bytes with the same bits are the same byte. -/
theorem eq_of_getLsbD {a b : UInt8}
    (h : ∀ i < 8, a.toBitVec.getLsbD i = b.toBitVec.getLsbD i) : a = b := by
  apply UInt8.eq_of_toBitVec_eq
  apply BitVec.eq_of_getLsbD_eq
  intro i hi
  exact h i hi

/-- Any two bytes are those of an integer. -/
theorem exists_uint16 (b₀ b₁ : UInt8) :
    ∃ v : UInt16, v.toUInt8 = b₀ ∧ (v >>> 8).toUInt8 = b₁ := by
  refine ⟨b₀.toUInt16 ||| b₁.toUInt16 <<< 8, ?_, ?_⟩
  all_goals
    refine eq_of_getLsbD fun i hi => ?_
    simp <;> grind

/-- Any four bytes are those of a word. -/
theorem exists_uint32 (b₀ b₁ b₂ b₃ : UInt8) :
    ∃ v : UInt32, v.toUInt8 = b₀ ∧ (v >>> 8).toUInt8 = b₁ ∧ (v >>> 16).toUInt8 = b₂ ∧
      (v >>> 24).toUInt8 = b₃ := by
  refine ⟨b₀.toUInt32 ||| b₁.toUInt32 <<< 8 ||| b₂.toUInt32 <<< 16 ||| b₃.toUInt32 <<< 24, ?_, ?_,
    ?_, ?_⟩
  all_goals
    refine eq_of_getLsbD fun i hi => ?_
    simp <;> grind

/-- A byte of a word by its shift, as division gives it. -/
theorem shift_byte_eq {n k : Nat} {b : UInt8} (hn : n < 2 ^ 64) (hk : k < 64)
    (h : n / 2 ^ k % 256 = b.toNat) : (UInt64.ofNat n >>> UInt64.ofNat k).toUInt8 = b := by
  have hk64 : k % 2 ^ 64 % 64 = k := by omega
  apply UInt8.toNat_inj.1
  rw [UInt64.toNat_toUInt8, UInt64.toNat_shiftRight, UInt64.toNat_ofNat', UInt64.toNat_ofNat',
    Nat.shiftRight_eq_div_pow, Nat.mod_eq_of_lt hn, hk64]
  exact h

/-- Any eight bytes are those of a word. -/
theorem exists_uint64 (b₀ b₁ b₂ b₃ b₄ b₅ b₆ b₇ : UInt8) :
    ∃ v : UInt64, v.toUInt8 = b₀ ∧ (v >>> 8).toUInt8 = b₁ ∧ (v >>> 16).toUInt8 = b₂ ∧
      (v >>> 24).toUInt8 = b₃ ∧ (v >>> 32).toUInt8 = b₄ ∧ (v >>> 40).toUInt8 = b₅ ∧
      (v >>> 48).toUInt8 = b₆ ∧ (v >>> 56).toUInt8 = b₇ := by
  have h₀ := b₀.toNat_lt
  have h₁ := b₁.toNat_lt
  have h₂ := b₂.toNat_lt
  have h₃ := b₃.toNat_lt
  have h₄ := b₄.toNat_lt
  have h₅ := b₅.toNat_lt
  have h₆ := b₆.toNat_lt
  have h₇ := b₇.toNat_lt
  obtain ⟨n, hn⟩ : ∃ n, n = b₀.toNat + 2 ^ 8 * b₁.toNat + 2 ^ 16 * b₂.toNat + 2 ^ 24 * b₃.toNat +
      2 ^ 32 * b₄.toNat + 2 ^ 40 * b₅.toNat + 2 ^ 48 * b₆.toNat + 2 ^ 56 * b₇.toNat := ⟨_, rfl⟩
  have hlt : n < 2 ^ 64 := by omega
  refine ⟨.ofNat n, ?_, ?_, ?_, ?_, ?_, ?_, ?_, ?_⟩
  · apply UInt8.toNat_inj.1
    rw [UInt64.toNat_toUInt8, UInt64.toNat_ofNat', Nat.mod_eq_of_lt hlt]
    omega
  · exact shift_byte_eq (k := 8) hlt (by decide) (by omega)
  · exact shift_byte_eq (k := 16) hlt (by decide) (by omega)
  · exact shift_byte_eq (k := 24) hlt (by decide) (by omega)
  · exact shift_byte_eq (k := 32) hlt (by decide) (by omega)
  · exact shift_byte_eq (k := 40) hlt (by decide) (by omega)
  · exact shift_byte_eq (k := 48) hlt (by decide) (by omega)
  · exact shift_byte_eq (k := 56) hlt (by decide) (by omega)

/-- The mask of a byte changes nothing. -/
theorem and_ff (b : UInt8) : b &&& 0xFF = b := by
  rw [show (0xFF : UInt8) = -1 from rfl, UInt8.and_neg_one]

/-! ## The bytes of a text -/

/-- The bytes of a text. -/
def ofText (s : String) : List UInt8 := s.toUTF8.data.toList

/-- Those of a text within ASCII are its code points. -/
theorem ofText_ofList {l : List Char} (h : ∀ c ∈ l, c.toNat < 128) :
    ofText (String.ofList l) = l.map fun c => UInt8.ofNat c.toNat := by
  have hchar : ∀ c ∈ l, String.utf8EncodeChar c = [UInt8.ofNat c.toNat] := by
    intro c hc
    have hlt : c.toNat < 128 := h c hc
    rw [String.utf8EncodeChar_eq_singleton]
    · rfl
    · rw [Char.utf8Size_eq_one_iff]
      exact Nat.le_of_lt_succ hlt
  rw [ofText, String.toUTF8_eq_toByteArray, String.toByteArray_ofList, List.utf8Encode,
    List.toList_data_toByteArray, List.flatMap_def, List.map_congr_left hchar, ← List.flatMap_def,
    List.map_eq_flatMap]

end Bytes
