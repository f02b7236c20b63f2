import Mathlib.Algebra.Group.Nat.Defs

/-!
# Cyclic redundancy checks

A register of `w` bits takes in a message bit by bit, the low bit first: the bit is added to the low
end, and one shift follows, which adds the polynomial when the bit that falls out is set
(`remainder`). A shift is linear (`shift_xor`), so that what an error pattern does to the register
does not depend on the message (`remainder_xor`). With the top bit of the polynomial set a shift
loses nothing (`shift_eq_zero`), and errors within `w` bits are detected (`remainder_burst`); with
an odd number of bits set it keeps the parity (`parity_shift`), and so is an odd number of errors
(`remainder_odd`).
-/

namespace Crc

variable {w : Nat} (poly : BitVec w)

/-- One shift of the register. -/
def shift (c : BitVec w) : BitVec w :=
  if c.getLsbD 0 then (c >>> 1) ^^^ poly else c >>> 1

/-- So many shifts of the register. -/
def shifts : Nat → BitVec w → BitVec w
  | 0, c => c
  | n + 1, c => shifts n (shift poly c)

/-- A bit as a word. -/
def lowBit (b : Bool) : BitVec w := (BitVec.ofBool b).setWidth w

/-- The register after a bit of the message. -/
def feed (c : BitVec w) (b : Bool) : BitVec w := shift poly (c ^^^ lowBit b)

/-- The register after a message. -/
def remainder (c : BitVec w) (bits : List Bool) : BitVec w := bits.foldl (feed poly) c

/-- The word of these bits, the low one first. -/
def ofBits : List Bool → BitVec w
  | [] => 0#w
  | b :: bits => (ofBits bits <<< 1) ^^^ lowBit b

/-- The parity of the `n` low bits. -/
def parityBelow (c : BitVec w) : Nat → Bool
  | 0 => false
  | n + 1 => c.getLsbD n ^^ parityBelow c n

/-- The parity of a word. -/
def parity (c : BitVec w) : Bool := parityBelow c w

/-- The parity of a message. -/
def parityOf (bits : List Bool) : Bool := bits.foldr Bool.xor false

/-! ## A shift is linear -/

/-- The bits of a bit as a word. -/
theorem getLsbD_lowBit (b : Bool) (i : Nat) :
    (lowBit b : BitVec w).getLsbD i = (decide (i < w) && decide (i = 0) && b) := by
  simp only [lowBit, BitVec.getLsbD_setWidth, BitVec.getLsbD_ofBool]
  cases i with
  | zero => simp
  | succ i => simp

/-- No bit is no word. -/
@[simp] theorem lowBit_false : (lowBit false : BitVec w) = 0#w := by
  simp [lowBit]

/-- Two bits as words. -/
theorem lowBit_xor (a b : Bool) : (lowBit (a ^^ b) : BitVec w) = lowBit a ^^^ lowBit b := by
  cases a <;> cases b <;> simp [lowBit]

/-- **A shift is linear.** -/
theorem shift_xor (a b : BitVec w) : shift poly (a ^^^ b) = shift poly a ^^^ shift poly b := by
  unfold shift
  rw [BitVec.getLsbD_xor, BitVec.ushiftRight_xor_distrib]
  cases a.getLsbD 0 <;> cases b.getLsbD 0
  · simp
  · simp [BitVec.xor_assoc]
  · simp only [Bool.xor_false, if_true, Bool.false_eq_true, if_false]
    ac_rfl
  · simp only [Bool.xor_self, Bool.false_eq_true, if_false, if_true]
    calc a >>> 1 ^^^ b >>> 1 = a >>> 1 ^^^ b >>> 1 ^^^ (poly ^^^ poly) := by simp
      _ = a >>> 1 ^^^ poly ^^^ (b >>> 1 ^^^ poly) := by ac_rfl

/-- Zero is shifted to zero. -/
@[simp] theorem shift_zero : shift poly 0#w = 0#w := by
  simp [shift]

/-- And so it is by many shifts. -/
@[simp] theorem shifts_zero (n : Nat) : shifts poly n 0#w = 0#w := by
  induction n with
  | zero => rfl
  | succ n ih => rw [shifts, shift_zero, ih]

/-- Feeding is linear. -/
theorem feed_xor (a b : BitVec w) (x y : Bool) :
    feed poly (a ^^^ b) (x ^^ y) = feed poly a x ^^^ feed poly b y := by
  rw [feed, feed, feed, ← shift_xor, lowBit_xor]
  congr 1
  ac_rfl

/-- Nothing is fed. -/
@[simp] theorem remainder_nil (c : BitVec w) : remainder poly c [] = c := rfl

/-- The first bit is fed first. -/
@[simp] theorem remainder_cons (c : BitVec w) (b : Bool) (bits : List Bool) :
    remainder poly c (b :: bits) = remainder poly (feed poly c b) bits := rfl

/-- Two messages are fed one after the other. -/
@[simp] theorem remainder_append (c : BitVec w) (xs ys : List Bool) :
    remainder poly c (xs ++ ys) = remainder poly (remainder poly c xs) ys :=
  List.foldl_append

/-- **The register is linear** in what it starts with and the message together. -/
theorem remainder_xor (a b : BitVec w) {xs ys : List Bool} (h : xs.length = ys.length) :
    remainder poly (a ^^^ b) (List.zipWith Bool.xor xs ys) =
      remainder poly a xs ^^^ remainder poly b ys := by
  induction xs generalizing a b ys with
  | nil =>
    have hys : ys = [] := List.length_eq_zero_iff.1 h.symm
    rw [hys]
    rfl
  | cons x xs ih =>
    cases ys with
    | nil => simp at h
    | cons y ys =>
      rw [List.zipWith_cons_cons, remainder_cons, remainder_cons, remainder_cons, feed_xor]
      exact ih _ _ (Nat.succ.inj h)

/-! ## Errors within the width -/

/-- A shift to the left leaves no low bit. -/
theorem getLsbD_shiftLeft_one (c : BitVec w) : (c <<< 1).getLsbD 0 = false := by
  simp

/-- A word with the low bit clear moves down, and nothing is lost where the top bit was clear. -/
theorem shift_shiftLeft_one {c : BitVec w} (h : ∀ i, w ≤ i + 1 → c.getLsbD i = false) :
    shift poly (c <<< 1) = c := by
  rw [shift, getLsbD_shiftLeft_one]
  apply BitVec.eq_of_getLsbD_eq
  intro i hi
  simp only [Bool.false_eq_true, if_false, BitVec.getLsbD_ushiftRight, BitVec.getLsbD_shiftLeft]
  by_cases hlast : 1 + i < w
  · simp [hlast]
  · simp [hlast, h i (by omega)]

/-- The bits of the word are those of the list. -/
theorem getLsbD_ofBits (bits : List Bool) (i : Nat) :
    (ofBits bits : BitVec w).getLsbD i = (decide (i < w) && bits.getD i false) := by
  induction bits generalizing i with
  | nil => simp [ofBits]
  | cons b bits ih =>
    rw [ofBits, BitVec.getLsbD_xor, BitVec.getLsbD_shiftLeft, getLsbD_lowBit]
    cases i with
    | zero => simp
    | succ i =>
      rw [show i + 1 - 1 = i from rfl, ih]
      by_cases hi : i + 1 < w
      · simp [hi, Nat.lt_of_succ_lt hi]
      · simp [hi]

/-- **A short message is added at once**: the register takes in up to `w` bits as one word, and
shifts that many times. -/
theorem remainder_eq_shifts {bits : List Bool} (h : bits.length ≤ w) (c : BitVec w) :
    remainder poly c bits = shifts poly bits.length (c ^^^ ofBits bits) := by
  induction bits generalizing c with
  | nil => simp [ofBits, shifts]
  | cons b bits ih =>
    have hlen : bits.length + 1 ≤ w := h
    have hdown : shift poly (ofBits bits <<< 1) = ofBits bits := by
      refine shift_shiftLeft_one poly fun i hi => ?_
      rw [getLsbD_ofBits, List.getD_eq_getElem?_getD, List.getElem?_eq_none (by omega),
        Option.getD_none, Bool.and_false]
    have hsum : c ^^^ (ofBits bits <<< 1 ^^^ lowBit b) = c ^^^ lowBit b ^^^ ofBits bits <<< 1 := by
      ac_rfl
    rw [remainder_cons, ih (by omega), List.length_cons, shifts, ofBits, hsum, shift_xor, hdown,
      feed]

variable {poly}

/-- **A shift loses nothing** where the top bit of the polynomial is set. -/
theorem shift_eq_zero (hmsb : poly.msb = true) {c : BitVec w} (h : shift poly c = 0#w) :
    c = 0#w := by
  have hlow : c.getLsbD 0 = false := by
    cases hc : c.getLsbD 0 with
    | false => rfl
    | true =>
      have hbit : (shift poly c).getLsbD (w - 1) = false := by simp [h]
      rw [shift, hc, if_pos rfl, BitVec.getLsbD_xor, BitVec.getLsbD_ushiftRight,
        BitVec.getLsbD_of_ge c _ (by omega), Bool.false_xor, ← BitVec.msb_eq_getLsbD_last] at hbit
      rw [hbit] at hmsb
      cases hmsb
  rw [shift, hlow, if_neg (by simp)] at h
  apply BitVec.eq_of_getLsbD_eq
  intro i _
  cases i with
  | zero => simpa using hlow
  | succ i =>
    have hbit : (c >>> 1).getLsbD i = false := by simp [h]
    rw [BitVec.getLsbD_ushiftRight, Nat.add_comm] at hbit
    simpa using hbit

/-- **Only zero is shifted to zero**, where the polynomial has its highest bit. -/
theorem shifts_eq_zero (hmsb : poly.msb = true) {n : Nat} {c : BitVec w}
    (h : shifts poly n c = 0#w) : c = 0#w := by
  induction n generalizing c with
  | zero => exact h
  | succ n ih => exact shift_eq_zero hmsb (ih h)

/-- Only the empty register is empty after zeros. -/
theorem remainder_replicate_eq_zero (hmsb : poly.msb = true) {n : Nat} {c : BitVec w}
    (h : remainder poly c (List.replicate n false) = 0#w) : c = 0#w := by
  induction n generalizing c with
  | zero => exact h
  | succ n ih =>
    rw [List.replicate_succ, remainder_cons] at h
    have hfeed : feed poly c false = 0#w := ih h
    rw [feed, lowBit_false, BitVec.xor_zero] at hfeed
    exact shift_eq_zero hmsb hfeed

/-- Zeros feed nothing. -/
theorem remainder_zeros (n : Nat) : remainder poly 0#w (List.replicate n false) = 0#w := by
  induction n with
  | zero => rfl
  | succ n ih =>
    rw [List.replicate_succ, remainder_cons, feed, lowBit_false, BitVec.xor_zero, shift_zero, ih]

/-- A short message that leaves the empty register empty is all zeros. -/
theorem eq_false_of_remainder_eq_zero (hmsb : poly.msb = true) {bits : List Bool}
    (hlen : bits.length ≤ w) (h : remainder poly 0#w bits = 0#w) : ∀ b ∈ bits, b = false := by
  rw [remainder_eq_shifts poly hlen, BitVec.zero_xor] at h
  have hzero : (ofBits bits : BitVec w) = 0#w := shifts_eq_zero hmsb h
  intro b hb
  obtain ⟨i, hi, rfl⟩ := List.mem_iff_getElem.1 hb
  have hbit := getLsbD_ofBits (w := w) bits i
  rw [hzero, List.getD_eq_getElem?_getD, List.getElem?_eq_getElem hi, Option.getD_some] at hbit
  simpa [Nat.lt_of_lt_of_le hi hlen] using hbit.symm

/-- **A burst is detected**: an error pattern that is not zero and lies within `w` consecutive bits
does not leave the register empty. -/
theorem remainder_burst (hmsb : poly.msb = true) {bits : List Bool} {k : Nat}
    (hwithin : ∀ i, bits[i]? = some true → k ≤ i ∧ i < k + w) (hne : true ∈ bits) :
    remainder poly 0#w bits ≠ 0#w := by
  intro hzero
  have hfront : bits.take k = List.replicate (bits.take k).length false := by
    refine List.eq_replicate_iff.2 ⟨rfl, fun b hb => ?_⟩
    obtain ⟨i, hi, rfl⟩ := List.mem_iff_getElem.1 hb
    have hlt : i < k ∧ i < bits.length := by
      rw [List.length_take] at hi
      omega
    rw [List.getElem_take]
    cases hbit : bits.get ⟨i, hlt.2⟩ with
    | false => exact hbit
    | true =>
      have hset : bits[i]? = some true := by rw [List.getElem?_eq_getElem hlt.2, ← hbit]; rfl
      have hfrom := hwithin i hset
      omega
  have hback : bits.drop (k + w) = List.replicate (bits.drop (k + w)).length false := by
    refine List.eq_replicate_iff.2 ⟨rfl, fun b hb => ?_⟩
    obtain ⟨i, hi, rfl⟩ := List.mem_iff_getElem.1 hb
    have hlt : k + w + i < bits.length := by
      rw [List.length_drop] at hi
      omega
    rw [List.getElem_drop]
    cases hbit : bits.get ⟨k + w + i, hlt⟩ with
    | false => exact hbit
    | true =>
      have hset : bits[k + w + i]? = some true := by rw [List.getElem?_eq_getElem hlt, ← hbit]; rfl
      have hfrom := hwithin (k + w + i) hset
      omega
  have hsplit : bits = bits.take k ++ ((bits.drop k).take w ++ bits.drop (k + w)) := by
    rw [← List.drop_drop, List.take_append_drop, List.take_append_drop]
  rw [hsplit, remainder_append, remainder_append, hfront, hback, remainder_zeros] at hzero
  have hmiddle : ∀ b ∈ (bits.drop k).take w, b = false :=
    eq_false_of_remainder_eq_zero hmsb (List.length_take_le w _)
      (remainder_replicate_eq_zero hmsb hzero)
  rw [hsplit, List.mem_append, List.mem_append, hfront, hback] at hne
  rcases hne with h | h | h
  · exact absurd (List.eq_of_mem_replicate h) (by decide)
  · exact absurd (hmiddle true h) (by decide)
  · exact absurd (List.eq_of_mem_replicate h) (by decide)

/-! ## An odd number of errors -/

/-- The parity of some bits is linear. -/
theorem parityBelow_xor (a b : BitVec w) (n : Nat) :
    parityBelow (a ^^^ b) n = (parityBelow a n ^^ parityBelow b n) := by
  induction n with
  | zero => rfl
  | succ n ih =>
    rw [parityBelow, parityBelow, parityBelow, BitVec.getLsbD_xor, ih]
    simp only [Bool.xor_assoc, Bool.xor_left_comm (b.getLsbD n)]

/-- Parity is linear. -/
theorem parity_xor (a b : BitVec w) : parity (a ^^^ b) = (parity a ^^ parity b) :=
  parityBelow_xor a b w

/-- The parity after a shift to the right. -/
theorem parityBelow_ushiftRight (c : BitVec w) (n : Nat) :
    parityBelow (c >>> 1) n = (parityBelow c (n + 1) ^^ c.getLsbD 0) := by
  induction n with
  | zero => simp [parityBelow]
  | succ n ih =>
    rw [parityBelow, ih, parityBelow, BitVec.getLsbD_ushiftRight, Nat.add_comm 1 n]
    exact (Bool.xor_assoc _ _ _).symm

/-- A word moved down loses the bit that falls out. -/
theorem parity_ushiftRight (c : BitVec w) : parity (c >>> 1) = (parity c ^^ c.getLsbD 0) := by
  rw [parity, parityBelow_ushiftRight, parityBelow, BitVec.getLsbD_of_ge c w (Nat.le_refl w),
    Bool.false_xor, parity]

/-- **A shift keeps the parity** where the polynomial has an odd number of bits set. -/
theorem parity_shift (hodd : parity poly = true) (c : BitVec w) :
    parity (shift poly c) = parity c := by
  rw [shift]
  cases hc : c.getLsbD 0 with
  | false => simp [parity_ushiftRight, hc]
  | true => simp [parity_xor, parity_ushiftRight, hc, hodd]

/-- Zero has an even parity. -/
@[simp] theorem parity_zero : parity 0#w = false := by
  have h := parity_xor 0#w 0#w
  rw [BitVec.xor_self, Bool.xor_self] at h
  exact h

/-- The parity of a bit is the bit. -/
theorem parity_lowBit (hodd : parity poly = true) (b : Bool) :
    parity (lowBit b : BitVec w) = b := by
  cases b with
  | false => simp
  | true =>
    have hw : 0 < w := by
      cases w with
      | zero => cases hodd
      | succ w => exact Nat.succ_pos w
    have hdown : (lowBit true : BitVec w) >>> 1 = 0#w := by
      apply BitVec.eq_of_getLsbD_eq
      intro i _
      rw [BitVec.getLsbD_ushiftRight, getLsbD_lowBit]
      simp
    have h := parity_ushiftRight (lowBit true : BitVec w)
    rw [hdown, parity_zero, getLsbD_lowBit] at h
    simpa [hw] using h.symm

/-- The parity of the register is that of what it started with and of the message. -/
theorem parity_remainder (hodd : parity poly = true) (c : BitVec w) (bits : List Bool) :
    parity (remainder poly c bits) = (parity c ^^ parityOf bits) := by
  induction bits generalizing c with
  | nil => simp [parityOf]
  | cons b bits ih =>
    rw [remainder_cons, ih, feed, parity_shift hodd, parity_xor, parity_lowBit hodd, Bool.xor_assoc]
    rfl

/-- **An odd number of errors is detected.** -/
theorem remainder_odd (hodd : parity poly = true) {bits : List Bool} (h : parityOf bits = true) :
    remainder poly 0#w bits ≠ 0#w := by
  intro hzero
  have hparity := parity_remainder hodd 0#w bits
  rw [hzero, parity_zero, h] at hparity
  cases hparity

/-! ## The check at the end of a message -/

/-- **A message with its check** leaves the register empty, and only with its check. -/
theorem remainder_check (hmsb : poly.msb = true) (c : BitVec w) (check : List Bool)
    (hlen : check.length = w) : remainder poly c check = 0#w ↔ c = ofBits check := by
  rw [remainder_eq_shifts poly (Nat.le_of_eq hlen)]
  constructor
  · intro h
    exact BitVec.xor_eq_zero_iff.1 (shifts_eq_zero hmsb h)
  · intro h
    rw [h, BitVec.xor_self]
    exact shifts_zero poly _

end Crc
