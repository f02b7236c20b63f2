import FastCppServer.Lib.Crc
import FastCppServer.MyGasDetectorPoll.Books

/-!
# What the CRC of a frame detects

`Crc16Modbus` is the remainder of the bits of a frame in the order of the line, the lowest of each
byte first, for the polynomial `0xA001` (`crc16Modbus_eq_remainder`). Its top bit is set and three
of its bits are, so that errors within 16 bits and odd numbers of errors show
(`crc_detects_errors`).
-/

namespace MyGasDetectorPoll

/-! ## The bits of a frame -/

/-- The bits of a byte on the line. -/
def byteBits (byte : UInt8) : List Bool := (List.range 8).map byte.toBitVec.getLsbD

/-- The bits of a frame on the line. -/
def frameBits (data : List UInt8) : List Bool := data.flatMap byteBits

/-- A frame after an error. -/
def xorFrame (f e : List UInt8) : List UInt8 := List.zipWith (· ^^^ ·) f e

/-- The bits that are set lie within 16 bits of the line. -/
def Within16 (e : List UInt8) : Prop :=
  ∃ k, ∀ i, (frameBits e)[i]? = some true → k ≤ i ∧ i < k + 16

/-- An odd number of bits is set. -/
def OddBits (e : List UInt8) : Prop := (frameBits e).count true % 2 = 1

/-- A body and its CRC, the low byte first. -/
def withCrc (body : List UInt8) : List UInt8 :=
  body ++ [(crc16Modbus body).toUInt8, (crc16Modbus body >>> 8).toUInt8]

/-- A byte has eight bits. -/
@[simp] theorem byteBits_length (byte : UInt8) : (byteBits byte).length = 8 := by
  simp [byteBits]

/-- The bits of a frame are those of its first byte and then the others. -/
theorem frameBits_cons (byte : UInt8) (data : List UInt8) :
    frameBits (byte :: data) = byteBits byte ++ frameBits data := rfl

/-- The bits of two frames, one behind the other. -/
@[simp] theorem frameBits_append (xs ys : List UInt8) :
    frameBits (xs ++ ys) = frameBits xs ++ frameBits ys := List.flatMap_append

/-- A frame has eight bits for each byte. -/
@[simp] theorem frameBits_length (data : List UInt8) :
    (frameBits data).length = 8 * data.length := by
  induction data with
  | nil => rfl
  | cons byte data ih =>
    rw [frameBits_cons, List.length_append, byteBits_length, ih, List.length_cons]
    omega

/-- The bits of a byte after an error. -/
theorem byteBits_xor (a b : UInt8) :
    byteBits (a ^^^ b) = List.zipWith Bool.xor (byteBits a) (byteBits b) := by
  rw [byteBits, byteBits, byteBits, List.zipWith_map, List.zipWith_self]
  simp

/-- The bits of a frame after an error. -/
theorem frameBits_xorFrame {f e : List UInt8} (h : f.length = e.length) :
    frameBits (xorFrame f e) = List.zipWith Bool.xor (frameBits f) (frameBits e) := by
  induction f generalizing e with
  | nil => rfl
  | cons a f ih =>
    cases e with
    | nil => simp at h
    | cons b e =>
      have hrest : frameBits (xorFrame f e) = List.zipWith Bool.xor (frameBits f) (frameBits e) :=
        ih (Nat.succ.inj h)
      rw [xorFrame, List.zipWith_cons_cons, frameBits_cons, ← xorFrame, hrest, byteBits_xor,
        frameBits_cons, frameBits_cons, List.zipWith_append (by simp)]

/-- A byte that is not zero has a bit on the line. -/
theorem true_mem_frameBits {e : List UInt8} (h : ∃ byte ∈ e, byte ≠ 0) : true ∈ frameBits e := by
  obtain ⟨byte, hmem, hne⟩ := h
  refine List.mem_flatMap.2 ⟨byte, hmem, ?_⟩
  by_contra hnone
  refine hne (UInt8.toBitVec_inj.1 (BitVec.eq_of_getLsbD_eq fun i hi => ?_))
  cases hbit : byte.toBitVec.getLsbD i with
  | false => simp
  | true => exact absurd (List.mem_map.2 ⟨i, List.mem_range.2 hi, hbit⟩) hnone

/-! ## The remainder -/

/-- The polynomial, reflected. -/
def polynomial : BitVec 16 := 0xA001#16

/-- The polynomial has its highest bit. -/
theorem polynomial_msb : polynomial.msb = true := by decide

/-- Without its leading term the polynomial has an odd number of terms. -/
theorem polynomial_parity : Crc.parity polynomial = true := by decide

/-- The loop tests the lowest bit. -/
theorem and_one_ne_zero (crc : UInt16) : crc &&& 1 ≠ 0 ↔ crc.toBitVec.getLsbD 0 = true := by
  have hand : (crc &&& 1).toBitVec = (BitVec.ofBool (crc.toBitVec.getLsbD 0)).setWidth 16 := by
    rw [UInt16.toBitVec_and]
    exact BitVec.and_one_eq_setWidth_ofBool_getLsbD
  rw [Ne, ← UInt16.toBitVec_inj, hand]
  cases crc.toBitVec.getLsbD 0 <;> decide

/-- The shifts of a byte are those of the division. -/
theorem toBitVec_crcShifts (n : Nat) (crc : UInt16) :
    (crcShifts n crc).toBitVec = Crc.shifts polynomial n crc.toBitVec := by
  induction n generalizing crc with
  | zero => rfl
  | succ n ih =>
    have hshift : (if crc &&& 1 ≠ 0 then (crc >>> 1) ^^^ 0xA001 else crc >>> 1).toBitVec =
        Crc.shift polynomial crc.toBitVec := by
      rw [Crc.shift]
      by_cases hbit : crc &&& 1 ≠ 0
      · rw [if_pos hbit, if_pos ((and_one_ne_zero crc).1 hbit)]
        rfl
      · rw [if_neg hbit, if_neg (mt (and_one_ne_zero crc).2 hbit)]
        rfl
    rw [crcShifts, ih, hshift, Crc.shifts]

/-- A byte is the word of its bits. -/
theorem ofBits_byteBits (byte : UInt8) :
    (Crc.ofBits (byteBits byte) : BitVec 16) = byte.toUInt16.toBitVec := by
  apply BitVec.eq_of_getLsbD_eq
  intro i hi
  rw [Crc.getLsbD_ofBits, UInt8.toBitVec_toUInt16, BitVec.getLsbD_setWidth, byteBits,
    List.getD_eq_getElem?_getD, List.getElem?_map]
  by_cases hbyte : i < 8
  · simp [hbyte, hi]
  · rw [List.getElem?_eq_none (by simp; omega), BitVec.getLsbD_of_ge _ _ (by omega)]
    simp

/-- **The loop over the bytes** takes in the bits of the line one by one. -/
theorem toBitVec_foldl (data : List UInt8) (crc : UInt16) :
    (data.foldl (fun crc byte => crcShifts 8 (crc ^^^ byte.toUInt16)) crc).toBitVec =
      Crc.remainder polynomial crc.toBitVec (frameBits data) := by
  induction data generalizing crc with
  | nil => rfl
  | cons byte data ih =>
    have hbyte : (crcShifts 8 (crc ^^^ byte.toUInt16)).toBitVec =
        Crc.remainder polynomial crc.toBitVec (byteBits byte) := by
      rw [toBitVec_crcShifts, UInt16.toBitVec_xor, ← ofBits_byteBits,
        Crc.remainder_eq_shifts _ (by simp), byteBits_length]
    rw [List.foldl_cons, ih, hbyte, frameBits_cons, Crc.remainder_append]

/-- **`Crc16Modbus` is a remainder** of the bits of the frame. -/
theorem crc16Modbus_eq_remainder (data : List UInt8) :
    (crc16Modbus data).toBitVec = Crc.remainder polynomial 0xFFFF#16 (frameBits data) :=
  toBitVec_foldl data 0xFFFF

/-! ## The check at the end of a frame -/

/-- The CRC of a frame is in its last two bytes. -/
theorem crcAtEnd_append (body : List UInt8) (low high : UInt8) :
    crcAtEnd (body ++ [low, high]) = low.toUInt16 ||| (high.toUInt16 <<< 8) := by
  simp [crcAtEnd]

/-- The bits of the word of two bytes. -/
theorem getLsbD_low_or_high (low high : UInt8) (i : Nat) :
    (low.toUInt16 ||| (high.toUInt16 <<< 8)).toBitVec.getLsbD i =
      if i < 8 then low.toBitVec.getLsbD i else high.toBitVec.getLsbD (i - 8) := by
  change (low.toBitVec.setWidth 16 ||| (high.toBitVec.setWidth 16 <<< 8)).getLsbD i = _
  rw [BitVec.getLsbD_or, BitVec.getLsbD_setWidth, BitVec.getLsbD_shiftLeft, BitVec.getLsbD_setWidth]
  by_cases hlow : i < 8
  · have hi : i < 16 := by omega
    simp [hlow, hi]
  · have hover : low.toBitVec.getLsbD i = false := BitVec.getLsbD_of_ge _ _ (by omega)
    by_cases hi : i < 16
    · have hless : i - 8 < 16 := by omega
      simp [hlow, hi, hover, hless]
    · have hhigh : high.toBitVec.getLsbD (i - 8) = false := BitVec.getLsbD_of_ge _ _ (by omega)
      simp [hlow, hi, hover, hhigh]

/-- The two bytes of a word make the word. -/
theorem low_or_high (word : UInt16) :
    word.toUInt8.toUInt16 ||| ((word >>> 8).toUInt8.toUInt16 <<< 8) = word := by
  apply UInt16.toBitVec_inj.1
  apply BitVec.eq_of_getLsbD_eq
  intro i hi
  rw [getLsbD_low_or_high]
  change (if i < 8 then (word.toBitVec.setWidth 8).getLsbD i else
    ((word.toBitVec >>> 8).setWidth 8).getLsbD (i - 8)) = _
  rw [BitVec.getLsbD_setWidth, BitVec.getLsbD_setWidth, BitVec.getLsbD_ushiftRight]
  by_cases hlow : i < 8
  · simp [hlow]
  · have hhigh : 8 + (i - 8) = i := by omega
    have hbyte : i - 8 < 8 := by omega
    rw [hhigh]
    simp [hlow, hbyte]

/-- The low byte of a word of two bytes. -/
theorem toUInt8_low_or_high (low high : UInt8) :
    (low.toUInt16 ||| (high.toUInt16 <<< 8)).toUInt8 = low := by
  apply UInt8.toBitVec_inj.1
  apply BitVec.eq_of_getLsbD_eq
  intro i hi
  change ((low.toUInt16 ||| (high.toUInt16 <<< 8)).toBitVec.setWidth 8).getLsbD i = _
  rw [BitVec.getLsbD_setWidth, getLsbD_low_or_high, if_pos hi]
  simp [hi]

/-- The high byte of a word of two bytes. -/
theorem toUInt8_shift_low_or_high (low high : UInt8) :
    ((low.toUInt16 ||| (high.toUInt16 <<< 8)) >>> 8).toUInt8 = high := by
  apply UInt8.toBitVec_inj.1
  apply BitVec.eq_of_getLsbD_eq
  intro i hi
  change (((low.toUInt16 ||| (high.toUInt16 <<< 8)).toBitVec >>> 8).setWidth 8).getLsbD i = _
  rw [BitVec.getLsbD_setWidth, BitVec.getLsbD_ushiftRight, getLsbD_low_or_high,
    if_neg (by omega), Nat.add_sub_cancel_left]
  simp [hi]

/-- The word at the end of a frame. -/
theorem toBitVec_crcAtEnd (body : List UInt8) (low high : UInt8) :
    (crcAtEnd (body ++ [low, high])).toBitVec = Crc.ofBits (frameBits [low, high]) := by
  have hbits : frameBits [low, high] = byteBits low ++ byteBits high := by simp [frameBits]
  rw [crcAtEnd_append, hbits]
  apply BitVec.eq_of_getLsbD_eq
  intro i hi
  rw [getLsbD_low_or_high, Crc.getLsbD_ofBits, List.getD_eq_getElem?_getD, List.getElem?_append,
    byteBits_length]
  by_cases hlow : i < 8
  · simp [hlow, byteBits, hi]
  · have hhigh : i - 8 < 8 := by omega
    simp [hlow, hhigh, byteBits, hi]

/-- A response of two bytes at least has two last bytes. -/
theorem split_end {response : List UInt8} (h : 2 ≤ response.length) :
    ∃ low high, response = response.dropLast.dropLast ++ [low, high] := by
  have hlast : response.drop (response.length - 2) ≠ [] := by
    intro hnil
    have := List.drop_eq_nil_iff.1 hnil
    omega
  have hlen : (response.drop (response.length - 2)).length = 2 := by
    rw [List.length_drop]
    omega
  obtain ⟨low, high, hend⟩ := List.length_eq_two.1 hlen
  refine ⟨low, high, ?_⟩
  rw [← hend, List.dropLast_eq_take, List.dropLast_eq_take, List.take_take, List.length_take]
  conv => lhs; rw [← List.take_append_drop (response.length - 2) response]
  congr 2
  omega

/-- **The check of the parser**: the two bytes at the end are the CRC of the others just if the CRC
of all is zero. -/
theorem crcAtEnd_eq_iff {response : List UInt8} (h : 2 ≤ response.length) :
    crcAtEnd response = crc16Modbus response.dropLast.dropLast ↔ crc16Modbus response = 0 := by
  obtain ⟨low, high, hend⟩ := split_end h
  have hcheck := Crc.remainder_check polynomial_msb
    (crc16Modbus response.dropLast.dropLast).toBitVec (frameBits [low, high]) (by simp)
  rw [crc16Modbus_eq_remainder, ← Crc.remainder_append, ← frameBits_append, ← hend,
    ← crc16Modbus_eq_remainder, ← crc16Modbus_eq_remainder, ← toBitVec_crcAtEnd, ← hend] at hcheck
  rw [← UInt16.toBitVec_inj, eq_comm, ← hcheck, ← UInt16.toBitVec_inj]
  rfl

/-- **The CRC matches** when that of the whole frame is zero. -/
theorem crcOk_iff_crc_eq_zero {response : List UInt8} (h : 5 ≤ response.length) (address : UInt8)
    (n : Nat) : (parseResponse response address n).crcOk = true ↔ crc16Modbus response = 0 := by
  rw [(parseResponse_parsed response address n).crcOk_iff h]
  exact crcAtEnd_eq_iff (by omega)

/-- **A frame with its CRC** has the CRC zero. -/
theorem crc16Modbus_withCrc (body : List UInt8) : crc16Modbus (withCrc body) = 0 := by
  have hdrop : (withCrc body).dropLast.dropLast = body := by
    rw [withCrc, List.dropLast_append_of_ne_nil (by simp)]
    simp
  refine (crcAtEnd_eq_iff (by simp [withCrc])).1 ?_
  rw [hdrop]
  rw [withCrc, crcAtEnd_append, low_or_high]

/-! ## Errors -/

/-- What an error makes of the CRC does not depend on the frame. -/
theorem crc16Modbus_xorFrame {f e : List UInt8} (h : e.length = f.length) :
    (crc16Modbus (xorFrame f e)).toBitVec =
      (crc16Modbus f).toBitVec ^^^ Crc.remainder polynomial 0#16 (frameBits e) := by
  rw [crc16Modbus_eq_remainder, crc16Modbus_eq_remainder, frameBits_xorFrame h.symm,
    ← Crc.remainder_xor _ _ _ (by rw [frameBits_length, frameBits_length, h]), BitVec.xor_zero]

/-- The parity of bits is that of their number. -/
theorem parityOf_eq (bits : List Bool) : Crc.parityOf bits = decide (bits.count true % 2 = 1) := by
  induction bits with
  | nil => rfl
  | cons b bits ih =>
    rw [Crc.parityOf, List.foldr_cons, ← Crc.parityOf, ih]
    cases b with
    | false => simp
    | true =>
      rw [List.count_cons_self, Bool.true_xor, ← decide_not]
      exact decide_eq_decide.2 (by omega)

/-- An error of either kind shows in the remainder. -/
theorem remainder_ne_zero {e : List UInt8}
    (h : (Within16 e ∧ ∃ byte ∈ e, byte ≠ 0) ∨ OddBits e) :
    Crc.remainder polynomial 0#16 (frameBits e) ≠ 0#16 := by
  rcases h with ⟨⟨k, hwithin⟩, hne⟩ | hodd
  · exact Crc.remainder_burst polynomial_msb hwithin (true_mem_frameBits hne)
  · refine Crc.remainder_odd polynomial_parity ?_
    rw [parityOf_eq]
    exact decide_eq_true hodd

/-- **The CRC detects line errors**: a frame with an error within 16 bits of the line, or with an
odd number of wrong bits, is not valid and its CRC is not accepted; and the CRC of an intact frame
is zero, so that a request always verifies. -/
theorem crc_detects_errors :
    (∀ body : List UInt8, crc16Modbus (withCrc body) = 0 ∧
      ∀ e : List UInt8, e.length = (withCrc body).length → 5 ≤ (withCrc body).length →
        (∃ byte ∈ e, byte ≠ 0) → Within16 e ∨ OddBits e → ∀ (address : UInt8) (n : Nat),
          (parseResponse (xorFrame (withCrc body) e) address n).valid = false ∧
          (parseResponse (xorFrame (withCrc body) e) address n).crcOk = false) ∧
    ∀ (address : UInt8) (startRegister count : UInt16),
      crc16Modbus (buildRequest address startRegister count) = 0 ∧
      ∀ (expected : UInt8) (n : Nat),
        (parseResponse (buildRequest address startRegister count) expected n).crcOk = true := by
  refine ⟨fun body => ⟨crc16Modbus_withCrc body, ?_⟩, fun address startRegister count => ?_⟩
  · intro e hlen hsize hne hkind address n
    have hshows : crc16Modbus (xorFrame (withCrc body) e) ≠ 0 := by
      intro hzero
      have hsum := crc16Modbus_xorFrame hlen
      rw [hzero, crc16Modbus_withCrc, UInt16.toBitVec_zero, BitVec.zero_xor] at hsum
      exact remainder_ne_zero (hkind.imp (fun h => ⟨h, hne⟩) id) hsum.symm
    have hsize' : 5 ≤ (xorFrame (withCrc body) e).length := by
      rw [xorFrame, List.length_zipWith, hlen]
      omega
    have hcrc : (parseResponse (xorFrame (withCrc body) e) address n).crcOk = false :=
      Bool.eq_false_iff.2 (mt (crcOk_iff_crc_eq_zero hsize' address n).1 hshows)
    refine ⟨Bool.eq_false_iff.2 fun hvalid => ?_, hcrc⟩
    have hok := (parseResponse_parsed _ address n).crcOk_of_valid hvalid
    rw [hcrc] at hok
    cases hok
  · have hzero : crc16Modbus (buildRequest address startRegister count) = 0 :=
      crc16Modbus_withCrc _
    exact ⟨hzero, fun expected n =>
      (crcOk_iff_crc_eq_zero (by rw [buildRequest_length]; decide) expected n).2 hzero⟩

/-- Two bits that are wrong, one beside the other, are found. -/
theorem crc_detects_errors_two_bits :
    (parseResponse (xorFrame (withCrc [1, 3, 2]) [0, 0, 3, 0, 0]) 1 10).valid = false ∧
      (parseResponse (xorFrame (withCrc [1, 3, 2]) [0, 0, 3, 0, 0]) 1 10).crcOk = false := by
  have hwithin : Within16 [0, 0, 3, 0, 0] := by
    refine ⟨16, fun i hi => ?_⟩
    have hlt : i < 40 := (List.getElem?_eq_some_iff.1 hi).1
    have hall : ∀ i < 40, (frameBits [0, 0, 3, 0, 0])[i]? = some true → 16 ≤ i ∧ i < 16 + 16 := by
      decide
    exact hall i hlt hi
  have hlen : (withCrc [1, 3, 2]).length = 5 := by simp [withCrc]
  exact (crc_detects_errors.1 [1, 3, 2]).2 [0, 0, 3, 0, 0] hlen.symm (Nat.le_of_eq hlen.symm)
    ⟨3, by simp⟩ (.inl hwithin) 1 10

end MyGasDetectorPoll
