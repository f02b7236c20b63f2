import FastCppServer.MyTools.MyLEHelper

/-!
# Big-endian reading and writing

`MyBEHelper.cpp`. Its two checks are those of `MyLEHelper.cpp`, word for word. The bit writer masks
the first of its bytes, the bit reader shifts the value behind which it puts the next byte.
-/

namespace MyBEHelper

open Cursor Bytes
open MyLEHelper (Buf Fault sizeMod validateBitLength byteLength pushByte ensureReadable peek advance
  check maskBits BitLength uint16Bytes uint32Bytes uint64Bytes reads_ensureReadable reads_peek
  reads_advance)

/-! ## Writing -/

/-- `WriteUint8`. -/
def writeUint8 (buf : Buf) (value : UInt8) : Buf := buf ++ [value]

/-- `WriteUint16`: the high byte comes first. -/
def writeUint16 (buf : Buf) (value : UInt16) : Buf :=
  buf ++ [((value >>> 8) &&& 0xFF).toUInt8] ++ [(value &&& 0xFF).toUInt8]

/-- The shift of a signed value, which keeps its sign. -/
def writeInt16 (buf : Buf) (value : Int16) : Buf :=
  buf ++ [((value.toInt32 >>> 8) &&& 0xFF).toUInt32.toUInt8] ++
    [(value.toInt32 &&& 0xFF).toUInt32.toUInt8]

/-- `WriteUint32`. -/
def writeUint32 (buf : Buf) (value : UInt32) : Buf :=
  buf ++ [((value >>> 24) &&& 0xFF).toUInt8] ++ [((value >>> 16) &&& 0xFF).toUInt8] ++
    [((value >>> 8) &&& 0xFF).toUInt8] ++ [(value &&& 0xFF).toUInt8]

/-- `WriteUint64`. -/
def writeUint64 (buf : Buf) (value : UInt64) : Buf :=
  buf ++ [((value >>> 56) &&& 0xFF).toUInt8] ++ [((value >>> 48) &&& 0xFF).toUInt8] ++
    [((value >>> 40) &&& 0xFF).toUInt8] ++ [((value >>> 32) &&& 0xFF).toUInt8] ++
    [((value >>> 24) &&& 0xFF).toUInt8] ++ [((value >>> 16) &&& 0xFF).toUInt8] ++
    [((value >>> 8) &&& 0xFF).toUInt8] ++ [(value &&& 0xFF).toUInt8]

/-- `WriteBits`. -/
def writeBits (buf : Buf) (value : UInt64) (bitLen : Int) : Except Fault Buf := do
  validateBitLength bitLen
  let byteLen := byteLength bitLen
  let startIndex := buf.length
  -- `for (int i = byte_len - 1; i >= 0; --i)`.
  let buf := (List.range byteLen).reverse.foldl (pushByte value) buf
  let extraBits := byteLen * 8 - bitLen
  if extraBits > 0 then
    pure (buf.modify startIndex (· &&& byteMask extraBits.toNat))
  else pure buf

/-! ## Reading -/

/-- `ReadUint8`. -/
def readUint8 : Reader UInt8 Fault UInt8 := do
  ensureReadable 1
  let value ← peek 0
  advance 1
  pure value

/-- `ReadUint16`. -/
def readUint16 : Reader UInt8 Fault UInt16 := do
  ensureReadable 2
  let b0 ← peek 0
  let b1 ← peek 1
  let value := b0.toUInt16 <<< 8 ||| b1.toUInt16
  advance 2
  pure value

/-- `ReadInt16`. -/
def readInt16 : Reader UInt8 Fault Int16 := do
  let value ← readUint16
  pure value.toInt16

/-- `ReadUint32`. -/
def readUint32 : Reader UInt8 Fault UInt32 := do
  ensureReadable 4
  let b0 ← peek 0
  let b1 ← peek 1
  let b2 ← peek 2
  let b3 ← peek 3
  let value := b0.toUInt32 <<< 24 ||| b1.toUInt32 <<< 16 ||| b2.toUInt32 <<< 8 ||| b3.toUInt32
  advance 4
  pure value

/-- `ReadUint64`. -/
def readUint64 : Reader UInt8 Fault UInt64 := do
  ensureReadable 8
  let b0 ← peek 0
  let b1 ← peek 1
  let b2 ← peek 2
  let b3 ← peek 3
  let b4 ← peek 4
  let b5 ← peek 5
  let b6 ← peek 6
  let b7 ← peek 7
  let value := b0.toUInt64 <<< 56 ||| b1.toUInt64 <<< 48 ||| b2.toUInt64 <<< 40 |||
    b3.toUInt64 <<< 32 ||| b4.toUInt64 <<< 24 ||| b5.toUInt64 <<< 16 ||| b6.toUInt64 <<< 8 |||
    b7.toUInt64
  advance 8
  pure value

/-- `value <<= 8; value |= buf[offset + i];` for each `i`. -/
def shiftBytes : List Nat → UInt64 → Reader UInt8 Fault UInt64
  | [], value => pure value
  | i :: is, value => do
    let b ← peek i
    shiftBytes is (value <<< 8 ||| b.toUInt64)

/-- The offset is passed by value. -/
def readBits (bitLen : Int) : Reader UInt8 Fault UInt64 := do
  check (validateBitLength bitLen)
  let byteLen := byteLength bitLen
  ensureReadable byteLen
  let value ← shiftBytes (List.range byteLen) 0
  pure (maskBits bitLen value)

/-! ## The bytes of a value, the high one first -/

/-- The bytes are those of the other order, turned round. -/
@[simp] theorem writeUint16_eq (buf : Buf) (value : UInt16) :
    writeUint16 buf value = buf ++ (uint16Bytes value).reverse := by
  simp [writeUint16, uint16Bytes, and_ff]

/-- The low byte of the mask. -/
theorem getLsbD_ff {j : Nat} (hj : j < 8) : (0xFF : Int32).toBitVec.getLsbD j = true := by
  have hall : ∀ j < 8, (0xFF : Int32).toBitVec.getLsbD j = true := by decide
  exact hall j hj

/-- The high byte of a signed word is that of the unsigned one. -/
theorem toUInt8_high (value : Int16) :
    ((value.toInt32 >>> 8) &&& 0xFF).toUInt32.toUInt8 = (value.toUInt16 >>> 8).toUInt8 := by
  refine eq_of_getLsbD fun j hj => ?_
  have h8 : ((8 : Int32).toBitVec.smod 32).toNat = 8 := rfl
  have hin : 8 + j < 16 := by omega
  have hin' : 8 + j < 32 := by omega
  rw [UInt32.toBitVec_toUInt8, Int32.toBitVec_toUInt32, BitVec.getLsbD_setWidth,
    decide_eq_true hj, Int32.toBitVec_and, BitVec.getLsbD_and, getLsbD_ff hj,
    Int32.toBitVec_shiftRight, Int16.toBitVec_toInt32, BitVec.sshiftRight', h8,
    BitVec.getLsbD_sshiftRight, if_pos hin', BitVec.getLsbD_signExtend, if_pos hin]
  simp [hj, hin']
  omega

/-- The low byte of a signed word is that of the unsigned one. -/
theorem toUInt8_low (value : Int16) :
    (value.toInt32 &&& 0xFF).toUInt32.toUInt8 = value.toUInt16.toUInt8 := by
  refine eq_of_getLsbD fun j hj => ?_
  have hin : j < 16 := by omega
  have hin' : j < 32 := by omega
  rw [UInt32.toBitVec_toUInt8, Int32.toBitVec_toUInt32, BitVec.getLsbD_setWidth,
    decide_eq_true hj, Int32.toBitVec_and, BitVec.getLsbD_and, getLsbD_ff hj,
    Int16.toBitVec_toInt32, BitVec.getLsbD_signExtend, if_pos hin]
  simp [hj, hin']

/-- The sign is above the two bytes. -/
@[simp] theorem writeInt16_eq (buf : Buf) (value : Int16) :
    writeInt16 buf value = buf ++ (uint16Bytes value.toUInt16).reverse := by
  rw [writeInt16, toUInt8_high, toUInt8_low, List.append_assoc]
  rfl

/-- The bytes are those of the other order, turned round. -/
@[simp] theorem writeUint32_eq (buf : Buf) (value : UInt32) :
    writeUint32 buf value = buf ++ (uint32Bytes value).reverse := by
  simp [writeUint32, uint32Bytes, and_ff]

/-- The bytes are those of the other order, turned round. -/
@[simp] theorem writeUint64_eq (buf : Buf) (value : UInt64) :
    writeUint64 buf value = buf ++ (uint64Bytes value).reverse := by
  simp [writeUint64, uint64Bytes, and_ff]

/-- **`write_bits` appends the bytes of the reduced value.** -/
theorem writeBits_eq (buf : Buf) (value : UInt64) (bits : BitLength) :
    writeBits buf value bits.value = .ok (buf ++ (bits.wordBytes value).reverse) := by
  obtain ⟨m, hm⟩ := Nat.exists_eq_add_of_lt bits.bytes_spec.1
  rw [Nat.zero_add] at hm
  have hbelow : (List.range m).map (wordByte (bits.reduce value)) =
      (List.range m).map (wordByte value) := by
    refine List.map_congr_left fun i hi => ?_
    exact bits.wordByte_below hm (List.mem_range.1 hi) value
  have hpushed : (List.range bits.bytes).reverse.foldl (pushByte value) buf =
      buf ++ wordByte value m :: ((List.range m).map (wordByte value)).reverse := by
    rw [MyLEHelper.foldl_pushByte, hm, List.range_succ, List.reverse_append,
      List.reverse_singleton, List.singleton_append, List.map_cons, List.map_reverse]
  have hwritten : buf ++ (bits.wordBytes value).reverse =
      buf ++ (if bits.bytes * 8 - bits.value > 0 then
          wordByte value m &&& byteMask (bits.bytes * 8 - bits.value).toNat
        else wordByte value m) :: ((List.range m).map (wordByte value)).reverse := by
    rw [bits.mask_spare, ← bits.wordByte_highest hm, BitLength.wordBytes, hm, List.range_succ,
      List.map_append, List.map_singleton, hbelow, List.reverse_append, List.reverse_singleton,
      List.singleton_append]
  rw [hwritten, writeBits, bits.validate]
  show (if bits.bytes * 8 - bits.value > 0 then _ else _) = _
  rw [← BitLength.bytes, hpushed, modify_middle]
  split
  · rfl
  · rfl

/-! ## Reading back what was written -/

/-- A byte is read back. -/
theorem reads_uint8 (v : UInt8) : Reads sizeMod readUint8 [v] v :=
  MyLEHelper.reads_uint8 v

/-- A word of two bytes is read back. -/
theorem reads_uint16 (v : UInt16) : Reads sizeMod readUint16 (uint16Bytes v).reverse v := by
  refine reads_ensureReadable (Nat.le_refl _) (reads_peek rfl (reads_peek rfl ?_))
  rw [UInt16.or_comm, uint16_recombine]
  exact reads_advance rfl v

/-- A signed word is read back. -/
theorem reads_int16 (v : Int16) : Reads sizeMod readInt16 (uint16Bytes v.toUInt16).reverse v :=
  (reads_uint16 v.toUInt16).bind_pure

/-- The bytes are joined in the other order. -/
theorem or_reverse32 (a b c d : UInt32) : a ||| b ||| c ||| d = d ||| c ||| b ||| a := by
  ac_rfl

/-- Eight parts are put together in either order. -/
theorem or_reverse64 (a b c d e f g h : UInt64) :
    a ||| b ||| c ||| d ||| e ||| f ||| g ||| h = h ||| g ||| f ||| e ||| d ||| c ||| b ||| a := by
  ac_rfl

/-- A word of four bytes is read back. -/
theorem reads_uint32 (v : UInt32) : Reads sizeMod readUint32 (uint32Bytes v).reverse v := by
  refine reads_ensureReadable (Nat.le_refl _)
    (reads_peek rfl (reads_peek rfl (reads_peek rfl (reads_peek rfl ?_))))
  rw [or_reverse32, uint32_recombine]
  exact reads_advance rfl v

/-- A word of eight bytes is read back. -/
theorem reads_uint64 (v : UInt64) : Reads sizeMod readUint64 (uint64Bytes v).reverse v := by
  refine reads_ensureReadable (Nat.le_refl _)
    (reads_peek rfl (reads_peek rfl (reads_peek rfl (reads_peek rfl
      (reads_peek rfl (reads_peek rfl (reads_peek rfl (reads_peek rfl ?_))))))))
  rw [or_reverse64, uint64_recombine]
  exact reads_advance rfl v

/-! ## Looking at bits -/

/-- The loop joins the bytes it looks at, in the order it looks at them. -/
theorem peeks_shiftBytes {bytes : Buf} {b : Nat → UInt8} {is : List Nat}
    (h : ∀ i ∈ is, bytes[i]? = some (b i)) (value : UInt64) :
    Peeks sizeMod (shiftBytes is value) bytes (joinHigh (is.map b) value) := by
  induction is generalizing value with
  | nil => exact .pure bytes value
  | cons i is ih =>
    have hi := h i (List.mem_cons_self ..)
    exact (MyLEHelper.peeks_peek hi).bind (ih (fun j hj => h j (List.mem_cons_of_mem _ hj)) _)

/-- **`read_bits` sees the reduced value** and leaves the offset. -/
theorem peeks_bits (bits : BitLength) (value : UInt64) :
    Peeks sizeMod (readBits bits.value) (bits.wordBytes value).reverse (bits.reduce value) := by
  have hlen : byteLength bits.value ≤ (bits.wordBytes value).reverse.length := by
    rw [List.length_reverse, bits.length_wordBytes]
    exact Nat.le_refl _
  have hlook : ∀ i ∈ List.range bits.bytes, (bits.wordBytes value).reverse[i]? =
      some (wordByte (bits.reduce value) (bits.bytes - 1 - i)) := by
    intro i hi
    rw [List.mem_range] at hi
    have hmem : bits.bytes - 1 - i ∈ List.range bits.bytes := List.mem_range.2 (by omega)
    rw [List.getElem?_reverse (by rwa [bits.length_wordBytes]), bits.length_wordBytes,
      MyLEHelper.getElem?_wordBytes hmem]
  have horder : (List.range bits.bytes).map
      (fun i => wordByte (bits.reduce value) (bits.bytes - 1 - i)) =
        (List.range bits.bytes).reverse.map (wordByte (bits.reduce value)) := by
    rw [List.range_eq_range', List.reverse_range', ← List.range_eq_range', List.map_map,
      Nat.zero_add]
    rfl
  have hjoined := joinHigh_wordByte (bits.reduce value) bits.bytes_spec.2.1
  refine (MyLEHelper.peeks_check _).bind ((MyLEHelper.peeks_ensureReadable hlen).bind
    ((peeks_shiftBytes hlook 0).bind ?_))
  rw [horder, hjoined, bits.maskBits_reduce]
  exact .pure _ _

end MyBEHelper
