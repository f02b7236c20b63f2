import FastCppServer.Lib.Bytes
import FastCppServer.Lib.WordBytes
import FastCppServer.Lib.Cursor
import Mathlib.Algebra.Group.Nat.Defs

/-!
# Little-endian reading and writing

`MyLEHelper.cpp`. A write appends bytes to the buffer, a read advances an offset. The test in front
of every read adds in `size_t`, so it is modulo `sizeMod`; an index past the end of the buffer,
which that test does not always exclude, is undefined behaviour and a fault of its own.
-/

namespace MyLEHelper

open Cursor Bytes

/-- A buffer, as a `std::vector` of bytes that grows at its end. -/
abbrev Buf := List UInt8

/-- The number of values of `size_t`. -/
def sizeMod : Nat := 2 ^ 64

/-- How a read can fail to give a value. -/
inductive Fault where
  /-- `std::invalid_argument` is thrown. -/
  | invalidArgument (what : String)
  /-- `std::out_of_range` is thrown. -/
  | outOfRange (what : String)
  /-- The buffer is indexed past its end. -/
  | undefined
  deriving DecidableEq

/-! ## Writing -/

/-- `WriteUint8`. -/
def writeUint8 (buf : Buf) (value : UInt8) : Buf := buf ++ [value]

/-- `WriteUint16`: the low byte first. -/
def writeUint16 (buf : Buf) (value : UInt16) : Buf :=
  buf ++ [(value &&& 0xFF).toUInt8] ++ [((value >>> 8) &&& 0xFF).toUInt8]

/-- `WriteInt16`, which writes the bits of the number as those of an unsigned one. -/
def writeInt16 (buf : Buf) (value : Int16) : Buf := writeUint16 buf value.toUInt16

/-- `WriteUint32`: the four bytes from the lowest one up. -/
def writeUint32 (buf : Buf) (value : UInt32) : Buf :=
  buf ++ [(value &&& 0xFF).toUInt8] ++ [((value >>> 8) &&& 0xFF).toUInt8] ++
    [((value >>> 16) &&& 0xFF).toUInt8] ++ [((value >>> 24) &&& 0xFF).toUInt8]

/-- `WriteUint64`: the eight bytes from the lowest one up. -/
def writeUint64 (buf : Buf) (value : UInt64) : Buf :=
  buf ++ [(value &&& 0xFF).toUInt8] ++ [((value >>> 8) &&& 0xFF).toUInt8] ++
    [((value >>> 16) &&& 0xFF).toUInt8] ++ [((value >>> 24) &&& 0xFF).toUInt8] ++
    [((value >>> 32) &&& 0xFF).toUInt8] ++ [((value >>> 40) &&& 0xFF).toUInt8] ++
    [((value >>> 48) &&& 0xFF).toUInt8] ++ [((value >>> 56) &&& 0xFF).toUInt8]

/-- `ValidateBitLength`: a length from 1 to 64 passes, anything else is refused with the text of the
source. -/
def validateBitLength (bitLen : Int) : Except Fault Unit :=
  if bitLen ≤ 0 ∨ bitLen > 64 then .error (.invalidArgument "bit_len must be in range [1, 64]")
  else .ok ()

/-- `(bit_len + 7) / 8`. -/
def byteLength (bitLen : Int) : Nat := ((bitLen + 7) / 8).toNat

/-- `buf.push_back(static_cast<uint8_t>((value >> (i * 8)) & 0xFF))`. -/
def pushByte (value : UInt64) (buf : Buf) (i : Nat) : Buf :=
  buf ++ [((value >>> UInt64.ofNat (i * 8)) &&& 0xFF).toUInt8]

/-- `WriteBits`: the value is cut to its lowest bits, and written in as many bytes as these need. -/
def writeBits (buf : Buf) (value : UInt64) (bitLen : Int) : Except Fault Buf := do
  validateBitLength bitLen
  let byteLen := byteLength bitLen
  let buf := (List.range byteLen).foldl (pushByte value) buf
  let extraBits := byteLen * 8 - bitLen
  if extraBits > 0 then
    -- `buf.back() &= static_cast<uint8_t>(0xFF >> extra_bits)`.
    pure (buf.modify (buf.length - 1) (· &&& byteMask extraBits.toNat))
  else pure buf

/-! ## Reading -/

/-- `EnsureReadable`. -/
def ensureReadable (bytesNeeded : Nat) : Reader UInt8 Fault Unit := fun buf offset =>
  if (offset + bytesNeeded) % sizeMod > buf.length then
    (.error (.outOfRange "buffer does not have enough bytes"), offset)
  else (.ok (), offset)

/-- `buf[offset + i]`. -/
def peek (i : Nat) : Reader UInt8 Fault UInt8 := fun buf offset =>
  match buf[(offset + i) % sizeMod]? with
  | some b => (.ok b, offset)
  | none => (.error .undefined, offset)

/-- `offset += n`. -/
def advance (n : Nat) : Reader UInt8 Fault Unit := fun _ offset =>
  (.ok (), (offset + n) % sizeMod)

/-- `ReadUint8`. -/
def readUint8 : Reader UInt8 Fault UInt8 := do
  ensureReadable 1
  let value ← peek 0
  advance 1
  pure value

/-- `ReadUint16`: two bytes, the low one first. -/
def readUint16 : Reader UInt8 Fault UInt16 := do
  ensureReadable 2
  let b0 ← peek 0
  let b1 ← peek 1
  let value := b0.toUInt16 ||| b1.toUInt16 <<< 8
  advance 2
  pure value

/-- `ReadInt16`, which takes the bits it reads for those of a signed number. -/
def readInt16 : Reader UInt8 Fault Int16 := do
  let value ← readUint16
  pure value.toInt16

/-- `ReadUint32`: four bytes from the lowest one up. -/
def readUint32 : Reader UInt8 Fault UInt32 := do
  ensureReadable 4
  let b0 ← peek 0
  let b1 ← peek 1
  let b2 ← peek 2
  let b3 ← peek 3
  let value := b0.toUInt32 ||| b1.toUInt32 <<< 8 ||| b2.toUInt32 <<< 16 ||| b3.toUInt32 <<< 24
  advance 4
  pure value

/-- `ReadUint64`: the two halves are read as 32-bit numbers and put together. -/
def readUint64 : Reader UInt8 Fault UInt64 := do
  ensureReadable 8
  let b0 ← peek 0
  let b1 ← peek 1
  let b2 ← peek 2
  let b3 ← peek 3
  let b4 ← peek 4
  let b5 ← peek 5
  let b6 ← peek 6
  let b7 ← peek 7
  let value := b0.toUInt64 ||| b1.toUInt64 <<< 8 ||| b2.toUInt64 <<< 16 ||| b3.toUInt64 <<< 24 |||
    b4.toUInt64 <<< 32 ||| b5.toUInt64 <<< 40 ||| b6.toUInt64 <<< 48 ||| b7.toUInt64 <<< 56
  advance 8
  pure value

/-- The throw of a check. -/
def check (r : Except Fault Unit) : Reader UInt8 Fault Unit := fun _ offset => (r, offset)

/-- `for (int i = 0; i < byte_len; ++i)` of `read_bits`. -/
def orBytes : List Nat → UInt64 → Reader UInt8 Fault UInt64
  | [], value => pure value
  | i :: is, value => do
    let b ← peek i
    orBytes is (value ||| b.toUInt64 <<< UInt64.ofNat (8 * i))

/-- `value &= ((1ULL << bit_len) - 1ULL)`. -/
def maskBits (bitLen : Int) (value : UInt64) : UInt64 :=
  if bitLen < 64 then value &&& ((1 <<< UInt64.ofNat bitLen.toNat) - 1) else value

/-- The offset is passed by value. -/
def readBits (bitLen : Int) : Reader UInt8 Fault UInt64 := do
  check (validateBitLength bitLen)
  let byteLen := byteLength bitLen
  ensureReadable byteLen
  let value ← orBytes (List.range byteLen) 0
  pure (maskBits bitLen value)

/-! ## The bytes of a value -/

/-- The two bytes of a number, the low one first. -/
def uint16Bytes (value : UInt16) : Buf := [value.toUInt8, (value >>> 8).toUInt8]

/-- The four bytes of a number, the low half first. -/
def uint32Bytes (value : UInt32) : Buf :=
  [value.toUInt8, (value >>> 8).toUInt8, (value >>> 16).toUInt8, (value >>> 24).toUInt8]

/-- The eight bytes of a number, the low half first. -/
def uint64Bytes (value : UInt64) : Buf :=
  [value.toUInt8, (value >>> 8).toUInt8, (value >>> 16).toUInt8, (value >>> 24).toUInt8,
    (value >>> 32).toUInt8, (value >>> 40).toUInt8, (value >>> 48).toUInt8, (value >>> 56).toUInt8]

/-- Two bytes are written for a 16-bit number. -/
@[simp] theorem uint16Bytes_length (value : UInt16) : (uint16Bytes value).length = 2 := rfl

/-- Four bytes are written for a 32-bit number. -/
@[simp] theorem uint32Bytes_length (value : UInt32) : (uint32Bytes value).length = 4 := rfl

/-- Eight bytes are written for a 64-bit number. -/
@[simp] theorem uint64Bytes_length (value : UInt64) : (uint64Bytes value).length = 8 := rfl

/-- Writing a byte appends it: the writers never look at what is in the buffer. -/
@[simp] theorem writeUint8_eq (buf : Buf) (value : UInt8) : writeUint8 buf value = buf ++ [value] :=
  rfl

/-- Writing a 16-bit number appends its bytes. -/
@[simp] theorem writeUint16_eq (buf : Buf) (value : UInt16) :
    writeUint16 buf value = buf ++ uint16Bytes value := by
  simp [writeUint16, uint16Bytes, and_ff]

/-- A signed number is appended by its two's complement. -/
@[simp] theorem writeInt16_eq (buf : Buf) (value : Int16) :
    writeInt16 buf value = buf ++ uint16Bytes value.toUInt16 :=
  writeUint16_eq buf value.toUInt16

/-- Writing a 32-bit number appends its bytes. -/
@[simp] theorem writeUint32_eq (buf : Buf) (value : UInt32) :
    writeUint32 buf value = buf ++ uint32Bytes value := by
  simp [writeUint32, uint32Bytes, and_ff]

/-- Writing a 64-bit number appends its bytes. -/
@[simp] theorem writeUint64_eq (buf : Buf) (value : UInt64) :
    writeUint64 buf value = buf ++ uint64Bytes value := by
  simp [writeUint64, uint64Bytes, and_ff]

/-- One round of the loop of `WriteBits` appends the byte at its index. -/
theorem pushByte_eq (value : UInt64) (buf : Buf) (i : Nat) :
    pushByte value buf i = buf ++ [wordByte value i] := by
  simp [pushByte, wordByte, and_ff]

/-- The loop of `WriteBits` appends the bytes at the indices it goes through. -/
theorem foldl_pushByte (value : UInt64) (is : List Nat) (buf : Buf) :
    is.foldl (pushByte value) buf = buf ++ is.map (wordByte value) := by
  induction is generalizing buf with
  | nil => rw [List.foldl_nil, List.map_nil, List.append_nil]
  | cons i is ih =>
    rw [List.foldl_cons, ih, pushByte_eq, List.map_cons, List.append_assoc,
      List.singleton_append]

/-- The numbers of bits that are not refused. -/
structure BitLength where
  value : Int
  pos : 0 < value
  le : value ≤ 64

namespace BitLength
variable (bits : BitLength)

/-- The number of bytes that this many bits are written in. -/
def bytes : Nat := byteLength bits.value

/-- It is the least number of bytes that has room for the bits, and at most eight. -/
theorem bytes_spec : 0 < bits.bytes ∧ bits.bytes ≤ 8 ∧ bits.value ≤ 8 * bits.bytes ∧
    8 * bits.bytes < bits.value + 8 := by
  have hpos := bits.pos
  have hle := bits.le
  rw [bytes, byteLength]
  omega

/-- A bit length from 1 to 64 passes the check of the reader and of the writer. -/
theorem validate : validateBitLength bits.value = .ok () := by
  have hpos := bits.pos
  have hle := bits.le
  rw [validateBitLength, if_neg (by omega)]

/-- The value that a number of this many bits can hold. -/
def reduce (value : UInt64) : UInt64 := lowBits value bits.value.toNat

/-- The mask of the source, which is made differently for 64 bits, keeps the lowest bits. -/
theorem maskBits_eq (value : UInt64) : maskBits bits.value value = bits.reduce value := by
  have hpos := bits.pos
  have hle := bits.le
  rw [maskBits, reduce]
  split
  · exact and_lowMask (by omega) value
  · have h64 : bits.value.toNat = 64 := by omega
    rw [h64, lowBits_eq_self]

/-- The bytes that stand for the value, the low one first. -/
def wordBytes (value : UInt64) : Buf := (List.range bits.bytes).map (wordByte (bits.reduce value))

/-- A value of that many bits is written in so many bytes. -/
theorem length_wordBytes (value : UInt64) : (bits.wordBytes value).length = bits.bytes := by
  rw [wordBytes, List.length_map, List.length_range]

/-- Below the byte with the highest bits the value is written as it is. -/
theorem wordByte_below {m i : Nat} (hm : bits.bytes = m + 1) (hi : i < m) (value : UInt64) :
    wordByte (bits.reduce value) i = wordByte value i := by
  obtain ⟨_, hmax, _, hfull⟩ := bits.bytes_spec
  exact wordByte_lowBits (by omega) (by omega) value

/-- The byte with the highest bits is masked. -/
theorem wordByte_highest {m : Nat} (hm : bits.bytes = m + 1) (value : UInt64) :
    wordByte (bits.reduce value) m =
      wordByte value m &&& byteMask (bits.bytes * 8 - bits.value).toNat := by
  have hpos := bits.pos
  obtain ⟨_, hmax, hfits, hfull⟩ := bits.bytes_spec
  have hextra : (bits.bytes * 8 - bits.value).toNat = 8 * m + 8 - bits.value.toNat := by omega
  rw [hextra]
  exact wordByte_lowBits_cut (by omega) (by omega) (by omega) value

/-- Without bits to spare the mask is not applied. -/
theorem mask_spare (b : UInt8) :
    (if bits.bytes * 8 - bits.value > 0 then
      b &&& byteMask (bits.bytes * 8 - bits.value).toNat else b) =
        b &&& byteMask (bits.bytes * 8 - bits.value).toNat := by
  split
  · rfl
  · next hnone =>
    obtain ⟨_, _, hfits, _⟩ := bits.bytes_spec
    have hzero : (bits.bytes * 8 - bits.value).toNat = 0 := by omega
    have hall : byteMask 0 = 0xFF := rfl
    rw [hzero, hall, and_ff]

end BitLength

/-- **`write_bits` appends the bytes of the reduced value.** -/
theorem writeBits_eq (buf : Buf) (value : UInt64) (bits : BitLength) :
    writeBits buf value bits.value = .ok (buf ++ bits.wordBytes value) := by
  obtain ⟨m, hm⟩ := Nat.exists_eq_add_of_lt bits.bytes_spec.1
  rw [Nat.zero_add] at hm
  have hbelow : (List.range m).map (wordByte (bits.reduce value)) =
      (List.range m).map (wordByte value) := by
    refine List.map_congr_left fun i hi => ?_
    exact bits.wordByte_below hm (List.mem_range.1 hi) value
  have hpushed : (List.range bits.bytes).foldl (pushByte value) buf =
      (buf ++ (List.range m).map (wordByte value)) ++ [wordByte value m] := by
    rw [foldl_pushByte, hm, List.range_succ, List.map_append, List.map_singleton,
      List.append_assoc]
  have hwritten : buf ++ bits.wordBytes value =
      (buf ++ (List.range m).map (wordByte value)) ++
        [if bits.bytes * 8 - bits.value > 0 then
          wordByte value m &&& byteMask (bits.bytes * 8 - bits.value).toNat
        else wordByte value m] := by
    rw [bits.mask_spare, ← bits.wordByte_highest hm, BitLength.wordBytes, hm, List.range_succ,
      List.map_append, List.map_singleton, hbelow, List.append_assoc]
  have hlast : ((buf ++ (List.range m).map (wordByte value)) ++ [wordByte value m]).length - 1 =
      (buf ++ (List.range m).map (wordByte value)).length := by
    rw [List.length_append, List.length_singleton, Nat.add_sub_cancel]
  rw [hwritten, writeBits, bits.validate]
  show (if bits.bytes * 8 - bits.value > 0 then _ else _) = _
  rw [← BitLength.bytes, hpushed, hlast, modify_middle]
  split
  · rfl
  · rfl

/-! ## Reading back what was written -/

/-- The test in front of a read passes when the bytes are there. -/
theorem peeks_ensureReadable {bytes : Buf} {n : Nat} (hn : n ≤ bytes.length) :
    Peeks sizeMod (ensureReadable n) bytes () := by
  intro front back _
  have hle : (front.length + n) % sizeMod ≤ (front ++ bytes ++ back).length := by
    refine Nat.le_trans (Nat.mod_le _ _) ?_
    simp only [List.length_append]
    omega
  rw [ensureReadable, if_neg (Nat.not_lt.2 hle)]

/-- A byte that is there is seen. -/
theorem peeks_peek {bytes : Buf} {i : Nat} {b : UInt8} (hi : bytes[i]? = some b) :
    Peeks sizeMod (peek i) bytes b := by
  intro front back hb
  have hlt : i < bytes.length := (List.getElem?_eq_some_iff.1 hi).1
  have hmod : (front.length + i) % sizeMod = front.length + i := by
    refine Nat.mod_eq_of_lt (Nat.lt_trans ?_ hb)
    simp only [List.length_append]
    omega
  have hget : (front ++ bytes ++ back)[(front.length + i) % sizeMod]? = some b := by
    rw [hmod, List.append_assoc, List.getElem?_append_right (Nat.le_add_right _ _),
      Nat.add_sub_cancel_left, List.getElem?_append_left hlt, hi]
  simp only [peek, hget]

section
variable {bytes : Buf} {α : Type} {a : α}

/-- A reader that first asks for `n` bytes goes on where these are left. -/
theorem reads_ensureReadable {n : Nat} {f : Unit → Reader UInt8 Fault α} (hn : n ≤ bytes.length)
    (h : Reads sizeMod (f ()) bytes a) : Reads sizeMod (ensureReadable n >>= f) bytes a :=
  (peeks_ensureReadable hn).reads h

/-- A reader that looks at a byte goes on with that byte, and has not moved. -/
theorem reads_peek {i : Nat} {b : UInt8} {f : UInt8 → Reader UInt8 Fault α}
    (hi : bytes[i]? = some b) (h : Reads sizeMod (f b) bytes a) :
    Reads sizeMod (peek i >>= f) bytes a :=
  (peeks_peek hi).reads h

end

/-- The offset is moved behind the bytes. -/
theorem reads_advance {bytes : Buf} {n : Nat} {α : Type} (hn : n = bytes.length) (a : α) :
    Reads sizeMod (advance n >>= fun _ => pure a) bytes a := by
  subst hn
  intro front back hb
  have hmod : (front.length + bytes.length) % sizeMod = front.length + bytes.length := by
    refine Nat.mod_eq_of_lt (Nat.lt_of_le_of_lt ?_ hb)
    simp only [List.length_append]
    omega
  rw [Reader.bind_ok rfl, hmod]
  rfl

/-- `ReadUint8` reads back what `WriteUint8` has written. -/
theorem reads_uint8 (v : UInt8) : Reads sizeMod readUint8 [v] v :=
  reads_ensureReadable (Nat.le_refl _) (reads_peek rfl (reads_advance rfl v))

/-- `ReadUint16` reads back what `WriteUint16` has written. -/
theorem reads_uint16 (v : UInt16) : Reads sizeMod readUint16 (uint16Bytes v) v := by
  refine reads_ensureReadable (Nat.le_refl _) (reads_peek rfl (reads_peek rfl ?_))
  rw [uint16_recombine]
  exact reads_advance rfl v

/-- `ReadInt16` reads back what `WriteInt16` has written. -/
theorem reads_int16 (v : Int16) : Reads sizeMod readInt16 (uint16Bytes v.toUInt16) v :=
  (reads_uint16 v.toUInt16).bind_pure (f := UInt16.toInt16)

/-- `ReadUint32` reads back what `WriteUint32` has written. -/
theorem reads_uint32 (v : UInt32) : Reads sizeMod readUint32 (uint32Bytes v) v := by
  refine reads_ensureReadable (Nat.le_refl _)
    (reads_peek rfl (reads_peek rfl (reads_peek rfl (reads_peek rfl ?_))))
  rw [uint32_recombine]
  exact reads_advance rfl v

/-- `ReadUint64` reads back what `WriteUint64` has written. -/
theorem reads_uint64 (v : UInt64) : Reads sizeMod readUint64 (uint64Bytes v) v := by
  refine reads_ensureReadable (Nat.le_refl _)
    (reads_peek rfl (reads_peek rfl (reads_peek rfl (reads_peek rfl
      (reads_peek rfl (reads_peek rfl (reads_peek rfl (reads_peek rfl ?_))))))))
  rw [uint64_recombine]
  exact reads_advance rfl v

/-! ## Looking at bits -/

/-- The check of a valid bit length passes and leaves the offset where it is. -/
theorem peeks_check {bits : BitLength} (bytes : Buf) :
    Peeks sizeMod (check (validateBitLength bits.value)) bytes () := by
  intro front back _
  rw [check, bits.validate]

/-- The loop joins the bytes it looks at. -/
theorem peeks_orBytes {bytes : Buf} {b : Nat → UInt8} {is : List Nat}
    (h : ∀ i ∈ is, bytes[i]? = some (b i)) (value : UInt64) :
    Peeks sizeMod (orBytes is value) bytes (joinLow b is value) := by
  induction is generalizing value with
  | nil => exact .pure bytes value
  | cons i is ih =>
    have hi := h i (List.mem_cons_self ..)
    exact (peeks_peek hi).bind (ih (fun j hj => h j (List.mem_cons_of_mem _ hj)) _)

/-- The byte at an index of a written value is the one that the reader puts back there. -/
theorem getElem?_wordBytes {bits : BitLength} {value : UInt64} {i : Nat}
    (hi : i ∈ List.range bits.bytes) :
    (bits.wordBytes value)[i]? = some (wordByte (bits.reduce value) i) := by
  rw [BitLength.wordBytes, List.getElem?_map, List.getElem?_range (List.mem_range.1 hi),
    Option.map_some]

/-- What is joined from the bytes of a reduced value is that value, and the mask keeps it. -/
theorem BitLength.maskBits_reduce (bits : BitLength) (value : UInt64) :
    maskBits bits.value (lowBits (bits.reduce value) (8 * bits.bytes)) = bits.reduce value := by
  have hpos := bits.pos
  obtain ⟨_, _, hfits, _⟩ := bits.bytes_spec
  have hjoined : lowBits (bits.reduce value) (8 * bits.bytes) = bits.reduce value :=
    lowBits_lowBits (by omega) value
  rw [hjoined, bits.maskBits_eq]
  exact lowBits_lowBits (Nat.le_refl _) value

/-- **`read_bits` sees the reduced value** and leaves the offset. -/
theorem peeks_bits (bits : BitLength) (value : UInt64) :
    Peeks sizeMod (readBits bits.value) (bits.wordBytes value) (bits.reduce value) := by
  have hlen : byteLength bits.value ≤ (bits.wordBytes value).length :=
    Nat.le_of_eq (bits.length_wordBytes value).symm
  have hjoined := joinLow_wordByte (bits.reduce value) bits.bytes_spec.2.1
  refine (peeks_check _).bind ((peeks_ensureReadable hlen).bind
    ((peeks_orBytes (fun i hi => getElem?_wordBytes hi) 0).bind ?_))
  show Peeks _ (pure (maskBits bits.value
    (joinLow (wordByte (bits.reduce value)) (List.range bits.bytes) 0))) _ _
  rw [hjoined, bits.maskBits_reduce]
  exact .pure _ _

/-! ## Bytes that are there are those of a value -/

section
variable {buf : Buf} {n : Nat}

/-- A buffer with a byte in front is that byte and the rest. The codec takes a payload apart field
by field with this lemma and its siblings. -/
theorem exists_uint8Bytes (h : buf.length = n + 1) :
    ∃ (v : UInt8) (rest : Buf), rest.length = n ∧ buf = v :: rest := by
  obtain ⟨v, rest, rfl⟩ := List.exists_cons_of_length_eq_add_one h
  exact ⟨v, rest, Nat.succ.inj h, rfl⟩

/-- A buffer of two bytes or more begins with those of a 16-bit number. -/
theorem exists_uint16Bytes (h : buf.length = n + 2) :
    ∃ (v : UInt16) (rest : Buf), rest.length = n ∧ buf = uint16Bytes v ++ rest := by
  obtain ⟨b₀, buf, h₀, rfl⟩ := exists_uint8Bytes h
  obtain ⟨b₁, rest, hrest, rfl⟩ := exists_uint8Bytes h₀
  obtain ⟨v, rfl, rfl⟩ := exists_uint16 b₀ b₁
  exact ⟨v, rest, hrest, rfl⟩

/-- A buffer of two bytes or more begins with those of a signed 16-bit number. -/
theorem exists_int16Bytes (h : buf.length = n + 2) :
    ∃ (v : Int16) (rest : Buf), rest.length = n ∧ buf = uint16Bytes v.toUInt16 ++ rest := by
  obtain ⟨v, rest, hrest, hbuf⟩ := exists_uint16Bytes h
  exact ⟨v.toInt16, rest, hrest, hbuf⟩

/-- A buffer of four bytes or more begins with those of a 32-bit number. -/
theorem exists_uint32Bytes (h : buf.length = n + 4) :
    ∃ (v : UInt32) (rest : Buf), rest.length = n ∧ buf = uint32Bytes v ++ rest := by
  obtain ⟨b₀, buf, h₀, rfl⟩ := exists_uint8Bytes h
  obtain ⟨b₁, buf, h₁, rfl⟩ := exists_uint8Bytes h₀
  obtain ⟨b₂, buf, h₂, rfl⟩ := exists_uint8Bytes h₁
  obtain ⟨b₃, rest, hrest, rfl⟩ := exists_uint8Bytes h₂
  obtain ⟨v, rfl, rfl, rfl, rfl⟩ := exists_uint32 b₀ b₁ b₂ b₃
  exact ⟨v, rest, hrest, rfl⟩

/-- A buffer of four bytes or more begins with those of a signed 32-bit number. -/
theorem exists_int32Bytes (h : buf.length = n + 4) :
    ∃ (v : Int32) (rest : Buf), rest.length = n ∧ buf = uint32Bytes v.toUInt32 ++ rest := by
  obtain ⟨v, rest, hrest, hbuf⟩ := exists_uint32Bytes h
  exact ⟨v.toInt32, rest, hrest, hbuf⟩

/-- A buffer of eight bytes or more begins with those of a 64-bit number. -/
theorem exists_uint64Bytes (h : buf.length = n + 8) :
    ∃ (v : UInt64) (rest : Buf), rest.length = n ∧ buf = uint64Bytes v ++ rest := by
  obtain ⟨b₀, buf, h₀, rfl⟩ := exists_uint8Bytes h
  obtain ⟨b₁, buf, h₁, rfl⟩ := exists_uint8Bytes h₀
  obtain ⟨b₂, buf, h₂, rfl⟩ := exists_uint8Bytes h₁
  obtain ⟨b₃, buf, h₃, rfl⟩ := exists_uint8Bytes h₂
  obtain ⟨b₄, buf, h₄, rfl⟩ := exists_uint8Bytes h₃
  obtain ⟨b₅, buf, h₅, rfl⟩ := exists_uint8Bytes h₄
  obtain ⟨b₆, buf, h₆, rfl⟩ := exists_uint8Bytes h₅
  obtain ⟨b₇, rest, hrest, rfl⟩ := exists_uint8Bytes h₆
  obtain ⟨v, rfl, rfl, rfl, rfl, rfl, rfl, rfl, rfl⟩ := exists_uint64 b₀ b₁ b₂ b₃ b₄ b₅ b₆ b₇
  exact ⟨v, rest, hrest, rfl⟩

end

end MyLEHelper
