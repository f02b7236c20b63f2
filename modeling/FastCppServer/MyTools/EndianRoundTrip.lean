import FastCppServer.MyTools.MyBEHelper
import Mathlib.Algebra.GroupWithZero.Nat

/-!
# Reading back a sequence of writes

Whatever is written with one of the two helpers is read back by the matching reads of the same
helper, item by item, from the place where the first write began (`writes_reads`). Each item stands
for itself: its bytes follow those written before (`write_eq`), and from these bytes alone its read
gives it back and ends behind them (`reads_item`).
-/

namespace MyEndianHelper

open Cursor
open MyLEHelper (Buf Fault sizeMod BitLength uint16Bytes uint32Bytes uint64Bytes advance)

/-- The two helpers. -/
inductive Helper where
  | MyLEHelper
  | MyBEHelper
  deriving DecidableEq

/-- A call that writes, and the value of the call that reads. -/
inductive Item where
  | uint8 (value : UInt8)
  | uint16 (value : UInt16)
  | int16 (value : Int16)
  | uint32 (value : UInt32)
  | uint64 (value : UInt64)
  | bits (value : UInt64) (len : BitLength)

/-- A call that reads. -/
inductive Kind where
  | uint8
  | uint16
  | int16
  | uint32
  | uint64
  | bits (len : BitLength)

namespace Item

/-- The read that matches a write. -/
def kind : Item → Kind
  | uint8 _ => .uint8
  | uint16 _ => .uint16
  | int16 _ => .int16
  | uint32 _ => .uint32
  | uint64 _ => .uint64
  | bits _ len => .bits len

/-- The number of bytes. -/
def width : Item → Nat
  | uint8 _ => 1
  | uint16 _ => 2
  | int16 _ => 2
  | uint32 _ => 4
  | uint64 _ => 8
  | bits _ len => len.bytes

/-- What is read back: a value of `bits` modulo `2 ^ bit_len`. -/
def reduced : Item → Item
  | bits value len => .bits (.ofNat (value.toNat % 2 ^ len.value.toNat)) len
  | item => item

/-- The bytes, the low one first. -/
def lowBytes : Item → Buf
  | uint8 value => [value]
  | uint16 value => uint16Bytes value
  | int16 value => uint16Bytes value.toUInt16
  | uint32 value => uint32Bytes value
  | uint64 value => uint64Bytes value
  | bits value len => len.wordBytes value

end Item

namespace Helper

def write : Helper → Buf → Item → Except Fault Buf
  | MyLEHelper, buf, .uint8 value => .ok (MyLEHelper.writeUint8 buf value)
  | MyLEHelper, buf, .uint16 value => .ok (MyLEHelper.writeUint16 buf value)
  | MyLEHelper, buf, .int16 value => .ok (MyLEHelper.writeInt16 buf value)
  | MyLEHelper, buf, .uint32 value => .ok (MyLEHelper.writeUint32 buf value)
  | MyLEHelper, buf, .uint64 value => .ok (MyLEHelper.writeUint64 buf value)
  | MyLEHelper, buf, .bits value len => MyLEHelper.writeBits buf value len.value
  | MyBEHelper, buf, .uint8 value => .ok (MyBEHelper.writeUint8 buf value)
  | MyBEHelper, buf, .uint16 value => .ok (MyBEHelper.writeUint16 buf value)
  | MyBEHelper, buf, .int16 value => .ok (MyBEHelper.writeInt16 buf value)
  | MyBEHelper, buf, .uint32 value => .ok (MyBEHelper.writeUint32 buf value)
  | MyBEHelper, buf, .uint64 value => .ok (MyBEHelper.writeUint64 buf value)
  | MyBEHelper, buf, .bits value len => MyBEHelper.writeBits buf value len.value

def readBits : Helper → Int → Reader UInt8 Fault UInt64
  | MyLEHelper => MyLEHelper.readBits
  | MyBEHelper => MyBEHelper.readBits

/-- A read. `read_bits` is followed by `offset += (bit_len + 7) / 8`. -/
def read : Helper → Kind → Reader UInt8 Fault Item
  | MyLEHelper, .uint8 => do return .uint8 (← MyLEHelper.readUint8)
  | MyLEHelper, .uint16 => do return .uint16 (← MyLEHelper.readUint16)
  | MyLEHelper, .int16 => do return .int16 (← MyLEHelper.readInt16)
  | MyLEHelper, .uint32 => do return .uint32 (← MyLEHelper.readUint32)
  | MyLEHelper, .uint64 => do return .uint64 (← MyLEHelper.readUint64)
  | MyBEHelper, .uint8 => do return .uint8 (← MyBEHelper.readUint8)
  | MyBEHelper, .uint16 => do return .uint16 (← MyBEHelper.readUint16)
  | MyBEHelper, .int16 => do return .int16 (← MyBEHelper.readInt16)
  | MyBEHelper, .uint32 => do return .uint32 (← MyBEHelper.readUint32)
  | MyBEHelper, .uint64 => do return .uint64 (← MyBEHelper.readUint64)
  | helper, .bits len => do
    let value ← helper.readBits len.value
    advance len.bytes
    return .bits value len

def writes (helper : Helper) : Buf → List Item → Except Fault Buf := List.foldlM helper.write

def reads (helper : Helper) : List Kind → Reader UInt8 Fault (List Item)
  | [] => pure []
  | kind :: kinds => do
    let item ← helper.read kind
    let items ← helper.reads kinds
    return item :: items

/-- The bytes of an item in the order of the helper. -/
def bytes : Helper → Item → Buf
  | MyLEHelper, item => item.lowBytes
  | MyBEHelper, item => item.lowBytes.reverse

end Helper

theorem length_bytes (helper : Helper) (item : Item) :
    (helper.bytes item).length = item.width := by
  have hlow : item.lowBytes.length = item.width := by
    cases item with
    | bits value len => exact len.length_wordBytes value
    | _ => rfl
  cases helper with
  | MyLEHelper => exact hlow
  | MyBEHelper => exact (List.length_reverse ..).trans hlow

/-- **A write** appends the bytes of its item. -/
theorem write_eq (helper : Helper) (buf : Buf) (item : Item) :
    helper.write buf item = .ok (buf ++ helper.bytes item) := by
  cases helper with
  | MyLEHelper =>
    cases item with
    | uint8 value => rfl
    | uint16 value => exact congrArg _ (MyLEHelper.writeUint16_eq buf value)
    | int16 value => exact congrArg _ (MyLEHelper.writeInt16_eq buf value)
    | uint32 value => exact congrArg _ (MyLEHelper.writeUint32_eq buf value)
    | uint64 value => exact congrArg _ (MyLEHelper.writeUint64_eq buf value)
    | bits value len => exact MyLEHelper.writeBits_eq buf value len
  | MyBEHelper =>
    cases item with
    | uint8 value => rfl
    | uint16 value => exact congrArg _ (MyBEHelper.writeUint16_eq buf value)
    | int16 value => exact congrArg _ (MyBEHelper.writeInt16_eq buf value)
    | uint32 value => exact congrArg _ (MyBEHelper.writeUint32_eq buf value)
    | uint64 value => exact congrArg _ (MyBEHelper.writeUint64_eq buf value)
    | bits value len => exact MyBEHelper.writeBits_eq buf value len

theorem peeks_bits (helper : Helper) (value : UInt64) (len : BitLength) :
    Peeks sizeMod (helper.readBits len.value) (helper.bytes (.bits value len))
      (len.reduce value) := by
  cases helper with
  | MyLEHelper => exact MyLEHelper.peeks_bits len value
  | MyBEHelper => exact MyBEHelper.peeks_bits len value

/-- **A read** of the bytes of an item gives the item. -/
theorem reads_item (helper : Helper) (item : Item) :
    Reads sizeMod (helper.read item.kind) (helper.bytes item) item.reduced := by
  have hbits : ∀ value len, Reads sizeMod (helper.read (.bits len))
      (helper.bytes (.bits value len)) (.bits (len.reduce value) len) := by
    intro value len
    have hlen := (length_bytes helper (.bits value len)).symm
    cases helper with
    | MyLEHelper => exact (peeks_bits .MyLEHelper value len).reads (MyLEHelper.reads_advance hlen _)
    | MyBEHelper => exact (peeks_bits .MyBEHelper value len).reads (MyLEHelper.reads_advance hlen _)
  cases helper with
  | MyLEHelper =>
    cases item with
    | uint8 value => exact (MyLEHelper.reads_uint8 value).bind_pure
    | uint16 value => exact (MyLEHelper.reads_uint16 value).bind_pure
    | int16 value => exact (MyLEHelper.reads_int16 value).bind_pure
    | uint32 value => exact (MyLEHelper.reads_uint32 value).bind_pure
    | uint64 value => exact (MyLEHelper.reads_uint64 value).bind_pure
    | bits value len => exact hbits value len
  | MyBEHelper =>
    cases item with
    | uint8 value => exact (MyBEHelper.reads_uint8 value).bind_pure
    | uint16 value => exact (MyBEHelper.reads_uint16 value).bind_pure
    | int16 value => exact (MyBEHelper.reads_int16 value).bind_pure
    | uint32 value => exact (MyBEHelper.reads_uint32 value).bind_pure
    | uint64 value => exact (MyBEHelper.reads_uint64 value).bind_pure
    | bits value len => exact hbits value len

theorem writes_eq (helper : Helper) (buf : Buf) (items : List Item) :
    helper.writes buf items = .ok (buf ++ (items.map helper.bytes).flatten) := by
  induction items generalizing buf with
  | nil =>
    rw [List.map_nil, List.flatten_nil, List.append_nil]
    rfl
  | cons item items ih =>
    rw [Helper.writes, List.foldlM_cons, write_eq, List.map_cons, List.flatten_cons,
      ← List.append_assoc, ← ih (buf ++ helper.bytes item)]
    rfl

theorem reads_items (helper : Helper) (items : List Item) :
    Reads sizeMod (helper.reads (items.map Item.kind)) (items.map helper.bytes).flatten
      (items.map Item.reduced) := by
  induction items with
  | nil => exact Reads.pure []
  | cons item items ih => exact (reads_item helper item).bind ih.bind_pure

theorem length_items (helper : Helper) (items : List Item) :
    (items.map helper.bytes).flatten.length = (items.map Item.width).sum := by
  induction items with
  | nil => rfl
  | cons item items ih =>
    rw [List.map_cons, List.flatten_cons, List.length_append, ih, length_bytes, List.map_cons,
      List.sum_cons]

/-- **Each helper is a pair of inverses.** Every list of writes to a buffer succeeds and leaves the
bytes that were there; from where they end the matching reads give the values that were written,
those of `write_bits` modulo `2 ^ bit_len`, and end at the end of the buffer. -/
theorem writes_reads (helper : Helper) (initial : Buf) (items : List Item)
    (hsize : initial.length + (items.map Item.width).sum < sizeMod) :
    ∃ written,
      helper.writes initial items = .ok (initial ++ written) ∧
      written.length = (items.map Item.width).sum ∧
      helper.reads (items.map Item.kind) (initial ++ written) initial.length =
        (.ok (items.map Item.reduced), (initial ++ written).length) := by
  refine ⟨(items.map helper.bytes).flatten, writes_eq helper initial items,
    length_items helper items, ?_⟩
  have hread := reads_items helper items initial []
  rw [List.append_nil, List.length_append, length_items] at hread
  rw [List.length_append, length_items]
  exact hread hsize

/-- Eleven bits between two numbers, in a buffer that is not empty. -/
theorem writes_reads_mixed :
    Helper.writes .MyBEHelper [0xAA] [.uint16 0x1234, .bits 0xFABC ⟨11, by decide, by decide⟩,
      .int16 (-2)] = .ok [0xAA, 0x12, 0x34, 0x02, 0xBC, 0xFF, 0xFE] ∧
    Helper.reads .MyBEHelper [.uint16, .bits ⟨11, by decide, by decide⟩, .int16]
      [0xAA, 0x12, 0x34, 0x02, 0xBC, 0xFF, 0xFE] 1 =
        (.ok [.uint16 0x1234, .bits 0x2BC ⟨11, by decide, by decide⟩, .int16 (-2)], 7) := by
  obtain ⟨written, hwritten, hlen, hread⟩ := writes_reads .MyBEHelper [0xAA]
    [.uint16 0x1234, .bits 0xFABC ⟨11, by decide, by decide⟩, .int16 (-2)] (by decide)
  have hvalue : Helper.writes .MyBEHelper [0xAA] [.uint16 0x1234,
      .bits 0xFABC ⟨11, by decide, by decide⟩, .int16 (-2)] =
        .ok [0xAA, 0x12, 0x34, 0x02, 0xBC, 0xFF, 0xFE] := by
    rfl
  have hbuf : [0xAA] ++ written = [0xAA, 0x12, 0x34, 0x02, 0xBC, 0xFF, 0xFE] :=
    Except.ok.inj (hwritten.symm.trans hvalue)
  rw [hbuf] at hread
  exact ⟨hvalue, hread⟩

end MyEndianHelper
