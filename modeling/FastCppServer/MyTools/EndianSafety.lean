import FastCppServer.MyTools.EndianRoundTrip

/-!
# Reading at any offset

Every read tests once whether the bytes it needs are there, then looks at them one by one. The test
adds in `size_t`: where the sum wraps around to a number that is not above the size, the test passes
and the reader looks past the end of the buffer. A reader's looks are taken together in `Spans`,
whatever the values are that it sees, so that each reader is one line, and what the test makes of it
is the same for all (`guarded_safe_iff`).
-/

namespace MyEndianHelper

open Cursor
open MyLEHelper (Buf Fault sizeMod BitLength ensureReadable peek advance check validateBitLength
  orBytes maskBits)
open MyBEHelper (shiftBytes)

variable {α : Type}

/-- The number of bytes that a read needs. -/
def Kind.width : Kind → Nat
  | .uint8 => 1
  | .uint16 => 2
  | .int16 => 2
  | .uint32 => 4
  | .uint64 => 8
  | .bits len => len.bytes

/-- A read of `n` bytes is safe: it throws, for want of bytes, and leaves the offset, or the bytes
are there and the offset moves behind them. A look past the end is neither. -/
def Safe (n : Nat) (buf : Buf) (offset : Nat) : Except Fault α × Nat → Prop
  | (.ok _, offset') => offset + n ≤ buf.length ∧ offset' = offset + n
  | (.error (.outOfRange _), offset') => buf.length < offset + n ∧ offset' = offset
  | (.error (.invalidArgument _), _) => False
  | (.error .undefined, _) => False

/-- The sum of the test wraps around to a number that is not above the size. -/
def WrapsInside (n : Nat) (buf : Buf) (offset : Nat) : Prop :=
  sizeMod ≤ offset + n ∧ offset + n - sizeMod ≤ buf.length

/-! ## The looks of a reader -/

/-- The reader looks at the bytes `is` from the offset on, and moves the offset by `n` when all of
them are there. -/
def Spans (r : Reader UInt8 Fault α) (is : List Nat) (n : Nat) : Prop :=
  ∀ buf offset, offset < sizeMod →
    ((∀ i ∈ is, (offset + i) % sizeMod < buf.length) →
      ∃ a, r buf offset = (.ok a, (offset + n) % sizeMod)) ∧
    ((∃ i ∈ is, buf.length ≤ (offset + i) % sizeMod) → r buf offset = (.error .undefined, offset))

namespace Spans

/-- Moving the offset reads nothing. -/
theorem advance (n : Nat) (a : α) :
    Spans (MyLEHelper.advance n >>= fun _ => Pure.pure a) [] n := by
  intro buf offset _
  constructor
  · intro _
    exact ⟨a, rfl⟩
  · rintro ⟨i, hi, _⟩
    cases hi

/-- **A look**, and what follows it. -/
theorem peek {i : Nat} {is : List Nat} {n : Nat} {f : UInt8 → Reader UInt8 Fault α}
    (h : ∀ b, Spans (f b) is n) : Spans (MyLEHelper.peek i >>= f) (i :: is) n := by
  intro buf offset hoffset
  by_cases hi : (offset + i) % sizeMod < buf.length
  · -- The byte is there: the reader goes on as `f` with it.
    obtain ⟨b, hb⟩ : ∃ b, buf[(offset + i) % sizeMod]? = some b :=
      ⟨_, List.getElem?_eq_getElem hi⟩
    have hpeek : MyLEHelper.peek i buf offset = (.ok b, offset) := by
      rw [MyLEHelper.peek, hb]
    obtain ⟨hall, hsome⟩ := h b buf offset hoffset
    rw [Reader.bind_ok hpeek]
    constructor
    · intro hin
      exact hall fun j hj => hin j (List.mem_cons_of_mem _ hj)
    · rintro ⟨j, hj, hout⟩
      rcases List.mem_cons.1 hj with rfl | hj
      · exact absurd hi (Nat.not_lt.2 hout)
      · exact hsome ⟨j, hj, hout⟩
  · have hnone : buf[(offset + i) % sizeMod]? = none :=
      List.getElem?_eq_none (Nat.not_lt.1 hi)
    have hpeek : MyLEHelper.peek i buf offset = (.error .undefined, offset) := by
      rw [MyLEHelper.peek, hnone]
    constructor
    · intro hin
      exact absurd (hin i (List.mem_cons_self ..)) hi
    · intro _
      exact Reader.bind_error hpeek f

/-- **The loop of `read_bits`**, little-endian. -/
theorem orBytes {is : List Nat} {n : Nat} {f : UInt64 → Reader UInt8 Fault α}
    (h : ∀ value, Spans (f value) [] n) (value : UInt64) :
    Spans (MyLEHelper.orBytes is value >>= f) is n := by
  induction is generalizing value with
  | nil => exact h value
  | cons i is ih =>
    rw [MyLEHelper.orBytes, Reader.bind_assoc]
    exact peek fun b => ih _

/-- The loop, big-endian. -/
theorem shiftBytes {is : List Nat} {n : Nat} {f : UInt64 → Reader UInt8 Fault α}
    (h : ∀ value, Spans (f value) [] n) (value : UInt64) :
    Spans (MyBEHelper.shiftBytes is value >>= f) is n := by
  induction is generalizing value with
  | nil => exact h value
  | cons i is ih =>
    rw [MyBEHelper.shiftBytes, Reader.bind_assoc]
    exact peek fun b => ih _

end Spans

/-! ## The test in front -/

section
variable {r : Reader UInt8 Fault α} {n : Nat} {buf : Buf} {offset : Nat}

/-- A guarded read of bytes that are not there throws and leaves the offset. -/
theorem guarded_throws (h : (offset + n) % sizeMod > buf.length) :
    (ensureReadable n >>= fun _ => r) buf offset =
      (.error (.outOfRange "buffer does not have enough bytes"), offset) := by
  have hensure : ensureReadable n buf offset =
      (.error (.outOfRange "buffer does not have enough bytes"), offset) := by
    rw [ensureReadable, if_pos h]
  exact Reader.bind_error hensure _

/-- With the bytes there the guard does nothing. -/
theorem guarded_passes (h : ¬ (offset + n) % sizeMod > buf.length) :
    (ensureReadable n >>= fun _ => r) buf offset = r buf offset := by
  have hensure : ensureReadable n buf offset = (.ok (), offset) := by
    rw [ensureReadable, if_neg h]
  exact Reader.bind_ok hensure _

/-- A sum that wraps once, written out. -/
theorem mod_wrapped (hn : n ≤ sizeMod) (hoffset : offset < sizeMod) (h : sizeMod ≤ offset + n) :
    (offset + n) % sizeMod = offset + n - sizeMod := by
  rw [Nat.mod_eq_sub_mod h, Nat.mod_eq_of_lt (by omega)]

/-- **A guarded read is safe** unless the sum of its test wraps inside the buffer. -/
theorem guarded_safe_iff (hr : Spans r (List.range n) n) (hn : n ≤ sizeMod)
    (hbuf : buf.length < sizeMod) (hoffset : offset < sizeMod) :
    Safe n buf offset ((ensureReadable n >>= fun _ => r) buf offset) ↔
      ¬ WrapsInside n buf offset := by
  obtain ⟨hall, hsome⟩ := hr buf offset hoffset
  rw [WrapsInside]
  by_cases hguard : (offset + n) % sizeMod > buf.length
  · -- The test refuses: too few bytes, since a sum never wraps upwards.
    have hle : (offset + n) % sizeMod ≤ offset + n := Nat.mod_le _ _
    rw [guarded_throws hguard]
    constructor
    · rintro _ ⟨hwrap, hinside⟩
      rw [mod_wrapped hn hoffset hwrap] at hguard
      omega
    · intro _
      exact ⟨by omega, rfl⟩
  · rw [guarded_passes hguard]
    by_cases hwrap : sizeMod ≤ offset + n
    · -- The byte in front of the wrap is not in any buffer.
      have hlast : (offset + (sizeMod - 1 - offset)) % sizeMod = sizeMod - 1 := by
        rw [Nat.add_sub_cancel' (by omega), Nat.mod_eq_of_lt (by omega)]
      have hout : ∃ i ∈ List.range n, buf.length ≤ (offset + i) % sizeMod := by
        refine ⟨sizeMod - 1 - offset, List.mem_range.2 (by omega), ?_⟩
        rw [hlast]
        omega
      rw [mod_wrapped hn hoffset hwrap] at hguard
      rw [hsome hout]
      constructor
      · exact False.elim
      · intro hno
        exact hno ⟨hwrap, by omega⟩
    · rw [Nat.mod_eq_of_lt (by omega)] at hguard hall
      obtain ⟨a, ha⟩ := hall fun i hi => by
        rw [List.mem_range] at hi
        rw [Nat.mod_eq_of_lt (by omega)]
        omega
      rw [ha]
      constructor
      · intro _ hboth
        exact hwrap hboth.1
      · intro _
        exact ⟨by omega, rfl⟩

end

/-! ## The readers -/

/-- A test, and a reader that looks at as many bytes. -/
def Guarded (n : Nat) (read : Reader UInt8 Fault α) : Prop :=
  ∃ r, Spans r (List.range n) n ∧ read = ensureReadable n >>= fun _ => r

/-- Computing with what was read changes neither the bytes read nor the offset. -/
theorem Spans.map {β : Type} {r : Reader UInt8 Fault α} {is : List Nat} {n : Nat}
    (h : Spans r is n) (f : α → β) : Spans (r >>= fun a => Pure.pure (f a)) is n := by
  intro buf offset hoffset
  obtain ⟨hall, hsome⟩ := h buf offset hoffset
  constructor
  · intro hin
    obtain ⟨a, ha⟩ := hall hin
    exact ⟨f a, Reader.bind_ok ha _⟩
  · intro hout
    exact Reader.bind_error (hsome hout) _

namespace Guarded

/-- So a guarded read followed by a computation is a guarded read of the same width. -/
theorem map {β : Type} {read : Reader UInt8 Fault α} {n : Nat} (h : Guarded n read) (f : α → β) :
    Guarded n (read >>= fun a => pure (f a)) := by
  obtain ⟨r, hr, rfl⟩ := h
  exact ⟨_, hr.map f, Reader.bind_assoc ..⟩

/-- The one byte read. -/
theorem uint8 : Guarded 1 MyLEHelper.readUint8 := ⟨_, .peek fun _ => .advance 1 _, rfl⟩

/-- The reads of two, four and eight bytes, little-endian. -/
theorem uint16 : Guarded 2 MyLEHelper.readUint16 :=
  ⟨_, .peek fun _ => .peek fun _ => .advance 2 _, rfl⟩

theorem uint32 : Guarded 4 MyLEHelper.readUint32 :=
  ⟨_, .peek fun _ => .peek fun _ => .peek fun _ => .peek fun _ => .advance 4 _, rfl⟩

theorem uint64 : Guarded 8 MyLEHelper.readUint64 :=
  ⟨_, .peek fun _ => .peek fun _ => .peek fun _ => .peek fun _ =>
    .peek fun _ => .peek fun _ => .peek fun _ => .peek fun _ => .advance 8 _, rfl⟩

/-- The same, big-endian. -/
theorem uint16_big : Guarded 2 MyBEHelper.readUint16 :=
  ⟨_, .peek fun _ => .peek fun _ => .advance 2 _, rfl⟩

theorem uint32_big : Guarded 4 MyBEHelper.readUint32 :=
  ⟨_, .peek fun _ => .peek fun _ => .peek fun _ => .peek fun _ => .advance 4 _, rfl⟩

theorem uint64_big : Guarded 8 MyBEHelper.readUint64 :=
  ⟨_, .peek fun _ => .peek fun _ => .peek fun _ => .peek fun _ =>
    .peek fun _ => .peek fun _ => .peek fun _ => .peek fun _ => .advance 8 _, rfl⟩

/-- A valid bit length is not refused. -/
theorem check_bits (len : BitLength) (f : Unit → Reader UInt8 Fault α) :
    check (validateBitLength len.value) >>= f = f () := by
  rw [len.validate]
  rfl

/-- Every width of either helper. -/
theorem bits (helper : Helper) (len : BitLength) :
    Guarded len.bytes (helper.read (.bits len)) := by
  cases helper with
  | MyLEHelper =>
    refine ⟨_, Spans.orBytes (fun value => .advance len.bytes (Item.bits (maskBits len.value value)
      len)) 0, ?_⟩
    show MyLEHelper.readBits len.value >>= _ = _
    rw [MyLEHelper.readBits, check_bits, Reader.bind_assoc]
    exact congrArg _ (funext fun _ => Reader.bind_assoc ..)
  | MyBEHelper =>
    refine ⟨_, Spans.shiftBytes (fun value => .advance len.bytes (Item.bits (maskBits len.value
      value) len)) 0, ?_⟩
    show MyBEHelper.readBits len.value >>= _ = _
    rw [MyBEHelper.readBits, check_bits, Reader.bind_assoc]
    exact congrArg _ (funext fun _ => Reader.bind_assoc ..)

/-- **Every read** is a test and its looks. -/
theorem read (helper : Helper) (kind : Kind) : Guarded kind.width (helper.read kind) := by
  cases kind with
  | uint8 =>
    cases helper with
    | MyLEHelper => exact uint8.map _
    | MyBEHelper => exact uint8.map _
  | uint16 =>
    cases helper with
    | MyLEHelper => exact uint16.map _
    | MyBEHelper => exact uint16_big.map _
  | int16 =>
    cases helper with
    | MyLEHelper => exact (uint16.map _).map _
    | MyBEHelper => exact (uint16_big.map _).map _
  | uint32 =>
    cases helper with
    | MyLEHelper => exact uint32.map _
    | MyBEHelper => exact uint32_big.map _
  | uint64 =>
    cases helper with
    | MyLEHelper => exact uint64.map _
    | MyBEHelper => exact uint64_big.map _
  | bits len => exact bits helper len

end Guarded

/-- No kind of value is wider than eight bytes. -/
theorem Kind.width_le (kind : Kind) : kind.width ≤ 8 := by
  cases kind with
  | bits len => exact len.bytes_spec.2.1
  | _ => exact of_decide_eq_true rfl

/-- A bit length that is refused. -/
theorem readBits_refuses (helper : Helper) {bitLen : Int} (h : bitLen ≤ 0 ∨ bitLen > 64) (buf : Buf)
    (offset : Nat) :
    helper.readBits bitLen buf offset =
      (.error (.invalidArgument "bit_len must be in range [1, 64]"), offset) := by
  have hcheck : check (validateBitLength bitLen) buf offset =
      (.error (.invalidArgument "bit_len must be in range [1, 64]"), offset) := by
    rw [check, validateBitLength, if_pos h]
  cases helper with
  | MyLEHelper => exact Reader.bind_error hcheck _
  | MyBEHelper => exact Reader.bind_error hcheck _

/-- **When a read is safe.** Each read of either helper throws with the offset unchanged where bytes
are missing, and else indexes the buffer inside its bounds and moves the offset by its width, unless
the sum of its test wraps around to a number that is not above the size. A bit length that is no
width is refused at every offset. -/
theorem read_safe_iff (helper : Helper) (kind : Kind) {buf : Buf} {offset : Nat}
    (hbuf : buf.length < sizeMod) (hoffset : offset < sizeMod) :
    (Safe kind.width buf offset (helper.read kind buf offset) ↔
      ¬ WrapsInside kind.width buf offset) ∧
    ∀ bitLen, bitLen ≤ 0 ∨ bitLen > 64 → helper.readBits bitLen buf offset =
      (.error (.invalidArgument "bit_len must be in range [1, 64]"), offset) := by
  obtain ⟨r, hr, hread⟩ := Guarded.read helper kind
  have hwidth : kind.width ≤ sizeMod := Nat.le_trans kind.width_le (by decide)
  rw [hread]
  exact ⟨guarded_safe_iff hr hwidth hbuf hoffset,
    fun bitLen h => readBits_refuses helper h buf offset⟩

/-- At the last offset the test of one byte wraps to zero. -/
theorem read_safe_last : MyLEHelper.readUint8 [] (2 ^ 64 - 1) = (.error .undefined, 2 ^ 64 - 1) ∧
    ¬ Safe 1 [] (2 ^ 64 - 1) (Helper.MyLEHelper.read .uint8 [] (2 ^ 64 - 1)) ∧
    Safe 2 [0x34, 0x12] 0 (Helper.MyBEHelper.read .uint16 [0x34, 0x12] 0) := by
  have hlast := (@read_safe_iff .MyLEHelper .uint8 [] (2 ^ 64 - 1) (by decide) (by decide)).1
  have hfirst := (@read_safe_iff .MyBEHelper .uint16 [0x34, 0x12] 0 (by decide) (by decide)).1
  refine ⟨by rfl, ?_, hfirst.2 ?_⟩
  · intro hsafe
    exact hlast.1 hsafe ⟨by decide, by decide⟩
  · rintro ⟨hwrap, _⟩
    revert hwrap
    decide

/-- Not every read at every offset is safe. -/
theorem read_unsafe : ¬ ∀ (helper : Helper) (kind : Kind) (buf : Buf) (offset : Nat),
    buf.length < sizeMod → offset < sizeMod →
      Safe kind.width buf offset (helper.read kind buf offset) := by
  intro h
  have hlast := h .MyLEHelper .uint8 [] (2 ^ 64 - 1) (by decide) (by decide)
  have hread : Helper.MyLEHelper.read .uint8 [] (2 ^ 64 - 1) =
      (.error .undefined, 2 ^ 64 - 1) := by
    rfl
  rw [hread] at hlast
  exact hlast

end MyEndianHelper
