import FastCppServer.Searchlight.Stream

/-!
# The searchlight codec undoes itself

`encode` and `tryDecode` are inverse to each other, in both orders. Payloads that fit are decoded
from their frames in the order they were encoded (`drain_encodeAll`), and a frame that the decoder
takes from any buffer is the encoding of what it reads from it (`tryDecode_frame`): the two headers
and the command id are tested, the length byte is made again from its two parts
(`lengthByteOf_parts`) and the checksum is the one the encoder appends.
-/

namespace SearchlightControl

open Framing Bytes

/-! ## Decoding what was encoded -/

/-- The frames of the payloads, each with its counter, one behind the other. -/
def encodeAll (items : List (List Byte × Byte)) : List Byte :=
  (items.map fun item => encode kCmdId item.1 item.2).flatten

/-- Every payload fits into a frame. -/
def AllFit (items : List (List Byte × Byte)) : Prop :=
  ∀ item ∈ items, item.1.length ≤ kMaxPayloadLength

/-- Frames that fit are decoded one by one. -/
theorem scan_encodeAll {items : List (List Byte × Byte)} (h : AllFit items) :
    Scan lightFramer (encodeAll items) (items.map fun item => frameOf item.1 item.2) [] none := by
  induction items with
  | nil => exact .wait (show candidate [] = .wait from rfl)
  | cons item items ih =>
    have hitem : item.1.length ≤ kMaxPayloadLength := h item List.mem_cons_self
    have hitems : AllFit items := fun i hi => h i (List.mem_cons_of_mem item hi)
    exact scan_encode hitem item.2 (ih hitems)

/-- **Decoding after encoding.** -/
theorem drain_encodeAll {items : List (List Byte × Byte)} (h : AllFit items) :
    drain (encodeAll items) = { frames := items.map fun item => frameOf item.1 item.2 } := by
  obtain ⟨error, hs, he⟩ := drain_scan (encodeAll items)
  obtain ⟨hf, hb, rfl⟩ := hs.det (scan_encodeAll h)
  exact Received.ext hf he hb

/-! ## Encoding what was decoded -/

/-- The length byte is made again from the body length and the counter that are read from it. -/
theorem lengthByteOf_parts (b : Byte) : lengthByteOf (b &&& 0x3F) (b >>> 6 &&& 0x03) = b := by
  unfold lengthByteOf
  apply UInt8.eq_of_toBitVec_eq
  apply BitVec.eq_of_getLsbD_eq
  intro i hi
  interval_cases i <;> simp

/-- The encoder reads two bits of the counter. -/
theorem lengthByteOf_mask (l c : Byte) : lengthByteOf l (c &&& 0x03) = lengthByteOf l c := by
  unfold lengthByteOf
  rw [UInt8.and_assoc]
  rfl

/-- The encoder looks at the lower two bits of the counter only. -/
theorem encode_mask (cmdId : Byte) (payload : List Byte) (c : Byte) :
    encode cmdId payload (c &&& 0x03) = encode cmdId payload c := by
  simp only [encode, lengthByteOf_mask]

/-- The first bytes of a buffer with a preamble. -/
theorem PreambleAt.eq_cons {b : List Byte} (h : PreambleAt b) :
    b = kHeader0 :: kHeader1 :: kCmdId :: byteAt b 3 :: b.drop 4 := by
  obtain ⟨⟨-, h0, h1⟩, h4, h2, -⟩ := h
  match b, h4 with
  | b0 :: b1 :: b2 :: b3 :: rest, _ =>
    obtain rfl : b0 = kHeader0 := h0
    obtain rfl : b1 = kHeader1 := h1
    obtain rfl : b2 = kCmdId := h2
    rfl

section
variable {b : List Byte} (hp : PreambleAt b) (hle : totalLengthAt b ≤ b.length)
include hp

/-- The legal body length, as the number that the total length is made from. -/
theorem PreambleAt.totalLengthAt_eq :
    totalLengthAt b = (bodyLengthAt b).toNat + 3 ∧ (bodyLengthAt b).toNat ≤ 63 := by
  obtain ⟨-, -, -, hl, hu⟩ := hp
  have hl' : 2 ≤ (bodyLengthAt b).toNat := UInt8.le_iff_toNat_le.1 hl
  refine ⟨?_, UInt8.le_iff_toNat_le.1 hu⟩
  rw [totalLengthAt]
  omega

/-- The bytes in front of the checksum are those the encoder writes there. -/
theorem take_preamble :
    b.take (totalLengthAt b - 1) =
      [kHeader0, kHeader1, kCmdId, byteAt b 3] ++ (decodedFrame b (totalLengthAt b)).payload := by
  have h5 := five_le_totalLengthAt b
  have hn : totalLengthAt b - 1 = totalLengthAt b - 5 + 4 := by omega
  rw [hn, hp.eq_cons]
  simp only [List.take_succ_cons]
  rfl

include hle

/-- The body is two bytes longer than the payload that is decoded. -/
theorem decodedFrame_payload_length :
    (decodedFrame b (totalLengthAt b)).payload.length + 2 = (bodyLengthAt b).toNat := by
  obtain ⟨ht, -⟩ := hp.totalLengthAt_eq
  have h5 := five_le_totalLengthAt b
  show ((b.drop 4).take (totalLengthAt b - 5)).length + 2 = _
  rw [List.length_take, List.length_drop]
  omega

/-- A payload that is decoded would fit into a frame. -/
theorem decodedFrame_payload_fits :
    (decodedFrame b (totalLengthAt b)).payload.length ≤ kMaxPayloadLength := by
  have h := decodedFrame_payload_length hp hle
  have h63 := hp.totalLengthAt_eq.2
  rw [kMaxPayloadLength]
  omega

/-- The length byte that was received is the one the encoder would write. -/
theorem decodedFrame_lengthByte :
    (frameOf (decodedFrame b (totalLengthAt b)).payload
      (decodedFrame b (totalLengthAt b)).frameCounter).lengthByte = byteAt b 3 := by
  show lengthByteOf (UInt8.ofNat ((decodedFrame b (totalLengthAt b)).payload.length + 2)) _ = _
  rw [decodedFrame_payload_length hp hle, UInt8.ofNat_toNat]
  exact lengthByteOf_parts (byteAt b 3)

/-- **Encoding after decoding.** The bytes of an accepted frame are the encoding of its payload. -/
theorem encode_decodedFrame (heq : expectedAt b = actualAt b) :
    encode kCmdId (decodedFrame b (totalLengthAt b)).payload
        (decodedFrame b (totalLengthAt b)).frameCounter = b.take (totalLengthAt b) ∧
      decodedFrame b (totalLengthAt b) = frameOf (decodedFrame b (totalLengthAt b)).payload
        (decodedFrame b (totalLengthAt b)).frameCounter := by
  have h5 := five_le_totalLengthAt b
  have hfit := decodedFrame_payload_fits hp hle
  have hlength := decodedFrame_lengthByte hp hle
  have htake := take_preamble hp
  have hchecksum : (frameOf (decodedFrame b (totalLengthAt b)).payload
      (decodedFrame b (totalLengthAt b)).frameCounter).checksum = actualAt b := by
    rw [← heq, expectedAt, htake, ← hlength]
    rfl
  have hwhole : b.take (totalLengthAt b) = b.take (totalLengthAt b - 1) ++ [actualAt b] := by
    obtain ⟨n, hn⟩ : ∃ n, totalLengthAt b = n + 1 := ⟨totalLengthAt b - 1, by omega⟩
    rw [actualAt, hn, Nat.add_sub_cancel, List.take_add_one, byteAt,
      List.getElem?_eq_getElem (by omega), List.getD_eq_getElem b 0 (by omega)]
    rfl
  have hencode : encode kCmdId (decodedFrame b (totalLengthAt b)).payload
      (decodedFrame b (totalLengthAt b)).frameCounter = b.take (totalLengthAt b) := by
    rw [encode_eq hfit, hlength, hchecksum, hwhole, htake]
  have htotal : (decodedFrame b (totalLengthAt b)).payload.length + 5 = totalLengthAt b := by
    have h := decodedFrame_payload_length hp hle
    have ht := hp.totalLengthAt_eq.1
    omega
  have hcut : totalLengthAt b ≤ (b.take (totalLengthAt b)).length := by
    rw [List.length_take]
    omega
  refine ⟨hencode, ?_⟩
  rw [← decodedFrame_encode hfit, hencode, htotal,
    ← decodedFrame_append h5 hcut (b.drop (totalLengthAt b)), List.take_append_drop]

end

/-- **What `tryDecode` accepts.** In front of what it leaves stand dropped bytes and the encoding of
the frame it returns, and the frame is the one that encoding is decoded to. -/
theorem tryDecode_frame {buffer rest : List Byte} {frame : DecodedFrame} {error : String}
    (h : tryDecode buffer = (some frame, rest, error)) :
    ∃ junk, buffer = junk ++ encode kCmdId frame.payload frame.frameCounter ++ rest ∧
      frame = frameOf frame.payload frame.frameCounter ∧
      frame.payload.length ≤ kMaxPayloadLength ∧ error = "" := by
  obtain ⟨r, hs, ⟨-, ht⟩ | ⟨frame', n, hv, ht⟩ | ⟨e, -, ht⟩⟩ := tryDecode_spec buffer
  · rw [ht] at h; cases h
  · rw [ht] at h
    cases h
    have hd := candidate_decides r
    rw [hv] at hd
    cases hd with
    | frame hp hle heq =>
      obtain ⟨hencode, hframe⟩ := encode_decodedFrame hp hle heq
      obtain ⟨junk, hjunk⟩ := hs.suffix
      refine ⟨junk, ?_, hframe, decodedFrame_payload_fits hp hle, rfl⟩
      rw [hencode, List.append_assoc, List.take_append_drop, hjunk]
  · rw [ht] at h; cases h

/-! ## Both orders -/

/-- A payload that does not fit has no frame. -/
theorem encode_of_long {payload : List Byte} (h : kMaxPayloadLength < payload.length)
    (cmdId c : Byte) : encode cmdId payload c = [] := if_pos h

/-- **The codec.** Payloads that fit are decoded in their order, with their counters modulo 4, and
each decoded frame encodes to the bytes it came from; nothing is left and nothing reported. A longer
payload has no frame. An accepted frame is the encoding of its own payload and counter. -/
theorem codec_round_trip :
    (∀ items : List (List Byte × Byte), (∀ item ∈ items, item.1.length ≤ kMaxPayloadLength) →
      (drain (encodeAll items)).frames.map DecodedFrame.payload = items.map Prod.fst ∧
        ((drain (encodeAll items)).frames.map fun frame => frame.frameCounter.toNat) =
          (items.map fun item => item.2.toNat % 4) ∧
        ((drain (encodeAll items)).frames.map fun frame =>
            encode frame.cmdId frame.payload frame.frameCounter) =
          (items.map fun item => encode kCmdId item.1 item.2) ∧
        (drain (encodeAll items)).buffer = [] ∧ (drain (encodeAll items)).errors = []) ∧
      (∀ (cmdId : Byte) (payload : List Byte) (c : Byte), kMaxPayloadLength < payload.length →
        encode cmdId payload c = []) ∧
      ∀ (buffer : List Byte) (frame : DecodedFrame) (rest : List Byte) (error : String),
        tryDecode buffer = (some frame, rest, error) →
          error = "" ∧ frame = frameOf frame.payload frame.frameCounter ∧
            ∃ junk, buffer =
              junk ++ encode frame.cmdId frame.payload frame.frameCounter ++ rest := by
  refine ⟨fun items hfit => ?_, fun cmdId payload c h => encode_of_long h cmdId c, ?_⟩
  · rw [drain_encodeAll hfit]
    refine ⟨?_, ?_, ?_, rfl, rfl⟩
    · rw [List.map_map]
      rfl
    · rw [List.map_map]
      refine List.map_congr_left fun item _ => ?_
      exact toNat_and_three item.2
    · rw [List.map_map]
      refine List.map_congr_left fun item _ => ?_
      exact encode_mask kCmdId item.1 item.2
  · intro buffer frame rest error h
    obtain ⟨junk, hbuffer, hframe, -, herror⟩ := tryDecode_frame h
    have hcmd : frame.cmdId = kCmdId := by
      rw [hframe]
      rfl
    refine ⟨herror, hframe, junk, ?_⟩
    rw [hcmd]
    exact hbuffer

/-- Two payloads that hold the header themselves. -/
theorem codec_round_trip_headers :
    (drain (encodeAll [([0x55, 0xAA, 0xDC], 0xFF), ([0x55], 6)])).frames.map
      DecodedFrame.payload = [[0x55, 0xAA, 0xDC], [0x55]] ∧
    encode kCmdId (List.replicate 62 0x55) 0 = [] ∧
    ∃ junk, ([0x00, 0x55, 0x55, 0xAA, 0xDC, 0xC2, 0xC2, 0x07] : List Byte) =
      junk ++ encode 0xDC [] 3 ++ [0x07] :=
  ⟨(codec_round_trip.1 [([0x55, 0xAA, 0xDC], 0xFF), ([0x55], 6)] (by decide)).1,
    codec_round_trip.2.1 kCmdId (List.replicate 62 0x55) 0 (by decide),
    (codec_round_trip.2.2 [0x00, 0x55, 0x55, 0xAA, 0xDC, 0xC2, 0xC2, 0x07]
      { cmdId := 0xDC, lengthByte := 0xC2, bodyLength := 2, frameCounter := 3, checksum := 0xC2 }
      [0x07] "" (by decide)).2.2⟩

end SearchlightControl
