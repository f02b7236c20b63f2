import FastCppServer.Searchlight.Protocol
import Mathlib.Tactic.IntervalCases

/-!
# The searchlight receive path

`tryDecode` takes one decision after the other at the front of the receive buffer (`candidate`), so
the decoder is a framer (`lightFramer`) and its loops compute the framer's scan (`tryDecode_spec`,
`drain_scan`). An unknown command id, an illegal length and a wrong checksum clear the whole buffer,
so that no frame is cut at a wrong place: the scan fails there, and what is decoded behind such an
error depends on which bytes had come by then. Up to the first error it does not
(`receive_chunking`).
-/

namespace SearchlightControl

open Framing Bytes

/-! ## The decoder as a framer -/

/-- Two header bytes stand at the front. -/
def HeaderAt (b : List Byte) : Prop :=
  2 ≤ b.length ∧ byteAt b 0 = kHeader0 ∧ byteAt b 1 = kHeader1

/-- The body length in the length byte. -/
def bodyLengthAt (b : List Byte) : Byte := byteAt b 3 &&& 0x3F

/-- The length of the whole frame that the length byte tells. -/
def totalLengthAt (b : List Byte) : Nat := (bodyLengthAt b).toNat - 2 + 5

/-- The command id is known and the length byte is legal. -/
def PreambleAt (b : List Byte) : Prop :=
  HeaderAt b ∧ 4 ≤ b.length ∧ byteAt b 2 = kCmdId ∧ 2 ≤ bodyLengthAt b ∧ bodyLengthAt b ≤ 63

/-- The checksum the frame at the front should have, and the one it has. -/
def expectedAt (b : List Byte) : Byte := checksum (b.take (totalLengthAt b - 1))

/-- The checksum that a frame at the front carries. -/
def actualAt (b : List Byte) : Byte := byteAt b (totalLengthAt b - 1)

/-- The decision of the decoder at the front of its buffer. -/
def candidate (buffer : List Byte) : Verdict DecodedFrame String :=
  if buffer.length < 2 then .wait
  else if byteAt buffer 0 = kHeader0 ∧ byteAt buffer 1 = kHeader1 then examine buffer
  else .skip 1

/-- The decision of the decoder, one constructor for each way it is taken. -/
inductive Decides (b : List Byte) : Verdict DecodedFrame String → Prop
  | tooShort : b.length < 2 → Decides b .wait
  | junk : 2 ≤ b.length → ¬ HeaderAt b → Decides b (.skip 1)
  | short : HeaderAt b → b.length < 4 → Decides b .wait
  | unknownCmdId : HeaderAt b → 4 ≤ b.length → byteAt b 2 ≠ kCmdId →
      Decides b (.fail unknownCmdIdText)
  | illegalLength : HeaderAt b → 4 ≤ b.length → byteAt b 2 = kCmdId →
      ¬ (2 ≤ bodyLengthAt b ∧ bodyLengthAt b ≤ 63) → Decides b (.fail illegalLengthText)
  | incomplete : PreambleAt b → b.length < totalLengthAt b → Decides b .wait
  | badChecksum : PreambleAt b → totalLengthAt b ≤ b.length → expectedAt b ≠ actualAt b →
      Decides b (.fail (checksumText (expectedAt b) (actualAt b)))
  | frame : PreambleAt b → totalLengthAt b ≤ b.length → expectedAt b = actualAt b →
      Decides b (.emit (decodedFrame b (totalLengthAt b)) (totalLengthAt b))

/-- Behind a header the verdict is that of the examination. -/
theorem candidate_of_header {b : List Byte} (hh : HeaderAt b) : candidate b = examine b := by
  simp only [candidate, Nat.not_lt.2 hh.1, hh.2, and_self, if_true, if_false]

/-- Behind a header with the command id and a length that is allowed, the frame waits to be
complete, and then its checksum decides. -/
theorem examine_of_preamble {b : List Byte} (hp : PreambleAt b) :
    examine b =
      if b.length < totalLengthAt b then .wait
      else if expectedAt b ≠ actualAt b then .fail (checksumText (expectedAt b) (actualAt b))
      else .emit (decodedFrame b (totalLengthAt b)) (totalLengthAt b) := by
  obtain ⟨-, h4, hc, hl, hu⟩ := hp
  have hlen : ¬ (byteAt b 3 &&& 0x3F < 2 ∨ byteAt b 3 &&& 0x3F > 63) :=
    not_or.2 ⟨UInt8.not_lt.2 hl, UInt8.not_lt.2 hu⟩
  rw [examine, if_neg (Nat.not_lt.2 h4), if_neg (not_not.2 hc)]
  exact if_neg hlen

/-- The verdict on a buffer is the one that is told here. -/
theorem Decides.eq {b : List Byte} {v : Verdict DecodedFrame String} (h : Decides b v) :
    candidate b = v := by
  cases h with
  | tooShort h2 => simp [candidate, h2]
  | junk h2 hh =>
    have : ¬ (byteAt b 0 = kHeader0 ∧ byteAt b 1 = kHeader1) := fun h => hh ⟨h2, h⟩
    simp [candidate, this, show ¬ b.length < 2 by omega]
  | short hh h4 => rw [candidate_of_header hh, examine, if_pos h4]
  | unknownCmdId hh h4 hc =>
    rw [candidate_of_header hh, examine, if_neg (Nat.not_lt.2 h4), if_pos hc]
  | illegalLength hh h4 hc hl =>
    have hl' : byteAt b 3 &&& 0x3F < 2 ∨ byteAt b 3 &&& 0x3F > 63 := by
      rcases not_and_or.1 hl with hl | hl
      · exact .inl (UInt8.not_le.1 hl)
      · exact .inr (UInt8.not_le.1 hl)
    rw [candidate_of_header hh, examine, if_neg (Nat.not_lt.2 h4), if_neg (not_not.2 hc)]
    exact if_pos hl'
  | incomplete hp hlt => rw [candidate_of_header hp.1, examine_of_preamble hp, if_pos hlt]
  | badChecksum hp hle hne =>
    rw [candidate_of_header hp.1, examine_of_preamble hp, if_neg (Nat.not_lt.2 hle), if_pos hne]
  | frame hp hle heq =>
    rw [candidate_of_header hp.1, examine_of_preamble hp, if_neg (Nat.not_lt.2 hle),
      if_neg (not_not.2 heq)]

/-- Each buffer has a verdict, and the buffer says which. -/
theorem candidate_decides (b : List Byte) : Decides b (candidate b) := by
  have total : ∃ v, Decides b v := by
    by_cases h2 : b.length < 2
    · exact ⟨_, .tooShort h2⟩
    by_cases hh : HeaderAt b
    swap
    · exact ⟨_, .junk (by omega) hh⟩
    by_cases h4 : b.length < 4
    · exact ⟨_, .short hh h4⟩
    by_cases hc : byteAt b 2 = kCmdId
    swap
    · exact ⟨_, .unknownCmdId hh (by omega) hc⟩
    by_cases hl : 2 ≤ bodyLengthAt b ∧ bodyLengthAt b ≤ 63
    swap
    · exact ⟨_, .illegalLength hh (by omega) hc hl⟩
    have hp : PreambleAt b := ⟨hh, by omega, hc, hl⟩
    by_cases hlt : b.length < totalLengthAt b
    · exact ⟨_, .incomplete hp hlt⟩
    by_cases heq : expectedAt b = actualAt b
    · exact ⟨_, .frame hp (by omega) heq⟩
    · exact ⟨_, .badChecksum hp (by omega) heq⟩
  obtain ⟨v, hv⟩ := total
  rwa [hv.eq]

/-- The first two bytes tell whether there is a header, whatever comes behind them. -/
theorem headerAt_append {b : List Byte} (h2 : 2 ≤ b.length) (x : List Byte) :
    HeaderAt (b ++ x) ↔ HeaderAt b := by
  simp only [HeaderAt, byteAt_append_left (show 0 < b.length by omega),
    byteAt_append_left (show 1 < b.length by omega), List.length_append, h2,
    show 2 ≤ b.length + x.length by omega]

/-- The length byte is the fourth one. -/
theorem bodyLengthAt_append {b : List Byte} (h4 : 4 ≤ b.length) (x : List Byte) :
    bodyLengthAt (b ++ x) = bodyLengthAt b := by
  rw [bodyLengthAt, byteAt_append_left (by omega), bodyLengthAt]

/-- So is the length of the frame. -/
theorem totalLengthAt_append {b : List Byte} (h4 : 4 ≤ b.length) (x : List Byte) :
    totalLengthAt (b ++ x) = totalLengthAt b := by
  rw [totalLengthAt, bodyLengthAt_append h4, totalLengthAt]

/-- A frame has five bytes around its payload. -/
theorem five_le_totalLengthAt (b : List Byte) : 5 ≤ totalLengthAt b := Nat.le_add_left _ _

/-- More bytes behind the preamble do not change it. -/
theorem PreambleAt.append {b : List Byte} (h : PreambleAt b) (x : List Byte) :
    PreambleAt (b ++ x) := by
  obtain ⟨hh, h4, hc, hl⟩ := h
  refine ⟨(headerAt_append hh.1 x).2 hh, by rw [List.length_append]; omega, ?_, ?_⟩
  · rwa [byteAt_append_left (by omega)]
  · rwa [bodyLengthAt_append h4]

/-- What is decoded of the first bytes does not depend on those behind them. -/
theorem decodedFrame_append {b : List Byte} {n : Nat} (h5 : 5 ≤ n) (hn : n ≤ b.length)
    (x : List Byte) : decodedFrame (b ++ x) n = decodedFrame b n := by
  have hdrop : ((b ++ x).drop 4).take (n - 5) = (b.drop 4).take (n - 5) := by
    rw [List.drop_append_of_le_length (by omega), List.take_append_of_le_length]
    rw [List.length_drop]; omega
  simp only [decodedFrame, hdrop, byteAt_append_left (show 2 < b.length by omega),
    byteAt_append_left (show 3 < b.length by omega),
    byteAt_append_left (show n - 1 < b.length by omega)]

/-- **A decision does not change when more bytes arrive.** Each is taken on bytes that are there. -/
theorem candidate_append {b : List Byte} (x : List Byte) (h : candidate b ≠ .wait) :
    candidate (b ++ x) = candidate b := by
  have hd := candidate_decides b
  generalize candidate b = v at hd h ⊢
  refine Decides.eq ?_
  have hlen : (b ++ x).length = b.length + x.length := List.length_append
  have hsum : 4 ≤ b.length → totalLengthAt b ≤ b.length →
      expectedAt (b ++ x) = expectedAt b ∧ actualAt (b ++ x) = actualAt b := by
    intro h4 hle
    have h5 := five_le_totalLengthAt b
    rw [expectedAt, actualAt, totalLengthAt_append h4, byteAt_append_left (by omega),
      List.take_append_of_le_length (by omega)]
    exact ⟨rfl, rfl⟩
  cases hd with
  | tooShort | short | incomplete => exact absurd rfl h
  | junk h2 hh => exact .junk (by omega) (by rwa [headerAt_append h2])
  | unknownCmdId hh h4 hc =>
    refine .unknownCmdId ((headerAt_append hh.1 x).2 hh) (by omega) ?_
    rwa [byteAt_append_left (by omega)]
  | illegalLength hh h4 hc hl =>
    refine .illegalLength ((headerAt_append hh.1 x).2 hh) (by omega) ?_ ?_
    · rwa [byteAt_append_left (by omega)]
    · rwa [bodyLengthAt_append h4]
  | badChecksum hp hle hne =>
    obtain ⟨he, ha⟩ := hsum hp.2.1 hle
    rw [← he, ← ha] at hne ⊢
    exact .badChecksum (hp.append x) (by rw [totalLengthAt_append hp.2.1]; omega) hne
  | frame hp hle heq =>
    obtain ⟨he, ha⟩ := hsum hp.2.1 hle
    rw [← he, ← ha] at heq
    have ht := totalLengthAt_append hp.2.1 x
    rw [← decodedFrame_append (five_le_totalLengthAt b) hle x, ← ht]
    exact .frame (hp.append x) (by omega) heq

/-- The decoder as a framer. -/
def lightFramer : Framer Byte DecodedFrame String where
  verdict := candidate
  skip_bounds := by
    intro b n h
    have hd := candidate_decides b
    rw [h] at hd
    cases hd with
    | junk h2 _ => omega
  emit_bounds := by
    intro b a n h
    have hd := candidate_decides b
    rw [h] at hd
    cases hd with
    | frame hp hle _ => have := five_le_totalLengthAt b; omega
  stable := fun x h => candidate_append x h

/-! ## The loops compute the scan -/

/-- `tryDecode`'s loop drops the bytes the framer skips, up to a header or the last byte. -/
theorem dropToHeader_spec (b : List Byte) :
    Skips lightFramer b (dropToHeader b) ∧
      ((dropToHeader b).length < 2 ∨ HeaderAt (dropToHeader b)) := by
  induction b with
  | nil => exact ⟨.refl, .inl (by decide)⟩
  | cons b0 rest ih =>
    cases rest with
    | nil => exact ⟨.refl, .inl (Nat.lt_succ_self 1)⟩
    | cons b1 rest =>
      unfold dropToHeader
      by_cases hh : b0 = kHeader0 ∧ b1 = kHeader1
      · rw [if_pos hh]
        exact ⟨.refl, .inr ⟨by simp, hh⟩⟩
      · rw [if_neg hh]
        have hj : Decides (b0 :: b1 :: rest) (.skip 1) := .junk (by simp) (fun h => hh h.2)
        exact ⟨.skip (n := 1) hj.eq ih.1, ih.2⟩

/-- **`tryDecode`.** It skips to the first buffer it waits on, takes a frame from, or clears with an
error. -/
theorem tryDecode_spec (b : List Byte) :
    ∃ r, Skips lightFramer b r ∧
      ((candidate r = .wait ∧ tryDecode b = (none, r, "")) ∨
        (∃ frame n, candidate r = .emit frame n ∧ tryDecode b = (some frame, r.drop n, "")) ∨
        ∃ error, candidate r = .fail error ∧ tryDecode b = (none, [], error)) := by
  obtain ⟨hs, hr⟩ := dropToHeader_spec b
  refine ⟨dropToHeader b, hs, ?_⟩
  rcases hr with hlt | hh
  · have hw : Decides (dropToHeader b) .wait := .tooShort hlt
    refine .inl ⟨hw.eq, ?_⟩
    simp only [tryDecode, examine, if_pos (show (dropToHeader b).length < 4 by omega)]
  · have hc := candidate_of_header hh
    have hd := candidate_decides (dropToHeader b)
    simp only [tryDecode, ← hc]
    cases hv : candidate (dropToHeader b) with
    | wait => exact .inl ⟨rfl, rfl⟩
    | emit frame n => exact .inr (.inl ⟨frame, n, rfl, rfl⟩)
    | fail error => exact .inr (.inr ⟨error, rfl, rfl⟩)
    | skip n =>
      -- a header is never skipped
      rw [hv] at hd
      cases hd with
      | junk _ hn => exact absurd hh hn

/-- The text of a checksum error is not empty: it begins in the same way each time. -/
theorem checksumText_ne_empty (expected actual : Byte) : checksumText expected actual ≠ "" := by
  intro h
  have hend := (String.append_eq_empty_iff.1 h).2
  exact absurd hend (by decide)

/-- The texts of errors are not empty. -/
theorem error_ne_empty {b : List Byte} {error : String} (h : candidate b = .fail error) :
    error ≠ "" := by
  have hd := candidate_decides b
  rw [h] at hd
  cases hd with
  | unknownCmdId => decide
  | illegalLength => decide
  | badChecksum => exact checksumText_ne_empty _ _

/-- Decoding until nothing is found is scanning the buffer. There is one error at most, which is the
last thing. -/
theorem drainLoop_scan (fuel : Nat) (b : List Byte) (hf : b.length < fuel) :
    ∃ error : Option String,
      Scan lightFramer b (drainLoop fuel b).frames (drainLoop fuel b).buffer error ∧
        (drainLoop fuel b).errors = error.toList := by
  induction fuel generalizing b with
  | zero => omega
  | succ fuel ih =>
    obtain ⟨r, hs, ⟨hv, ht⟩ | ⟨frame, n, hv, ht⟩ | ⟨error, hv, ht⟩⟩ := tryDecode_spec b
    · simp only [drainLoop, ht]
      exact ⟨none, hs.scan (.wait hv), rfl⟩
    · have hb : 0 < n ∧ n ≤ r.length := lightFramer.emit_bounds hv
      have hle := hs.length_le
      obtain ⟨error, hscan, he⟩ := ih (r.drop n) (by rw [List.length_drop]; omega)
      simp only [drainLoop, ht]
      exact ⟨error, hs.scan (.emit hv hscan), he⟩
    · simp only [drainLoop, ht, if_neg (error_ne_empty hv)]
      exact ⟨some error, hs.scan (.fail hv), rfl⟩

/-- **Draining computes the scan of the buffer**, and reports the error that ended it. -/
theorem drain_scan (b : List Byte) : ∃ error : Option String,
    Scan lightFramer b (drain b).frames (drain b).buffer error ∧
      (drain b).errors = error.toList :=
  drainLoop_scan _ b (by omega)

/-- The read loop computes the chunk-wise scan. -/
theorem receive_scan (b : List Byte) (chunks : List (List Byte)) :
    ScanChunks lightFramer b chunks (receive b chunks).frames (receive b chunks).buffer
      (receive b chunks).errors := by
  induction chunks generalizing b with
  | nil => exact .nil
  | cons chunk chunks ih =>
    obtain ⟨error, hscan, he⟩ := drain_scan (b ++ chunk)
    simp only [receive, he]
    exact .cons hscan (ih _)

/-- **Chunking and errors.** A stream that decodes without error gives the same frames and leaves
the same bytes however it is cut. In general the frames decoded from the whole stream come first
under every cut; the error that follows them there, if one does, cleared the buffer. -/
theorem receive_chunking (chunks : List (List Byte)) :
    ((drain chunks.flatten).errors = [] → receive [] chunks = drain chunks.flatten) ∧
      (drain chunks.flatten).frames <+: (receive [] chunks).frames ∧
      ((drain chunks.flatten).errors ≠ [] → (drain chunks.flatten).buffer = []) := by
  have hw : lightFramer.verdict [] = .wait := rfl
  have hr := receive_scan [] chunks
  obtain ⟨error, hscan, he⟩ := drain_scan chunks.flatten
  refine ⟨fun hne => ?_, hr.prefix hw hscan, fun hne => ?_⟩
  · obtain rfl : error = none := by
      cases error with
      | none => rfl
      | some e => rw [he] at hne; cases hne
    obtain ⟨h1, h2, h3⟩ := hr.eq_of_scan hw hscan
    exact Received.ext h1 (h3.trans hne.symm) h2
  · exact hscan.rest_eq_nil (fun h => hne (by rw [he, h]; rfl))

/-- A frame cut in its header is decoded as the whole is. -/
theorem receive_chunking_cut :
    receive [] [[0x55], [0xAA, 0xDC, 0x02], [0x02]] =
      drain [[0x55], [0xAA, 0xDC, 0x02], [0x02]].flatten :=
  (receive_chunking [[0x55], [0xAA, 0xDC, 0x02], [0x02]]).1 (by decide)

/-- A frame with a wrong checksum discards the intact frame behind it, if both came in one chunk. -/
theorem chunking_matters :
    ¬ ∀ chunks, (receive [] chunks).frames = (drain chunks.flatten).frames := by
  intro h
  exact absurd (h [[0x55, 0xAA, 0xDC, 0x02, 0xFF], [0x55, 0xAA, 0xDC, 0x02, 0x02]]) (by decide)

/-! ## Encoded frames -/

/-- The lower six bits of the length byte are the body length. -/
theorem bodyLength_bits (l c : Byte) : lengthByteOf l c &&& 0x3F = l &&& 0x3F := by
  unfold lengthByteOf
  apply UInt8.eq_of_toBitVec_eq
  apply BitVec.eq_of_getLsbD_eq
  intro i hi
  interval_cases i <;> simp

/-- The upper two bits are the counter. -/
theorem frameCounter_bits (l c : Byte) : lengthByteOf l c >>> 6 &&& 0x03 = c &&& 0x03 := by
  unfold lengthByteOf
  apply UInt8.eq_of_toBitVec_eq
  apply BitVec.eq_of_getLsbD_eq
  intro i hi
  interval_cases i <;> simp

/-- A body length of at most 63 fits into six bits. -/
theorem bodyLength_mask {l : Byte} (h : l ≤ 63) : l &&& 0x3F = l := by
  apply UInt8.toNat_inj.1
  rw [UInt8.toNat_and]
  have := Nat.and_two_pow_sub_one_eq_mod l.toNat 6
  have h' := UInt8.le_iff_toNat_le.1 h
  simp at this h' ⊢
  omega

/-- The low two bits. -/
theorem toNat_and_three (c : Byte) : (c &&& 0x03).toNat = c.toNat % 4 := by
  rw [UInt8.toNat_and]
  exact Nat.and_two_pow_sub_one_eq_mod c.toNat 2

/-- The frame the decoder makes of an encoded payload. -/
def frameOf (payload : List Byte) (frameCounter : Byte) : DecodedFrame :=
  let bodyLength := UInt8.ofNat (payload.length + 2)
  let lengthByte := lengthByteOf bodyLength frameCounter
  { cmdId := kCmdId
    lengthByte
    bodyLength
    frameCounter := frameCounter &&& 0x03
    payload
    checksum := checksum ([kHeader0, kHeader1, kCmdId, lengthByte] ++ payload) }

/-- A payload that fits is encoded as the frame of it: header, command id, length byte, payload and
checksum. -/
theorem encode_eq {payload : List Byte} (h : payload.length ≤ kMaxPayloadLength) (c : Byte) :
    encode kCmdId payload c =
      [kHeader0, kHeader1, kCmdId, (frameOf payload c).lengthByte] ++ payload ++
        [(frameOf payload c).checksum] := by
  rw [encode, if_neg (Nat.not_lt.2 h)]
  rfl

section
variable {payload : List Byte} (h : payload.length ≤ kMaxPayloadLength) (c : Byte)
include h

/-- A frame has five bytes around its payload. -/
theorem encode_length : (encode kCmdId payload c).length = payload.length + 5 := by
  simp [encode_eq h]

/-- The body is two bytes longer than the payload: the command id and the length byte are counted
with it. -/
theorem bodyLength_toNat : (UInt8.ofNat (payload.length + 2)).toNat = payload.length + 2 := by
  rw [kMaxPayloadLength] at h
  exact UInt8.toNat_ofNat_of_lt' (show payload.length + 2 < 256 by omega)

/-- The body length of a payload that fits is at most 63. -/
theorem bodyLength_le : UInt8.ofNat (payload.length + 2) ≤ 63 := by
  rw [UInt8.le_iff_toNat_le, bodyLength_toNat h]
  rw [kMaxPayloadLength] at h
  exact Nat.add_le_add_right h 2

/-- The body length is read back from the length byte. -/
theorem bodyLengthAt_encode :
    bodyLengthAt (encode kCmdId payload c) = UInt8.ofNat (payload.length + 2) := by
  rw [encode_eq h]
  show lengthByteOf (UInt8.ofNat (payload.length + 2)) c &&& 0x3F = _
  rw [bodyLength_bits, bodyLength_mask (bodyLength_le h)]

/-- The decoder finds the length that the encoder has written. -/
theorem totalLengthAt_encode :
    totalLengthAt (encode kCmdId payload c) = payload.length + 5 := by
  rw [totalLengthAt, bodyLengthAt_encode h, bodyLength_toNat h]
  omega

/-- What is encoded begins with a preamble. -/
theorem preambleAt_encode : PreambleAt (encode kCmdId payload c) := by
  have hlen := encode_length h c
  refine ⟨⟨by omega, ?_, ?_⟩, by omega, ?_, ?_, ?_⟩
  · rw [encode_eq h]; rfl
  · rw [encode_eq h]; rfl
  · rw [encode_eq h]; rfl
  · rw [bodyLengthAt_encode h, UInt8.le_iff_toNat_le, bodyLength_toNat h]
    exact Nat.le_add_left 2 _
  · rw [bodyLengthAt_encode h]
    exact bodyLength_le h

/-- The checksum that is carried is the one that the encoder has made. -/
theorem actualAt_encode : actualAt (encode kCmdId payload c) = (frameOf payload c).checksum := by
  rw [actualAt, totalLengthAt_encode h, encode_eq h, byteAt_append_right (by simp)]
  simp

/-- It is the one that the decoder expects. -/
theorem expectedAt_encode :
    expectedAt (encode kCmdId payload c) = (frameOf payload c).checksum := by
  rw [expectedAt, totalLengthAt_encode h, encode_eq h, List.take_left' (by simp)]
  rfl

/-- What is decoded of an encoded frame is the frame. -/
theorem decodedFrame_encode :
    decodedFrame (encode kCmdId payload c) (payload.length + 5) = frameOf payload c := by
  have hchk : byteAt (encode kCmdId payload c) (payload.length + 5 - 1) =
      (frameOf payload c).checksum := by
    rw [← actualAt_encode h, actualAt, totalLengthAt_encode h]
  have hbody : byteAt (encode kCmdId payload c) 3 &&& 0x3F = (frameOf payload c).bodyLength :=
    bodyLengthAt_encode h c
  have hcounter : byteAt (encode kCmdId payload c) 3 >>> 6 &&& 0x03 = c &&& 0x03 := by
    rw [encode_eq h]
    exact frameCounter_bits _ c
  have hdrop : ((encode kCmdId payload c).drop 4).take (payload.length + 5 - 5) = payload := by
    rw [encode_eq h]
    simp
  unfold decodedFrame
  dsimp only
  rw [hchk, hbody, hcounter, hdrop, encode_eq h]
  rfl

/-- **An encoded payload at the front is decoded**, whatever follows it. -/
theorem candidate_encode (x : List Byte) : candidate (encode kCmdId payload c ++ x) =
    .emit (frameOf payload c) (encode kCmdId payload c).length := by
  have hd : Decides (encode kCmdId payload c)
      (.emit (frameOf payload c) (encode kCmdId payload c).length) := by
    have hlen := encode_length h c
    have htotal := totalLengthAt_encode h c
    rw [hlen, ← decodedFrame_encode h, ← htotal]
    refine .frame (preambleAt_encode h c) (by omega) ?_
    rw [expectedAt_encode h, actualAt_encode h]
  rw [candidate_append x (by rw [hd.eq]; nofun), hd.eq]

/-- An encoded frame in front is decoded, and the scan goes on behind it. -/
theorem scan_encode {x r : List Byte} {as : List DecodedFrame} {e : Option String}
    (hs : Scan lightFramer x as r e) :
    Scan lightFramer (encode kCmdId payload c ++ x) (frameOf payload c :: as) r e :=
  .emit (candidate_encode h c x) (by rwa [List.drop_left])

end

end SearchlightControl
