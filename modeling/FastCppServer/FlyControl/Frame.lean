import FastCppServer.Lib.Framer
import FastCppServer.Lib.Bytes
import FastCppServer.FlyControl.Protocol

/-!
# The flight-control frame layer

`FlyControlFrame.cpp`: the checksum, `BuildFrame` and the stream parser. The parser's only state is
its receive buffer, so its methods are functions of that buffer. `examine` is what one pass of the
`while (true)` loop of `PopFrame` does once a header is at the front (its steps 2 to 8), and
`popFrame` is the loop around it; `drain` is the `while (parser_.PopFrame(frame))` loop of
`MyFlyControl::ReceiveLoop`.

Whatever the bytes, a length that is told lies between 9 and `maxFrameLen`
(`expectedLen_bounds`), and later bytes do not change it (`expectedLen_append`).
-/

namespace FlyControl

open Framing Bytes

/-! ## Checksum and frame building -/

/-- The low eight bits of the sum of all bytes. -/
def calcChecksum (data : List Byte) : Byte :=
  (data.foldl (fun sum b => sum + b.toUInt32) (0 : UInt32) &&& 0xFF).toUInt8

/-- `BuildFrame`: the header, the counter, the type, the payload, the checksum over all that is
behind the header, and the tail. -/
def buildFrame (cnt frameType : Byte) (payload : List Byte) : List Byte :=
  let frame := [frameHeader0, frameHeader1, cnt, frameType] ++ payload
  frame ++ [calcChecksum frame, frameTail0, frameTail1]

/-! ## The parser -/

/-- `FeedData` appends to the buffer, and does nothing else. -/
def feedData (buffer data : List Byte) : List Byte := buffer ++ data

/-- Drops bytes until a header is at the front; `false` when no two bytes are left. -/
def findHeader : List Byte → Bool × List Byte
  | b0 :: b1 :: rest =>
    if b0 = frameHeader0 ∧ b1 = frameHeader1 then (true, b0 :: b1 :: rest)
    else findHeader (b1 :: rest)
  | buffer => (false, buffer)

/-- The inner `switch` of `GetExpectedFrameLen`: the overhead of a command frame is header, counter,
frame type and command byte (5) with checksum and tail (3). -/
def commandFrameLen (cmdByte : Byte) : Nat :=
  if cmdByte = cmdSetRoute then 0
  else if cmdByte = cmdSetGeofence then 0
  else if cmdByte = cmdSetAngle then 5 + 3 + 4
  else if cmdByte = cmdSetSpeed then 5 + 3 + 2
  else if cmdByte = cmdSetAltitude then 5 + 3 + 3
  else if cmdByte = cmdPowerSwitch then 5 + 3 + 1
  else if cmdByte = cmdParachute then 5 + 3 + 1
  else if cmdByte = cmdButton then 5 + 3 + 1
  else if cmdByte = cmdSetOriginReturn then 5 + 3 + 11
  else if cmdByte = cmdSwitchMode then 5 + 3 + 1
  else if cmdByte = cmdGuidance then 5 + 3 + 19
  else if cmdByte = cmdGuidanceNew then 5 + 3 + 49
  else if cmdByte = cmdGimbalAngRate then 5 + 3 + 25
  else if cmdByte = cmdGimbalAngle then 5 + 3 + 16
  else if cmdByte = cmdTargetState then 5 + 3 + 11
  else 0

/-- The total length of a frame of this type, `0` where the type alone does not tell. -/
def getExpectedFrameLen (frameType cmdByte : Byte) : Nat :=
  if frameType = frameTypeHeartbeat then heartbeatFrameLen
  else if frameType = frameTypeSetDestination then 18
  else if frameType = frameTypeReply then 9
  else if frameType = frameTypeGimbalControl then 12
  else if frameType = frameTypeCommand then commandFrameLen cmdByte
  else 0

/-- The length of a route or geofence frame, from the point count in byte 5; `0` where it cannot be
told. -/
def calcVariableLenFrameLen (buffer : List Byte) (frameType : Byte) : Nat :=
  if frameType ≠ frameTypeCommand then 0
  else if buffer.length < 6 then 0
  else
    let cmdByte := byteAt buffer 4
    let count := byteAt buffer 5
    let varOverhead := 9
    if cmdByte = cmdSetRoute then varOverhead + count.toNat * 14
    else if cmdByte = cmdSetGeofence then varOverhead + count.toNat * 11
    else 0

/-- The command byte `PopFrame` reads: byte 4 of a command frame, `0` for every other type. -/
def cmdByteOf (buffer : List Byte) : Byte :=
  if byteAt buffer 3 = frameTypeCommand ∧ 5 ≤ buffer.length then byteAt buffer 4 else 0

/-- Step 3 of `PopFrame`, with a header and at least five bytes at the front: the table, and the
point count where the table says `0`. -/
def expectedLen (buffer : List Byte) : Nat :=
  let len := getExpectedFrameLen (byteAt buffer 3) (cmdByteOf buffer)
  if len = 0 then calcVariableLenFrameLen buffer (byteAt buffer 3) else len

/-- Step 7 of `PopFrame`: the frame made of the first `len` bytes. -/
def parsedFrame (buffer : List Byte) (len : Nat) : ParsedFrame :=
  let chkPos := len - 3
  let receivedChk := byteAt buffer chkPos
  let calcChk := calcChecksum (buffer.take chkPos)
  { cnt := byteAt buffer 2
    frameType := byteAt buffer 3
    payload := (buffer.drop 4).take (chkPos - 4)
    checksum := receivedChk
    valid := calcChk == receivedChk }

/-- Steps 2 to 8 of `PopFrame`: `wait` is its `return false`, `skip 1` its `pop_front(); continue`,
and `emit` fills `frame`, removes its bytes and returns `true`. -/
def examine (buffer : List Byte) : Verdict ParsedFrame Empty :=
  if buffer.length < 5 then .wait
  else
    let len := expectedLen buffer
    if len = 0 then
      -- an unknown frame type gives its header up, a command frame waits for more bytes
      if byteAt buffer 3 ≠ frameTypeCommand then .skip 1 else .wait
    else if buffer.length < len then .wait
    else if byteAt buffer (len - 2) ≠ frameTail0 ∨ byteAt buffer (len - 1) ≠ frameTail1 then
      .skip 1
    else .emit (parsedFrame buffer len) len

/-- The `while (true)` loop of `PopFrame`. -/
def popFrameLoop : Nat → List Byte → Option ParsedFrame × List Byte
  | 0, buffer => (none, buffer)
  | fuel + 1, buffer =>
    match findHeader buffer with
    | (false, buffer) => (none, buffer)
    | (true, buffer) =>
      match examine buffer with
      | .wait => (none, buffer)
      | .skip n => popFrameLoop fuel (buffer.drop n)
      | .emit frame n => (some frame, buffer.drop n)

/-- Takes one frame out of the buffer; `none` is the `false` of the source. -/
def popFrame (buffer : List Byte) : Option ParsedFrame × List Byte :=
  popFrameLoop (buffer.length + 1) buffer

/-- The calls of `PopFrame` one behind the other, until one finds no frame. The fuel bounds the
number of calls; a buffer of fewer bytes is worked through (`drainLoop_scan`). -/
def drainLoop : Nat → List Byte → List ParsedFrame × List Byte
  | 0, buffer => ([], buffer)
  | fuel + 1, buffer =>
    match popFrame buffer with
    | (none, buffer) => ([], buffer)
    | (some frame, buffer) =>
      let (frames, buffer) := drainLoop fuel buffer
      (frame :: frames, buffer)

/-- Calls `PopFrame` until it returns `false`: the frames in order, and what is left. -/
def drain (buffer : List Byte) : List ParsedFrame × List Byte :=
  drainLoop (buffer.length + 1) buffer

/-- Feeds the chunks one by one and drains after each. -/
def receive (buffer : List Byte) : List (List Byte) → List ParsedFrame × List Byte
  | [] => ([], buffer)
  | chunk :: chunks =>
    let (frames, buffer) := drain (feedData buffer chunk)
    let (more, buffer) := receive buffer chunks
    (frames ++ more, buffer)

/-! ## Lengths -/

/-- The longest frame the parser admits: a route of 255 points. -/
def maxFrameLen : Nat := 9 + 255 * 14

/-- The table of lengths has no frame that is too short for the checks behind it. -/
theorem getExpectedFrameLen_bounds (t c : Byte) :
    getExpectedFrameLen t c = 0 ∨
      9 ≤ getExpectedFrameLen t c ∧ getExpectedFrameLen t c ≤ heartbeatFrameLen := by
  unfold getExpectedFrameLen
  repeat'
    refine iteInduction (motive := fun n => n = 0 ∨ 9 ≤ n ∧ n ≤ heartbeatFrameLen)
      (fun _ => ?_) (fun _ => ?_)
  all_goals decide

/-- A length that is made from a count is bounded as well, by the longest route there is. -/
theorem calcVariableLenFrameLen_bounds (b : List Byte) (t : Byte) :
    calcVariableLenFrameLen b t = 0 ∨
      9 ≤ calcVariableLenFrameLen b t ∧ calcVariableLenFrameLen b t ≤ maxFrameLen := by
  have hc : (byteAt b 5).toNat < 256 := UInt8.toNat_lt _
  simp only [calcVariableLenFrameLen, maxFrameLen]
  split_ifs <;> omega

/-- The two sources of a length: the table, or the point count where the table says `0`. -/
theorem expectedLen_cases (b : List Byte) :
    (getExpectedFrameLen (byteAt b 3) (cmdByteOf b) = 0 ∧
      expectedLen b = calcVariableLenFrameLen b (byteAt b 3)) ∨
    (getExpectedFrameLen (byteAt b 3) (cmdByteOf b) ≠ 0 ∧
      expectedLen b = getExpectedFrameLen (byteAt b 3) (cmdByteOf b)) := by
  unfold expectedLen
  by_cases h : getExpectedFrameLen (byteAt b 3) (cmdByteOf b) = 0
  · exact .inl ⟨h, if_pos h⟩
  · exact .inr ⟨h, if_neg h⟩

/-- A length that is told is that of some frame: at least the nine bytes of the shortest one, at
most `maxFrameLen`. -/
theorem expectedLen_bounds {b : List Byte} (h : expectedLen b ≠ 0) :
    9 ≤ expectedLen b ∧ expectedLen b ≤ maxFrameLen := by
  rcases expectedLen_cases b with ⟨hlen, hv⟩ | ⟨hlen, hv⟩
  · rw [hv] at h ⊢
    exact (calcVariableLenFrameLen_bounds b _).resolve_left h
  · have hb := (getExpectedFrameLen_bounds _ _).resolve_left hlen
    rw [hv]
    simp only [heartbeatFrameLen, maxFrameLen] at hb ⊢
    omega

/-- A length once told stays told, and so does the ignorance of an unknown frame type: later bytes
change `expectedLen` only for a command frame that waits. -/
theorem expectedLen_append {b : List Byte} (hb : 5 ≤ b.length) (x : List Byte)
    (h : expectedLen b ≠ 0 ∨ byteAt b 3 ≠ frameTypeCommand) :
    expectedLen (b ++ x) = expectedLen b := by
  have h3 : byteAt (b ++ x) 3 = byteAt b 3 := byteAt_append_left (by omega) x
  have h4 : byteAt (b ++ x) 4 = byteAt b 4 := byteAt_append_left (by omega) x
  have hcmd : cmdByteOf (b ++ x) = cmdByteOf b := by
    simp [cmdByteOf, h3, h4, hb, show 5 ≤ b.length + x.length by omega]
  rcases expectedLen_cases b with ⟨h0, hv⟩ | ⟨h0, hv⟩
  · have hvar : calcVariableLenFrameLen (b ++ x) (byteAt b 3) =
        calcVariableLenFrameLen b (byteAt b 3) := by
      rw [hv] at h
      unfold calcVariableLenFrameLen at h ⊢
      by_cases ht : byteAt b 3 = frameTypeCommand
      · -- the point count is there already, or nothing would have been told
        have h6 : ¬ b.length < 6 := by
          intro hlt
          simp [ht, hlt] at h
        have h5 : byteAt (b ++ x) 5 = byteAt b 5 := byteAt_append_left (by omega) x
        simp [ht, h4, h5, h6, show ¬ b.length + x.length < 6 by omega]
      · simp [ht]
    rw [hv, ← hvar]
    simp [expectedLen, h3, hcmd, h0]
  · rw [hv]
    simp [expectedLen, h3, hcmd, h0]

/-- What is parsed out of the first bytes does not depend on those behind them. -/
theorem parsedFrame_append {b : List Byte} {n : Nat} (hn : 9 ≤ n) (hb : n ≤ b.length)
    (x : List Byte) : parsedFrame (b ++ x) n = parsedFrame b n := by
  have hdrop : ((b ++ x).drop 4).take (n - 3 - 4) = (b.drop 4).take (n - 3 - 4) := by
    rw [List.drop_append_of_le_length (by omega), List.take_append_of_le_length]
    rw [List.length_drop]; omega
  simp only [parsedFrame, hdrop, byteAt_append_left (show 2 < b.length by omega),
    byteAt_append_left (show 3 < b.length by omega),
    byteAt_append_left (show n - 3 < b.length by omega),
    List.take_append_of_le_length (show n - 3 ≤ b.length by omega)]

/-- The payload is what is left of a frame without its header, counter, type, checksum and tail. -/
theorem parsedFrame_payload_length {b : List Byte} {n : Nat} (h9 : 9 ≤ n) (hn : n ≤ b.length) :
    (parsedFrame b n).payload.length + 7 = n := by
  simp only [parsedFrame, List.length_take, List.length_drop]
  omega

end FlyControl
