import FastCppServer.FlyControl.RoundTrip

/-!
# Inbound frames

The `Decode*` functions of `FlyControlCodec.cpp` and `MyFlyControl::HandleFrame`. The length table
of the parser gives a heartbeat, a reply and a gimbal control the payload that their decoder asks
for (`mem_receive`), so none of them fails to decode, and no read throws. The bytes of the structure
in the order of the fields are the payload again (`valid_frame_decodes`).
-/

namespace FlyControl

open Framing Bytes Cursor MyLEHelper

/-! ## The decoders -/

/-- The reads of `DecodeHeartbeat`. -/
def readHeartbeat (out : HeartbeatData) : PayloadReader HeartbeatData := do
  let aircraftId ← readUint8
  let runMode ← readUint8
  let satelliteCount ← readUint8
  let longitude ← readInt32
  let latitude ← readInt32
  let altitude ← readUint16
  let relativeAlt ← readUint16
  let airspeed ← readUint16
  let groundspeed ← readUint16
  let velocityX ← readInt16
  let velocityY ← readInt16
  let velocityZ ← readInt16
  let accelX ← readInt16
  let accelY ← readInt16
  let accelZ ← readInt16
  let roll ← readInt16
  let pitch ← readInt16
  let yaw ← readUint16
  let flightMode ← readUint8
  let currentWaypoint ← readUint16
  let batteryVoltage ← readUint16
  let batteryPercent ← readUint8
  let batteryCurrent ← readUint16
  let atmPressure ← readUint16
  let utcTimestamp ← readUint64
  let faultInfo ← readUint16
  let rotationSpeed ← readUint16
  let throttle ← readUint16
  let targetAltitude ← readUint16
  let targetSpeed ← readUint16
  let originDistance ← readUint16
  let originHeading ← readUint16
  let targetDistance ← readUint16
  let flightState ← readUint8
  let altitudeState ← readUint8
  let stateSwitchSrc ← readUint8
  let flightTime ← readUint16
  let flightRange ← readUint16
  let reserved ← readUint32
  pure
    { out with
      aircraftId, runMode, satelliteCount, longitude, latitude, altitude, relativeAlt, airspeed
      groundspeed, velocityX, velocityY, velocityZ, accelX, accelY, accelZ, roll, pitch, yaw
      flightMode, currentWaypoint, batteryVoltage, batteryPercent, batteryCurrent, atmPressure
      utcTimestamp, faultInfo, rotationSpeed, throttle, targetAltitude, targetSpeed
      originDistance, originHeading, targetDistance, flightState, altitudeState, stateSwitchSrc
      flightTime, flightRange, reserved }

/-- The reads of `DecodeGimbalControl`. -/
def readGimbalControl (out : GimbalControlData) : PayloadReader GimbalControlData := do
  let enable ← readUint8
  let pitchAngle ← readInt16
  let yawAngle ← readInt16
  pure { out with enable, pitchAngle, yawAngle }

/-- The reads of `DecodeCommandReply`. -/
def readCommandReply (out : CommandReplyData) : PayloadReader CommandReplyData := do
  let repliedCmd ← readUint8
  let result ← readUint8
  pure { out with repliedCmd, result }

/-- A decoder: `none` is its `false`, a fault an exception. -/
def decode {α : Type} (size : Nat) (read : α → PayloadReader α) (payload : List Byte) (out : α) :
    Except Fault (Option α) :=
  if payload.length < size then .ok none else (read out payload 0).1.map some

/-- `DecodeHeartbeat`. A payload of another length is refused. -/
def decodeHeartbeat : List Byte → HeartbeatData → Except Fault (Option HeartbeatData) :=
  decode 82 readHeartbeat

/-- `DecodeGimbalControl`. -/
def decodeGimbalControl : List Byte → GimbalControlData → Except Fault (Option GimbalControlData) :=
  decode 5 readGimbalControl

/-- `DecodeCommandReply`. -/
def decodeCommandReply : List Byte → CommandReplyData → Except Fault (Option CommandReplyData) :=
  decode 2 readCommandReply

/-! ## `HandleFrame` -/

/-- What it reads and writes: the latest heartbeat, and which callbacks are set. -/
structure Receiver where
  latestHb : HeartbeatData := {}
  hasHb : Bool := false
  onHeartbeat : Bool := false
  onReply : Bool := false
  onGimbal : Bool := false

/-- A call of a callback, or a warning. -/
inductive Handled where
  | heartbeat (hb : HeartbeatData)
  | reply (reply : CommandReplyData)
  | gimbal (gimbal : GimbalControlData)
  | undecoded (warning : String)
  | unknown (frameType : Byte)
  deriving DecidableEq

/-- `HandleFrame`: what a frame of one of the three types does to the receiver, and which callback
is called with what. A frame of another type does nothing. -/
def handleFrame (s : Receiver) (frame : ParsedFrame) : Except Fault (Receiver × List Handled) :=
  if frame.frameType = frameTypeHeartbeat then do
    match ← decodeHeartbeat frame.payload { cnt := frame.cnt } with
    | some hb =>
      return ({ s with latestHb := hb, hasHb := true },
        if s.onHeartbeat then [.heartbeat hb] else [])
    | none => return (s, [.undecoded "心跳帧解码失败"])
  else if frame.frameType = frameTypeReply then do
    match ← decodeCommandReply frame.payload { cnt := frame.cnt } with
    | some reply => return (s, if s.onReply then [.reply reply] else [])
    | none => return (s, [.undecoded "指令回复帧解码失败"])
  else if frame.frameType = frameTypeGimbalControl then do
    match ← decodeGimbalControl frame.payload { cnt := frame.cnt } with
    | some gimbal => return (s, if s.onGimbal then [.gimbal gimbal] else [])
    | none => return (s, [.undecoded "云台控制帧解码失败"])
  else return (s, [.unknown frame.frameType])

/-! ## The bytes of a structure -/

/-- The payload that carries a heartbeat, field by field. -/
def heartbeatBytes (hb : HeartbeatData) : List Byte :=
  [[hb.aircraftId], [hb.runMode], [hb.satelliteCount], uint32Bytes hb.longitude.toUInt32,
    uint32Bytes hb.latitude.toUInt32, uint16Bytes hb.altitude, uint16Bytes hb.relativeAlt,
    uint16Bytes hb.airspeed, uint16Bytes hb.groundspeed, uint16Bytes hb.velocityX.toUInt16,
    uint16Bytes hb.velocityY.toUInt16, uint16Bytes hb.velocityZ.toUInt16,
    uint16Bytes hb.accelX.toUInt16, uint16Bytes hb.accelY.toUInt16, uint16Bytes hb.accelZ.toUInt16,
    uint16Bytes hb.roll.toUInt16, uint16Bytes hb.pitch.toUInt16, uint16Bytes hb.yaw,
    [hb.flightMode], uint16Bytes hb.currentWaypoint, uint16Bytes hb.batteryVoltage,
    [hb.batteryPercent], uint16Bytes hb.batteryCurrent, uint16Bytes hb.atmPressure,
    uint64Bytes hb.utcTimestamp, uint16Bytes hb.faultInfo, uint16Bytes hb.rotationSpeed,
    uint16Bytes hb.throttle, uint16Bytes hb.targetAltitude, uint16Bytes hb.targetSpeed,
    uint16Bytes hb.originDistance, uint16Bytes hb.originHeading, uint16Bytes hb.targetDistance,
    [hb.flightState], [hb.altitudeState], [hb.stateSwitchSrc], uint16Bytes hb.flightTime,
    uint16Bytes hb.flightRange, uint32Bytes hb.reserved].flatten

/-- The payload that carries a gimbal control. -/
def gimbalControlBytes (gimbal : GimbalControlData) : List Byte :=
  [[gimbal.enable], uint16Bytes gimbal.pitchAngle.toUInt16,
    uint16Bytes gimbal.yawAngle.toUInt16].flatten

/-- The payload that carries a command reply. -/
def commandReplyBytes (reply : CommandReplyData) : List Byte :=
  [[reply.repliedCmd], [reply.result]].flatten

/-- A heartbeat is read back from its payload. The counter stays that of the frame. -/
theorem reads_heartbeat (out hb : HeartbeatData) :
    Reads sizeMod (readHeartbeat out) (heartbeatBytes hb) { hb with cnt := out.cnt } :=
  (reads_uint8 _).bind <| (reads_uint8 _).bind <| (reads_uint8 _).bind <|
    (reads_int32 _).bind <| (reads_int32 _).bind <| (reads_uint16 _).bind <|
    (reads_uint16 _).bind <| (reads_uint16 _).bind <| (reads_uint16 _).bind <|
    (reads_int16 _).bind <| (reads_int16 _).bind <| (reads_int16 _).bind <|
    (reads_int16 _).bind <| (reads_int16 _).bind <| (reads_int16 _).bind <|
    (reads_int16 _).bind <| (reads_int16 _).bind <| (reads_uint16 _).bind <|
    (reads_uint8 _).bind <| (reads_uint16 _).bind <| (reads_uint16 _).bind <|
    (reads_uint8 _).bind <| (reads_uint16 _).bind <| (reads_uint16 _).bind <|
    (reads_uint64 _).bind <| (reads_uint16 _).bind <| (reads_uint16 _).bind <|
    (reads_uint16 _).bind <| (reads_uint16 _).bind <| (reads_uint16 _).bind <|
    (reads_uint16 _).bind <| (reads_uint16 _).bind <| (reads_uint16 _).bind <|
    (reads_uint8 _).bind <| (reads_uint8 _).bind <| (reads_uint8 _).bind <|
    (reads_uint16 _).bind <| (reads_uint16 _).bind <| (reads_uint32 _).bind <| Reads.pure _

/-- A gimbal control is read back from its payload. -/
theorem reads_gimbalControl (out gimbal : GimbalControlData) :
    Reads sizeMod (readGimbalControl out) (gimbalControlBytes gimbal)
      { gimbal with cnt := out.cnt } :=
  (reads_uint8 _).bind <| (reads_int16 _).bind <| (reads_int16 _).bind <| Reads.pure _

/-- A command reply is read back from its payload. -/
theorem reads_commandReply (out reply : CommandReplyData) :
    Reads sizeMod (readCommandReply out) (commandReplyBytes reply) { reply with cnt := out.cnt } :=
  (reads_uint8 _).bind <| (reads_uint8 _).bind <| Reads.pure _

/-! ## Every payload is that of a structure -/

/-- Each payload of the right length is that of a heartbeat: there are no bytes that could be
wrong. -/
theorem exists_heartbeat {payload : List Byte} (h : payload.length = 82) (out : HeartbeatData) :
    ∃ hb, hb.cnt = out.cnt ∧ heartbeatBytes hb = payload ∧
      Reads sizeMod (readHeartbeat out) payload hb := by
  obtain ⟨aircraftId, b₀, h₀, rfl⟩ := exists_uint8Bytes h
  obtain ⟨runMode, b₁, h₁, rfl⟩ := exists_uint8Bytes h₀
  obtain ⟨satelliteCount, b₂, h₂, rfl⟩ := exists_uint8Bytes h₁
  obtain ⟨longitude, b₃, h₃, rfl⟩ := exists_int32Bytes h₂
  obtain ⟨latitude, b₄, h₄, rfl⟩ := exists_int32Bytes h₃
  obtain ⟨altitude, b₅, h₅, rfl⟩ := exists_uint16Bytes h₄
  obtain ⟨relativeAlt, b₆, h₆, rfl⟩ := exists_uint16Bytes h₅
  obtain ⟨airspeed, b₇, h₇, rfl⟩ := exists_uint16Bytes h₆
  obtain ⟨groundspeed, b₈, h₈, rfl⟩ := exists_uint16Bytes h₇
  obtain ⟨velocityX, b₉, h₉, rfl⟩ := exists_int16Bytes h₈
  obtain ⟨velocityY, b₁₀, h₁₀, rfl⟩ := exists_int16Bytes h₉
  obtain ⟨velocityZ, b₁₁, h₁₁, rfl⟩ := exists_int16Bytes h₁₀
  obtain ⟨accelX, b₁₂, h₁₂, rfl⟩ := exists_int16Bytes h₁₁
  obtain ⟨accelY, b₁₃, h₁₃, rfl⟩ := exists_int16Bytes h₁₂
  obtain ⟨accelZ, b₁₄, h₁₄, rfl⟩ := exists_int16Bytes h₁₃
  obtain ⟨roll, b₁₅, h₁₅, rfl⟩ := exists_int16Bytes h₁₄
  obtain ⟨pitch, b₁₆, h₁₆, rfl⟩ := exists_int16Bytes h₁₅
  obtain ⟨yaw, b₁₇, h₁₇, rfl⟩ := exists_uint16Bytes h₁₆
  obtain ⟨flightMode, b₁₈, h₁₈, rfl⟩ := exists_uint8Bytes h₁₇
  obtain ⟨currentWaypoint, b₁₉, h₁₉, rfl⟩ := exists_uint16Bytes h₁₈
  obtain ⟨batteryVoltage, b₂₀, h₂₀, rfl⟩ := exists_uint16Bytes h₁₉
  obtain ⟨batteryPercent, b₂₁, h₂₁, rfl⟩ := exists_uint8Bytes h₂₀
  obtain ⟨batteryCurrent, b₂₂, h₂₂, rfl⟩ := exists_uint16Bytes h₂₁
  obtain ⟨atmPressure, b₂₃, h₂₃, rfl⟩ := exists_uint16Bytes h₂₂
  obtain ⟨utcTimestamp, b₂₄, h₂₄, rfl⟩ := exists_uint64Bytes h₂₃
  obtain ⟨faultInfo, b₂₅, h₂₅, rfl⟩ := exists_uint16Bytes h₂₄
  obtain ⟨rotationSpeed, b₂₆, h₂₆, rfl⟩ := exists_uint16Bytes h₂₅
  obtain ⟨throttle, b₂₇, h₂₇, rfl⟩ := exists_uint16Bytes h₂₆
  obtain ⟨targetAltitude, b₂₈, h₂₈, rfl⟩ := exists_uint16Bytes h₂₇
  obtain ⟨targetSpeed, b₂₉, h₂₉, rfl⟩ := exists_uint16Bytes h₂₈
  obtain ⟨originDistance, b₃₀, h₃₀, rfl⟩ := exists_uint16Bytes h₂₉
  obtain ⟨originHeading, b₃₁, h₃₁, rfl⟩ := exists_uint16Bytes h₃₀
  obtain ⟨targetDistance, b₃₂, h₃₂, rfl⟩ := exists_uint16Bytes h₃₁
  obtain ⟨flightState, b₃₃, h₃₃, rfl⟩ := exists_uint8Bytes h₃₂
  obtain ⟨altitudeState, b₃₄, h₃₄, rfl⟩ := exists_uint8Bytes h₃₃
  obtain ⟨stateSwitchSrc, b₃₅, h₃₅, rfl⟩ := exists_uint8Bytes h₃₄
  obtain ⟨flightTime, b₃₆, h₃₆, rfl⟩ := exists_uint16Bytes h₃₅
  obtain ⟨flightRange, b₃₇, h₃₇, rfl⟩ := exists_uint16Bytes h₃₆
  obtain ⟨reserved, b₃₈, h₃₈, rfl⟩ := exists_uint32Bytes h₃₇
  obtain rfl := List.length_eq_zero_iff.1 h₃₈
  refine ⟨_, ?_, ?_, reads_heartbeat out
    { out with
      aircraftId, runMode, satelliteCount, longitude, latitude, altitude, relativeAlt, airspeed
      groundspeed, velocityX, velocityY, velocityZ, accelX, accelY, accelZ, roll, pitch, yaw
      flightMode, currentWaypoint, batteryVoltage, batteryPercent, batteryCurrent, atmPressure
      utcTimestamp, faultInfo, rotationSpeed, throttle, targetAltitude, targetSpeed
      originDistance, originHeading, targetDistance, flightState, altitudeState, stateSwitchSrc
      flightTime, flightRange, reserved }⟩
  · rfl
  · rfl

/-- Each payload of five bytes is that of a gimbal control. -/
theorem exists_gimbalControl {payload : List Byte} (h : payload.length = 5)
    (out : GimbalControlData) :
    ∃ gimbal, gimbal.cnt = out.cnt ∧ gimbalControlBytes gimbal = payload ∧
      Reads sizeMod (readGimbalControl out) payload gimbal := by
  obtain ⟨enable, b₀, h₀, rfl⟩ := exists_uint8Bytes h
  obtain ⟨pitchAngle, b₁, h₁, rfl⟩ := exists_int16Bytes h₀
  obtain ⟨yawAngle, b₂, h₂, rfl⟩ := exists_int16Bytes h₁
  obtain rfl := List.length_eq_zero_iff.1 h₂
  refine ⟨_, ?_, ?_, reads_gimbalControl out { out with enable, pitchAngle, yawAngle }⟩
  · rfl
  · rfl

/-- Each payload of two bytes is that of a command reply. -/
theorem exists_commandReply {payload : List Byte} (h : payload.length = 2)
    (out : CommandReplyData) :
    ∃ reply, reply.cnt = out.cnt ∧ commandReplyBytes reply = payload ∧
      Reads sizeMod (readCommandReply out) payload reply := by
  obtain ⟨repliedCmd, b₀, h₀, rfl⟩ := exists_uint8Bytes h
  obtain ⟨result, b₁, h₁, rfl⟩ := exists_uint8Bytes h₀
  obtain rfl := List.length_eq_zero_iff.1 h₁
  refine ⟨_, ?_, ?_, reads_commandReply out { out with repliedCmd, result }⟩
  · rfl
  · rfl

/-! ## Every popped frame decodes -/

/-- A payload of `size` bytes decodes to `a`. The reads stop at its end, the fields of `a` written
in their order are the payload again, and no other payload of that size decodes to `a`. -/
structure DecodesTo {α : Type} (size : Nat) (read : α → PayloadReader α) (bytes : α → List Byte)
    (payload : List Byte) (out a : α) : Prop where
  length : payload.length = size
  decoded : decode size read payload out = .ok (some a)
  consumed : read out payload 0 = (.ok a, size)
  reencoded : bytes a = payload
  only : ∀ payload' out', payload'.length = size →
    decode size read payload' out' = .ok (some a) → payload' = payload

section
variable {α : Type} {size : Nat} {read : α → PayloadReader α} {bytes : α → List Byte}

/-- A reader that goes through the payload makes the decoder succeed, which has checked the length
first. -/
theorem decode_of_reads {payload : List Byte} {out a : α} (hlen : payload.length = size)
    (hsize : size < sizeMod) (h : Reads sizeMod (read out) payload a) :
    decode size read payload out = .ok (some a) := by
  rw [decode, if_neg (by omega), h.run (by omega)]
  rfl

/-- Where every payload of the size is read to the end, one of them decodes into what had the
counter. -/
theorem exists_decodesTo {cnt : α → Byte} (hsize : size < sizeMod)
    (hall : ∀ {payload : List Byte}, payload.length = size → ∀ out,
      ∃ a, cnt a = cnt out ∧ bytes a = payload ∧ Reads sizeMod (read out) payload a)
    {payload : List Byte} (hlen : payload.length = size) (out : α) :
    ∃ a, cnt a = cnt out ∧ DecodesTo size read bytes payload out a := by
  obtain ⟨a, hcnt, hbytes, hreads⟩ := hall hlen out
  refine ⟨a, hcnt, hlen, decode_of_reads hlen hsize hreads, ?_, hbytes, ?_⟩
  · rw [hreads.run (by omega), hlen]
  · intro payload' out' hlen' hdec
    obtain ⟨a', -, rfl, hreads'⟩ := hall hlen' out'
    rw [decode_of_reads hlen' hsize hreads'] at hdec
    cases hdec
    exact hbytes

end

/-- A heartbeat frame of the right length decodes to the fields at their offsets. -/
theorem heartbeat_decodesTo {payload : List Byte} (h : payload.length = 82) (cnt : Byte) :
    ∃ hb, hb.cnt = cnt ∧ DecodesTo 82 readHeartbeat heartbeatBytes payload { cnt } hb :=
  exists_decodesTo (by decide) exists_heartbeat h { cnt }

/-- So does a gimbal control. -/
theorem gimbalControl_decodesTo {payload : List Byte} (h : payload.length = 5) (cnt : Byte) :
    ∃ gimbal, gimbal.cnt = cnt ∧
      DecodesTo 5 readGimbalControl gimbalControlBytes payload { cnt } gimbal :=
  exists_decodesTo (by decide) exists_gimbalControl h { cnt }

/-- So does a command reply. -/
theorem commandReply_decodesTo {payload : List Byte} (h : payload.length = 2) (cnt : Byte) :
    ∃ reply, reply.cnt = cnt ∧
      DecodesTo 2 readCommandReply commandReplyBytes payload { cnt } reply :=
  exists_decodesTo (by decide) exists_commandReply h { cnt }

/-- The payload of a popped frame is as long as the table of the parser has it. -/
theorem mem_receive {buffer : List Byte} {chunks : List (List Byte)} {frame : ParsedFrame}
    (h : frame ∈ (receive buffer chunks).1) (ht : frame.frameType ≠ frameTypeCommand) :
    frame.payload.length + 7 = getExpectedFrameLen frame.frameType 0 := by
  obtain ⟨b, n, hv⟩ := (receive_scan buffer chunks).exists_emit h
  have hd := candidate_decides b
  rw [show candidate b = .emit frame n from hv] at hd
  cases hd with
  | frame hh h0 hle htail =>
    have htype : byteAt b 3 ≠ frameTypeCommand := ht
    have hcmd : cmdByteOf b = 0 := by simp [cmdByteOf, htype]
    have hvar : calcVariableLenFrameLen b (byteAt b 3) = 0 := by
      simp [calcVariableLenFrameLen, htype]
    rw [parsedFrame_payload_length (expectedLen_bounds h0).1 hle]
    rcases expectedLen_cases b with ⟨-, hlen⟩ | ⟨-, hlen⟩
    · exact absurd (hlen.trans hvar) h0
    · rw [hlen, hcmd]
      rfl

/-- **No popped frame of the three types fails to decode.** `HandleFrame` hands the structure with
the frame's counter to the callback, and keeps a heartbeat. -/
theorem valid_frame_decodes {buffer : List Byte} {chunks : List (List Byte)} {frame : ParsedFrame}
    (h : frame ∈ (receive buffer chunks).1) (s : Receiver) :
    (frame.frameType = frameTypeHeartbeat → ∃ hb, hb.cnt = frame.cnt ∧
      DecodesTo 82 readHeartbeat heartbeatBytes frame.payload { cnt := frame.cnt } hb ∧
      handleFrame s frame = .ok ({ s with latestHb := hb, hasHb := true },
        if s.onHeartbeat then [.heartbeat hb] else [])) ∧
    (frame.frameType = frameTypeReply → ∃ reply, reply.cnt = frame.cnt ∧
      DecodesTo 2 readCommandReply commandReplyBytes frame.payload { cnt := frame.cnt } reply ∧
      handleFrame s frame = .ok (s, if s.onReply then [.reply reply] else [])) ∧
    (frame.frameType = frameTypeGimbalControl → ∃ gimbal, gimbal.cnt = frame.cnt ∧
      DecodesTo 5 readGimbalControl gimbalControlBytes frame.payload { cnt := frame.cnt } gimbal ∧
      handleFrame s frame = .ok (s, if s.onGimbal then [.gimbal gimbal] else [])) := by
  refine ⟨fun ht => ?_, fun ht => ?_, fun ht => ?_⟩
  · have hlen : frame.payload.length + 7 = 89 := by
      rw [mem_receive h (by rw [ht]; decide), ht]
      rfl
    obtain ⟨hb, hcnt, hdec⟩ := heartbeat_decodesTo (Nat.add_right_cancel hlen) frame.cnt
    refine ⟨hb, hcnt, hdec, ?_⟩
    rw [handleFrame, if_pos ht, decodeHeartbeat, hdec.decoded]
    rfl
  · have hlen : frame.payload.length + 7 = 9 := by
      rw [mem_receive h (by rw [ht]; decide), ht]
      rfl
    obtain ⟨reply, hcnt, hdec⟩ := commandReply_decodesTo (Nat.add_right_cancel hlen) frame.cnt
    refine ⟨reply, hcnt, hdec, ?_⟩
    rw [handleFrame, if_neg (by rw [ht]; decide), if_pos ht, decodeCommandReply, hdec.decoded]
    rfl
  · have hlen : frame.payload.length + 7 = 12 := by
      rw [mem_receive h (by rw [ht]; decide), ht]
      rfl
    obtain ⟨gimbal, hcnt, hdec⟩ := gimbalControl_decodesTo (Nat.add_right_cancel hlen) frame.cnt
    refine ⟨gimbal, hcnt, hdec, ?_⟩
    rw [handleFrame, if_neg (by rw [ht]; decide), if_neg (by rw [ht]; decide), if_pos ht,
      decodeGimbalControl, hdec.decoded]
    rfl

/-- A reply that arrives in two pieces behind a stray byte. -/
theorem valid_frame_decodes_reply :
    ∃ reply, reply.cnt = 7 ∧
      DecodesTo 2 readCommandReply commandReplyBytes [0x21, 0] { cnt := 7 } reply ∧
      handleFrame { onReply := true } (frameOf 7 frameTypeReply [0x21, 0]) =
        .ok ({ onReply := true }, [.reply reply]) := by
  have hmem : frameOf 7 frameTypeReply [0x21, 0] ∈
      (receive [] [0x55 :: (buildFrame 7 frameTypeReply [0x21, 0]).take 4,
        (buildFrame 7 frameTypeReply [0x21, 0]).drop 4]).1 := by decide
  exact (valid_frame_decodes hmem { onReply := true }).2.1 rfl

end FlyControl
