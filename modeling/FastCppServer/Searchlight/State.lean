import FastCppServer.Searchlight.Protocol

/-!
# Searchlight commands and state

`SearchlightCommandBuilder.cpp`, which turns a command into a frame and counts the frames, and
`SearchlightState.cpp`, which keeps what the frames received say of the device. An `int` is an
`Int`: the values computed with are clamped first.
-/

namespace SearchlightControl

open Bytes

/-! ## The command builder -/

/-- `std::clamp`, as the source writes it out. -/
def clamp (value minValue maxValue : Int) : Int :=
  if value < minValue then minValue
  else if value > maxValue then maxValue
  else value

/-- `AppendBigEndianInt16`: the upper byte first, of the number cut to 16 bits. -/
def appendBigEndianInt16 (payload : List Byte) (value : Int) : List Byte :=
  let safe := clamp value (-32768) 32767
  let raw := (Int16.ofInt safe).toUInt16
  payload ++ [((raw >>> 8) &&& 0xFF).toUInt8] ++ [(raw &&& 0xFF).toUInt8]

/-- The payload of an order to the lamp. -/
def makeLedPayload (op value : Byte) : List Byte := [0x2C, 0x74, op, value]

/-- `while (payload.size() < 15)`. -/
def padPayload (payload : List Byte) : List Byte :=
  payload ++ List.replicate (15 - payload.length) 0

/-- A call of a `make*` method. -/
inductive Command where
  | ledOn
  | ledOff
  | brightness (level : Int)
  | flashEnable
  | flashDisable
  | flashHz (hz : Int)
  | servoHome
  | servoMoveTo (xDegree yDegree : Int)

/-- The protocol's sample has 30 degrees as `0x1554`. -/
def unitPerDegree : Int := 182

/-- The payload a `make*` method hands to `makeFrame`. -/
def Command.payload : Command → List Byte
  | .ledOn => makeLedPayload 0x01 0x00
  | .ledOff => makeLedPayload 0x02 0x00
  | .brightness level =>
    let safeLevel := clamp level 0 100
    makeLedPayload 0x0A (UInt8.ofInt safeLevel)
  | .flashEnable => makeLedPayload 0x09 0x00
  | .flashDisable => makeLedPayload 0x00 0x00
  | .flashHz hz =>
    let safeHz := clamp hz 1 50
    makeLedPayload 0x0B (UInt8.ofInt safeHz)
  | .servoHome => padPayload [0x30, 0x04]
  | .servoMoveTo xDegree yDegree =>
    let xRaw := clamp xDegree (-180) 180 * unitPerDegree
    let yRaw := -clamp yDegree (-180) 180 * unitPerDegree
    padPayload (appendBigEndianInt16 (appendBigEndianInt16 [0x30, 0x0B] xRaw) yRaw)

/-- `makeFrame`: the frame, and the builder's next frame counter. -/
def makeFrame (frameCounter : Byte) (payload : List Byte) : List Byte × Byte :=
  (encode kCmdId payload frameCounter, (frameCounter + 1) &&& 0x03)

/-- The frames one builder makes of a list of commands. -/
def makeFrames (frameCounter : Byte) : List Command → List (List Byte)
  | [] => []
  | command :: commands =>
    let (frame, frameCounter) := makeFrame frameCounter command.payload
    frame :: makeFrames frameCounter commands

/-! ## The state -/

/-- Whether the device has been heard of. -/
inductive DevicePresence where
  | unknown
  | noDevice
  | online
  deriving DecidableEq

/-- Whether the lamp is on, as far as is known. -/
inductive LedPowerState where
  | unknown
  | off
  | on
  deriving DecidableEq

/-- Whether the lamp flashes, as far as is known. -/
inductive FlashState where
  | unknown
  | disabled
  | enabled
  deriving DecidableEq

/-- `SearchlightState`: what is known of the device, from the frames that it has sent. -/
structure SearchlightState where
  presence : DevicePresence := .unknown
  led : LedPowerState := .unknown
  flash : FlashState := .unknown
  brightness : Int := -1
  flashHz : Int := -1
  servoXDegree : Int := 0
  servoYDegree : Int := 0
  lastFrameCounter : Byte := 0
  lastCmdId : Byte := 0
  lastPayloadHex : String := ""
  lastError : String := ""
  rxFrameCount : UInt64 := 0
  checksumErrorCount : UInt64 := 0
  lastSeenMs : Int := 0
  lastQueuedCommand : String := ""
  lastSentCommand : String := ""
  deriving DecidableEq

/-- Reads what `appendBigEndianInt16` writes. -/
def readBigEndianInt16 (high low : Byte) : Int16 :=
  let raw : UInt16 := high.toUInt16 <<< 8 ||| low.toUInt16
  raw.toInt16

/-- The `switch` over the op-codes of the lamp. -/
def applyLed (op value : Byte) (s : SearchlightState) : SearchlightState :=
  if op = 0x00 then { s with flash := .disabled }
  else if op = 0x01 then { s with led := .on, flash := .disabled }
  else if op = 0x02 then { s with led := .off, flash := .disabled }
  else if op = 0x09 then { s with led := .on, flash := .enabled }
  else if op = 0x0A then { s with brightness := value.toNat, led := .on }
  else if op = 0x0B then { s with flashHz := value.toNat }
  else s

/-- `ApplyPayloadLocked`: the state after a frame has been taken in. -/
def applyPayloadLocked (frame : DecodedFrame) (s : SearchlightState) : SearchlightState :=
  let payload := frame.payload
  if 4 ≤ payload.length ∧ byteAt payload 0 = 0x2C ∧ byteAt payload 1 = 0x74 then
    applyLed (byteAt payload 2) (byteAt payload 3) s
  else if 2 ≤ payload.length ∧ byteAt payload 0 = 0x30 then
    let op := byteAt payload 1
    if op = 0x04 then { s with servoXDegree := 0, servoYDegree := 0 }
    else if op = 0x0B ∧ 6 ≤ payload.length then
      let xRaw := readBigEndianInt16 (byteAt payload 2) (byteAt payload 3)
      let yRaw := readBigEndianInt16 (byteAt payload 4) (byteAt payload 5)
      { s with
        servoXDegree := xRaw.toInt.tdiv 182
        servoYDegree := (-yRaw.toInt).tdiv 182 }
    else s
  else s

/-- `nowMs` is what the clock reads at the call. -/
def markOnlineByFrame (nowMs : Int) (frame : DecodedFrame) (s : SearchlightState) :
    SearchlightState :=
  applyPayloadLocked frame
    { s with
      presence := .online
      lastSeenMs := nowMs
      lastFrameCounter := frame.frameCounter
      lastCmdId := frame.cmdId
      lastPayloadHex := toHex frame.payload
      lastError := ""
      rxFrameCount := s.rxFrameCount + 1 }

/-- The frames of a read loop, applied in order; the clock reads `nowMs i` at the `i`-th. -/
def markOnlineByFrames (nowMs : Nat → Int) (s : SearchlightState) :
    List DecodedFrame → SearchlightState
  | [] => s
  | frame :: frames =>
    markOnlineByFrames (fun i => nowMs (i + 1)) (markOnlineByFrame (nowMs 0) frame s) frames

end SearchlightControl
