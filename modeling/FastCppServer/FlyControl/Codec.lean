import FastCppServer.FlyControl.Frame
import FastCppServer.MyTools.MyLEHelper

/-!
# The flight-control codec

The `Encode*` functions of `FlyControlCodec.cpp`, each the payload it writes and the frame it builds
around it, and `Command`, which is any call of one of them.
-/

namespace FlyControl

open MyLEHelper

/-! ## The encoders -/

/-- The payload of `EncodeSetDestination`. The command byte is written although the frame has a type
of its own. -/
def setDestinationPayload (data : SetDestinationData) : List Byte :=
  let payload := writeUint8 [] data.cmdType
  let payload := writeUint32 payload data.longitude.toUInt32
  let payload := writeUint32 payload data.latitude.toUInt32
  writeUint16 payload data.altitude

/-- `EncodeSetDestination`. -/
def encodeSetDestination (cnt : Byte) (data : SetDestinationData) : List Byte :=
  buildFrame cnt frameTypeSetDestination (setDestinationPayload data)

/-- The body of the loop over the points. -/
def writeRoutePoint (payload : List Byte) (pt : RoutePoint) : List Byte :=
  let payload := writeUint32 payload pt.longitude.toUInt32
  let payload := writeUint32 payload pt.latitude.toUInt32
  let payload := writeUint16 payload pt.altitude
  let payload := writeUint16 payload pt.index
  writeUint16 payload pt.speed

/-- The payload of `EncodeSetRoute`. The number of points is cut to a byte, and all of them are
written. -/
def setRoutePayload (data : SetRouteData) : List Byte :=
  let payload := writeUint8 [] data.cmdType
  let payload := writeUint8 payload (UInt8.ofNat data.points.length)
  data.points.foldl writeRoutePoint payload

/-- `EncodeSetRoute`. -/
def encodeSetRoute (cnt : Byte) (data : SetRouteData) : List Byte :=
  buildFrame cnt frameTypeCommand (setRoutePayload data)

/-- The payload of `EncodeSetAngle`. -/
def setAnglePayload (data : SetAngleData) : List Byte :=
  let payload := writeUint8 [] data.cmdType
  let payload := writeInt16 payload data.pitch
  writeUint16 payload data.yaw

/-- `EncodeSetAngle`. -/
def encodeSetAngle (cnt : Byte) (data : SetAngleData) : List Byte :=
  buildFrame cnt frameTypeCommand (setAnglePayload data)

/-- The payload of `EncodeSetSpeed`. -/
def setSpeedPayload (data : SetSpeedData) : List Byte :=
  let payload := writeUint8 [] data.cmdType
  writeUint16 payload data.speed

/-- `EncodeSetSpeed`. -/
def encodeSetSpeed (cnt : Byte) (data : SetSpeedData) : List Byte :=
  buildFrame cnt frameTypeCommand (setSpeedPayload data)

/-- The payload of `EncodeSetAltitude`. -/
def setAltitudePayload (data : SetAltitudeData) : List Byte :=
  let payload := writeUint8 [] data.cmdType
  let payload := writeUint8 payload data.altitudeType
  writeUint16 payload data.altitude

/-- `EncodeSetAltitude`. -/
def encodeSetAltitude (cnt : Byte) (data : SetAltitudeData) : List Byte :=
  buildFrame cnt frameTypeCommand (setAltitudePayload data)

/-- The payload of `EncodePowerSwitch`. -/
def powerSwitchPayload (data : PowerSwitchData) : List Byte :=
  let payload := writeUint8 [] data.cmdType
  writeUint8 payload data.command

/-- `EncodePowerSwitch`. -/
def encodePowerSwitch (cnt : Byte) (data : PowerSwitchData) : List Byte :=
  buildFrame cnt frameTypeCommand (powerSwitchPayload data)

/-- The payload of `EncodeParachute`. -/
def parachutePayload (data : ParachuteData) : List Byte :=
  let payload := writeUint8 [] data.cmdType
  writeUint8 payload data.parachuteType

/-- `EncodeParachute`. -/
def encodeParachute (cnt : Byte) (data : ParachuteData) : List Byte :=
  buildFrame cnt frameTypeCommand (parachutePayload data)

/-- The payload of `EncodeButtonCommand`. -/
def buttonCommandPayload (data : ButtonCommandData) : List Byte :=
  let payload := writeUint8 [] data.cmdType
  writeUint8 payload data.button

/-- `EncodeButtonCommand`. -/
def encodeButtonCommand (cnt : Byte) (data : ButtonCommandData) : List Byte :=
  buildFrame cnt frameTypeCommand (buttonCommandPayload data)

/-- The payload of `EncodeSetOriginReturn`. -/
def setOriginReturnPayload (data : SetOriginReturnData) : List Byte :=
  let payload := writeUint8 [] data.cmdType
  let payload := writeUint8 payload data.pointType
  let payload := writeUint32 payload data.longitude.toUInt32
  let payload := writeUint32 payload data.latitude.toUInt32
  writeUint16 payload data.altitude

/-- `EncodeSetOriginReturn`. -/
def encodeSetOriginReturn (cnt : Byte) (data : SetOriginReturnData) : List Byte :=
  buildFrame cnt frameTypeCommand (setOriginReturnPayload data)

/-- The body of the loop over the points. -/
def writeGeofencePoint (payload : List Byte) (pt : GeofencePoint) : List Byte :=
  let payload := writeUint32 payload pt.longitude.toUInt32
  let payload := writeUint32 payload pt.latitude.toUInt32
  let payload := writeUint16 payload pt.altitude
  writeUint8 payload pt.index

/-- The payload of `EncodeSetGeofence`. The number of corners is cut to a byte, and all of them are
written. -/
def setGeofencePayload (data : SetGeofenceData) : List Byte :=
  let payload := writeUint8 [] data.cmdType
  let payload := writeUint8 payload (UInt8.ofNat data.points.length)
  data.points.foldl writeGeofencePoint payload

/-- `EncodeSetGeofence`. -/
def encodeSetGeofence (cnt : Byte) (data : SetGeofenceData) : List Byte :=
  buildFrame cnt frameTypeCommand (setGeofencePayload data)

/-- The payload of `EncodeSwitchMode`. -/
def switchModePayload (data : SwitchModeData) : List Byte :=
  let payload := writeUint8 [] data.cmdType
  writeUint8 payload data.mode

/-- `EncodeSwitchMode`. -/
def encodeSwitchMode (cnt : Byte) (data : SwitchModeData) : List Byte :=
  buildFrame cnt frameTypeCommand (switchModePayload data)

/-- The payload of `EncodeGuidance`. -/
def guidancePayload (data : GuidanceData) : List Byte :=
  let payload := writeUint8 [] data.cmdType
  let payload := writeUint8 payload data.modeSwitch
  let payload := writeUint32 payload data.frameId
  let payload := writeUint32 payload data.trackId
  let payload := writeUint32 payload data.targetLon.toUInt32
  let payload := writeUint32 payload data.targetLat.toUInt32
  writeUint16 payload data.targetAlt

/-- `EncodeGuidance`. -/
def encodeGuidance (cnt : Byte) (data : GuidanceData) : List Byte :=
  buildFrame cnt frameTypeCommand (guidancePayload data)

/-- The payload of `EncodeGuidanceNew`. -/
def guidanceNewPayload (data : GuidanceNewData) : List Byte :=
  let payload := writeUint8 [] data.cmdType
  let payload := writeInt16 payload data.pitchLosRate
  let payload := writeInt16 payload data.yawLosRate
  let payload := writeInt16 payload data.pitchLosAngle
  let payload := writeInt16 payload data.yawLosAngle
  let payload := writeInt16 payload data.pitchFrameAngle
  let payload := writeInt16 payload data.yawFrameAngle
  let payload := writeInt16 payload data.gimbalPitchAngle
  let payload := writeInt16 payload data.gimbalYawAngle
  let payload := writeInt16 payload data.accX
  let payload := writeInt16 payload data.accY
  let payload := writeInt16 payload data.accZ
  let payload := writeInt16 payload data.gyroX
  let payload := writeInt16 payload data.gyroY
  let payload := writeInt16 payload data.gyroZ
  let payload := writeUint16 payload data.targetId
  let payload := writeUint16 payload data.targetType
  let payload := writeUint32 payload data.targetLon.toUInt32
  let payload := writeUint32 payload data.targetLat.toUInt32
  let payload := writeUint32 payload data.targetAlt.toUInt32
  let payload := writeUint32 payload data.laserRange.toUInt32
  writeUint8 payload data.status

/-- `EncodeGuidanceNew`. -/
def encodeGuidanceNew (cnt : Byte) (data : GuidanceNewData) : List Byte :=
  buildFrame cnt frameTypeCommand (guidanceNewPayload data)

/-- The payload of `EncodeGimbalAngRate`. -/
def gimbalAngRatePayload (data : GimbalAngRateData) : List Byte :=
  let payload := writeUint8 [] data.cmdType
  let payload := writeUint32 payload data.pitchLosRate.toUInt32
  let payload := writeUint32 payload data.yawLosRate.toUInt32
  let payload := writeUint32 payload data.targetLon.toUInt32
  let payload := writeUint32 payload data.targetLat.toUInt32
  let payload := writeUint32 payload data.targetAlt.toUInt32
  let payload := writeUint32 payload data.laserRange.toUInt32
  writeUint8 payload data.status

/-- `EncodeGimbalAngRate`. -/
def encodeGimbalAngRate (cnt : Byte) (data : GimbalAngRateData) : List Byte :=
  buildFrame cnt frameTypeCommand (gimbalAngRatePayload data)

/-- The payload of `EncodeGimbalAngle`. -/
def gimbalAnglePayload (data : GimbalAngleData) : List Byte :=
  let payload := writeUint8 [] data.cmdType
  let payload := writeUint32 payload data.pitchFrameAngle.toUInt32
  let payload := writeUint32 payload data.yawFrameAngle.toUInt32
  let payload := writeUint32 payload data.pitchAngRate.toUInt32
  writeUint32 payload data.yawAngRate.toUInt32

/-- `EncodeGimbalAngle`. -/
def encodeGimbalAngle (cnt : Byte) (data : GimbalAngleData) : List Byte :=
  buildFrame cnt frameTypeCommand (gimbalAnglePayload data)

/-- The payload of `EncodeTargetState`. -/
def targetStatePayload (data : TargetStateData) : List Byte :=
  let payload := writeUint8 [] data.cmdType
  let payload := writeUint32 payload data.pitchAxisAngle.toUInt32
  let payload := writeUint32 payload data.yawAxisAngle.toUInt32
  let payload := writeUint8 payload data.targetVerticalRatio
  let payload := writeUint8 payload data.targetHorizontalRatio
  writeUint8 payload data.status

/-- `EncodeTargetState`. -/
def encodeTargetState (cnt : Byte) (data : TargetStateData) : List Byte :=
  buildFrame cnt frameTypeCommand (targetStatePayload data)

/-! ## Commands -/

/-- A command that some `Encode*` function takes. -/
inductive Command where
  | setDestination (data : SetDestinationData)
  | setRoute (data : SetRouteData)
  | setAngle (data : SetAngleData)
  | setSpeed (data : SetSpeedData)
  | setAltitude (data : SetAltitudeData)
  | powerSwitch (data : PowerSwitchData)
  | parachute (data : ParachuteData)
  | buttonCommand (data : ButtonCommandData)
  | setOriginReturn (data : SetOriginReturnData)
  | setGeofence (data : SetGeofenceData)
  | switchMode (data : SwitchModeData)
  | guidance (data : GuidanceData)
  | guidanceNew (data : GuidanceNewData)
  | gimbalAngRate (data : GimbalAngRateData)
  | gimbalAngle (data : GimbalAngleData)
  | targetState (data : TargetStateData)
  deriving DecidableEq

/-- The type of the frame that a command is sent in. A destination has a type of its own. -/
def Command.frameType : Command → Byte
  | .setDestination _ => frameTypeSetDestination
  | _ => frameTypeCommand

/-- The payload that a command is sent with. -/
def Command.payload : Command → List Byte
  | .setDestination data => setDestinationPayload data
  | .setRoute data => setRoutePayload data
  | .setAngle data => setAnglePayload data
  | .setSpeed data => setSpeedPayload data
  | .setAltitude data => setAltitudePayload data
  | .powerSwitch data => powerSwitchPayload data
  | .parachute data => parachutePayload data
  | .buttonCommand data => buttonCommandPayload data
  | .setOriginReturn data => setOriginReturnPayload data
  | .setGeofence data => setGeofencePayload data
  | .switchMode data => switchModePayload data
  | .guidance data => guidancePayload data
  | .guidanceNew data => guidanceNewPayload data
  | .gimbalAngRate data => gimbalAngRatePayload data
  | .gimbalAngle data => gimbalAnglePayload data
  | .targetState data => targetStatePayload data

/-- The call of the `Encode*` function that belongs to the command. -/
def encode (cnt : Byte) : Command → List Byte
  | .setDestination data => encodeSetDestination cnt data
  | .setRoute data => encodeSetRoute cnt data
  | .setAngle data => encodeSetAngle cnt data
  | .setSpeed data => encodeSetSpeed cnt data
  | .setAltitude data => encodeSetAltitude cnt data
  | .powerSwitch data => encodePowerSwitch cnt data
  | .parachute data => encodeParachute cnt data
  | .buttonCommand data => encodeButtonCommand cnt data
  | .setOriginReturn data => encodeSetOriginReturn cnt data
  | .setGeofence data => encodeSetGeofence cnt data
  | .switchMode data => encodeSwitchMode cnt data
  | .guidance data => encodeGuidance cnt data
  | .guidanceNew data => encodeGuidanceNew cnt data
  | .gimbalAngRate data => encodeGimbalAngRate cnt data
  | .gimbalAngle data => encodeGimbalAngle cnt data
  | .targetState data => encodeTargetState cnt data

/-- The command carries the command byte of its own structure, and its point count fits a byte. -/
def Command.Own : Command → Prop
  | .setDestination data => data.cmdType = cmdSetDestination
  | .setRoute data => data.cmdType = cmdSetRoute ∧ data.points.length ≤ 255
  | .setAngle data => data.cmdType = cmdSetAngle
  | .setSpeed data => data.cmdType = cmdSetSpeed
  | .setAltitude data => data.cmdType = cmdSetAltitude
  | .powerSwitch data => data.cmdType = cmdPowerSwitch
  | .parachute data => data.cmdType = cmdParachute
  | .buttonCommand data => data.cmdType = cmdButton
  | .setOriginReturn data => data.cmdType = cmdSetOriginReturn
  | .setGeofence data => data.cmdType = cmdSetGeofence ∧ data.points.length ≤ 255
  | .switchMode data => data.cmdType = cmdSwitchMode
  | .guidance data => data.cmdType = cmdGuidance
  | .guidanceNew data => data.cmdType = cmdGuidanceNew
  | .gimbalAngRate data => data.cmdType = cmdGimbalAngRate
  | .gimbalAngle data => data.cmdType = cmdGimbalAngle
  | .targetState data => data.cmdType = cmdTargetState

/-- All sixteen encoders build the frame around the payload in the same way. -/
theorem encode_eq (cnt : Byte) (c : Command) :
    encode cnt c = buildFrame cnt c.frameType c.payload := by
  cases c <;> rfl

end FlyControl
