/-!
# The flight-control protocol

The constants and data structures of `FlyControlProtocol.h`. Integer fields keep their width and
sign; a structure that a command is built from keeps its own command byte as the default of
`cmdType`, as the source does.
-/

namespace FlyControl

/-- A byte on the wire. -/
abbrev Byte := UInt8

/-! ## Frame constants -/

def frameHeader0 : Byte := 0xEB
def frameHeader1 : Byte := 0x90
def frameTail0 : Byte := 0xED
def frameTail1 : Byte := 0xDE

def frameTypeHeartbeat : Byte := 0x01
def frameTypeSetDestination : Byte := 0x02
def frameTypeCommand : Byte := 0x10
def frameTypeReply : Byte := 0x20
def frameTypeGimbalControl : Byte := 0x30

def cmdSetDestination : Byte := 0x01
def cmdSetRoute : Byte := 0x02
def cmdSetAngle : Byte := 0x03
def cmdSetSpeed : Byte := 0x04
def cmdSetAltitude : Byte := 0x05
def cmdPowerSwitch : Byte := 0x06
def cmdParachute : Byte := 0x07
def cmdButton : Byte := 0x09
def cmdSetOriginReturn : Byte := 0x0A
def cmdSetGeofence : Byte := 0x0B
def cmdSwitchMode : Byte := 0x0C
def cmdGuidance : Byte := 0x0D
def cmdGuidanceNew : Byte := 0x0E
def cmdGimbalAngRate : Byte := 0x0F
def cmdGimbalAngle : Byte := 0x10
def cmdTargetState : Byte := 0x11

/-- A heartbeat has a fixed length: 82 bytes of payload in a frame of 89. -/
def heartbeatFrameLen : Nat := 89

/-! ## Commands sent to the flight controller -/

/-- Where to fly to. A unit of longitude or latitude is `1e-7` degrees. -/
structure SetDestinationData where
  cmdType : Byte := cmdSetDestination
  longitude : Int32 := 0
  latitude : Int32 := 0
  altitude : UInt16 := 0
  deriving DecidableEq

/-- A waypoint of a route. -/
structure RoutePoint where
  longitude : Int32 := 0
  latitude : Int32 := 0
  altitude : UInt16 := 0
  index : UInt16 := 0
  speed : UInt16 := 0
  deriving DecidableEq

/-- A route. Its points are counted in one byte on the wire. -/
structure SetRouteData where
  cmdType : Byte := cmdSetRoute
  points : List RoutePoint := []
  deriving DecidableEq

/-- The attitude to hold. -/
structure SetAngleData where
  cmdType : Byte := cmdSetAngle
  pitch : Int16 := 0
  yaw : UInt16 := 0
  deriving DecidableEq

/-- The speed to hold. -/
structure SetSpeedData where
  cmdType : Byte := cmdSetSpeed
  speed : UInt16 := 0
  deriving DecidableEq

/-- The altitude to hold, and what it is measured against. -/
structure SetAltitudeData where
  cmdType : Byte := cmdSetAltitude
  altitudeType : Byte := 0
  altitude : UInt16 := 0
  deriving DecidableEq

/-- The power switch of the payload. -/
structure PowerSwitchData where
  cmdType : Byte := cmdPowerSwitch
  command : Byte := 0
  deriving DecidableEq

/-- The parachute to open. -/
structure ParachuteData where
  cmdType : Byte := cmdParachute
  parachuteType : Byte := 0
  deriving DecidableEq

/-- A command button that is pressed. -/
structure ButtonCommandData where
  cmdType : Byte := cmdButton
  button : Byte := 0
  deriving DecidableEq

/-- The origin, or the point to return to. -/
structure SetOriginReturnData where
  cmdType : Byte := cmdSetOriginReturn
  pointType : Byte := 0
  longitude : Int32 := 0
  latitude : Int32 := 0
  altitude : UInt16 := 0
  deriving DecidableEq

/-- A corner of the geofence. -/
structure GeofencePoint where
  longitude : Int32 := 0
  latitude : Int32 := 0
  altitude : UInt16 := 0
  index : Byte := 0
  deriving DecidableEq

/-- The geofence. Its corners are counted in one byte on the wire, as the points of a route are. -/
structure SetGeofenceData where
  cmdType : Byte := cmdSetGeofence
  points : List GeofencePoint := []
  deriving DecidableEq

/-- The flight mode to switch to. -/
structure SwitchModeData where
  cmdType : Byte := cmdSwitchMode
  mode : Byte := 0
  deriving DecidableEq

/-- A terminal guidance command: a track and the position of the target. -/
structure GuidanceData where
  cmdType : Byte := cmdGuidance
  modeSwitch : Byte := 0
  frameId : UInt32 := 0
  trackId : UInt32 := 0
  targetLon : Int32 := 0
  targetLat : Int32 := 0
  targetAlt : UInt16 := 0
  deriving DecidableEq

/-- The newer terminal guidance command: with the line of sight, the gimbal and the inertial
measurements. -/
structure GuidanceNewData where
  cmdType : Byte := cmdGuidanceNew
  pitchLosRate : Int16 := 0
  yawLosRate : Int16 := 0
  pitchLosAngle : Int16 := 0
  yawLosAngle : Int16 := 0
  pitchFrameAngle : Int16 := 0
  yawFrameAngle : Int16 := 0
  gimbalPitchAngle : Int16 := 0
  gimbalYawAngle : Int16 := 0
  accX : Int16 := 0
  accY : Int16 := 0
  accZ : Int16 := 0
  gyroX : Int16 := 0
  gyroY : Int16 := 0
  gyroZ : Int16 := 0
  targetId : UInt16 := 0
  targetType : UInt16 := 0
  targetLon : Int32 := 0
  targetLat : Int32 := 0
  targetAlt : Int32 := 0
  laserRange : Int32 := 0
  status : Byte := 0
  deriving DecidableEq

/-- The attitude of the gimbal, by angular rates. -/
structure GimbalAngRateData where
  cmdType : Byte := cmdGimbalAngRate
  pitchLosRate : Int32 := 0
  yawLosRate : Int32 := 0
  targetLon : Int32 := 0
  targetLat : Int32 := 0
  targetAlt : Int32 := 0
  laserRange : Int32 := 0
  status : Byte := 0
  deriving DecidableEq

/-- The attitude of the gimbal, by angles. -/
structure GimbalAngleData where
  cmdType : Byte := cmdGimbalAngle
  pitchFrameAngle : Int32 := 0
  yawFrameAngle : Int32 := 0
  pitchAngRate : Int32 := 0
  yawAngRate : Int32 := 0
  deriving DecidableEq

/-- The state of a target that has been recognised. -/
structure TargetStateData where
  cmdType : Byte := cmdTargetState
  pitchAxisAngle : Int32 := 0
  yawAxisAngle : Int32 := 0
  targetVerticalRatio : Byte := 0
  targetHorizontalRatio : Byte := 0
  status : Byte := 0
  deriving DecidableEq

/-! ## What the flight controller sends -/

/-- What the flight controller tells of itself. `cnt` is the counter of the frame, and no field of
the payload. -/
structure HeartbeatData where
  cnt : Byte := 0
  aircraftId : Byte := 0
  runMode : Byte := 0
  satelliteCount : Byte := 0
  longitude : Int32 := 0
  latitude : Int32 := 0
  altitude : UInt16 := 0
  relativeAlt : UInt16 := 0
  airspeed : UInt16 := 0
  groundspeed : UInt16 := 0
  velocityX : Int16 := 0
  velocityY : Int16 := 0
  velocityZ : Int16 := 0
  accelX : Int16 := 0
  accelY : Int16 := 0
  accelZ : Int16 := 0
  roll : Int16 := 0
  pitch : Int16 := 0
  yaw : UInt16 := 0
  flightMode : Byte := 0
  currentWaypoint : UInt16 := 0
  batteryVoltage : UInt16 := 0
  batteryPercent : Byte := 0
  batteryCurrent : UInt16 := 0
  atmPressure : UInt16 := 0
  utcTimestamp : UInt64 := 0
  faultInfo : UInt16 := 0
  rotationSpeed : UInt16 := 0
  throttle : UInt16 := 0
  targetAltitude : UInt16 := 0
  targetSpeed : UInt16 := 0
  originDistance : UInt16 := 0
  originHeading : UInt16 := 0
  targetDistance : UInt16 := 0
  flightState : Byte := 0
  altitudeState : Byte := 0
  stateSwitchSrc : Byte := 0
  flightTime : UInt16 := 0
  flightRange : UInt16 := 0
  reserved : UInt32 := 0
  deriving DecidableEq

/-- The flight controller's request to turn the gimbal. -/
structure GimbalControlData where
  cnt : Byte := 0
  enable : Byte := 0
  pitchAngle : Int16 := 0
  yawAngle : Int16 := 0
  deriving DecidableEq

/-- The answer to a command: which one it is about, and how it went. -/
structure CommandReplyData where
  cnt : Byte := 0
  repliedCmd : Byte := 0
  result : Byte := 0
  deriving DecidableEq

/-! ## Output of the frame layer -/

/-- A frame the parser has taken out of its buffer; `valid` is the outcome of the checksum test. -/
structure ParsedFrame where
  cnt : Byte := 0
  frameType : Byte := 0
  payload : List Byte := []
  checksum : Byte := 0
  valid : Bool := false
  deriving DecidableEq

end FlyControl
