import FastCppServer.FlyControl.Codec
import FastCppServer.FlyControl.Stall

/-!
# The flight-control round trip

Every encoded command is an intact frame (`Command.Own.intact`): the encoders and the length table
of the parser agree. A stream of encoded commands, behind bytes in which no header stands, is
therefore popped command by command (`drain_commands`), and `readCommand`, which reads a payload
field by field in the documented order, gives every command back (`Command.Own.reads`).
-/

namespace FlyControl

open Framing Bytes MyLEHelper Cursor

/-! ## Reading a payload -/

/-- What reads a command back from its payload. The codec has no such function: the flight
controller does it. -/
abbrev PayloadReader := Reader Byte Fault

/-- `static_cast<int32_t>(read_uint32(..))`. -/
def readInt32 : PayloadReader Int32 := do
  let value ← readUint32
  pure value.toInt32

/-- A signed number is read back from the four bytes of its two's complement. -/
theorem reads_int32 (v : Int32) : Reads sizeMod readInt32 (uint32Bytes v.toUInt32) v :=
  (reads_uint32 v.toUInt32).bind_pure (f := UInt32.toInt32)

/-- Reads the fields of a `SetDestinationData`, behind its command byte. -/
def readSetDestination (cmdType : Byte) : PayloadReader SetDestinationData := do
  let longitude ← readInt32
  let latitude ← readInt32
  let altitude ← readUint16
  pure { cmdType, longitude, latitude, altitude }

/-- Reads one point of a route, in the order in which `writeRoutePoint` writes it. -/
def readRoutePoint : PayloadReader RoutePoint := do
  let longitude ← readInt32
  let latitude ← readInt32
  let altitude ← readUint16
  let index ← readUint16
  let speed ← readUint16
  pure { longitude, latitude, altitude, index, speed }

/-- Reads the number of points, and so many points. -/
def readSetRoute (cmdType : Byte) : PayloadReader SetRouteData := do
  let count ← readUint8
  let points ← readList readRoutePoint count.toNat
  pure { cmdType, points }

/-- Reads the fields of a `SetAngleData`, behind its command byte. -/
def readSetAngle (cmdType : Byte) : PayloadReader SetAngleData := do
  let pitch ← readInt16
  let yaw ← readUint16
  pure { cmdType, pitch, yaw }

/-- Reads the fields of a `SetSpeedData`, behind its command byte. -/
def readSetSpeed (cmdType : Byte) : PayloadReader SetSpeedData := do
  let speed ← readUint16
  pure { cmdType, speed }

/-- Reads the fields of a `SetAltitudeData`, behind its command byte. -/
def readSetAltitude (cmdType : Byte) : PayloadReader SetAltitudeData := do
  let altitudeType ← readUint8
  let altitude ← readUint16
  pure { cmdType, altitudeType, altitude }

/-- Reads the fields of a `PowerSwitchData`, behind its command byte. -/
def readPowerSwitch (cmdType : Byte) : PayloadReader PowerSwitchData := do
  let command ← readUint8
  pure { cmdType, command }

/-- Reads the fields of a `ParachuteData`, behind its command byte. -/
def readParachute (cmdType : Byte) : PayloadReader ParachuteData := do
  let parachuteType ← readUint8
  pure { cmdType, parachuteType }

/-- Reads the fields of a `ButtonCommandData`, behind its command byte. -/
def readButtonCommand (cmdType : Byte) : PayloadReader ButtonCommandData := do
  let button ← readUint8
  pure { cmdType, button }

/-- Reads the fields of a `SetOriginReturnData`, behind its command byte. -/
def readSetOriginReturn (cmdType : Byte) : PayloadReader SetOriginReturnData := do
  let pointType ← readUint8
  let longitude ← readInt32
  let latitude ← readInt32
  let altitude ← readUint16
  pure { cmdType, pointType, longitude, latitude, altitude }

/-- Reads one corner of a geofence, in the order in which `writeGeofencePoint` writes it. -/
def readGeofencePoint : PayloadReader GeofencePoint := do
  let longitude ← readInt32
  let latitude ← readInt32
  let altitude ← readUint16
  let index ← readUint8
  pure { longitude, latitude, altitude, index }

/-- Reads the number of corners, and so many corners. -/
def readSetGeofence (cmdType : Byte) : PayloadReader SetGeofenceData := do
  let count ← readUint8
  let points ← readList readGeofencePoint count.toNat
  pure { cmdType, points }

/-- Reads the fields of a `SwitchModeData`, behind its command byte. -/
def readSwitchMode (cmdType : Byte) : PayloadReader SwitchModeData := do
  let mode ← readUint8
  pure { cmdType, mode }

/-- Reads the fields of a `GuidanceData`, behind its command byte. -/
def readGuidance (cmdType : Byte) : PayloadReader GuidanceData := do
  let modeSwitch ← readUint8
  let frameId ← readUint32
  let trackId ← readUint32
  let targetLon ← readInt32
  let targetLat ← readInt32
  let targetAlt ← readUint16
  pure { cmdType, modeSwitch, frameId, trackId, targetLon, targetLat, targetAlt }

/-- Reads the fields of a `GuidanceNewData`, behind its command byte. -/
def readGuidanceNew (cmdType : Byte) : PayloadReader GuidanceNewData := do
  let pitchLosRate ← readInt16
  let yawLosRate ← readInt16
  let pitchLosAngle ← readInt16
  let yawLosAngle ← readInt16
  let pitchFrameAngle ← readInt16
  let yawFrameAngle ← readInt16
  let gimbalPitchAngle ← readInt16
  let gimbalYawAngle ← readInt16
  let accX ← readInt16
  let accY ← readInt16
  let accZ ← readInt16
  let gyroX ← readInt16
  let gyroY ← readInt16
  let gyroZ ← readInt16
  let targetId ← readUint16
  let targetType ← readUint16
  let targetLon ← readInt32
  let targetLat ← readInt32
  let targetAlt ← readInt32
  let laserRange ← readInt32
  let status ← readUint8
  pure
    { cmdType, pitchLosRate, yawLosRate, pitchLosAngle, yawLosAngle, pitchFrameAngle
      yawFrameAngle, gimbalPitchAngle, gimbalYawAngle, accX, accY, accZ, gyroX, gyroY, gyroZ
      targetId, targetType, targetLon, targetLat, targetAlt, laserRange, status }

/-- Reads the fields of a `GimbalAngRateData`, behind its command byte. -/
def readGimbalAngRate (cmdType : Byte) : PayloadReader GimbalAngRateData := do
  let pitchLosRate ← readInt32
  let yawLosRate ← readInt32
  let targetLon ← readInt32
  let targetLat ← readInt32
  let targetAlt ← readInt32
  let laserRange ← readInt32
  let status ← readUint8
  pure { cmdType, pitchLosRate, yawLosRate, targetLon, targetLat, targetAlt, laserRange, status }

/-- Reads the fields of a `GimbalAngleData`, behind its command byte. -/
def readGimbalAngle (cmdType : Byte) : PayloadReader GimbalAngleData := do
  let pitchFrameAngle ← readInt32
  let yawFrameAngle ← readInt32
  let pitchAngRate ← readInt32
  let yawAngRate ← readInt32
  pure { cmdType, pitchFrameAngle, yawFrameAngle, pitchAngRate, yawAngRate }

/-- Reads the fields of a `TargetStateData`, behind its command byte. -/
def readTargetState (cmdType : Byte) : PayloadReader TargetStateData := do
  let pitchAxisAngle ← readInt32
  let yawAxisAngle ← readInt32
  let targetVerticalRatio ← readUint8
  let targetHorizontalRatio ← readUint8
  let status ← readUint8
  pure { cmdType, pitchAxisAngle, yawAxisAngle, targetVerticalRatio, targetHorizontalRatio, status }

/-- Reads the command byte and the fields that go with it; `none` for an unknown command. -/
def readCommand (frameType : Byte) : PayloadReader (Option Command) := do
  let cmdType ← readUint8
  if frameType = frameTypeSetDestination then
    return some (.setDestination (← readSetDestination cmdType))
  else if cmdType = cmdSetRoute then
    return some (.setRoute (← readSetRoute cmdType))
  else if cmdType = cmdSetAngle then
    return some (.setAngle (← readSetAngle cmdType))
  else if cmdType = cmdSetSpeed then
    return some (.setSpeed (← readSetSpeed cmdType))
  else if cmdType = cmdSetAltitude then
    return some (.setAltitude (← readSetAltitude cmdType))
  else if cmdType = cmdPowerSwitch then
    return some (.powerSwitch (← readPowerSwitch cmdType))
  else if cmdType = cmdParachute then
    return some (.parachute (← readParachute cmdType))
  else if cmdType = cmdButton then
    return some (.buttonCommand (← readButtonCommand cmdType))
  else if cmdType = cmdSetOriginReturn then
    return some (.setOriginReturn (← readSetOriginReturn cmdType))
  else if cmdType = cmdSetGeofence then
    return some (.setGeofence (← readSetGeofence cmdType))
  else if cmdType = cmdSwitchMode then
    return some (.switchMode (← readSwitchMode cmdType))
  else if cmdType = cmdGuidance then
    return some (.guidance (← readGuidance cmdType))
  else if cmdType = cmdGuidanceNew then
    return some (.guidanceNew (← readGuidanceNew cmdType))
  else if cmdType = cmdGimbalAngRate then
    return some (.gimbalAngRate (← readGimbalAngRate cmdType))
  else if cmdType = cmdGimbalAngle then
    return some (.gimbalAngle (← readGimbalAngle cmdType))
  else if cmdType = cmdTargetState then
    return some (.targetState (← readTargetState cmdType))
  else
    return none

/-! ## Payloads -/

/-- The payload is the command byte and `n` bytes from which the data is read. -/
def CarriesData {α : Type} (payload : List Byte) (cmdType : Byte) (n : Nat)
    (read : PayloadReader α) (data : α) : Prop :=
  ∃ body, payload = cmdType :: body ∧ body.length = n ∧ Reads sizeMod read body data

/-- A loop that appends to its buffer appends one item after the other. -/
theorem foldl_append {α : Type} (write : List Byte → α → List Byte) (bytes : α → List Byte)
    (h : ∀ buf a, write buf a = buf ++ bytes a) (as : List α) (buf : List Byte) :
    as.foldl write buf = buf ++ (as.map bytes).flatten := by
  induction as generalizing buf with
  | nil => simp
  | cons a as ih => simp [h, ih]

/-- Items of one length take that length each. The points of a route and the corners of a geofence
are such. -/
theorem flatten_length {α : Type} (bytes : α → List Byte) {n : Nat}
    (h : ∀ a, (bytes a).length = n) (as : List α) :
    (as.map bytes).flatten.length = as.length * n := by
  induction as with
  | nil => simp
  | cons a as ih => simp [h, ih, Nat.succ_mul, Nat.add_comm]

/-- The payload of a destination has ten bytes behind its command byte, and is read back. -/
theorem carries_setDestination (data : SetDestinationData) :
    CarriesData (setDestinationPayload data) data.cmdType 10 (readSetDestination data.cmdType)
      data :=
  ⟨[uint32Bytes data.longitude.toUInt32, uint32Bytes data.latitude.toUInt32,
      uint16Bytes data.altitude].flatten,
    by simp [setDestinationPayload], by simp,
    (reads_int32 _).bind <| (reads_int32 _).bind <| (reads_uint16 _).bind <| Reads.pure _⟩

/-- What `writeRoutePoint` appends. -/
def routePointBytes (pt : RoutePoint) : List Byte :=
  [uint32Bytes pt.longitude.toUInt32, uint32Bytes pt.latitude.toUInt32,
    uint16Bytes pt.altitude, uint16Bytes pt.index, uint16Bytes pt.speed].flatten

/-- A point of a route is read back. -/
theorem reads_routePoint (pt : RoutePoint) :
    Reads sizeMod readRoutePoint (routePointBytes pt) pt :=
  (reads_int32 _).bind <| (reads_int32 _).bind <| (reads_uint16 _).bind <|
    (reads_uint16 _).bind <| (reads_uint16 _).bind <| Reads.pure _

/-- The payload of a route: its command byte, the number of points, and the points one behind the
other. -/
theorem setRoutePayload_eq (data : SetRouteData) :
    setRoutePayload data = data.cmdType :: UInt8.ofNat data.points.length ::
      (data.points.map routePointBytes).flatten := by
  have hw := foldl_append writeRoutePoint routePointBytes
    (fun buf pt => by simp [writeRoutePoint, routePointBytes])
  simp [setRoutePayload, hw]

/-- A route whose points can be counted in a byte is read back. With more points the count wraps,
and the rest is lost. -/
theorem carries_setRoute (data : SetRouteData) (h : data.points.length ≤ 255) :
    CarriesData (setRoutePayload data) data.cmdType (1 + data.points.length * 14)
      (readSetRoute data.cmdType) data := by
  refine ⟨[UInt8.ofNat data.points.length] ++ (data.points.map routePointBytes).flatten,
    setRoutePayload_eq data, ?_, (reads_uint8 _).bind ?_⟩
  · rw [List.length_append, flatten_length routePointBytes (n := 14) fun _ => rfl]
    rfl
  · rw [UInt8.toNat_ofNat_of_lt' (Nat.lt_succ_of_le h)]
    exact (Reads.readList reads_routePoint data.points).bind_pure

/-- The payload of an attitude is read back. -/
theorem carries_setAngle (data : SetAngleData) :
    CarriesData (setAnglePayload data) data.cmdType 4 (readSetAngle data.cmdType) data :=
  ⟨[uint16Bytes data.pitch.toUInt16, uint16Bytes data.yaw].flatten,
    by simp [setAnglePayload], by simp,
    (reads_int16 _).bind <| (reads_uint16 _).bind <| Reads.pure _⟩

/-- The payload of a speed is read back. -/
theorem carries_setSpeed (data : SetSpeedData) :
    CarriesData (setSpeedPayload data) data.cmdType 2 (readSetSpeed data.cmdType) data :=
  ⟨[uint16Bytes data.speed].flatten,
    by simp [setSpeedPayload], by simp,
    (reads_uint16 _).bind <| Reads.pure _⟩

/-- The payload of an altitude is read back. -/
theorem carries_setAltitude (data : SetAltitudeData) :
    CarriesData (setAltitudePayload data) data.cmdType 3 (readSetAltitude data.cmdType) data :=
  ⟨[[data.altitudeType], uint16Bytes data.altitude].flatten,
    by simp [setAltitudePayload], by simp,
    (reads_uint8 _).bind <| (reads_uint16 _).bind <| Reads.pure _⟩

/-- The payload of a power switch is read back. -/
theorem carries_powerSwitch (data : PowerSwitchData) :
    CarriesData (powerSwitchPayload data) data.cmdType 1 (readPowerSwitch data.cmdType) data :=
  ⟨[[data.command]].flatten,
    by simp [powerSwitchPayload], by simp,
    (reads_uint8 _).bind <| Reads.pure _⟩

/-- The payload of a parachute command is read back. -/
theorem carries_parachute (data : ParachuteData) :
    CarriesData (parachutePayload data) data.cmdType 1 (readParachute data.cmdType) data :=
  ⟨[[data.parachuteType]].flatten,
    by simp [parachutePayload], by simp,
    (reads_uint8 _).bind <| Reads.pure _⟩

/-- The payload of a button is read back. -/
theorem carries_buttonCommand (data : ButtonCommandData) :
    CarriesData (buttonCommandPayload data) data.cmdType 1 (readButtonCommand data.cmdType) data :=
  ⟨[[data.button]].flatten,
    by simp [buttonCommandPayload], by simp,
    (reads_uint8 _).bind <| Reads.pure _⟩

/-- The payload of an origin is read back. -/
theorem carries_setOriginReturn (data : SetOriginReturnData) :
    CarriesData (setOriginReturnPayload data) data.cmdType 11 (readSetOriginReturn data.cmdType)
      data :=
  ⟨[[data.pointType], uint32Bytes data.longitude.toUInt32, uint32Bytes data.latitude.toUInt32,
      uint16Bytes data.altitude].flatten,
    by simp [setOriginReturnPayload], by simp,
    (reads_uint8 _).bind <| (reads_int32 _).bind <| (reads_int32 _).bind <|
    (reads_uint16 _).bind <| Reads.pure _⟩

/-- What `writeGeofencePoint` appends. -/
def geofencePointBytes (pt : GeofencePoint) : List Byte :=
  [uint32Bytes pt.longitude.toUInt32, uint32Bytes pt.latitude.toUInt32,
    uint16Bytes pt.altitude, [pt.index]].flatten

/-- A corner of a geofence is read back. -/
theorem reads_geofencePoint (pt : GeofencePoint) :
    Reads sizeMod readGeofencePoint (geofencePointBytes pt) pt :=
  (reads_int32 _).bind <| (reads_int32 _).bind <| (reads_uint16 _).bind <|
    (reads_uint8 _).bind <| Reads.pure _

/-- The payload of a geofence: its command byte, the number of corners, and the corners one behind
the other. -/
theorem setGeofencePayload_eq (data : SetGeofenceData) :
    setGeofencePayload data = data.cmdType :: UInt8.ofNat data.points.length ::
      (data.points.map geofencePointBytes).flatten := by
  have hw := foldl_append writeGeofencePoint geofencePointBytes
    (fun buf pt => by simp [writeGeofencePoint, geofencePointBytes])
  simp [setGeofencePayload, hw]

/-- A geofence whose corners can be counted in a byte is read back. -/
theorem carries_setGeofence (data : SetGeofenceData) (h : data.points.length ≤ 255) :
    CarriesData (setGeofencePayload data) data.cmdType (1 + data.points.length * 11)
      (readSetGeofence data.cmdType) data := by
  refine ⟨[UInt8.ofNat data.points.length] ++ (data.points.map geofencePointBytes).flatten,
    setGeofencePayload_eq data, ?_, (reads_uint8 _).bind ?_⟩
  · rw [List.length_append, flatten_length geofencePointBytes (n := 11) fun _ => rfl]
    rfl
  · rw [UInt8.toNat_ofNat_of_lt' (Nat.lt_succ_of_le h)]
    exact (Reads.readList reads_geofencePoint data.points).bind_pure

/-- The payload of a flight mode is read back. -/
theorem carries_switchMode (data : SwitchModeData) :
    CarriesData (switchModePayload data) data.cmdType 1 (readSwitchMode data.cmdType) data :=
  ⟨[[data.mode]].flatten,
    by simp [switchModePayload], by simp,
    (reads_uint8 _).bind <| Reads.pure _⟩

/-- The payload of the older guidance is read back. -/
theorem carries_guidance (data : GuidanceData) :
    CarriesData (guidancePayload data) data.cmdType 19 (readGuidance data.cmdType) data :=
  ⟨[[data.modeSwitch], uint32Bytes data.frameId, uint32Bytes data.trackId,
      uint32Bytes data.targetLon.toUInt32, uint32Bytes data.targetLat.toUInt32,
      uint16Bytes data.targetAlt].flatten,
    by simp [guidancePayload], by simp,
    (reads_uint8 _).bind <| (reads_uint32 _).bind <| (reads_uint32 _).bind <|
    (reads_int32 _).bind <| (reads_int32 _).bind <| (reads_uint16 _).bind <| Reads.pure _⟩

/-- The payload of the newer guidance is read back, all twenty-one fields of it. -/
theorem carries_guidanceNew (data : GuidanceNewData) :
    CarriesData (guidanceNewPayload data) data.cmdType 49 (readGuidanceNew data.cmdType) data :=
  ⟨[uint16Bytes data.pitchLosRate.toUInt16, uint16Bytes data.yawLosRate.toUInt16,
      uint16Bytes data.pitchLosAngle.toUInt16, uint16Bytes data.yawLosAngle.toUInt16,
      uint16Bytes data.pitchFrameAngle.toUInt16, uint16Bytes data.yawFrameAngle.toUInt16,
      uint16Bytes data.gimbalPitchAngle.toUInt16, uint16Bytes data.gimbalYawAngle.toUInt16,
      uint16Bytes data.accX.toUInt16, uint16Bytes data.accY.toUInt16,
      uint16Bytes data.accZ.toUInt16, uint16Bytes data.gyroX.toUInt16,
      uint16Bytes data.gyroY.toUInt16, uint16Bytes data.gyroZ.toUInt16,
      uint16Bytes data.targetId, uint16Bytes data.targetType,
      uint32Bytes data.targetLon.toUInt32, uint32Bytes data.targetLat.toUInt32,
      uint32Bytes data.targetAlt.toUInt32, uint32Bytes data.laserRange.toUInt32,
      [data.status]].flatten,
    by simp [guidanceNewPayload], by simp,
    (reads_int16 _).bind <| (reads_int16 _).bind <| (reads_int16 _).bind <|
    (reads_int16 _).bind <| (reads_int16 _).bind <| (reads_int16 _).bind <|
    (reads_int16 _).bind <| (reads_int16 _).bind <| (reads_int16 _).bind <|
    (reads_int16 _).bind <| (reads_int16 _).bind <| (reads_int16 _).bind <|
    (reads_int16 _).bind <| (reads_int16 _).bind <| (reads_uint16 _).bind <|
    (reads_uint16 _).bind <| (reads_int32 _).bind <| (reads_int32 _).bind <|
    (reads_int32 _).bind <| (reads_int32 _).bind <| (reads_uint8 _).bind <| Reads.pure _⟩

/-- The payload of the line-of-sight rates is read back. -/
theorem carries_gimbalAngRate (data : GimbalAngRateData) :
    CarriesData (gimbalAngRatePayload data) data.cmdType 25 (readGimbalAngRate data.cmdType)
      data :=
  ⟨[uint32Bytes data.pitchLosRate.toUInt32, uint32Bytes data.yawLosRate.toUInt32,
      uint32Bytes data.targetLon.toUInt32, uint32Bytes data.targetLat.toUInt32,
      uint32Bytes data.targetAlt.toUInt32, uint32Bytes data.laserRange.toUInt32,
      [data.status]].flatten,
    by simp [gimbalAngRatePayload], by simp,
    (reads_int32 _).bind <| (reads_int32 _).bind <| (reads_int32 _).bind <|
    (reads_int32 _).bind <| (reads_int32 _).bind <| (reads_int32 _).bind <|
    (reads_uint8 _).bind <| Reads.pure _⟩

/-- The payload of the frame angles is read back. -/
theorem carries_gimbalAngle (data : GimbalAngleData) :
    CarriesData (gimbalAnglePayload data) data.cmdType 16 (readGimbalAngle data.cmdType) data :=
  ⟨[uint32Bytes data.pitchFrameAngle.toUInt32, uint32Bytes data.yawFrameAngle.toUInt32,
      uint32Bytes data.pitchAngRate.toUInt32, uint32Bytes data.yawAngRate.toUInt32].flatten,
    by simp [gimbalAnglePayload], by simp,
    (reads_int32 _).bind <| (reads_int32 _).bind <| (reads_int32 _).bind <|
    (reads_int32 _).bind <| Reads.pure _⟩

/-- The payload of a target state is read back. -/
theorem carries_targetState (data : TargetStateData) :
    CarriesData (targetStatePayload data) data.cmdType 11 (readTargetState data.cmdType) data :=
  ⟨[uint32Bytes data.pitchAxisAngle.toUInt32, uint32Bytes data.yawAxisAngle.toUInt32,
      [data.targetVerticalRatio], [data.targetHorizontalRatio],
      [data.status]].flatten,
    by simp [targetStatePayload], by simp,
    (reads_int32 _).bind <| (reads_int32 _).bind <| (reads_uint8 _).bind <|
    (reads_uint8 _).bind <| (reads_uint8 _).bind <| Reads.pure _⟩

/-- A payload gives its command back where the command byte leads to the reader of its data. -/
theorem CarriesData.reads {α : Type} {payload : List Byte} {cmdType cmd : Byte} {n : Nat}
    {read : Byte → PayloadReader α} {data : α} {command : α → Command}
    {next : Byte → PayloadReader (Option Command)}
    (hd : CarriesData payload cmdType n (read cmdType) data) (ht : cmdType = cmd)
    (hnext : next cmd = do return some (command (← read cmd))) :
    Reads sizeMod (readUint8 >>= next) payload (some (command data)) := by
  obtain ⟨body, rfl, -, hr⟩ := hd
  subst ht
  refine (reads_uint8 cmdType).bind ?_
  rw [hnext]
  exact hr.bind_pure

/-- **Every payload gives its command back.** -/
theorem Command.Own.reads {c : Command} (h : c.Own) :
    Reads sizeMod (readCommand c.frameType) c.payload (some c) := by
  cases c with
  | setDestination data => exact (carries_setDestination data).reads h rfl
  | setRoute data => exact (carries_setRoute data h.2).reads h.1 rfl
  | setAngle data => exact (carries_setAngle data).reads h rfl
  | setSpeed data => exact (carries_setSpeed data).reads h rfl
  | setAltitude data => exact (carries_setAltitude data).reads h rfl
  | powerSwitch data => exact (carries_powerSwitch data).reads h rfl
  | parachute data => exact (carries_parachute data).reads h rfl
  | buttonCommand data => exact (carries_buttonCommand data).reads h rfl
  | setOriginReturn data => exact (carries_setOriginReturn data).reads h rfl
  | setGeofence data => exact (carries_setGeofence data h.2).reads h.1 rfl
  | switchMode data => exact (carries_switchMode data).reads h rfl
  | guidance data => exact (carries_guidance data).reads h rfl
  | guidanceNew data => exact (carries_guidanceNew data).reads h rfl
  | gimbalAngRate data => exact (carries_gimbalAngRate data).reads h rfl
  | gimbalAngle data => exact (carries_gimbalAngle data).reads h rfl
  | targetState data => exact (carries_targetState data).reads h rfl

/-! ## The length table agrees with the encoders -/

/-- A destination is intact: its frame type alone tells the parser the length, whatever the command
byte is. -/
theorem intact_setDestination {cnt cmdType : Byte} {body : List Byte} (h : body.length = 10) :
    Intact cnt frameTypeSetDestination (cmdType :: body) := by
  rw [Intact, buildFrame_length, List.length_cons, h]
  rfl

/-- What the parser expects of a command frame that begins here: the table gives the length, or the
count behind the command byte does. -/
theorem expectedLen_buildFrame_command (cnt cmdType : Byte) (body : List Byte) :
    expectedLen (buildFrame cnt frameTypeCommand (cmdType :: body)) =
      if commandFrameLen cmdType = 0 then
        calcVariableLenFrameLen (buildFrame cnt frameTypeCommand (cmdType :: body)) frameTypeCommand
      else commandFrameLen cmdType :=
  expectedLen_command (by rw [buildFrame_length, List.length_cons]; omega) rfl

/-- A command of fixed length. -/
theorem intact_command {cnt cmdType : Byte} {body : List Byte}
    (h : commandFrameLen cmdType = 8 + body.length) :
    Intact cnt frameTypeCommand (cmdType :: body) := by
  rw [Intact, expectedLen_buildFrame_command, buildFrame_length, if_neg (by omega), h,
    List.length_cons]
  omega

/-- The length of a frame with a point list, by its count byte. -/
theorem calcVariableLenFrameLen_buildFrame (cnt cmdType count : Byte) (body : List Byte) :
    calcVariableLenFrameLen (buildFrame cnt frameTypeCommand (cmdType :: count :: body))
        frameTypeCommand =
      if cmdType = cmdSetRoute then 9 + count.toNat * 14
      else if cmdType = cmdSetGeofence then 9 + count.toNat * 11
      else 0 := by
  have h6 : ¬ (buildFrame cnt frameTypeCommand (cmdType :: count :: body)).length < 6 := by
    simp only [buildFrame_length, List.length_cons]
    omega
  rw [calcVariableLenFrameLen, if_neg (not_not.2 rfl), if_neg h6]
  rfl

/-- A route is intact where the count in it is that of its points. -/
theorem intact_route {cnt count : Byte} {body : List Byte} (h : body.length = count.toNat * 14) :
    Intact cnt frameTypeCommand (cmdSetRoute :: count :: body) := by
  rw [Intact, expectedLen_buildFrame_command, if_pos (by decide),
    calcVariableLenFrameLen_buildFrame, if_pos rfl, buildFrame_length]
  simp only [List.length_cons]
  omega

/-- A geofence is intact where the count in it is that of its corners. -/
theorem intact_geofence {cnt count : Byte} {body : List Byte} (h : body.length = count.toNat * 11) :
    Intact cnt frameTypeCommand (cmdSetGeofence :: count :: body) := by
  rw [Intact, expectedLen_buildFrame_command, if_pos (by decide),
    calcVariableLenFrameLen_buildFrame, if_neg (by decide), if_pos rfl, buildFrame_length]
  simp only [List.length_cons]
  omega

/-- The frame of a payload of fixed length. -/
theorem CarriesData.intact {α : Type} {payload : List Byte} {cnt cmdType cmd : Byte} {n : Nat}
    {read : PayloadReader α} {data : α} (hd : CarriesData payload cmdType n read data)
    (ht : cmdType = cmd) (hlen : commandFrameLen cmd = 8 + n) :
    Intact cnt frameTypeCommand payload := by
  obtain ⟨body, rfl, rfl, -⟩ := hd
  rw [ht]
  exact intact_command hlen

/-- **Every encoded command is an intact frame.** -/
theorem Command.Own.intact {c : Command} (h : c.Own) (cnt : Byte) :
    Intact cnt c.frameType c.payload := by
  cases c with
  | setDestination data =>
    obtain ⟨body, hp, hlen, -⟩ := carries_setDestination data
    rw [Command.payload, hp]
    exact intact_setDestination hlen
  | setRoute data =>
    rw [Command.payload, setRoutePayload_eq, h.1]
    refine intact_route ?_
    rw [UInt8.toNat_ofNat_of_lt' (Nat.lt_succ_of_le h.2)]
    exact flatten_length routePointBytes (fun _ => rfl) data.points
  | setAngle data => exact (carries_setAngle data).intact h rfl
  | setSpeed data => exact (carries_setSpeed data).intact h rfl
  | setAltitude data => exact (carries_setAltitude data).intact h rfl
  | powerSwitch data => exact (carries_powerSwitch data).intact h rfl
  | parachute data => exact (carries_parachute data).intact h rfl
  | buttonCommand data => exact (carries_buttonCommand data).intact h rfl
  | setOriginReturn data => exact (carries_setOriginReturn data).intact h rfl
  | setGeofence data =>
    rw [Command.payload, setGeofencePayload_eq, h.1]
    refine intact_geofence ?_
    rw [UInt8.toNat_ofNat_of_lt' (Nat.lt_succ_of_le h.2)]
    exact flatten_length geofencePointBytes (fun _ => rfl) data.points
  | switchMode data => exact (carries_switchMode data).intact h rfl
  | guidance data => exact (carries_guidance data).intact h rfl
  | guidanceNew data => exact (carries_guidanceNew data).intact h rfl
  | gimbalAngRate data => exact (carries_gimbalAngRate data).intact h rfl
  | gimbalAngle data => exact (carries_gimbalAngle data).intact h rfl
  | targetState data => exact (carries_targetState data).intact h rfl

/-! ## Streams of commands -/

/-- Bytes in which no header stands are dropped in front of what starts with `EB`. -/
theorem scan_front {front x r : List Byte} {as : List ParsedFrame} (hf : ¬ HoldsHeader front)
    (hx : x ≠ []) (h0 : byteAt x 0 = frameHeader0) (hs : Scan flyFramer x as r none) :
    Scan flyFramer (front ++ x) as r none := by
  have hpos := List.length_pos_iff.2 hx
  induction front with
  | nil => exact hs
  | cons b front ih =>
    have hjunk : Decides (b :: front ++ x) (.skip 1) := by
      refine .junk (by simp; omega) fun hh => ?_
      cases front with
      | nil => exact absurd (h0.symm.trans hh.2.2) (by decide)
      | cons b' front => exact hf ⟨0, (headerAt_append (by simp) x).1 hh⟩
    exact .skip hjunk.eq (ih fun ⟨k, hk⟩ => hf ⟨k + 1, hk⟩)

/-- Alone they are dropped but for the last, which may be the first byte of a header. -/
theorem scan_front_alone {front : List Byte} (hf : ¬ HoldsHeader front) :
    Scan flyFramer front [] (front.drop (front.length - 1)) none := by
  induction front with
  | nil => exact scan_nil
  | cons b front ih =>
    cases front with
    | nil => exact .wait (show candidate [b] = .wait from rfl)
    | cons b' front =>
      have hjunk : Decides (b :: b' :: front) (.skip 1) :=
        .junk (by simp) fun hh => hf ⟨0, hh⟩
      exact .skip hjunk.eq (ih fun ⟨k, hk⟩ => hf ⟨k + 1, hk⟩)

/-- Commands that are sent one behind the other are taken out one by one. The counters may be
any. -/
theorem scan_commands (cmds : List (Byte × Command)) (hown : ∀ c ∈ cmds, c.2.Own) :
    Scan flyFramer (cmds.map fun c => encode c.1 c.2).flatten
      (cmds.map fun c => frameOf c.1 c.2.frameType c.2.payload) [] none := by
  induction cmds with
  | nil => exact scan_nil
  | cons c cmds ih =>
    rw [List.map_cons, List.flatten_cons, encode_eq]
    exact ((hown c List.mem_cons_self).intact c.1).scan
      (ih fun c hc => hown c (List.mem_cons_of_mem _ hc))

/-- **The wire round trip.** Behind bytes in which no header stands, a stream of encoded commands is
popped command by command, all valid, and each payload gives its command back. Nothing is left in
the buffer, except the last of those bytes where no command follows them. -/
theorem drain_commands (front : List Byte) (cmds : List (Byte × Command))
    (hfront : ¬ HoldsHeader front) (hown : ∀ c ∈ cmds, c.2.Own) :
    drain (feedData [] (front ++ (cmds.map fun c => encode c.1 c.2).flatten)) =
        (cmds.map fun c => frameOf c.1 c.2.frameType c.2.payload,
          if cmds = [] then front.drop (front.length - 1) else []) ∧
      ∀ c ∈ cmds, readCommand c.2.frameType c.2.payload 0 =
        (.ok (some c.2), c.2.payload.length) := by
  constructor
  · have hd := drain_scan (front ++ (cmds.map fun c => encode c.1 c.2).flatten)
    have hs : Scan flyFramer (front ++ (cmds.map fun c => encode c.1 c.2).flatten)
        (cmds.map fun c => frameOf c.1 c.2.frameType c.2.payload)
        (if cmds = [] then front.drop (front.length - 1) else []) none := by
      cases cmds with
      | nil => simpa using scan_front_alone hfront
      | cons c cmds =>
        rw [if_neg (by simp)]
        refine scan_front hfront ?_ ?_ (scan_commands _ hown)
        · simp [encode_eq, buildFrame]
        · simp [encode_eq, buildFrame]
    obtain ⟨h1, h2, -⟩ := Scan.det hd hs
    exact Prod.ext h1 h2
  · intro c hc
    have hi := (hown c hc).intact c.1
    refine (hown c hc).reads.run ?_
    have hb := expectedLen_bounds (b := buildFrame c.1 c.2.frameType c.2.payload)
      (by rw [hi, buildFrame_length]; omega)
    rw [hi, buildFrame_length, maxFrameLen] at hb
    rw [sizeMod]
    omega

/-- A speed and an empty route behind one byte of noise. -/
theorem drain_commands_speed_route :
    drain (feedData [] ([0x55] ++ ([(0, .setSpeed {}), (1, .setRoute {})].map
        fun c : Byte × Command => encode c.1 c.2).flatten)) =
        ([frameOf 0 frameTypeCommand (setSpeedPayload {}),
          frameOf 1 frameTypeCommand (setRoutePayload {})], []) ∧
      ∀ c ∈ [((0 : Byte), Command.setSpeed {}), (1, .setRoute {})],
        readCommand c.2.frameType c.2.payload 0 = (.ok (some c.2), c.2.payload.length) := by
  refine drain_commands [0x55] [(0, .setSpeed {}), (1, .setRoute {})] ?_ ?_
  · rintro ⟨k, h2, -⟩
    rw [List.length_drop, List.length_singleton] at h2
    omega
  · intro c hc
    rcases List.mem_pair.1 hc with rfl | rfl
    · exact rfl
    · exact ⟨rfl, by decide⟩

/-- The residual byte: with no command behind it, one byte of noise stays in the buffer. -/
theorem drain_noise_alone :
    ¬ HoldsHeader [0x55] ∧
      (drain (feedData [] ([0x55] ++ (([] : List (Byte × Command)).map
        fun c => encode c.1 c.2).flatten))).2 ≠ [] := by
  refine ⟨?_, by decide⟩
  rintro ⟨k, h2, -⟩
  rw [List.length_drop, List.length_singleton] at h2
  omega

end FlyControl
