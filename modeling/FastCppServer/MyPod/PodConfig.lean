import Mathlib.Algebra.Group.Nat.Defs
import FastCppServer.MyData.Json

/-!
# What pods read of their configuration

The configuration of a pod is JSON. What `createPod` and `parseMonitorConfig` read of it may throw
(`none`), and so may what `connectFromConfig` only logs; the rest takes a default where a field is
missing or has another type.
-/

namespace PodModule

open MyData

/-- The integral part of a `double`, by its bits. -/
def truncate (bits : UInt64) : Int :=
  let exponent := bits.toNat / 2 ^ 52 % 2 ^ 11
  let fraction := bits.toNat % 2 ^ 52
  let significand := if exponent = 0 then fraction else fraction + 2 ^ 52
  let magnitude : Nat :=
    if 1075 ≤ exponent then significand * 2 ^ (exponent - 1075)
    else significand / 2 ^ (1075 - exponent)
  if bits.toNat < 2 ^ 63 then magnitude else -magnitude

/-- `get<int>` and `get<uint32_t>`, before the conversion to the type. -/
def getNumber : Json → Option Int
  | .boolean value => some (if value then 1 else 0)
  | .integer value => some value
  | .float bits => some (truncate bits)
  | _ => none

/-! ## The pod -/

structure PodInfo where
  podId : String := ""
  podName : String := ""
  model : String := ""
  firmwareVer : String := ""
  ipAddress : String := ""
  port : UInt16 := 0
  rawConfig : Json := .null

/-- The fields that `createPod` reads, with the type of the pod. -/
def readPodInfo (podId : String) (cfg : Json) : Option (String × PodInfo) := do
  let type ← cfg.value Json.asString "type" ""
  let podName ← cfg.value Json.asString "name" podId
  let ipAddress ← cfg.value Json.asString "ip" ""
  let port ← cfg.value getNumber "port" 0
  let model ← cfg.value Json.asString "model" ""
  let firmwareVer ← cfg.value Json.asString "firmware_ver" ""
  return (type, {
    podId, podName, model, firmwareVer, ipAddress, port := UInt16.ofInt port, rawConfig := cfg })

/-- The same fields, as `BasePod::Init` takes them over: those that have the right type. -/
def PodInfo.update (info : PodInfo) (cfg : Json) : PodInfo :=
  { info with
    rawConfig := cfg
    podName := cfg.getStringOr "name" info.podName
    model := cfg.getStringOr "model" info.model
    firmwareVer := cfg.getStringOr "firmware_ver" info.firmwareVer
    ipAddress := cfg.getStringOr "ip" info.ipAddress
    port :=
      match cfg.find "port" with
      | some (.integer value) => UInt16.ofInt value
      | _ => info.port }

/-! ## The PTZ capability -/

def PTZ : String := "PTZ"

/-- Its name, which is a key of older configurations. -/
def PTZ_LEGACY : String := "云台控制"

/-- The section of the PTZ capability, empty where there is none. -/
def readConfig (source : Json) : Json :=
  match source.find PTZ with
  | some (.object fields) => .object fields
  | _ =>
    match source.find PTZ_LEGACY with
    | some (.object fields) => .object fields
    | _ => .object []

def isEmpty : Json → Bool
  | .object fields => fields.isEmpty
  | _ => false

/-- `getCapabilityConfig`. -/
def getCapabilityConfig (capabilityConfigs rawConfig : Json) : Json :=
  let config := readConfig capabilityConfigs
  if isEmpty config then
    match rawConfig.find "capability" with
    | some (.object fields) => readConfig (.object fields)
    | _ => .object []
  else config

/-- `isCapabilityEnabled`, of the section. -/
def isEnabled (config : Json) : Bool :=
  if isEmpty config then true
  else match config.find "open" with
  | some (.string value) => value = "enable"
  | _ => true

/-- `getCapabilityInitArgs`, of the section. -/
def initArgs (config : Json) : Json := config.getObjectOr "init_args" (.object [])

/-- The address of the SDK, or `none` where it is not valid. -/
def resolvePinlingSdkConfig (info : PodInfo) (args : Json) : Option (String × UInt16) :=
  let ip := args.getStringOr "ip" info.ipAddress
  let port : Option UInt16 :=
    match args.find "port" with
    | some (.integer value) =>
      let port := Int32.ofInt value
      if port ≤ 0 ∨ 65535 < port then none else some (UInt16.ofInt port.toInt)
    | _ => some info.port
  match port with
  | none => none
  | some port => if ip = "" then none else if port = 0 then none else some (ip, port)

/-- Whether `connectFromConfig` can log the section: `value` throws where a field is no string. -/
def loggable (config : Json) : Bool :=
  isEmpty config ||
    ((config.value Json.asString "open" "<unset>").isSome &&
      (config.value Json.asString "description" "").isSome)

/-! ## The monitor -/

structure PodMonitorConfig where
  pollIntervalMs : UInt32 := 1000
  statusIntervalMs : UInt32 := 5000
  ptzIntervalMs : UInt32 := 1000
  laserIntervalMs : UInt32 := 5000
  streamIntervalMs : UInt32 := 5000
  onlineWindowSize : UInt32 := 3
  onlineThreshold : UInt32 := 2
  enableStatusPoll : Bool := true
  enablePtzPoll : Bool := true
  enableLaserPoll : Bool := false
  enableStreamPoll : Bool := true
  autoStart : Bool := true

/-- `isOpen` of `parseMonitorConfig`. -/
def isOpen (capability : Json) (key : String) : Option Bool :=
  match capability.find key with
  | none => some false
  | some cap =>
    if cap.isObject then (cap.value Json.asString "open" "").map fun text => text == "enable"
    else some false

def readUInt32 (m : Json) (key : String) (dflt : UInt32) : Option UInt32 :=
  match m.find key with
  | none => some dflt
  | some field => (getNumber field).map UInt32.ofInt

def readBool (m : Json) (key : String) (dflt : Bool) : Option Bool :=
  match m.find key with
  | none => some dflt
  | some field => field.asBool

/-- `applyMonitorSwitch`: what the capabilities do not enable, the monitor section cannot. -/
def applyMonitorSwitch (m : Json) (key : String) (hasCapability enabled target : Bool) :
    Option Bool :=
  match m.find key with
  | none => some target
  | some field => field.asBool.map fun requested =>
    if hasCapability then enabled && requested else requested

/-- The polls that the capabilities enable. -/
def capabilityMonitorConfig (capability : Json) : Option PodMonitorConfig := do
  let status ← isOpen capability "STATUS"
  let ptz ← isOpen capability "PTZ"
  let laser ← isOpen capability "LASER"
  let stream ← isOpen capability "STREAM"
  return {
    enableStatusPoll := status
    enablePtzPoll := ptz
    enableLaserPoll := laser
    enableStreamPoll := stream }

/-- What the monitor section changes of it. -/
def overrideMonitorConfig (hasCapability : Bool) (cfg : PodMonitorConfig) (m : Json) :
    Option PodMonitorConfig := do
  let pollIntervalMs ← readUInt32 m "poll_interval_ms" cfg.pollIntervalMs
  let statusIntervalMs ← readUInt32 m "status_interval_ms" cfg.statusIntervalMs
  let ptzIntervalMs ← readUInt32 m "ptz_interval_ms" cfg.ptzIntervalMs
  let laserIntervalMs ← readUInt32 m "laser_interval_ms" cfg.laserIntervalMs
  let streamIntervalMs ← readUInt32 m "stream_interval_ms" cfg.streamIntervalMs
  let onlineWindowSize ← readUInt32 m "online_window_size" cfg.onlineWindowSize
  let onlineThreshold ← readUInt32 m "online_threshold" cfg.onlineThreshold
  let switch := fun key enabled => applyMonitorSwitch m key hasCapability enabled enabled
  let enableStatusPoll ← switch "enable_status_poll" cfg.enableStatusPoll
  let enablePtzPoll ← switch "enable_ptz_poll" cfg.enablePtzPoll
  let enableStreamPoll ← switch "enable_stream_poll" cfg.enableStreamPoll
  let autoStart ← readBool m "auto_start" cfg.autoStart
  return {
    pollIntervalMs, statusIntervalMs, ptzIntervalMs, laserIntervalMs, streamIntervalMs,
    onlineWindowSize, onlineThreshold, enableStatusPoll, enablePtzPoll,
    enableLaserPoll := cfg.enableLaserPoll, enableStreamPoll, autoStart }

def parseMonitorConfig (podCfg : Json) : Option PodMonitorConfig := do
  let (hasCapability, cfg) ←
    match podCfg.find "capability" with
    | some (.object fields) => (capabilityMonitorConfig (.object fields)).map fun cfg => (true, cfg)
    | _ => some (false, {})
  match podCfg.find "monitor" with
  | some (.object fields) => overrideMonitorConfig hasCapability cfg (.object fields)
  | _ => return cfg

end PodModule
