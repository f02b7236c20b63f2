import FastCppServer.MyData.Json
import Mathlib.Data.Finmap
import Mathlib.Data.String.Basic

/-!
# The status of a device and of an edge

`my_data::DeviceStatus` and `my_data::EdgeStatus` with their JSON. The devices of an edge are in an
`std::unordered_map`, so `toJson` runs over them in any order (`DeviceStatus.setAll_perm` says that
the object does not depend on it), and `fromJson` in the order of their keys. A `std::string` need
not be UTF-8: where it is not, it is read here byte by byte, each byte a character below 256.
-/

namespace MyData

/-- The connection states; an enumeration of C++ holds other numbers too. -/
inductive DeviceConnState where
  | unknown
  | online
  | offline
  | other (value : Int32) (unnamed : ∀ named ∈ [0, 1, 2], value ≠ named)
  deriving DecidableEq

namespace DeviceConnState

/-- The number of a state. -/
def toInt : DeviceConnState → Int32
  | unknown => 0
  | online => 1
  | offline => 2
  | other value _ => value

/-- `static_cast<DeviceConnState>`. -/
def ofInt (value : Int32) : DeviceConnState :=
  if h₀ : value = 0 then unknown
  else if h₁ : value = 1 then online
  else if h₂ : value = 2 then offline
  else other value (by simp [*])

end DeviceConnState

/-- The work states of a device. -/
inductive DeviceWorkState where
  | idle
  | busy
  | faulted
  | other (value : Int32) (unnamed : ∀ named ∈ [0, 1, 2], value ≠ named)
  deriving DecidableEq

namespace DeviceWorkState

/-- The number of a work state. -/
def toInt : DeviceWorkState → Int32
  | idle => 0
  | busy => 1
  | faulted => 2
  | other value _ => value

/-- `static_cast<DeviceWorkState>`. -/
def ofInt (value : Int32) : DeviceWorkState :=
  if h₀ : value = 0 then idle
  else if h₁ : value = 1 then busy
  else if h₂ : value = 2 then faulted
  else other value (by simp [*])

end DeviceWorkState

/-- The run states of an edge. -/
inductive EdgeRunState where
  | initializing
  | running
  | eStop
  | degraded
  | other (value : Int32) (unnamed : ∀ named ∈ [0, 1, 2, 3], value ≠ named)
  deriving DecidableEq

namespace EdgeRunState

/-- The number of a run state. -/
def toInt : EdgeRunState → Int32
  | initializing => 0
  | running => 1
  | eStop => 2
  | degraded => 3
  | other value _ => value

/-- `static_cast<EdgeRunState>`. -/
def ofInt (value : Int32) : EdgeRunState :=
  if h₀ : value = 0 then initializing
  else if h₁ : value = 1 then running
  else if h₂ : value = 2 then eStop
  else if h₃ : value = 3 then degraded
  else other value (by simp [*])

end EdgeRunState

/-- The status of a device, with the defaults of the source. -/
structure DeviceStatus where
  deviceId : String := ""
  connState : DeviceConnState := .unknown
  workState : DeviceWorkState := .idle
  runningTaskId : String := ""
  lastTaskAtMs : Int64 := 0
  lastSeenAtMs : Int64 := 0
  lastError : String := ""
  queueDepth : Int64 := 0
  deriving DecidableEq

/-- The status of an edge, with the devices by their identifiers. -/
structure EdgeStatus where
  edgeId : String := ""
  runState : EdgeRunState := .initializing
  bootAtMs : Int64 := 0
  lastHeartbeatAtMs : Int64 := 0
  estopActive : Bool := false
  estopReason : String := ""
  devices : Finmap fun _ : String => DeviceStatus := ∅
  tasksPendingTotal : Int64 := 0
  tasksRunningTotal : Int64 := 0
  version : String := "0.1.0"

/-! ## JSON -/

/-- `toJson` of a device, in the order of the source. -/
def DeviceStatus.toJson (s : DeviceStatus) : Json :=
  (Json.object [])
    |>.set "device_id" (.string s.deviceId)
    |>.set "conn_state" (.integer s.connState.toInt.toInt)
    |>.set "work_state" (.integer s.workState.toInt.toInt)
    |>.set "running_task_id" (.string s.runningTaskId)
    |>.set "last_task_at_ms" (.integer s.lastTaskAtMs.toInt)
    |>.set "last_seen_at_ms" (.integer s.lastSeenAtMs.toInt)
    |>.set "last_error" (.string s.lastError)
    |>.set "queue_depth" (.integer s.queueDepth.toInt)

/-- `fromJson` of a device: a field that is missing takes its default. -/
def DeviceStatus.fromJson (j : Json) : DeviceStatus where
  deviceId := j.getStringOr "device_id" ""
  connState := .ofInt (j.getIntOr "conn_state" 0)
  workState := .ofInt (j.getIntOr "work_state" 0)
  runningTaskId := j.getStringOr "running_task_id" ""
  lastTaskAtMs := j.getInt64Or "last_task_at_ms" 0
  lastSeenAtMs := j.getInt64Or "last_seen_at_ms" 0
  lastError := j.getStringOr "last_error" ""
  queueDepth := j.getInt64Or "queue_depth" 0

/-- Two fields come to their places in either order. -/
theorem Json.set_comm {k₁ k₂ : String} (hne : k₁ ≠ k₂) (v₁ v₂ j : Json) :
    (j.set k₁ v₁).set k₂ v₂ = (j.set k₂ v₂).set k₁ v₁ := by
  cases j with
  | object fields =>
    simp only [Json.set]
    congr 1
    induction fields with
    | nil =>
      simp only [Json.insert]
      grind
    | cons field rest ih =>
      obtain ⟨k, v⟩ := field
      simp only [Json.insert]
      grind [Json.insert]
  | _ => rfl

/-- `dev[id] = st.toJson()`, for one device after the other. -/
def DeviceStatus.setAll (dev : Json) (devices : List (Σ _ : String, DeviceStatus)) : Json :=
  devices.foldl (fun dev entry => dev.set entry.1 entry.2.toJson) dev

/-- The order of the devices means nothing to their object. -/
theorem DeviceStatus.setAll_perm {devices devices' : AList fun _ : String => DeviceStatus}
    (h : devices.entries.Perm devices'.entries) (dev : Json) :
    DeviceStatus.setAll dev devices.entries = DeviceStatus.setAll dev devices'.entries := by
  apply h.foldl_eq'
  intro entry hentry entry' hentry' dev
  by_cases hkey : entry.1 = entry'.1
  · rw [devices.nodupKeys.eq_of_fst_eq hentry hentry' hkey]
  · exact Json.set_comm hkey _ _ _

/-- `toJson` of an edge. -/
def EdgeStatus.toJson (s : EdgeStatus) : Json :=
  (Json.object [])
    |>.set "edge_id" (.string s.edgeId)
    |>.set "run_state" (.integer s.runState.toInt.toInt)
    |>.set "boot_at_ms" (.integer s.bootAtMs.toInt)
    |>.set "last_heartbeat_at_ms" (.integer s.lastHeartbeatAtMs.toInt)
    |>.set "estop_active" (.boolean s.estopActive)
    |>.set "estop_reason" (.string s.estopReason)
    |>.set "tasks_pending_total" (.integer s.tasksPendingTotal.toInt)
    |>.set "tasks_running_total" (.integer s.tasksRunningTotal.toInt)
    |>.set "version" (.string s.version)
    |>.set "devices" (s.devices.liftOn
        (fun devices => DeviceStatus.setAll (.object []) devices.entries)
      fun _ _ h => DeviceStatus.setAll_perm h _)

/-- `s.devices[it2.key()] = ...`, for each field that is an object. -/
def DeviceStatus.readAll (devices : Finmap fun _ : String => DeviceStatus)
    (fields : List (String × Json)) : Finmap fun _ : String => DeviceStatus :=
  fields.foldl (fun devices field =>
    if field.2.isObject then devices.insert field.1 (fromJson field.2) else devices) devices

/-- `fromJson` of an edge: of the devices only the objects are read. -/
def EdgeStatus.fromJson (j : Json) : EdgeStatus where
  edgeId := j.getStringOr "edge_id" ""
  runState := .ofInt (j.getIntOr "run_state" 0)
  bootAtMs := j.getInt64Or "boot_at_ms" 0
  lastHeartbeatAtMs := j.getInt64Or "last_heartbeat_at_ms" 0
  estopActive :=
    match j.find "estop_active" with
    | some (.boolean value) => value
    | _ => false
  estopReason := j.getStringOr "estop_reason" ""
  tasksPendingTotal := j.getInt64Or "tasks_pending_total" 0
  tasksRunningTotal := j.getInt64Or "tasks_running_total" 0
  version := j.getStringOr "version" "0.1.0"
  devices :=
    match j.find "devices" with
    | some (.object fields) => DeviceStatus.readAll ∅ fields
    | _ => ∅

end MyData
