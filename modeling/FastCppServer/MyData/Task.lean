import FastCppServer.MyData.Json

/-!
# Tasks and their results

`my_data::Task` with the `my_data::TaskResult` in it: the two texts of each, for a log
(`toString`) and for JSON (`toJson`, `fromJson`). An `enum class` has an `int` below it, and
`fromJson` takes over any, so each has a constructor for the values without a name. The text that
`nlohmann::json` makes of a value is a parameter (`dump`).
-/

namespace MyData

inductive ErrorCode where
  | ok
  | invalidCommand
  | unknownDevice
  | deviceOffline
  | timeout
  | driverError
  | eStop
  | internalError
  | other (value : Int32) (unnamed : ∀ named ∈ [0, 1, 2, 3, 4, 5, 6, 7], value ≠ named)
  deriving DecidableEq

namespace ErrorCode

def toInt : ErrorCode → Int32
  | ok => 0
  | invalidCommand => 1
  | unknownDevice => 2
  | deviceOffline => 3
  | timeout => 4
  | driverError => 5
  | eStop => 6
  | internalError => 7
  | other value _ => value

/-- `static_cast<ErrorCode>`. -/
def ofInt (value : Int32) : ErrorCode :=
  if h₀ : value = 0 then ok
  else if h₁ : value = 1 then invalidCommand
  else if h₂ : value = 2 then unknownDevice
  else if h₃ : value = 3 then deviceOffline
  else if h₄ : value = 4 then timeout
  else if h₅ : value = 5 then driverError
  else if h₆ : value = 6 then eStop
  else if h₇ : value = 7 then internalError
  else other value (by simp [*])

/-- `my_data::ToString`. -/
def toString : ErrorCode → String
  | ok => "Ok"
  | invalidCommand => "InvalidCommand"
  | unknownDevice => "UnknownDevice"
  | deviceOffline => "DeviceOffline"
  | timeout => "Timeout"
  | driverError => "DriverError"
  | eStop => "EStop"
  | internalError => "InternalError"
  | other _ _ => "UnknownErrorCode"

end ErrorCode

inductive TaskState where
  | pending
  | running
  | succeeded
  | failed
  | cancelled
  | other (value : Int32) (unnamed : ∀ named ∈ [0, 1, 2, 3, 4], value ≠ named)
  deriving DecidableEq

namespace TaskState

def toInt : TaskState → Int32
  | pending => 0
  | running => 1
  | succeeded => 2
  | failed => 3
  | cancelled => 4
  | other value _ => value

/-- `static_cast<TaskState>`. -/
def ofInt (value : Int32) : TaskState :=
  if h₀ : value = 0 then pending
  else if h₁ : value = 1 then running
  else if h₂ : value = 2 then succeeded
  else if h₃ : value = 3 then failed
  else if h₄ : value = 4 then cancelled
  else other value (by simp [*])

/-- `my_data::ToString`. -/
def toString : TaskState → String
  | pending => "Pending"
  | running => "Running"
  | succeeded => "Succeeded"
  | failed => "Failed"
  | cancelled => "Cancelled"
  | other _ _ => "UnknownTaskState"

end TaskState

structure TaskResult where
  code : ErrorCode := .ok
  message : String := ""
  startedAtMs : Int64 := 0
  finishedAtMs : Int64 := 0
  output : Json := .object []
  deriving Inhabited

structure Task where
  taskId : String := ""
  commandId : String := ""
  traceId : String := ""
  spanId : String := ""
  edgeId : String := ""
  deviceId : String := ""
  capability : String := ""
  action : String := ""
  params : Json := .object []
  idempotencyKey : String := ""
  dedupWindowMs : Int64 := 0
  priority : Int32 := 0
  createdAtMs : Int64 := 0
  deadlineAtMs : Int64 := 0
  policy : Json := .object []
  state : TaskState := .pending
  result : TaskResult := {}
  deriving Inhabited

/-! ## The text for a log -/

section
variable (dump : Json → String)

def TaskResult.toString (r : TaskResult) : String :=
  "TaskResult\x7bcode=" ++ r.code.toString ++
  ", message=" ++ r.message ++
  ", started_at_ms=" ++ ToString.toString r.startedAtMs ++
  ", finished_at_ms=" ++ ToString.toString r.finishedAtMs ++
  ", output=" ++ dump r.output ++
  "\x7d"

/-- All fields but `trace_id` and `span_id`. -/
def Task.toString (t : Task) : String :=
  "Task\x7btask_id=" ++ t.taskId ++
  ", command_id=" ++ t.commandId ++
  ", edge_id=" ++ t.edgeId ++
  ", device_id=" ++ t.deviceId ++
  ", capability=" ++ t.capability ++
  ", action=" ++ t.action ++
  ", params=" ++ dump t.params ++
  ", idempotency_key=" ++ t.idempotencyKey ++
  ", dedup_window_ms=" ++ ToString.toString t.dedupWindowMs ++
  ", priority=" ++ ToString.toString t.priority ++
  ", created_at_ms=" ++ ToString.toString t.createdAtMs ++
  ", deadline_at_ms=" ++ ToString.toString t.deadlineAtMs ++
  ", policy=" ++ dump t.policy ++
  ", state=" ++ t.state.toString ++
  ", result=" ++ t.result.toString dump ++
  "\x7d"

end

/-! ## JSON -/

def TaskResult.toJson (r : TaskResult) : Json :=
  (Json.object [])
    |>.set "code" (.integer r.code.toInt.toInt)
    |>.set "message" (.string r.message)
    |>.set "started_at_ms" (.integer r.startedAtMs.toInt)
    |>.set "finished_at_ms" (.integer r.finishedAtMs.toInt)
    |>.set "output" r.output

def TaskResult.fromJson (j : Json) : TaskResult where
  code := .ofInt (j.getIntOr "code" ErrorCode.ok.toInt)
  message := j.getStringOr "message" ""
  startedAtMs := j.getInt64Or "started_at_ms" 0
  finishedAtMs := j.getInt64Or "finished_at_ms" 0
  output := j.getObjectOr "output" (.object [])

def Task.toJson (t : Task) : Json :=
  (Json.object [])
    |>.set "task_id" (.string t.taskId)
    |>.set "command_id" (.string t.commandId)
    |>.set "trace_id" (.string t.traceId)
    |>.set "span_id" (.string t.spanId)
    |>.set "edge_id" (.string t.edgeId)
    |>.set "device_id" (.string t.deviceId)
    |>.set "capability" (.string t.capability)
    |>.set "action" (.string t.action)
    |>.set "params" t.params
    |>.set "idempotency_key" (.string t.idempotencyKey)
    |>.set "dedup_window_ms" (.integer t.dedupWindowMs.toInt)
    |>.set "priority" (.integer t.priority.toInt)
    |>.set "created_at_ms" (.integer t.createdAtMs.toInt)
    |>.set "deadline_at_ms" (.integer t.deadlineAtMs.toInt)
    |>.set "policy" t.policy
    |>.set "state" (.integer t.state.toInt.toInt)
    |>.set "result" t.result.toJson

def Task.fromJson (j : Json) : Task where
  taskId := j.getStringOr "task_id" ""
  commandId := j.getStringOr "command_id" ""
  traceId := j.getStringOr "trace_id" ""
  spanId := j.getStringOr "span_id" ""
  edgeId := j.getStringOr "edge_id" ""
  deviceId := j.getStringOr "device_id" ""
  capability := j.getStringOr "capability" ""
  action := j.getStringOr "action" ""
  params := j.getObjectOr "params" (.object [])
  idempotencyKey := j.getStringOr "idempotency_key" ""
  dedupWindowMs := j.getInt64Or "dedup_window_ms" 0
  priority := j.getIntOr "priority" 0
  createdAtMs := j.getInt64Or "created_at_ms" 0
  deadlineAtMs := j.getInt64Or "deadline_at_ms" 0
  policy := j.getObjectOr "policy" (.object [])
  state := .ofInt (j.getIntOr "state" TaskState.pending.toInt)
  result :=
    match j.find "result" with
    | some r => if r.isObject then .fromJson r else {}
    | none => {}

end MyData
