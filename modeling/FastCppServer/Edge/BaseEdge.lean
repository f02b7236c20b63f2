import FastCppServer.Edge.SelfTask
import FastCppServer.MyControl.Workflow

/-!
# How a task comes into a queue

The three entry points of an edge: `Submit`, which normalises a command, and `AppendTask` and
`AppendJsonTask`, which take a task as it is. `BaseEdge` and `UUVEdge` have their own. Each one
holds the lock of the edge, so it is a function of what the edge is at that time (`Gate`), and gives
back the queue that it has changed, with its id. Only `Submit` looks at the emergency stop
(`submit_pushes`).

A result of `BaseEdge` without a task id has one that is made of a null pointer (the default of
`MakeResult` is `0`), which throws: such a `Submit` gives no result.
-/

namespace MyEdge

open MyData MyControl

/-- `RunStateToString`. -/
def RunState.toString : RunState → String
  | initializing => "Initializing"
  | ready => "Ready"
  | running => "Running"
  | stopping => "Stopping"
  | stopped => "Stopped"
  | runOver => "RunOver"

/-- A command as it comes in. -/
structure RawCommand where
  commandId : String := ""
  source : String := ""
  payload : Json := .object []
  receivedAtMs : Int64 := 0
  idempotencyKey : String := ""
  dedupWindowMs : Int64 := 0

/-- How `Submit` ends. -/
inductive SubmitCode where
  | ok
  | notRunning
  | eStop
  | invalidCommand
  | unknownDevice
  | queueShutdown
  | internalError
  deriving DecidableEq

/-- What `Submit` returns. -/
structure SubmitResult where
  code : SubmitCode := .internalError
  message : String := ""
  edgeId : String := ""
  deviceId : String := ""
  commandId : String := ""
  taskId : String := ""
  queueSizeAfter : Nat := 0
  deriving DecidableEq

/-- What the entry points read of an edge, but for its queues. -/
structure Gate where
  edgeId : String := "edge-default"
  runState : RunState := .initializing
  eStop : Bool := false
  eStopReason : String := ""
  allowQueueWhenEStop : Bool := false
  deviceTypeById : String → Option String := fun _ => none

/-- `queues_`. -/
abbrev Queues := String → Option TaskQueue

/-- The queue that an entry point has changed. -/
abbrev Change := Option (String × TaskQueue)

/-- `MakeResult`, where the task id is given. -/
def Gate.makeResult (g : Gate) (code : SubmitCode) (message : String) (cmd : RawCommand)
    (deviceId taskId : String) (queueSizeAfter : Nat) : SubmitResult :=
  { code, message, edgeId := g.edgeId, deviceId, commandId := cmd.commandId, taskId,
    queueSizeAfter }

/-- The reason of the emergency stop, after what it explains. -/
def withReason (text reason : String) : String :=
  if reason = "" then text else text ++ ": " ++ reason

namespace BaseEdge

/-- `AppendTaskToQueueLocked`. -/
def appendTaskToQueueLocked (queues : Queues) (deviceId : String) (task : Task) :
    Except String TaskQueue :=
  match queues deviceId with
  | none => .error ("找不到 device_id=" ++ deviceId ++ " 对应的队列")
  | some q =>
    if q.shutdown then .error ("队列已关闭，device_id=" ++ deviceId)
    else .ok (q.push task)

/-- `Submit`. What normalises a command is up to the edges that inherit it. -/
def submit (normalize : RawCommand → String → String → Except String Task) (g : Gate)
    (queues : Queues) (cmd : RawCommand) : Option SubmitResult × Change :=
  if g.runState ≠ .running then (none, none)
  else if g.eStop && !g.allowQueueWhenEStop then (none, none)
  else if !cmd.payload.isObject then (none, none)
  else
    let deviceId := cmd.payload.getStringOr "device_id" ""
    if deviceId = "" then (none, none)
    else match g.deviceTypeById deviceId with
    | none => (none, none)
    | some type =>
      match normalize cmd deviceId type with
      | .error _ => (none, none)
      | .ok task =>
        match appendTaskToQueueLocked queues deviceId task with
        | .error qerr =>
          (some (g.makeResult .internalError (withReason "入队失败" qerr) cmd deviceId task.taskId 0),
            none)
        | .ok q =>
          (some (g.makeResult .ok "已入队" cmd deviceId task.taskId q.q.length),
            some (deviceId, q))

/-- `AppendTask`. -/
def appendTask (queues : Queues) (task : Task) : Bool × Change :=
  if task.deviceId = "" then (false, none)
  else match appendTaskToQueueLocked queues task.deviceId task with
  | .error _ => (false, none)
  | .ok q => (true, some (task.deviceId, q))

/-- `AppendJsonTask`. -/
def appendJsonTask (queues : Queues) (j : Json) : Bool × Change :=
  appendTask queues (Task.fromJson j)

/-- What is pushed goes to a queue that has not been shut down. -/
theorem appendTaskToQueueLocked_ok {queues : Queues} {deviceId : String} {task : Task}
    {q' : TaskQueue} (h : appendTaskToQueueLocked queues deviceId task = .ok q') :
    ∃ q, queues deviceId = some q ∧ q.shutdown = false ∧ q' = q.push task := by
  unfold appendTaskToQueueLocked at h
  split at h
  next => cases h
  next q hq =>
    split at h
    next => cases h
    next hopen =>
      cases h
      exact ⟨q, hq, by simpa using hopen, rfl⟩

/-- An entry point has pushed a task to the queue of the id. -/
def Pushes (queues : Queues) (deviceId : String) (change : Change) : Prop :=
  deviceId ≠ "" ∧ ∃ q task, queues deviceId = some q ∧ q.shutdown = false ∧
    change = some (deviceId, q.push task)

/-- **`Submit`** reports success where it has pushed a task, which it does only outside of an
emergency stop or where that is allowed; else it does nothing. -/
theorem submit_pushes (normalize : RawCommand → String → String → Except String Task) (g : Gate)
    (queues : Queues) (cmd : RawCommand) :
    (∃ r, (submit normalize g queues cmd).1 = some r ∧ r.code = .ok ∧
      (g.eStop && !g.allowQueueWhenEStop) = false ∧
      Pushes queues r.deviceId (submit normalize g queues cmd).2) ∨
    (submit normalize g queues cmd).2 = none ∧
      ∀ r, (submit normalize g queues cmd).1 = some r → r.code ≠ .ok := by
  have hnone : ∀ r : SubmitResult, none = some r → r.code ≠ .ok := fun r h => by cases h
  unfold submit
  split
  next => exact .inr ⟨rfl, hnone⟩
  next =>
    split
    next => exact .inr ⟨rfl, hnone⟩
    next hstop =>
      split
      next => exact .inr ⟨rfl, hnone⟩
      next =>
        dsimp only
        split
        next => exact .inr ⟨rfl, hnone⟩
        next hid =>
          split
          next => exact .inr ⟨rfl, hnone⟩
          next =>
            split
            next => exact .inr ⟨rfl, hnone⟩
            next task _ =>
              split
              next =>
                refine .inr ⟨rfl, fun r hr => ?_⟩
                cases hr
                exact fun h => by cases h
              next q' hq' =>
                obtain ⟨q, hq, hopen, rfl⟩ := appendTaskToQueueLocked_ok hq'
                exact .inl ⟨_, rfl, rfl, by simpa using hstop, hid, q, task, hq, hopen, rfl⟩

/-- **`AppendTask`** reports success where it has pushed the task; else it does nothing. -/
theorem appendTask_pushes (queues : Queues) (task : Task) :
    (appendTask queues task).1 = true ∧ Pushes queues task.deviceId (appendTask queues task).2 ∨
      appendTask queues task = (false, none) := by
  unfold appendTask
  split
  next => exact .inr rfl
  next hid =>
    split
    next => exact .inr rfl
    next q' hq' =>
      obtain ⟨q, hq, hopen, rfl⟩ := appendTaskToQueueLocked_ok hq'
      exact .inl ⟨rfl, hid, q, task, hq, hopen, rfl⟩

end BaseEdge

namespace UUVEdge

/-- A normaliser, for the id of the edge. -/
abbrev Normalizer := RawCommand → String → Except String Task

/-- `UUVEdge::Submit`, with its normalisers by the type of the device. -/
def submit (normalizersByType : String → Option Normalizer) (g : Gate) (queues : Queues)
    (cmd : RawCommand) : Option SubmitResult × Change :=
  let rejected (code : SubmitCode) (message deviceId taskId : String) :
      Option SubmitResult × Change :=
    (some (g.makeResult code message cmd deviceId taskId 0), none)
  if g.runState ≠ .running then
    rejected .notRunning ("边缘未运行，run_state=" ++ g.runState.toString) "" ""
  else if g.eStop && !g.allowQueueWhenEStop then
    rejected .eStop (withReason "急停激活" g.eStopReason) "" ""
  else if !cmd.payload.isObject then rejected .invalidCommand "payload 必须是对象" "" ""
  else
    let deviceId := cmd.payload.getStringOr "device_id" ""
    if deviceId = "" then rejected .invalidCommand "缺少 payload.device_id" "" ""
    else match g.deviceTypeById deviceId with
    | none => rejected .unknownDevice ("未知的 device_id=" ++ deviceId) deviceId ""
    | some type =>
      match normalizersByType type with
      | none => rejected .internalError ("缺少 normalizer，类型=" ++ type) deviceId ""
      | some normalize =>
        match normalize cmd g.edgeId with
        | .error nerr => rejected .invalidCommand (withReason "规范化失败" nerr) deviceId ""
        | .ok task =>
          match queues deviceId with
          | none => rejected .internalError ("缺少队列，device_id=" ++ deviceId) deviceId task.taskId
          | some q =>
            if q.shutdown then rejected .queueShutdown "队列已关闭" deviceId task.taskId
            else
              (some (g.makeResult .ok "已入队" cmd deviceId task.taskId (q.push task).q.length),
                some (deviceId, q.push task))

/-- `max_task_queue_size`. -/
def maxTaskQueueSize : Nat := 1000

/-- `AppendTaskToTargetTaskQueue`. It does not ask whether the queue has been shut down. -/
def appendTaskToTargetTaskQueue (queues : Queues) (deviceId : String) (task : Task) :
    Bool × Change :=
  match queues deviceId with
  | none => (false, none)
  | some q =>
    if maxTaskQueueSize ≤ q.q.length then (false, none) else (true, some (deviceId, q.push task))

/-- `UUVEdge::AppendTask`. -/
def appendTask (queues : Queues) (task : Task) : Bool × Change :=
  if task.deviceId = "" then (false, none)
  else appendTaskToTargetTaskQueue queues task.deviceId task

def appendJsonTask (queues : Queues) (j : Json) : Bool × Change :=
  let deviceId := j.getStringOr "device_id" ""
  if deviceId = "" then (false, none)
  else appendTaskToTargetTaskQueue queues deviceId (Task.fromJson j)

end UUVEdge

end MyEdge
