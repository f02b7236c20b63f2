import FastCppServer.Lib.Fifo
import FastCppServer.Lib.Transition
import FastCppServer.MyData.Task
import Mathlib.Logic.Function.Basic

/-!
# The workflow of a device

A `Workflow` has a thread of its own, which takes the tasks of a `TaskQueue` one by one:
`on_start_`, `DoTask`, `on_finish_`. Any number of clients call `Start`, `Stop` and `Join`
meanwhile, and put tasks into the queue, clear it or shut it down. `running_` and `stop_` are two
flags without a lock, and `running_` is written by the thread as well, when it leaves `RunLoop`. So
each access to one of them is a step of its own.

What is outside is a label: the control, which answers or throws, and the clock. The callbacks are
those that a device installs. An exception in one is caught and nothing follows from it, so a
callback is what it does to the device up to there.
-/

namespace MyControl

open Function Transition MyData

universe u v

/-! ## The queue -/

/-- `TaskQueue`, with its history. -/
structure TaskQueue where
  q : List Task := []
  shutdown : Bool := false
  history : List (Fifo.Event Task) := []
  legal : Fifo.Legal history q := by exact .nil

namespace TaskQueue

/-- `Push`. A queue that has been shut down rejects the task. -/
def push (tq : TaskQueue) (task : Task) : TaskQueue :=
  if tq.shutdown then tq
  else { tq with
    q := tq.q ++ [task]
    history := tq.history ++ [.push task]
    legal := tq.legal.push task }

/-- `PopBlocking`: the task in front, or none after the timeout or a shutdown. -/
def popBlocking (tq : TaskQueue) : Option (Task × TaskQueue) :=
  match h : tq.q with
  | [] => none
  | task :: rest => some (task, { tq with
      q := rest
      history := tq.history ++ [.pop task]
      legal := .pop (h ▸ tq.legal) })

/-- `Clear`. -/
def clear (tq : TaskQueue) : TaskQueue :=
  { tq with q := [], history := tq.history ++ [.clear], legal := tq.legal.clear }

variable {tq tq' : TaskQueue} {task : Task}

/-- **What is popped** was in front, and is the next item of the history. -/
theorem popBlocking_some (h : tq.popBlocking = some (task, tq')) :
    tq.q = task :: tq'.q ∧ tq'.history = tq.history ++ [.pop task] ∧
      tq'.shutdown = tq.shutdown := by
  unfold popBlocking at h
  split at h
  next => cases h
  next hq =>
    cases h
    exact ⟨hq, rfl, rfl⟩

theorem push_of_open (h : tq.shutdown = false) (task : Task) :
    (tq.push task).q = tq.q ++ [task] := by
  rw [push, if_neg (by rw [h]; exact Bool.false_ne_true)]

@[simp] theorem push_shutdown (tq : TaskQueue) (task : Task) :
    (tq.push task).shutdown = tq.shutdown := by
  unfold push
  split <;> rfl

/-- A queue that has been shut down stays as it is. -/
theorem push_of_shutdown (h : tq.shutdown = true) (task : Task) : tq.push task = tq := if_pos h

/-- Only a pop takes a task out: nothing is popped by the clients of a queue. -/
@[simp] theorem popped_push (tq : TaskQueue) (task : Task) :
    Fifo.popped (tq.push task).history = Fifo.popped tq.history := by
  unfold push
  split
  next => rfl
  next => simp

@[simp] theorem popped_clear (tq : TaskQueue) :
    Fifo.popped tq.clear.history = Fifo.popped tq.history := by
  simp [clear]

end TaskQueue

/-! ## The thread and its clients -/

/-- How a call of `DoTask` ends: with a result, a `std::exception` or something else thrown. -/
inductive Outcome where
  | returns (r : TaskResult)
  | throws (what : String)
  | throwsUnknown

/-- The `result` of the third section. -/
def Outcome.result : Outcome → TaskResult
  | returns r => r
  | throws what => { code := .internalError, message := "DoTask exception: " ++ what }
  | throwsUnknown => { code := .internalError, message := "DoTask unknown exception" }

/-- The code that is reported for an outcome. -/
def Outcome.code : Outcome → ErrorCode
  | returns r => r.code
  | throws _ | throwsUnknown => .internalError

theorem Outcome.result_code (o : Outcome) : o.result.code = o.code := by
  cases o <;> rfl

/-- Where the thread stands in `RunLoop`: before the test of `stop_`, the test of `*estop_flag_`,
`PopBlocking`, `IsShutdown`, the three sections, and `running_ = false`. -/
inductive Phase where
  | testing
  | checking
  | popping
  | missed
  | starting (task : Task)
  | executing (task : Task)
  | finishing (task : Task) (result : TaskResult)
  | leaving

/-- Where a client stands: in `Start` before `stop_ = false` and before the thread is assigned; in
`Stop` before `stop_ = true`; in `Join` before `worker_.join()` and before `running_ = false`. -/
inductive Client where
  | idle
  | resetting
  | spawning
  | stopping
  | joining
  | clearing
  deriving DecidableEq

inductive Op where
  | start
  | stop
  | join
  deriving DecidableEq

/-- What the thread has called. -/
inductive Event where
  | onStart (task : Task)
  | doTask (task : Task) (o : Outcome)
  | onFinish (task : Task) (r : TaskResult)

/-- The callbacks of a device. -/
structure Callbacks (σ : Type v) where
  onStart : Task → Int64 → σ → σ
  onFinish : Task → TaskResult → Int64 → σ → σ

/-- The tasks that have been passed to `DoTask`. -/
def executed (events : List Event) : List Task :=
  events.filterMap fun
    | .doTask task _ => some task
    | _ => none

/-- `Workflow`, and the device that it calls back. `terminated`: `std::terminate` has been called.
`stoppedAt` and `joined` hold since a `Stop`, or a `Join`, has returned and no `Start` has returned
true; the first is the number of tasks executed until then. -/
structure Workflow (ι : Type u) (σ : Type v) where
  device : σ
  queue : TaskQueue := {}
  running : Bool := false
  stop : Bool := false
  eStop : Bool := false
  worker : Thread Phase := .none
  clients : ι → Client := fun _ => .idle
  terminated : Bool := false
  events : List Event := []
  stoppedAt : Option Nat := none
  joined : Bool := false

section
variable {ι : Type u} {σ : Type v}

namespace Workflow

/-- `worker_.joinable()`. -/
def joinable (s : Workflow ι σ) : Bool :=
  match s.worker with
  | .none => false
  | _ => true

/-- One step of the thread. -/
def workerStep (cb : Callbacks σ) (s : Workflow ι σ) (now : Int64) (o : Outcome) :
    Phase → Workflow ι σ
  | .testing => { s with worker := .running (if s.stop then .leaving else .checking) }
  | .checking => { s with worker := .running (if s.eStop then .testing else .popping) }
  | .popping =>
    match s.queue.popBlocking with
    | none => { s with worker := .running .missed }
    | some (task, queue) => { s with queue, worker := .running (.starting task) }
  | .missed => { s with worker := .running (if s.queue.shutdown then .leaving else .testing) }
  | .starting task =>
    { s with
      device := cb.onStart task now s.device
      worker := .running (.executing task)
      events := s.events ++ [.onStart task] }
  | .executing task =>
    { s with
      worker := .running (.finishing task o.result)
      events := s.events ++ [.doTask task o] }
  | .finishing task result =>
    { s with
      device := cb.onFinish task result now s.device
      worker := .running .testing
      events := s.events ++ [.onFinish task result] }
  | .leaving => { s with running := false, worker := .exited }

variable [DecidableEq ι]

/-- The first step of a call. -/
def callStep (s : Workflow ι σ) (c : ι) : Op → Workflow ι σ
  | .start =>
    -- `running_.exchange(true)`
    if s.running then s
    else { s with running := true, clients := update s.clients c .resetting }
  | .stop =>
    if s.running then { s with clients := update s.clients c .stopping }
    else { s with stoppedAt := some (executed s.events).length }
  | .join =>
    { s with clients := update s.clients c (if s.joinable then .joining else .clearing) }

/-- The next step of a call. -/
def clientStep (s : Workflow ι σ) (c : ι) : Option (Workflow ι σ) :=
  match s.clients c with
  | .idle => none
  | .resetting => some { s with stop := false, clients := update s.clients c .spawning }
  | .spawning =>
    -- a `std::thread` that is joinable must not be assigned
    if s.joinable then some { s with terminated := true }
    else some { s with
      worker := .running .testing
      clients := update s.clients c .idle
      stoppedAt := none
      joined := false }
  | .stopping =>
    some { s with
      stop := true
      clients := update s.clients c .idle
      stoppedAt := some (executed s.events).length }
  | .joining =>
    match s.worker with
    | .running _ => none
    | .exited => some { s with worker := .none, clients := update s.clients c .clearing }
    -- somebody else has joined the thread, and `join` throws
    | .none => some { s with clients := update s.clients c .idle }
  | .clearing =>
    some { s with running := false, clients := update s.clients c .idle, joined := true }

end Workflow

inductive Label (ι : Type u) where
  | push (task : Task)
  | clear
  | shutdown
  | setEStop (active : Bool)
  | call (c : ι) (op : Op)
  | client (c : ι)
  | worker (now : Int64) (o : Outcome)

open Workflow

variable [DecidableEq ι]

def step (cb : Callbacks σ) (s : Workflow ι σ) (l : Label ι) : Option (Workflow ι σ) :=
  if s.terminated then none
  else match l with
  | .push task => some { s with queue := s.queue.push task }
  | .clear => some { s with queue := s.queue.clear }
  | .shutdown => some { s with queue := { s.queue with shutdown := true } }
  | .setEStop active => some { s with eStop := active }
  | .call c op => if s.clients c = .idle then some (s.callStep c op) else none
  | .client c => s.clientStep c
  | .worker now o =>
    match s.worker with
    | .running p => some (s.workerStep cb now o p)
    | _ => none

end

end MyControl
