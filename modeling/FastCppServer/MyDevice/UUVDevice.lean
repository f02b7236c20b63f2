import FastCppServer.MyControl.Pipeline

/-!
# The status of a device

`UUVDevice` installs two callbacks in its workflow, and they write the status that
`GetStatusSnapshot` reads: `Busy` with the task's id before `DoTask`, and after it `Idle`, or
`Faulted` with what the result says. Whatever the outcomes are, the status tells where the workflow
is (`Reports`), and the workflow executes what its queue has accepted (`Faithful`).
-/

namespace MyDevice

open Function Transition MyData MyControl

universe u v

/-- The connection states the vehicle uses. -/
inductive DeviceConnState where
  | unknown
  | online
  | offline
  deriving DecidableEq

/-- Its work states. -/
inductive DeviceWorkState where
  | idle
  | busy
  | faulted
  deriving DecidableEq

/-- The status of a device, but for `queue_depth`, which the edge fills in. -/
structure DeviceStatus where
  deviceId : String := ""
  connState : DeviceConnState := .unknown
  workState : DeviceWorkState := .idle
  runningTaskId : String := ""
  lastTaskAtMs : Int64 := 0
  lastSeenAtMs : Int64 := 0
  lastError : String := ""
  deriving DecidableEq

namespace UUVDevice

/-- The status after `Init`. -/
def initStatus (deviceId : String) (now : Int64) : DeviceStatus :=
  { deviceId, connState := .online, lastSeenAtMs := now }

/-- The status when a task starts. -/
def updateOnTaskStart (task : Task) (now : Int64) (status : DeviceStatus) : DeviceStatus :=
  { status with workState := .busy, runningTaskId := task.taskId, lastSeenAtMs := now }

/-- The status when a task has ended, well or not. -/
def updateOnTaskFinish (_ : Task) (r : TaskResult) (now : Int64) (status : DeviceStatus) :
    DeviceStatus :=
  if r.code = .ok then
    { status with
      lastTaskAtMs := now, lastSeenAtMs := now
      lastError := "", workState := .idle, runningTaskId := "" }
  else
    { status with
      lastTaskAtMs := now, lastSeenAtMs := now
      lastError := if r.message = "" then r.code.toString else r.message
      workState := .faulted, runningTaskId := "" }

/-- What `Start` installs in the workflow. -/
def callbacks : Callbacks DeviceStatus where
  onStart := updateOnTaskStart
  onFinish := updateOnTaskFinish

/-- A step of the workflow, or the second half of `Stop` with its own time stamp. -/
inductive Label (ι : Type u) where
  | workflow (l : MyControl.Label ι)
  /-- The second half of `Stop`. -/
  | seen (now : Int64)

section
variable {ι : Type u} [DecidableEq ι]

/-- One step of the device: the workflow with the vehicle's callbacks. -/
def step (s : Workflow ι DeviceStatus) : Label ι → Option (Workflow ι DeviceStatus)
  | .workflow l => MyControl.step callbacks s l
  | .seen now => some { s with device := { s.device with lastSeenAtMs := now } }

/-- What a step is to the queue. -/
def told (s : Workflow ι DeviceStatus) (l : Label ι) (t : Workflow ι DeviceStatus) :
    List (Fifo.Event Task) :=
  match l with
  | .workflow l => MyControl.told s l t
  | .seen _ => []

end

/-! ## What is reported -/

/-- The state of a device that has finished the task with the outcome. -/
def workStateOf (o : Outcome) : DeviceWorkState := if o.code = .ok then .idle else .faulted

/-- The error text an outcome leaves in the status. -/
def lastErrorOf (o : Outcome) : String :=
  if o.code = .ok then ""
  else if o.result.message = "" then o.code.toString else o.result.message

/-- The status between two tasks. -/
def Rests (status : DeviceStatus) (done : List (Task × Outcome)) : Prop :=
  status.runningTaskId = "" ∧
  match done.getLast? with
  | none => status.workState = .idle ∧ status.lastError = ""
  | some (_, o) => status.workState = workStateOf o ∧ status.lastError = lastErrorOf o

/-- The status tells the task that is between its callbacks, or how the last one has ended. -/
def Reports (status : DeviceStatus) (done : List (Task × Outcome)) : Stage → Prop
  | .executing task | .finishing task _ =>
    status.workState = .busy ∧ status.runningTaskId = task.taskId
  | .none | .taken _ => status.workState ≠ .busy ∧ Rests status done

end UUVDevice

/-- The workflow executes what its queue has accepted: in order, once each, without what has been
cleared, and with the three calls for each. -/
structure Faithful {ι : Type u} {σ : Type v} (s : Workflow ι σ) (done : List (Task × Outcome)) :
    Prop where
  legal : Fifo.Legal s.queue.history s.queue.q
  inOrder : executed s.events <+: Fifo.kept s.queue.history
  once : executed s.events ++ (s.stage.hand ++ s.queue.q) = Fifo.kept s.queue.history
  accepted : (Fifo.kept s.queue.history).Sublist (Fifo.pushed s.queue.history)
  uncleared : .clear ∉ s.queue.history →
    Fifo.kept s.queue.history = Fifo.pushed s.queue.history
  calls : ∃ es, s.events = done.flatMap calls ++ es ∧ s.stage.Current es
  codes : ∀ x ∈ done, x.2.result.code = x.2.code

/-- An execution record is what the pipeline promises. -/
theorem faithful_of_executes {ι : Type u} {σ : Type v} {s : Workflow ι σ}
    {done : List (Task × Outcome)} (h : Executes s done) : Faithful s done := by
  have hlegal := s.queue.legal
  have hkept : executed s.events ++ (s.stage.hand ++ s.queue.q) = Fifo.kept s.queue.history := by
    rw [Fifo.kept, hlegal.waiting_eq, ← h.popped, List.append_assoc]
  exact ⟨hlegal, ⟨_, hkept⟩, hkept, hlegal.kept_sublist, hlegal.kept_eq, h.calls,
    fun x _ => x.2.result_code⟩

namespace UUVDevice

section
variable {status : DeviceStatus} {done : List (Task × Outcome)}

/-- A started task is the one the status shows. -/
theorem rests_start (task : Task) (now : Int64) :
    (updateOnTaskStart task now status).workState = .busy ∧
      (updateOnTaskStart task now status).runningTaskId = task.taskId :=
  ⟨rfl, rfl⟩

/-- `UpdateOnTaskFinish` leaves the status of the task that it is called for. -/
theorem rests_finish (task : Task) (o : Outcome) (now : Int64) :
    (updateOnTaskFinish task o.result now status).workState ≠ .busy ∧
      Rests (updateOnTaskFinish task o.result now status) (done ++ [(task, o)]) := by
  simp only [Rests, List.getLast?_concat, workStateOf, lastErrorOf, updateOnTaskFinish,
    o.result_code]
  split
  next => exact ⟨nofun, rfl, rfl, rfl⟩
  next => exact ⟨nofun, rfl, rfl, rfl⟩

variable {ι : Type u} {s t : Workflow ι DeviceStatus}

/-- **The status follows the workflow.** -/
theorem advances_reports (h : Executes s done) (hr : Reports s.device done s.stage)
    (hs : Advances callbacks s t) : ∃ done', Executes t done' ∧ Reports t.device done' t.stage := by
  cases hs with
  | stays stage popped events device =>
    refine ⟨done, h.stays stage popped events, ?_⟩
    rw [stage, device]
    exact hr
  | takes task before after popped events device =>
    refine ⟨done, h.takes before after popped events, ?_⟩
    rw [before] at hr
    rw [after, device]
    exact hr
  | starts task now before after popped events device =>
    refine ⟨done, h.starts before after popped events, ?_⟩
    rw [after, device]
    exact rests_start task now
  | executes task o before after popped events device =>
    refine ⟨done, h.executes before after popped events, ?_⟩
    rw [before] at hr
    rw [after, device]
    exact hr
  | finishes task result now before after popped events device =>
    obtain ⟨o, rfl, hdone⟩ := h.finishes before after popped events
    refine ⟨_, hdone, ?_⟩
    rw [after, device]
    exact rests_finish task o now

/-- `Stop` itself writes a time only. -/
theorem reports_seen (now : Int64) {stage : Stage} (h : Reports status done stage) :
    Reports { status with lastSeenAtMs := now } done stage := by
  cases stage <;> exact h

variable [DecidableEq ι]

/-- The first status reports nothing. -/
theorem reports_init (deviceId : String) (now : Int64) :
    Reports (initStatus deviceId now) [] .none :=
  ⟨fun h => (by cases h), rfl, rfl, rfl⟩

/-- The history of the queue is what it has accepted, cleared and given to the thread. -/
theorem run_told {d : DeviceStatus} {ls : List (Label ι)}
    (h : run step { device := d } ls = some s) :
    s.queue.history = outputs step told { device := d } ls := by
  have hstep : ∀ (s : Workflow ι DeviceStatus) l t, step s l = some t →
      t.queue.history = s.queue.history ++ told s l t := by
    intro s l t h
    cases l with
    | workflow l => exact step_told s l t h
    | seen now =>
      cases h
      exact (List.append_nil _).symm
  exact (run_outputs (fun s => s.queue.history) hstep h).trans (List.nil_append _)

/-- The status reports the last outcome in every state of a run. -/
theorem reports_run {deviceId : String} {now : Int64} {ls : List (Label ι)}
    (h : run step { device := initStatus deviceId now } ls = some s) :
    ∃ done, Executes s done ∧ Reports s.device done s.stage := by
  refine run_invariant (P := fun s => ∃ done, Executes s done ∧ Reports s.device done s.stage)
    ?_ ⟨[], executes_init _, reports_init deviceId now⟩ h
  rintro s l t ⟨done, he, hr⟩ hstep
  cases l with
  | workflow l => exact advances_reports he hr (step_advances hstep)
  | seen now =>
    cases hstep
    exact ⟨done, ⟨he.popped, he.calls⟩, reports_seen now hr⟩

end

/-- **A pipeline is faithful.** In every state of a run the history of the queue is the tasks that
were pushed while it was open, the clears, and the tasks that the thread took; the workflow, with
any callbacks, executes what has been accepted; with those of the device, its status tells what the
workflow does. -/
theorem pipeline_faithful {ι : Type u} [DecidableEq ι] :
    (∀ {σ : Type v} (cb : Callbacks σ) (d : σ) (ls : List (MyControl.Label ι)) (s : Workflow ι σ),
      run (MyControl.step cb) { device := d } ls = some s →
        s.queue.history = outputs (MyControl.step cb) MyControl.told { device := d } ls ∧
          ∃ done, Faithful s done) ∧
    ∀ (deviceId : String) (now : Int64) (ls : List (Label ι)) (s : Workflow ι DeviceStatus),
      run step { device := initStatus deviceId now } ls = some s →
        s.queue.history = outputs step told { device := initStatus deviceId now } ls ∧
          ∃ done, Faithful s done ∧ Reports s.device done s.stage := by
  constructor
  · intro σ cb d ls s h
    obtain ⟨done, hs⟩ := executes_run h
    exact ⟨MyControl.run_told h, done, faithful_of_executes hs⟩
  · intro deviceId now ls s h
    obtain ⟨done, he, hr⟩ := reports_run h
    exact ⟨run_told h, done, faithful_of_executes he, hr⟩

/-- Two tasks are pushed and a third one cleared; the first answers and the second throws; a fourth
one comes after the shutdown of the queue. -/
def fourPushes : List (Label Unit) :=
  [.workflow (.call () .start), .workflow (.client ()), .workflow (.client ()),
    .workflow (.push { taskId := "a" }), .workflow (.worker 1 .throwsUnknown),
    .workflow (.worker 1 .throwsUnknown), .workflow (.worker 1 .throwsUnknown),
    .workflow (.push { taskId := "b" }), .workflow (.worker 2 (.returns {})),
    .workflow (.worker 3 (.returns {})), .workflow (.worker 4 (.returns {})),
    .workflow (.worker 5 (.returns {})), .workflow (.worker 5 (.returns {})),
    .workflow (.worker 5 (.returns {})), .workflow (.push { taskId := "c" }),
    .workflow .clear, .seen 6, .workflow .shutdown, .workflow (.push { taskId := "d" }),
    .workflow (.worker 7 (.throws "no link")), .workflow (.worker 7 (.throws "no link")),
    .workflow (.worker 8 (.throws "no link"))]

/-- A run of four pushes, the last of them refused by the closed queue. -/
theorem pipeline_faithful_four :
    ∃ s done, run step { device := initStatus "uuv-1" 0 } fourPushes = some s ∧
      Faithful s done ∧ Reports s.device done s.stage ∧
      (Fifo.pushed s.queue.history).map Task.taskId = ["a", "b", "c"] ∧
      (executed s.events).map Task.taskId = ["a", "b"] ∧
      s.device.workState = .faulted ∧ s.device.lastError = "DoTask exception: no link" := by
  have hrun : ∃ s, run step { device := initStatus "uuv-1" 0 } fourPushes = some s ∧
      (executed s.events).map Task.taskId = ["a", "b"] ∧
      s.device.workState = .faulted ∧ s.device.lastError = "DoTask exception: no link" :=
    ⟨_, rfl, rfl, rfl, rfl⟩
  obtain ⟨s, hrun, hstate⟩ := hrun
  obtain ⟨htold, done, hd, hr⟩ := pipeline_faithful.{0, 0}.2 _ _ _ _ hrun
  refine ⟨s, done, hrun, hd, hr, ?_, hstate⟩
  rw [htold]
  rfl

end UUVDevice

end MyDevice
