import FastCppServer.Edge.SelfTask
import FastCppServer.Lib.Parties
import FastCppServer.Lib.RwLock

/-!
# The lock of an edge

`rw_mutex_` of `BaseEdge` and of `UUVEdge`: who takes it, in which mode, and who waits for whom
while holding it. Any number of threads call the edge; its own threads are the snapshot thread, the
self-action thread, and in `BaseEdge` the monitor. `Shutdown` joins the first two while it holds the
lock exclusively. A device does not take the lock, but it takes tasks, those of the edge itself
where it goes by its name.

A thread that is being joined must get to its end without the lock. It does where it is not on the
way to the lock when its stop flag is set, which for the self-action thread of `UUVEdge` is also a
matter of the task that it has in hand or is about to pop (`Careful`); then the flag ends it.
-/

namespace MyEdge

namespace Locking

open Function Locks Parties Transition

/-- The two implementations of an edge. -/
inductive Kind where
  | base
  | uuv
  deriving DecidableEq

/-- What the edges read of a task. -/
structure Task where
  deviceId : String := ""
  action : String := ""
  /-- `params` can be read as those of a `set_estop`. -/
  paramsOk : Bool := true
  deriving DecidableEq

/-- What `UUVEdge::ExecuteSelfTask` takes the lock for. -/
def Task.mode (task : Task) : Option Mode :=
  if task.action = "get_status" then some .shared
  else if task.action = "set_estop" then if task.paramsOk then some .unique else none
  else if task.action = "dump_info" then some .shared
  else none

/-- The queue of a device. -/
structure TaskQueue where
  tasks : List Task := []
  isShutdown : Bool := false

/-- What `Init` reads, as far as it comes; it throws where a value does not have its type. -/
structure Config where
  selfActionEnable : Bool := true
  snapshotEnable : Bool := true
  selfDeviceId : String := "self"
  readable : Bool := true
  /-- The devices that get a queue. -/
  devices : List String := []
  /-- Whether the last item of the devices has become one, if there are items. -/
  ready : Option Bool := none
  deriving DecidableEq

/-- The calls. `submit` comes with the `device_id` of the payload and the normalised task, if there
is one; a JSON task with its `device_id`, and with the task if it can be read as one. -/
inductive Op where
  | init (cfg : Config)
  | start (devicesOk dbReady : Bool)
  | submit (deviceId : String) (task : Option Task)
  | appendTask (task : Task)
  | appendJsonTask (deviceId : String) (task : Option Task)
  | setEStop
  | getStatusSnapshot
  | shutdown
  deriving DecidableEq

/-- `Shutdown` from where it has the lock. -/
inductive Stage where
  | check
  | stopSnapshot
  | joinSnapshot
  | stopSelfAction
  | shutdownQueue
  | joinSelfAction
  | clear
  deriving DecidableEq

/-- Where a caller stands: at the lock, in the call with the lock, at the lock once more in
`AppendTaskToTargetTaskQueue`, or in a shutdown. -/
inductive Client where
  | returned
  | entering (op : Op)
  | inside (op : Op)
  | relocking (deviceId : String) (task : Task)
  | stopping (stage : Stage)
  deriving DecidableEq

/-- Where the monitor thread stands: it takes the lock, looks at the devices and gives it back. -/
inductive Monitor where
  | loop
  | locking
  | looking
  | popping
  deriving DecidableEq

/-- Where the snapshot thread stands: it reports with the lock, and sleeps without it. -/
inductive Snapshot where
  | loop
  | locking
  | reporting
  | sleeping
  deriving DecidableEq

/-- That of `BaseEdge` does not take the lock: it is in `sleeping` between two looks at its flag. -/
inductive SelfAction where
  | loop
  | locking
  | looking
  | popping
  | executing (task : Task)
  | acting (mode : Mode)
  | sleeping
  deriving DecidableEq

/-- Who may hold the lock. -/
inductive Party (ι : Type) where
  | client (i : ι)
  | monitor
  | snapshot
  | selfAction
  deriving DecidableEq

/-- An edge with its threads, its callers and its lock. -/
structure Edge (ι : Type) where
  kind : Kind
  runState : RunState := .initializing
  selfActionEnable : Bool := true
  /-- `status_snapshot_enable_` of `UUVEdge` is false, and nothing sets it. -/
  snapshotEnable : Bool := kind = .base
  selfDeviceId : String := "self"
  devices : List String := []
  queues : String → Option TaskQueue := fun _ => none
  selfActionStop : Bool := false
  snapshotStop : Bool := false
  monitor : Thread Monitor := .none
  snapshot : Thread Snapshot := .none
  selfAction : Thread SelfAction := .none
  client : ι → Client := fun _ => .returned
  rwMutex : RwLock (Party ι) := {}

/-- How a call takes the lock. -/
def Op.mode (kind : Kind) : Op → Mode
  | .init _ | .start .. | .setEStop | .shutdown => .unique
  | .submit .. | .getStatusSnapshot => .shared
  | .appendTask _ | .appendJsonTask .. => if kind = .base then .unique else .shared

/-- What a call passes on to `AppendTaskToTargetTaskQueue` in `UUVEdge`. -/
def Op.appends : Op → Option (String × Task)
  | .appendTask task => if task.deviceId = "" then none else some (task.deviceId, task)
  | .appendJsonTask deviceId (some task) => if deviceId = "" then none else some (deviceId, task)
  | _ => none

variable {ι : Type}

namespace Edge

/-- A task is put into the queue of a device, where there is one that takes tasks. -/
def push (s : Edge ι) (deviceId : String) (task : Task) : Edge ι :=
  match s.queues deviceId with
  | none => s
  | some q =>
    if q.isShutdown then s
    else { s with queues := update s.queues deviceId (some { q with tasks := q.tasks ++ [task] }) }

/-- A device takes a task from its queue. -/
def pop (s : Edge ι) (deviceId : String) : Edge ι :=
  match s.queues deviceId with
  | some { tasks := _ :: tasks, isShutdown } =>
    { s with queues := update s.queues deviceId (some { tasks, isShutdown }) }
  | _ => s

/-- What `Init` leaves behind, with the lock held. -/
def initWith (s : Edge ι) (cfg : Config) : Edge ι :=
  let queues (selfQueue : Bool) (deviceId : String) : Option TaskQueue :=
    if selfQueue ∧ deviceId = cfg.selfDeviceId ∨ deviceId ∈ cfg.devices then some {} else none
  let s :=
    { s with selfActionEnable := cfg.selfActionEnable, selfDeviceId := cfg.selfDeviceId }
  match s.kind with
  | .base =>
    let s := { s with runState := .initializing, snapshotEnable := cfg.snapshotEnable }
    if cfg.readable then
      { s with runState := .ready, devices := cfg.devices, queues := queues true }
    else s
  | .uuv =>
    if cfg.readable then
      { s with
        runState := cfg.ready.elim s.runState fun ready => if ready then .ready else .initializing
        devices := cfg.devices
        queues := queues cfg.selfActionEnable }
    else s

/-- The monitor thread is started, unless there is one. -/
def startMonitor (s : Edge ι) : Edge ι :=
  if s.monitor = .none then { s with monitor := .running .loop } else s

/-- The self-action thread is started, where it is enabled and there is none. -/
def startSelfAction (s : Edge ι) : Edge ι :=
  if s.selfActionEnable ∧ s.selfAction = .none then
    { s with selfActionStop := false, selfAction := .running .loop }
  else s

/-- The snapshot thread is started, where it is enabled and there is none. -/
def startSnapshot (s : Edge ι) : Edge ι :=
  if s.snapshotEnable ∧ s.snapshot = .none then
    { s with snapshotStop := false, snapshot := .running .loop }
  else s

/-- What `Start` leaves behind, with the lock held. `devicesOk` is whether every device starts. -/
def start (s : Edge ι) (devicesOk dbReady : Bool) : Edge ι :=
  if s.runState ≠ .ready then s
  else match s.kind with
  | .base =>
    let s := s.startMonitor.startSelfAction.startSnapshot
    if devicesOk then { s with runState := .running } else s
  | .uuv =>
    if ¬ devicesOk then s
    else
      let s := { s with runState := .running }
      let s := if dbReady then s.startSnapshot else s
      if (s.queues s.selfDeviceId).isSome then s.startSelfAction else s

/-- There is a `device_type_by_id_` for the device; `BaseEdge` counts itself among them. -/
def knows (s : Edge ι) (deviceId : String) : Bool :=
  deviceId ∈ s.devices ∨ s.kind = .base ∧ deviceId = s.selfDeviceId

/-- What a call does with the lock. A `UUVEdge` that appends is at `relocking`. -/
def effect (s : Edge ι) : Op → Edge ι
  | .init cfg => s.initWith cfg
  | .start devicesOk dbReady => s.start devicesOk dbReady
  | .submit deviceId (some task) =>
    if s.runState = .running ∧ s.knows deviceId then s.push deviceId task else s
  | .appendTask task | .appendJsonTask _ (some task) =>
    if s.kind = .uuv ∨ task.deviceId = "" then s else s.push task.deviceId task
  | .submit _ none | .appendJsonTask _ none | .setEStop | .getStatusSnapshot | .shutdown => s

/-- The queue of the edge itself. -/
def selfQueue (s : Edge ι) : Option TaskQueue := s.queues s.selfDeviceId

end Edge

variable [DecidableEq ι]

/-- One step of `Shutdown`, with the lock. -/
def stopStep (s : Edge ι) (i : ι) : Stage → Option (Edge ι × Client)
  | .check =>
    if s.runState = .stopped ∨ s.runState = .stopping then
      some ({ s with rwMutex := s.rwMutex.unlock (.client i) .unique }, .returned)
    else some ({ s with runState := .stopping }, .stopping .stopSnapshot)
  | .stopSnapshot => some ({ s with snapshotStop := true }, .stopping .joinSnapshot)
  | .joinSnapshot =>
    match s.snapshot with
    | .running _ => none
    | _ => some ({ s with snapshot := .none }, .stopping .stopSelfAction)
  | .stopSelfAction =>
    some
      ({ s with selfActionStop := true },
        .stopping (if s.kind = .base then .joinSelfAction else .shutdownQueue))
  | .shutdownQueue =>
    some
      ({ s with
          queues := update s.queues s.selfDeviceId
            (s.selfQueue.map fun q => { q with isShutdown := true }) },
        .stopping .joinSelfAction)
  | .joinSelfAction =>
    match s.selfAction with
    | .running _ => none
    | _ => some ({ s with selfAction := .none }, .stopping .clear)
  | .clear =>
    some
      ({ s with
          runState := .stopped, devices := [], queues := fun _ => none
          rwMutex := s.rwMutex.unlock (.client i) .unique },
        .returned)

/-- One step of a caller. -/
def clientStep (s : Edge ι) (i : ι) : Client → Option (Edge ι × Client)
  | .returned => none
  | .entering op =>
    (s.rwMutex.lock (.client i) (op.mode s.kind)).map fun rwMutex =>
      ({ s with rwMutex }, if op = .shutdown then .stopping .check else .inside op)
  | .inside op =>
    match s.kind, op.appends with
    | .uuv, some (deviceId, task) => some (s, .relocking deviceId task)
    | _, _ =>
      some
        ({ s.effect op with rwMutex := s.rwMutex.unlock (.client i) (op.mode s.kind) }, .returned)
  -- a thread that locks a `shared_mutex` which it holds has no defined next step
  | .relocking .. => none
  | .stopping stage => stopStep s i stage

/-- One step of the monitor. `ok` is whether it has nothing left to execute. -/
def monitorStep (s : Edge ι) (ok : Bool) : Monitor → Option (Edge ι)
  | .loop => some { s with monitor := .running (if ok then .locking else .loop) }
  | .locking =>
    (s.rwMutex.lock .monitor .shared).map fun rwMutex =>
      { s with rwMutex, monitor := .running .looking }
  | .looking =>
    some
      { s with
        rwMutex := s.rwMutex.unlock .monitor .shared
        monitor := if s.selfQueue.isSome then .running .popping else .exited }
  | .popping =>
    match s.selfQueue with
    | none => some { s with monitor := .exited }
    | some q =>
      if q.isShutdown then some { s with monitor := .exited }
      else
        some
          { s with
            queues := update s.queues s.selfDeviceId (some { q with tasks := q.tasks.tail })
            monitor := .running .loop }

/-- The snapshot of `BaseEdge` takes the lock exclusively. -/
def Snapshot.mode (kind : Kind) : Mode := if kind = .base then .unique else .shared

/-- One step of the snapshot thread. -/
def snapshotStep (s : Edge ι) : Snapshot → Option (Edge ι)
  | .loop => some { s with snapshot := if s.snapshotStop then .exited else .running .locking }
  | .locking =>
    (s.rwMutex.lock .snapshot (Snapshot.mode s.kind)).map fun rwMutex =>
      { s with rwMutex, snapshot := .running .reporting }
  | .reporting =>
    some
      { s with
        rwMutex := s.rwMutex.unlock .snapshot (Snapshot.mode s.kind)
        snapshot := .running .sleeping }
  | .sleeping => some { s with snapshot := .running .loop }

/-- One step of the self-action thread. -/
def selfActionStep (s : Edge ι) : SelfAction → Option (Edge ι)
  | .loop =>
    some
      { s with
        selfAction :=
          if s.selfActionStop then .exited
          else .running (if s.kind = .base then .sleeping else .locking) }
  | .locking =>
    (s.rwMutex.lock .selfAction .shared).map fun rwMutex =>
      { s with rwMutex, selfAction := .running .looking }
  | .looking =>
    some
      { s with
        rwMutex := s.rwMutex.unlock .selfAction .shared
        selfAction := .running (if s.selfQueue.isSome then .popping else .sleeping) }
  | .popping =>
    match s.selfQueue with
    | some { tasks := task :: tasks, isShutdown } =>
      some
        { s with
          queues := update s.queues s.selfDeviceId (some { tasks, isShutdown })
          selfAction := .running (.executing task) }
    -- `PopBlocking` returns false
    | _ => some { s with selfAction := .running .sleeping }
  | .executing task =>
    match task.mode with
    | none => some { s with selfAction := .running .sleeping }
    | some mode =>
      (s.rwMutex.lock .selfAction mode).map fun rwMutex =>
        { s with rwMutex, selfAction := .running (.acting mode) }
  | .acting mode =>
    some
      { s with
        rwMutex := s.rwMutex.unlock .selfAction mode, selfAction := .running .sleeping }
  | .sleeping => some { s with selfAction := .running .loop }

/-- A call, the next step of a caller or of a thread, or a device that takes a task. -/
inductive Label (ι : Type) where
  | call (i : ι) (op : Op)
  | act (i : ι)
  | monitor (ok : Bool)
  | snapshot
  | selfAction
  | device (deviceId : String)

/-- `BaseEdge::AppendJsonTask` reads the task before it takes the lock. -/
def Op.entered (kind : Kind) : Op → Client
  | .appendJsonTask deviceId none =>
    if kind = .base then .returned else .entering (.appendJsonTask deviceId none)
  | op => .entering op

/-- One step. A thread that cannot go on has no successor. -/
def step (s : Edge ι) : Label ι → Option (Edge ι)
  | .call i op =>
    if s.client i = .returned then
      some { s with client := update s.client i (op.entered s.kind) }
    else none
  | .act i =>
    (clientStep s i (s.client i)).map fun (s', p) => { s' with client := update s.client i p }
  | .monitor ok =>
    match s.monitor with
    | .running p => monitorStep s ok p
    | _ => none
  | .snapshot =>
    match s.snapshot with
    | .running p => snapshotStep s p
    | _ => none
  | .selfAction =>
    match s.selfAction with
    | .running p => selfActionStep s p
    | _ => none
  | .device deviceId => if deviceId ∈ s.devices then some (s.pop deviceId) else none

/-! ## What is promised -/

/-- How a caller holds the lock where it stands. -/
def Client.holds (kind : Kind) : Client → Option Mode
  | .inside op => some (op.mode kind)
  | .relocking .. => some .shared
  | .stopping _ => some .unique
  | .returned | .entering _ => none

/-- How the monitor holds the lock where it stands. -/
def Monitor.holds : Monitor → Option Mode
  | .looking => some .shared
  | _ => none

/-- How the snapshot thread holds the lock where it stands. -/
def Snapshot.holds (kind : Kind) : Snapshot → Option Mode
  | .reporting => some (mode kind)
  | _ => none

/-- How the self-action thread holds the lock where it stands. -/
def SelfAction.holds : SelfAction → Option Mode
  | .looking => some .shared
  | .acting mode => some mode
  | _ => none

/-- How a thread holds the lock; one that does not run does not hold it. -/
def threadHolds {π : Type} (holds : π → Option Mode) : Thread π → Option Mode
  | .running p => holds p
  | _ => none

/-- Who holds the lock, and how. -/
def holders (kind : Kind) (client : ι → Client) (monitor : Thread Monitor)
    (snapshot : Thread Snapshot) (selfAction : Thread SelfAction) : Party ι → Option Mode
  | .client i => (client i).holds kind
  | .monitor => threadHolds Monitor.holds monitor
  | .snapshot => threadHolds (Snapshot.holds kind) snapshot
  | .selfAction => threadHolds SelfAction.holds selfAction

/-- Who holds the lock in a state, and how. -/
def Edge.holds (s : Edge ι) : Party ι → Option Mode :=
  holders s.kind s.client s.monitor s.snapshot s.selfAction

/-- Whose next step takes the lock. -/
def Edge.acquires (s : Edge ι) : Party ι → Bool
  | .client i =>
    match s.client i with
    | .entering _ | .relocking .. => true
    | _ => false
  | .monitor => s.monitor = .running .locking
  | .snapshot => s.snapshot = .running .locking
  | .selfAction =>
    match s.selfAction with
    | .running .locking => true
    | .running (.executing task) => task.mode.isSome
    | _ => false

/-- Nobody takes the lock that has it, and a thread that is joined, which is with the lock held
exclusively, comes to its end by itself. -/
structure Safe (s : Edge ι) : Prop where
  reentry : ∀ p, s.acquires p → s.holds p = none
  joinSnapshot : ∀ i, s.client i = .stopping .joinSnapshot → s.snapshot ≠ .none →
    ∃ n, EndsIn step (fun _ : Unit => .snapshot) (fun t => t.snapshot = .exited) n s
  joinSelfAction : ∀ i, s.client i = .stopping .joinSelfAction → s.selfAction ≠ .none →
    ∃ n, EndsIn step (fun _ : Unit => .selfAction) (fun t => t.selfAction = .exited) n s

/-- The self-action thread is on its way to the lock, if only for the task that it pops next. -/
def Edge.selfActionLocks (s : Edge ι) : Bool :=
  match s.selfAction with
  | .running .locking => true
  | .running .popping =>
    match s.selfQueue with
    | some { tasks := task :: _, .. } => task.mode.isSome
    | _ => false
  | .running (.executing task) => task.mode.isSome
  | _ => false

/-- Nothing is appended to a `UUVEdge`, and a stop flag is set when the thread is not on its way to
the lock, nor is it brought there by a device that takes a task from the queue of the edge. -/
def Careful (s : Edge ι) : Label ι → Prop
  | .call _ op => s.kind = .uuv → op.appends = none
  | .act i =>
    match s.client i with
    | .stopping .stopSnapshot => s.snapshot ≠ .running .locking
    | .stopping .stopSelfAction => s.selfActionLocks = false
    | _ => True
  | .device deviceId => s.selfActionStop = true → (s.pop deviceId).selfActionLocks = false
  | _ => True

/-! ## What is kept -/

/-- What a caller relies on: no call of a `UUVEdge` appends, and from the stop flag to the end of
the join the thread is not on its way to the lock. -/
def Edge.Ok (s : Edge ι) : Client → Prop
  | .entering op | .inside op => s.kind = .uuv → op.appends = none
  | .relocking .. => False
  | .stopping .joinSnapshot => s.snapshotStop = true ∧ s.snapshot ≠ .running .locking
  | .stopping .shutdownQueue | .stopping .joinSelfAction =>
    s.selfActionStop = true ∧ s.selfActionLocks = false
  | _ => True

/-- **What careful steps keep**: the lock is held by those that think so, and the callers can rely
on what they rely on. -/
structure Kept (s : Edge ι) : Prop where
  fits : s.rwMutex.Fits s.holds
  client : ∀ i, s.Ok (s.client i)
  base : s.kind = .base → s.selfAction = .none ∨ s.selfAction = .exited ∨
    s.selfAction = .running .loop ∨ s.selfAction = .running .sleeping
  uuv : s.kind = .uuv → s.monitor = .none

section
variable {kind : Kind} {client : ι → Client} {monitor : Thread Monitor}
  {snapshot : Thread Snapshot} {selfAction : Thread SelfAction}

/-- A caller that goes on changes what it holds itself. -/
theorem holders_client (i : ι) (p : Client) :
    holders kind (update client i p) monitor snapshot selfAction =
      update (holders kind client monitor snapshot selfAction) (.client i) (p.holds kind) := by
  funext q
  cases q with
  | client j =>
    rcases eq_or_ne j i with rfl | hne
    · simp [holders]
    · rw [update_of_ne (by simpa using hne)]
      simp [holders, update_of_ne hne]
  | monitor | snapshot | selfAction => rfl

/-- The monitor, as it goes on, changes what it holds itself. -/
theorem holders_monitor (monitor t : Thread Monitor) :
    holders kind client t snapshot selfAction =
      update (holders kind client monitor snapshot selfAction) .monitor
        (threadHolds Monitor.holds t) := by
  funext q
  cases q <;> rfl

/-- The snapshot thread, as it goes on, changes what it holds itself. -/
theorem holders_snapshot (snapshot t : Thread Snapshot) :
    holders kind client monitor t selfAction =
      update (holders kind client monitor snapshot selfAction) .snapshot
        (threadHolds (Snapshot.holds kind) t) := by
  funext q
  cases q <;> rfl

/-- The self-action thread, as it goes on, changes what it holds itself. -/
theorem holders_selfAction (selfAction t : Thread SelfAction) :
    holders kind client monitor snapshot t =
      update (holders kind client monitor snapshot selfAction) .selfAction
        (threadHolds SelfAction.holds t) := by
  funext q
  cases q <;> rfl

end

section
variable {s s' : Edge ι} {i : ι}

/-- Who holds the lock while somebody shuts the edge down is this one. -/
theorem Kept.alone (h : Kept s) {stage : Stage} (hi : s.client i = .stopping stage) {p : Party ι}
    (hp : s.holds p ≠ none) : p = .client i := by
  by_contra hne
  have hown : s.holds (.client i) = some .unique := by
    show (s.client i).holds s.kind = _
    rw [hi]
    rfl
  exact hp (h.fits.alone hown hne)

/-- During a shutdown the snapshot thread does not hold the lock. -/
theorem Kept.snapshot_apart (h : Kept s) {stage : Stage} (hi : s.client i = .stopping stage) :
    threadHolds (Snapshot.holds s.kind) s.snapshot = none := by
  by_contra hne
  exact nomatch h.alone hi (p := .snapshot) hne

/-- During a shutdown the self-action thread does not hold the lock. -/
theorem Kept.selfAction_apart (h : Kept s) {stage : Stage} (hi : s.client i = .stopping stage) :
    threadHolds SelfAction.holds s.selfAction = none := by
  by_contra hne
  exact nomatch h.alone hi (p := .selfAction) hne

/-- Who is inside another call, or in the same shutdown, is this one. -/
theorem Kept.client_apart (h : Kept s) {stage : Stage} (hi : s.client i = .stopping stage) {j : ι}
    (hj : (s.client j).holds s.kind ≠ none) : j = i :=
  Party.client.inj (h.alone hi (p := .client j) hj)

/-! ## The end of a thread -/

/-- A step of the snapshot thread is one of the edge. -/
theorem snapshot_step {p : Snapshot} (hp : s.snapshot = .running p) {t : Edge ι}
    (ht : snapshotStep s p = some t) : step s .snapshot = some t := by
  simp [step, hp, ht]

/-- The snapshot thread ends by its own steps, once its flag is set and it is past the lock. -/
theorem snapshot_ends (hstop : s.snapshotStop = true) (hlock : s.snapshot ≠ .running .locking)
    (hhold : threadHolds (Snapshot.holds s.kind) s.snapshot = none) (hsome : s.snapshot ≠ .none) :
    ∃ n, EndsIn step (fun _ : Unit => .snapshot) (fun t => t.snapshot = .exited) n s := by
  have hloop : ∀ t : Edge ι, t.snapshotStop = true → t.snapshot = .running .loop →
      EndsIn step (fun _ : Unit => .snapshot) (fun t => t.snapshot = .exited) 1 t := by
    intro t ht hl
    refine .cons (fun _ => snapshot_step hl rfl) fun _ => ?_
    simp [EndsIn, ht]
  cases hs : s.snapshot with
  | none => exact absurd hs hsome
  | exited => exact ⟨0, hs⟩
  | running p =>
    cases p with
    | loop => exact ⟨1, hloop s hstop hs⟩
    | locking => exact absurd hs hlock
    | reporting =>
      rw [hs] at hhold
      cases hhold
    | sleeping => exact ⟨2, .cons (fun _ => snapshot_step hs rfl) fun _ => hloop _ hstop rfl⟩

/-- A step of the self-action thread is one of the edge. -/
theorem selfAction_step {p : SelfAction} (hp : s.selfAction = .running p) {t : Edge ι}
    (ht : selfActionStep s p = some t) : step s .selfAction = some t := by
  simp [step, hp, ht]

/-- Who is told to stop stops, where it does not have to take the lock first. -/
theorem selfAction_ends (hstop : s.selfActionStop = true) (hlocks : s.selfActionLocks = false)
    (hhold : threadHolds SelfAction.holds s.selfAction = none) (hsome : s.selfAction ≠ .none) :
    ∃ n, EndsIn step (fun _ : Unit => .selfAction) (fun t => t.selfAction = .exited) n s := by
  have hloop : ∀ t : Edge ι, t.selfActionStop = true → t.selfAction = .running .loop →
      EndsIn step (fun _ : Unit => .selfAction) (fun t => t.selfAction = .exited) 1 t := by
    intro t ht hl
    refine .cons (fun _ => selfAction_step hl rfl) fun _ => ?_
    simp [EndsIn, ht]
  have hsleeping : ∀ t : Edge ι, t.selfActionStop = true → t.selfAction = .running .sleeping →
      EndsIn step (fun _ : Unit => .selfAction) (fun t => t.selfAction = .exited) 2 t := by
    intro t ht hl
    exact .cons (fun _ => selfAction_step hl rfl) fun _ => hloop _ ht rfl
  have hexecuting : ∀ (t : Edge ι) task, t.selfActionStop = true →
      t.selfAction = .running (.executing task) → task.mode.isSome = false →
      EndsIn step (fun _ : Unit => .selfAction) (fun t => t.selfAction = .exited) 3 t := by
    intro t task ht hl hmode
    refine .cons (f := fun _ => { t with selfAction := .running .sleeping })
      (fun _ => selfAction_step hl ?_) fun _ => hsleeping _ ht rfl
    simp only [selfActionStep]
    split
    next => rfl
    next mode hm =>
      rw [hm] at hmode
      cases hmode
  cases hs : s.selfAction with
  | none => exact absurd hs hsome
  | exited => exact ⟨0, hs⟩
  | running p =>
    rw [Edge.selfActionLocks, hs] at hlocks
    rw [hs] at hhold
    cases p with
    | loop => exact ⟨1, hloop s hstop hs⟩
    | sleeping => exact ⟨2, hsleeping s hstop hs⟩
    | locking => cases hlocks
    | looking => cases hhold
    | acting mode => cases hhold
    | executing task => exact ⟨3, hexecuting s task hstop hs hlocks⟩
    | popping =>
      have hpop : ∀ t, selfActionStep s .popping = some t → step s .selfAction = some t :=
        fun t => selfAction_step hs
      simp only [selfActionStep] at hpop
      split at hpop
      next task tasks isShutdown hq =>
        simp only [hq] at hlocks
        exact ⟨4, .cons (fun _ => hpop _ rfl) fun _ => hexecuting _ task hstop rfl hlocks⟩
      next => exact ⟨3, .cons (fun _ => hpop _ rfl) fun _ => hsleeping _ hstop rfl⟩

/-- **What is kept is safe.** -/
theorem Kept.safe (h : Kept s) : Safe s where
  reentry p hp := by
    cases p with
    | client i =>
      show (s.client i).holds s.kind = none
      have hok := h.client i
      simp only [Edge.acquires] at hp
      split at hp
      next hi =>
        rw [hi]
        rfl
      next hi =>
        rw [hi] at hok
        exact False.elim hok
      next => cases hp
    | monitor =>
      have hm : s.monitor = .running .locking := by simpa [Edge.acquires] using hp
      show threadHolds Monitor.holds s.monitor = none
      rw [hm]
      rfl
    | snapshot =>
      have hm : s.snapshot = .running .locking := by simpa [Edge.acquires] using hp
      show threadHolds (Snapshot.holds s.kind) s.snapshot = none
      rw [hm]
      rfl
    | selfAction =>
      show threadHolds SelfAction.holds s.selfAction = none
      simp only [Edge.acquires] at hp
      split at hp
      next hs =>
        rw [hs]
        rfl
      next hs =>
        rw [hs]
        rfl
      next => cases hp
  joinSnapshot i hi := by
    have hok := h.client i
    rw [hi] at hok
    exact snapshot_ends hok.1 hok.2 (h.snapshot_apart hi)
  joinSelfAction i hi := by
    have hok := h.client i
    rw [hi] at hok
    exact selfAction_ends hok.1 hok.2 (h.selfAction_apart hi)

/-! ## The steps of a call -/

omit [DecidableEq ι] in
/-- A caller goes on relying on what it relied on, where nothing changes that a shutdown relies
on. -/
theorem Edge.Ok.keep {p : Client} (h : s.Ok p) (hk : s'.kind = s.kind)
    (hstopping : ∀ stage, p = .stopping stage →
      (s.snapshotStop = true ∧ s.snapshot ≠ .running .locking →
        s'.snapshotStop = true ∧ s'.snapshot ≠ .running .locking) ∧
      (s.selfActionStop = true ∧ s.selfActionLocks = false →
        s'.selfActionStop = true ∧ s'.selfActionLocks = false)) : s'.Ok p := by
  cases p with
  | returned => trivial
  | entering op | inside op => exact fun hkind => h (hk ▸ hkind)
  | relocking deviceId task => exact h
  | stopping stage =>
    obtain ⟨hsnapshot, hself⟩ := hstopping stage rfl
    cases stage with
    | joinSnapshot => exact hsnapshot h
    | shutdownQueue | joinSelfAction => exact hself h
    | _ => trivial

omit [DecidableEq ι] in
/-- A caller that does not shut the edge down relies on nothing that changes. -/
theorem Edge.Ok.calling {p : Client} (h : s.Ok p) (hp : ∀ stage, p ≠ .stopping stage)
    (hk : s'.kind = s.kind) : s'.Ok p :=
  h.keep hk fun stage hstage => absurd hstage (hp stage)

/-- A caller comes to another phase, and holds what it held. -/
theorem Kept.move (h : Kept s) {p : Client} (hhold : p.holds s.kind = (s.client i).holds s.kind)
    (hok : s.Ok p) : Kept { s with client := update s.client i p } where
  fits := by
    show s.rwMutex.Fits (holders s.kind (update s.client i p) s.monitor s.snapshot s.selfAction)
    rw [holders_client]
    exact h.fits.stay hhold
  client := (forall_update_iff s.client fun _ q => s.Ok q).2 ⟨hok, fun j _ => h.client j⟩
  base := h.base
  uuv := h.uuv

/-- A caller gets the lock. -/
theorem enter_kept (h : Kept s) {op : Op} (hi : s.client i = .entering op)
    {rwMutex : RwLock (Party ι)} (hl : s.rwMutex.lock (.client i) (op.mode s.kind) = some rwMutex) :
    Kept { s with
      rwMutex
      client := update s.client i (if op = .shutdown then .stopping .check else .inside op) } := by
  have hown : s.holds (.client i) = none := by
    show (s.client i).holds s.kind = none
    rw [hi]
    rfl
  have hok := h.client i
  rw [hi] at hok
  have hfits := h.fits.lock hl hown
  have hmode : (if op = .shutdown then Client.stopping .check else .inside op).holds s.kind =
      some (op.mode s.kind) := by
    split
    next hop =>
      rw [hop]
      rfl
    next => rfl
  refine ⟨?_, ?_, h.base, h.uuv⟩
  · show rwMutex.Fits (holders s.kind (update s.client i _) s.monitor s.snapshot s.selfAction)
    rw [holders_client, hmode]
    exact hfits
  · refine (forall_update_iff s.client fun _ q => s.Ok q).2 ⟨?_, fun j _ => h.client j⟩
    split
    next => trivial
    next => exact hok

/-- What a call with the lock may do to the threads. -/
structure Starts (s s' : Edge ι) : Prop where
  kind : s'.kind = s.kind
  monitor : s'.monitor = s.monitor ∨
    s.kind = .base ∧ s.monitor = .none ∧ s'.monitor = .running .loop
  snapshot : s'.snapshot = s.snapshot ∨ s.snapshot = .none ∧ s'.snapshot = .running .loop
  selfAction : s'.selfAction = s.selfAction ∨
    s.selfAction = .none ∧ s'.selfAction = .running .loop

omit [DecidableEq ι] in
/-- A call that does nothing starts no thread. -/
theorem starts_refl (s : Edge ι) : Starts s s := ⟨rfl, .inl rfl, .inl rfl, .inl rfl⟩

omit [DecidableEq ι] in
/-- Putting a task into a queue starts no thread. -/
theorem push_starts (s : Edge ι) (deviceId : String) (task : Task) :
    Starts s (s.push deviceId task) := by
  unfold Edge.push
  split
  next => exact starts_refl s
  next =>
    split
    next => exact starts_refl s
    next => exact ⟨rfl, .inl rfl, .inl rfl, .inl rfl⟩

omit [DecidableEq ι] in
/-- `Init` starts no thread. -/
theorem initWith_starts (s : Edge ι) (cfg : Config) : Starts s (s.initWith cfg) := by
  unfold Edge.initWith
  dsimp only
  split
  next => split <;> exact ⟨rfl, .inl rfl, .inl rfl, .inl rfl⟩
  next => split <;> exact ⟨rfl, .inl rfl, .inl rfl, .inl rfl⟩

omit [DecidableEq ι] in
/-- The monitor starts at the head of its loop. -/
theorem startMonitor_starts (hkind : s.kind = .base) : Starts s s.startMonitor := by
  unfold Edge.startMonitor
  split
  next hm => exact ⟨rfl, .inr ⟨hkind, hm, rfl⟩, .inl rfl, .inl rfl⟩
  next => exact starts_refl s

omit [DecidableEq ι] in
/-- The snapshot thread starts at the head of its loop. -/
theorem startSnapshot_starts (s : Edge ι) : Starts s s.startSnapshot := by
  unfold Edge.startSnapshot
  split
  next hs => exact ⟨rfl, .inl rfl, .inr ⟨hs.2, rfl⟩, .inl rfl⟩
  next => exact starts_refl s

omit [DecidableEq ι] in
/-- The self-action thread starts at the head of its loop. -/
theorem startSelfAction_starts (s : Edge ι) : Starts s s.startSelfAction := by
  unfold Edge.startSelfAction
  split
  next hs => exact ⟨rfl, .inl rfl, .inl rfl, .inr ⟨hs.2, rfl⟩⟩
  next => exact starts_refl s

omit [DecidableEq ι] in
/-- A thread that has been started is not started once more. -/
theorem Starts.trans {t : Edge ι} (h : Starts s s') (h' : Starts s' t) : Starts s t where
  kind := h'.kind.trans h.kind
  monitor := by
    have hkind := h.kind
    rcases h'.monitor with h' | ⟨hk, hn, h'⟩
    · rw [h']
      exact h.monitor
    · rcases h.monitor with h | ⟨-, -, h⟩
      · exact .inr ⟨hkind ▸ hk, h ▸ hn, h'⟩
      · rw [h] at hn
        cases hn
  snapshot := by
    rcases h'.snapshot with h' | ⟨hn, h'⟩
    · rw [h']
      exact h.snapshot
    · rcases h.snapshot with h | ⟨-, h⟩
      · exact .inr ⟨h ▸ hn, h'⟩
      · rw [h] at hn
        cases hn
  selfAction := by
    rcases h'.selfAction with h' | ⟨hn, h'⟩
    · rw [h']
      exact h.selfAction
    · rcases h.selfAction with h | ⟨-, h⟩
      · exact .inr ⟨h ▸ hn, h'⟩
      · rw [h] at hn
        cases hn

omit [DecidableEq ι] in
/-- `Start` starts threads at the head of their loops, and no others. -/
theorem start_starts (s : Edge ι) (devicesOk dbReady : Bool) :
    Starts s (s.start devicesOk dbReady) := by
  unfold Edge.start
  split
  next => exact starts_refl s
  split
  next hkind =>
    have hbase : Starts s s.startMonitor.startSelfAction.startSnapshot :=
      ((startMonitor_starts hkind).trans (startSelfAction_starts _)).trans (startSnapshot_starts _)
    dsimp only
    split
    next => exact { hbase with }
    next => exact hbase
  next =>
    split
    next => exact starts_refl s
    next =>
      have hrunning : Starts s { s with runState := .running } := { starts_refl s with }
      dsimp only
      split
      next =>
        have hsnapshot := hrunning.trans (startSnapshot_starts _)
        split
        next => exact hsnapshot.trans (startSelfAction_starts _)
        next => exact hsnapshot
      next =>
        split
        next => exact hrunning.trans (startSelfAction_starts _)
        next => exact hrunning

omit [DecidableEq ι] in
/-- No call but `Start` starts a thread. -/
theorem effect_starts (s : Edge ι) (op : Op) : Starts s (s.effect op) := by
  unfold Edge.effect
  split
  next cfg => exact initWith_starts s cfg
  next devicesOk dbReady => exact start_starts s devicesOk dbReady
  next deviceId task =>
    split
    next => exact push_starts s deviceId task
    next => exact starts_refl s
  next task =>
    split
    next => exact starts_refl s
    next => exact push_starts s task.deviceId task
  next task =>
    split
    next => exact starts_refl s
    next => exact push_starts s task.deviceId task
  all_goals exact starts_refl s

omit [DecidableEq ι] in
/-- A thread that has just been started does not hold the lock. -/
theorem Starts.holds (h : Starts s s') (client : ι → Client) :
    holders s'.kind client s'.monitor s'.snapshot s'.selfAction =
      holders s.kind client s.monitor s.snapshot s.selfAction := by
  funext q
  rw [h.kind]
  cases q with
  | client j => rfl
  | monitor =>
    rcases h.monitor with hm | ⟨-, hn, hm⟩
    · rw [hm]
      rfl
    · simp [holders, hn, hm, threadHolds, Monitor.holds]
  | snapshot =>
    rcases h.snapshot with hm | ⟨hn, hm⟩
    · rw [hm]
      rfl
    · simp [holders, hn, hm, threadHolds, Snapshot.holds]
  | selfAction =>
    rcases h.selfAction with hm | ⟨hn, hm⟩
    · rw [hm]
      rfl
    · simp [holders, hn, hm, threadHolds, SelfAction.holds]

/-- A call returns, and gives the lock back. -/
theorem leave_kept (h : Kept s) {op : Op} (hi : s.client i = .inside op) :
    Kept { s.effect op with
      rwMutex := s.rwMutex.unlock (.client i) (op.mode s.kind)
      client := update s.client i .returned } := by
  have hown : s.holds (.client i) = some (op.mode s.kind) := by
    show (s.client i).holds s.kind = _
    rw [hi]
    rfl
  have hstarts := effect_starts s op
  refine ⟨?_, ?_, fun hk => ?_, fun hk => ?_⟩
  · show (s.rwMutex.unlock _ _).Fits (holders (s.effect op).kind (update s.client i .returned)
      (s.effect op).monitor (s.effect op).snapshot (s.effect op).selfAction)
    rw [hstarts.holds, holders_client]
    exact h.fits.unlock hown
  · refine (forall_update_iff s.client fun _ q => Edge.Ok _ q).2 ⟨trivial, fun j hj => ?_⟩
    refine (h.client j).calling (fun stage hstage => hj ?_) hstarts.kind
    -- nobody shuts the edge down while somebody else has the lock
    exact (h.client_apart hstage (j := i) (by rw [hi]; nofun)).symm
  · rcases hstarts.selfAction with hs | ⟨-, hs⟩
    · rw [hs]
      exact h.base (hstarts.kind ▸ hk)
    · exact .inr (.inr (.inl hs))
  · rcases hstarts.monitor with hm | ⟨hbase, -⟩
    · rw [hm]
      exact h.uuv (hstarts.kind ▸ hk)
    · rw [show s.kind = .uuv from hstarts.kind ▸ hk] at hbase
      cases hbase

/-! ## The steps of a shutdown -/

/-- A step of a shutdown leaves nobody else in one. -/
theorem Kept.calling (h : Kept s) {stage : Stage} (hi : s.client i = .stopping stage)
    (hk : s'.kind = s.kind) (j : ι) (hj : j ≠ i) : s'.Ok (s.client j) := by
  refine (h.client j).calling (fun stage' hstage => hj ?_) hk
  exact h.client_apart hi (by rw [hstage]; nofun)

/-- A shutdown goes on with the lock. -/
theorem Kept.goOn (h : Kept s) {stage stage' : Stage} (hi : s.client i = .stopping stage)
    (hk : s'.kind = s.kind) (hm : s'.monitor = s.monitor) (hlock : s'.rwMutex = s.rwMutex)
    (hclient : s'.client = update s.client i (.stopping stage'))
    (hsnapshot : s'.snapshot = s.snapshot ∨ s'.snapshot = .none)
    (hself : s'.selfAction = s.selfAction ∨ s'.selfAction = .none)
    (hok : s'.Ok (.stopping stage')) : Kept s' where
  fits := by
    have hholders : s'.holds = update s.holds (.client i) (some .unique) := by
      rw [Edge.holds, hclient, holders_client]
      refine congrArg (fun f => update f _ _) (funext fun q => ?_)
      rw [hk, hm]
      cases q with
      | client | monitor => rfl
      | snapshot =>
        rcases hsnapshot with hs | hs
        · rw [hs]
          rfl
        · rw [hs]
          exact (h.snapshot_apart hi).symm
      | selfAction =>
        rcases hself with hs | hs
        · rw [hs]
          rfl
        · rw [hs]
          exact (h.selfAction_apart hi).symm
    rw [hlock, hholders]
    refine h.fits.stay ?_
    show some .unique = (s.client i).holds s.kind
    rw [hi]
    rfl
  client := by
    rw [hclient]
    exact (forall_update_iff s.client fun _ q => s'.Ok q).2 ⟨hok, h.calling hi hk⟩
  base hbase := by
    rcases hself with hs | hs
    · rw [hs]
      exact h.base (hk ▸ hbase)
    · exact .inl hs
  uuv huuv := by
    rw [hm]
    exact h.uuv (hk ▸ huuv)

/-- A shutdown returns, and gives the lock back. -/
theorem Kept.giveBack (h : Kept s) {stage : Stage} (hi : s.client i = .stopping stage)
    (runState : RunState) (devices : List String) (queues : String → Option TaskQueue) :
    Kept { s with
      runState, devices, queues
      rwMutex := s.rwMutex.unlock (.client i) .unique
      client := update s.client i .returned } := by
  have hown : s.holds (.client i) = some .unique := by
    show (s.client i).holds s.kind = _
    rw [hi]
    rfl
  refine ⟨?_, ?_, h.base, h.uuv⟩
  · show (s.rwMutex.unlock (.client i) .unique).Fits
      (holders s.kind (update s.client i .returned) s.monitor s.snapshot s.selfAction)
    rw [holders_client]
    exact h.fits.unlock hown
  · exact (forall_update_iff s.client fun _ q => Edge.Ok _ q).2 ⟨trivial, h.calling hi rfl⟩

omit [DecidableEq ι] in
/-- What the self-action thread pops next does not depend on whether its queue is shut down. -/
theorem shutdownQueue_locks (client : ι → Client) :
    Edge.selfActionLocks
      { s with
        queues := update s.queues s.selfDeviceId
          (s.selfQueue.map fun q => { q with isShutdown := true })
        client } = s.selfActionLocks := by
  unfold Edge.selfActionLocks Edge.selfQueue
  simp only [update_self]
  split
  next => rfl
  next =>
    cases s.queues s.selfDeviceId with
    | none => rfl
    | some q =>
      cases q with
      | mk tasks isShutdown => cases tasks <;> rfl
  next => rfl
  next => rfl

/-- A careful step of a shutdown keeps it. -/
theorem stopStep_kept (h : Kept s) {stage : Stage} (hi : s.client i = .stopping stage)
    (hc : Careful s (.act i)) {r : Edge ι × Client} (hs : stopStep s i stage = some r) :
    Kept { r.1 with client := update s.client i r.2 } := by
  simp only [Careful, hi] at hc
  have hok := h.client i
  rw [hi] at hok
  cases stage with
  | check =>
    simp only [stopStep] at hs
    split at hs
    next =>
      obtain rfl := Option.some.inj hs
      exact h.giveBack hi s.runState s.devices s.queues
    next =>
      obtain rfl := Option.some.inj hs
      exact h.goOn hi rfl rfl rfl rfl (.inl rfl) (.inl rfl) trivial
  | stopSnapshot =>
    obtain rfl := Option.some.inj hs
    exact h.goOn hi rfl rfl rfl rfl (.inl rfl) (.inl rfl) ⟨rfl, hc⟩
  | joinSnapshot =>
    simp only [stopStep] at hs
    split at hs
    next => cases hs
    next =>
      obtain rfl := Option.some.inj hs
      exact h.goOn hi rfl rfl rfl rfl (.inr rfl) (.inl rfl) trivial
  | stopSelfAction =>
    obtain rfl := Option.some.inj hs
    refine h.goOn hi rfl rfl rfl rfl (.inl rfl) (.inl rfl) ?_
    split
    next => exact ⟨rfl, hc⟩
    next => exact ⟨rfl, hc⟩
  | shutdownQueue =>
    obtain rfl := Option.some.inj hs
    exact h.goOn hi rfl rfl rfl rfl (.inl rfl) (.inl rfl)
      ⟨hok.1, (shutdownQueue_locks _).trans hok.2⟩
  | joinSelfAction =>
    simp only [stopStep] at hs
    split at hs
    next => cases hs
    next =>
      obtain rfl := Option.some.inj hs
      exact h.goOn hi rfl rfl rfl rfl (.inl rfl) (.inr rfl) trivial
  | clear =>
    obtain rfl := Option.some.inj hs
    exact h.giveBack hi .stopped [] fun _ => none

/-- **A careful step of a caller keeps it.** -/
theorem clientStep_kept (h : Kept s) (hc : Careful s (.act i)) {r : Edge ι × Client}
    (hs : clientStep s i (s.client i) = some r) :
    Kept { r.1 with client := update s.client i r.2 } := by
  have hok := h.client i
  cases hi : s.client i with
  | returned =>
    rw [hi] at hs
    cases hs
  | entering op =>
    rw [hi] at hs
    obtain ⟨rwMutex, hl, rfl⟩ := Option.map_eq_some_iff.1 hs
    exact enter_kept h hi hl
  | inside op =>
    rw [hi] at hs hok
    simp only [clientStep] at hs
    split at hs
    next deviceId task hkind hop =>
      rw [hok hkind] at hop
      cases hop
    next =>
      obtain rfl := Option.some.inj hs
      exact leave_kept h hi
  | relocking deviceId task =>
    rw [hi] at hs
    cases hs
  | stopping stage =>
    rw [hi] at hs
    exact stopStep_kept h hi hc hs

/-! ## The steps of the threads -/

/-- The monitor is that of a `BaseEdge`, whose self-action thread does not take the lock. -/
theorem Kept.withMonitor (h : Kept s) (hkind : s.kind = .base) (t : Thread Monitor)
    (queues : String → Option TaskQueue) {rwMutex : RwLock (Party ι)}
    (hfits : rwMutex.Fits (update s.holds .monitor (threadHolds Monitor.holds t))) :
    Kept { s with queues, rwMutex, monitor := t } := by
  have hlocks : Edge.selfActionLocks { s with queues, rwMutex, monitor := t } = false := by
    unfold Edge.selfActionLocks
    rcases h.base hkind with hs | hs | hs | hs <;> simp only [hs]
  refine ⟨?_, fun i => ?_, h.base, fun huuv => ?_⟩
  · show rwMutex.Fits (holders s.kind s.client t s.snapshot s.selfAction)
    rw [holders_monitor s.monitor]
    exact hfits
  · exact (h.client i).keep rfl fun _ _ => ⟨fun hok => hok, fun hok => ⟨hok.1, hlocks⟩⟩
  · rw [show s.kind = .uuv from huuv] at hkind
    cases hkind

/-- A step of the monitor keeps it. -/
theorem monitorStep_kept (h : Kept s) {ok : Bool} {p : Monitor} (hp : s.monitor = .running p)
    (hs : monitorStep s ok p = some s') : Kept s' := by
  have hkind : s.kind = .base := by
    cases hk : s.kind with
    | base => rfl
    | uuv =>
      rw [h.uuv hk] at hp
      cases hp
  have hown : s.holds .monitor = p.holds := by
    show threadHolds Monitor.holds s.monitor = _
    rw [hp]
    rfl
  cases p with
  | loop =>
    obtain rfl := Option.some.inj hs
    exact h.withMonitor hkind _ s.queues (h.fits.stay (by rw [hown]; cases ok <;> rfl))
  | locking =>
    obtain ⟨rwMutex, hl, rfl⟩ := Option.map_eq_some_iff.1 hs
    exact h.withMonitor hkind _ s.queues (h.fits.lock hl hown)
  | looking =>
    obtain rfl := Option.some.inj hs
    have hnone : threadHolds Monitor.holds
        (if s.selfQueue.isSome then .running .popping else .exited) = none := by
      split <;> rfl
    refine h.withMonitor hkind _ s.queues ?_
    rw [hnone]
    exact h.fits.unlock hown
  | popping =>
    simp only [monitorStep] at hs
    split at hs
    next =>
      obtain rfl := Option.some.inj hs
      exact h.withMonitor hkind _ s.queues (h.fits.stay hown.symm)
    next =>
      split at hs
      next =>
        obtain rfl := Option.some.inj hs
        exact h.withMonitor hkind _ s.queues (h.fits.stay hown.symm)
      next =>
        obtain rfl := Option.some.inj hs
        exact h.withMonitor hkind _ _ (h.fits.stay hown.symm)

/-- The snapshot thread goes on, and where it has been told to stop it does not go to the lock. -/
theorem Kept.withSnapshot (h : Kept s) (t : Thread Snapshot) {rwMutex : RwLock (Party ι)}
    (hfits : rwMutex.Fits (update s.holds .snapshot (threadHolds (Snapshot.holds s.kind) t)))
    (hstop : s.snapshotStop = true → t ≠ .running .locking) :
    Kept { s with rwMutex, snapshot := t } := by
  refine ⟨?_, fun i => ?_, h.base, h.uuv⟩
  · show rwMutex.Fits (holders s.kind s.client s.monitor t s.selfAction)
    rw [holders_snapshot s.snapshot]
    exact hfits
  · exact (h.client i).keep rfl fun _ _ => ⟨fun hok => ⟨hok.1, hstop hok.1⟩, fun hok => hok⟩

/-- A step of the snapshot thread keeps it. -/
theorem snapshotStep_kept (h : Kept s) {p : Snapshot} (hp : s.snapshot = .running p)
    (hs : snapshotStep s p = some s') : Kept s' := by
  have hown : s.holds .snapshot = p.holds s.kind := by
    show threadHolds (Snapshot.holds s.kind) s.snapshot = _
    rw [hp]
    rfl
  cases p with
  | loop =>
    obtain rfl := Option.some.inj hs
    refine h.withSnapshot _ (h.fits.stay ?_) fun hstop => ?_
    · rw [hown]
      cases s.snapshotStop <;> rfl
    · rw [if_pos hstop]
      nofun
  | locking =>
    obtain ⟨rwMutex, hl, rfl⟩ := Option.map_eq_some_iff.1 hs
    exact h.withSnapshot _ (h.fits.lock hl hown) (by nofun)
  | reporting =>
    obtain rfl := Option.some.inj hs
    exact h.withSnapshot _ (h.fits.unlock hown) (by nofun)
  | sleeping =>
    obtain rfl := Option.some.inj hs
    exact h.withSnapshot _ (h.fits.stay hown.symm) (by nofun)

/-- The self-action thread goes on, in `BaseEdge` without the lock, and where it has been told to
stop it does not set out for the lock. -/
theorem Kept.withSelfAction (h : Kept s) (t : Thread SelfAction)
    (queues : String → Option TaskQueue) {rwMutex : RwLock (Party ι)}
    (hfits : rwMutex.Fits (update s.holds .selfAction (threadHolds SelfAction.holds t)))
    (hbase : s.kind = .base → t = .exited ∨ t = .running .loop ∨ t = .running .sleeping)
    (hstop : threadHolds SelfAction.holds s.selfAction = none → s.selfActionStop = true →
      s.selfActionLocks = false →
      Edge.selfActionLocks { s with queues, rwMutex, selfAction := t } = false) :
    Kept { s with queues, rwMutex, selfAction := t } := by
  refine ⟨?_, fun i => ?_, fun hk => .inr (hbase hk), h.uuv⟩
  · show rwMutex.Fits (holders s.kind s.client s.monitor s.snapshot t)
    rw [holders_selfAction s.selfAction]
    exact hfits
  · exact (h.client i).keep rfl fun _ hi =>
      ⟨fun hok => hok, fun hok => ⟨hok.1, hstop (h.selfAction_apart hi) hok.1 hok.2⟩⟩

/-- A step of the self-action thread keeps it. -/
theorem selfActionStep_kept (h : Kept s) {p : SelfAction} (hp : s.selfAction = .running p)
    (hs : selfActionStep s p = some s') : Kept s' := by
  have hown : s.holds .selfAction = p.holds := by
    show threadHolds SelfAction.holds s.selfAction = _
    rw [hp]
    rfl
  have hbase : s.kind = .base → p = .loop ∨ p = .sleeping := by
    intro hk
    have hb := h.base hk
    rw [hp] at hb
    simpa using hb
  cases p with
  | loop =>
    obtain rfl := Option.some.inj hs
    refine h.withSelfAction _ s.queues (h.fits.stay ?_) (fun hk => ?_) fun _ hstop _ => ?_
    · rw [hown]
      split
      next => rfl
      next => split <;> rfl
    · split
      next => exact .inl rfl
      next => exact .inr (.inr rfl)
    · simp [Edge.selfActionLocks, hstop]
  | locking =>
    obtain ⟨rwMutex, hl, rfl⟩ := Option.map_eq_some_iff.1 hs
    exact h.withSelfAction _ s.queues (h.fits.lock hl hown) (fun hk => nomatch hbase hk)
      fun _ _ _ => rfl
  | looking =>
    obtain rfl := Option.some.inj hs
    have hnone : threadHolds SelfAction.holds
        (.running (if s.selfQueue.isSome then .popping else .sleeping)) = none := by
      split <;> rfl
    refine h.withSelfAction _ s.queues ?_ (fun hk => nomatch hbase hk) fun hhold => ?_
    · rw [hnone]
      exact h.fits.unlock hown
    · rw [hp] at hhold
      cases hhold
  | popping =>
    simp only [selfActionStep] at hs
    split at hs
    next task tasks isShutdown hq =>
      obtain rfl := Option.some.inj hs
      refine h.withSelfAction _ _ (h.fits.stay hown.symm) (fun hk => nomatch hbase hk)
        fun _ _ hlocks => ?_
      -- the task in hand is the one that was at the head of the queue
      simp only [Edge.selfActionLocks, hp, hq] at hlocks
      exact hlocks
    next =>
      obtain rfl := Option.some.inj hs
      exact h.withSelfAction _ s.queues (h.fits.stay hown.symm) (fun hk => nomatch hbase hk)
        fun _ _ _ => rfl
  | executing task =>
    simp only [selfActionStep] at hs
    split at hs
    next =>
      obtain rfl := Option.some.inj hs
      exact h.withSelfAction _ s.queues (h.fits.stay hown.symm) (fun hk => nomatch hbase hk)
        fun _ _ _ => rfl
    next mode hmode =>
      obtain ⟨rwMutex, hl, rfl⟩ := Option.map_eq_some_iff.1 hs
      exact h.withSelfAction _ s.queues (h.fits.lock hl hown) (fun hk => nomatch hbase hk)
        fun _ _ _ => rfl
  | acting mode =>
    obtain rfl := Option.some.inj hs
    exact h.withSelfAction _ s.queues (h.fits.unlock hown) (fun hk => nomatch hbase hk)
      fun _ _ _ => rfl
  | sleeping =>
    obtain rfl := Option.some.inj hs
    exact h.withSelfAction _ s.queues (h.fits.stay hown.symm) (fun _ => .inr (.inl rfl))
      fun _ _ _ => rfl

omit [DecidableEq ι] in
/-- A device takes a task. -/
theorem pop_kept (h : Kept s) {deviceId : String}
    (hc : s.selfActionStop = true → (s.pop deviceId).selfActionLocks = false) :
    Kept (s.pop deviceId) := by
  unfold Edge.pop at hc ⊢
  split
  next tasks isShutdown hq =>
    simp only [hq] at hc
    refine ⟨h.fits, fun i => ?_, h.base, h.uuv⟩
    exact (h.client i).keep rfl fun _ _ => ⟨fun hok => hok, fun hok => ⟨hok.1, hc hok.1⟩⟩
  next => exact h

/-- A call sets out, or returns at once with a task that it cannot read. -/
theorem entered_kept (h : Kept s) {op : Op} (hc : s.kind = .uuv → op.appends = none)
    (hi : s.client i = .returned) :
    Kept { s with client := update s.client i (op.entered s.kind) } := by
  have hown : (s.client i).holds s.kind = none := by
    rw [hi]
    rfl
  unfold Op.entered
  split
  next =>
    split
    next => exact h.move hown.symm trivial
    next => exact h.move hown.symm hc
  next => exact h.move hown.symm hc

/-- **One step.** -/
theorem step_kept (h : Kept s) {l : Label ι} (hc : Careful s l) (hs : step s l = some s') :
    Kept s' := by
  cases l with
  | call i op =>
    simp only [step] at hs
    split at hs
    next hi =>
      obtain rfl := Option.some.inj hs
      exact entered_kept h hc hi
    next => cases hs
  | act i =>
    obtain ⟨r, hr, rfl⟩ := Option.map_eq_some_iff.1 hs
    exact clientStep_kept h hc hr
  | monitor ok =>
    simp only [step] at hs
    split at hs
    next p hp => exact monitorStep_kept h hp hs
    next => cases hs
  | snapshot =>
    simp only [step] at hs
    split at hs
    next p hp => exact snapshotStep_kept h hp hs
    next => cases hs
  | selfAction =>
    simp only [step] at hs
    split at hs
    next p hp => exact selfActionStep_kept h hp hs
    next => cases hs
  | device deviceId =>
    simp only [step] at hs
    split at hs
    next =>
      obtain rfl := Option.some.inj hs
      exact pop_kept h hc
    next => cases hs

end

omit [DecidableEq ι] in
/-- In a new edge nobody has the lock. -/
theorem kept_init (kind : Kind) : Kept ({ kind } : Edge ι) where
  fits := by
    have hnone : Edge.holds ({ kind } : Edge ι) = fun _ => none := by
      funext q
      cases q <;> rfl
    rw [hnone]
    exact RwLock.fits_init
  client _ := trivial
  base _ := .inl rfl
  uuv _ := rfl

/-! ## All runs -/

instance decidableCareful (s : Edge ι) : ∀ l, Decidable (Careful s l)
  | .call _ op => inferInstanceAs (Decidable (s.kind = .uuv → op.appends = none))
  | .act i =>
    match h : s.client i with
    | .stopping .stopSnapshot =>
      decidable_of_iff (s.snapshot ≠ .running .locking) (by simp only [Careful, h])
    | .stopping .stopSelfAction =>
      decidable_of_iff (s.selfActionLocks = false) (by simp only [Careful, h])
    | .returned | .entering _ | .inside _ | .relocking .. | .stopping .check
    | .stopping .joinSnapshot | .stopping .shutdownQueue | .stopping .joinSelfAction
    | .stopping .clear => isTrue (by simp only [Careful, h])
  | .device deviceId =>
    inferInstanceAs
      (Decidable (s.selfActionStop = true → (s.pop deviceId).selfActionLocks = false))
  | .monitor _ | .snapshot | .selfAction => isTrue trivial

/-- **Nobody waits for itself.** However the calls and the threads of the edge take turns, nobody
takes `rw_mutex_` that has it, and what a shutdown joins comes to its end without it, where nothing
is appended to a `UUVEdge` and the threads are not on their way to the lock when they are told to
stop. -/
theorem locking_safe {kind : Kind} {ls : List (Label ι)} {s : Edge ι}
    (hc : Along step Careful { kind } ls) (h : run step { kind } ls = some s) : Safe s :=
  (run_along (P := Kept) (fun _ _ _ hl h hs => step_kept h hl hs) (kept_init kind) hc h).safe

/-- A task of the edge itself is executed with the lock, and then the edge is shut down. -/
theorem locking_safe_join :
    ∃ (ls : List (Label (Fin 2))) (s : Edge (Fin 2)), run step { kind := .uuv } ls = some s ∧
      s.client 0 = .stopping .joinSelfAction ∧
      ∃ n, EndsIn step (fun _ : Unit => .selfAction) (fun t => t.selfAction = .exited) n s := by
  have h : run step ({ kind := .uuv } : Edge (Fin 2))
      [.call 0 (.init { devices := ["self"], ready := some true }), .act 0, .act 0,
        .call 0 (.start true true), .act 0, .act 0,
        .call 1 (.submit "self" (some { deviceId := "self", action := "set_estop" })),
        .act 1, .act 1,
        .selfAction, .selfAction, .selfAction, .selfAction, .selfAction, .selfAction,
        .call 0 .shutdown, .call 1 .getStatusSnapshot, .act 0, .act 0, .act 0, .act 0, .act 0,
        .act 0] = some _ := rfl
  have hsafe := locking_safe (by decide) h
  exact ⟨_, _, h, rfl, hsafe.joinSelfAction 0 rfl nofun⟩

/-- An append to a `UUVEdge` comes to the lock that it holds; and the snapshot thread of a
`BaseEdge`, which has looked at its flag and waits for the lock, is joined by who has the lock. -/
theorem relock_and_join :
    (¬ ∀ (ls : List (Label (Fin 1))) (s : Edge (Fin 1)),
        run step { kind := .uuv } ls = some s → Safe s) ∧
      ¬ ∀ (ls : List (Label (Fin 1))) (s : Edge (Fin 1)),
        run step { kind := .base } ls = some s → Safe s := by
  constructor
  · intro h
    have hsafe := h [.call 0 (.init {}), .act 0, .act 0,
      .call 0 (.appendTask { deviceId := "self" }), .act 0, .act 0] _ rfl
    cases hsafe.reentry (.client 0) rfl
  · intro h
    have hsafe := h [.call 0 (.init {}), .act 0, .act 0, .call 0 (.start true true), .act 0, .act 0,
      .snapshot, .call 0 .shutdown, .act 0, .act 0, .act 0] _ rfl
    obtain ⟨n, hn⟩ := hsafe.joinSnapshot 0 rfl nofun
    cases n with
    | zero => cases hn
    | succ n =>
      obtain ⟨t, ht, -⟩ := hn ()
      cases ht

end Locking

end MyEdge
