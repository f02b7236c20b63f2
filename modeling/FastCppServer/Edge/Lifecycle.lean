import FastCppServer.Edge.Init

/-!
# The life of an edge

An edge is initialised, started and shut down, again and again, while other threads submit and
append tasks. `Init`, `Start` and `Shutdown` hold `rw_mutex_` all the time, and they wait in it:
`Init` and `Shutdown` for the threads of the devices, `Shutdown` for two of the three threads of the
edge as well. What they do next is a step of the holder of the lock. `Submit` and `AppendTask` are
one step each. The threads go on meanwhile, as far as they do not need the lock.

`queues_.clear()` destroys the queues. A pointer to one names the clearings before it, so it is good
as long as there has been none since and the id is still there (`deref`). A use of a bad one is
written down, and the thread goes on as if it had found nothing.
-/

namespace MyEdge

namespace Lifecycle

open Dict Transition MyData MyControl

/-- A `TaskQueue*`: that of the id, after `gen` clearings. -/
structure QueuePtr where
  gen : Nat
  deviceId : String
  deriving DecidableEq

/-- Where the monitor stands in `SelfTaskMonitorLoop` and `FetchSelfTask`: before the test of its
stop flag, that of `self_task_run_state_`, the look at the queues, `IsShutdown`, and
`PopBlocking`. -/
inductive Monitor where
  | testing
  | fetching
  | looking
  | asking (q : QueuePtr)
  | popping (q : QueuePtr)
  | sleeping
  deriving DecidableEq

/-- The queue that the monitor has a pointer to. -/
def Monitor.ptr : Monitor → Option QueuePtr
  | asking q | popping q => some q
  | _ => none

/-- `SelfActionLoop`: before the test of its stop flag, and in `ExecuteSelfTask`. -/
inductive Action where
  | testing
  | executing
  deriving DecidableEq

/-- `SnapshotLoop`: it reports under the lock. -/
inductive Snapshot where
  | testing
  | reporting
  | sleeping
  deriving DecidableEq

/-- Who holds the lock over several steps, and where: at the next device that is destroyed, before
the tables are filled again by `Init` or left empty by `Shutdown`; at the next device of `Start`;
and in the sections of `Shutdown`. -/
inductive Holder where
  | free
  | destroying (cfg : Option Json) (rest : List String)
  | starting (rest : List String)
  | joiningSnapshot
  | joiningAction
  | stopping (rest : List String)
  | closing (rest : List String)
  | joining (rest : List String)

/-- Who has used a queue that is no more. -/
inductive Party where
  | monitor
  | device (deviceId : String)
  deriving DecidableEq

/-- An edge with its tables, its threads, and who holds its lock. -/
structure Edge where
  settings : Settings := {}
  runState : RunState := .initializing
  eStop : Bool := false
  eStopReason : String := ""
  tables : Tables := {}
  /-- How often the queues have been cleared. -/
  gen : Nat := 0
  holder : Holder := .free
  monitorStop : Bool := false
  actionStop : Bool := false
  snapshotStop : Bool := false
  monitor : Thread Monitor := .none
  action : Thread Action := .none
  snapshot : Thread Snapshot := .none
  misuses : List Party := []
  /-- A `Shutdown` has returned, and no `Start` has started anything since. -/
  returned : Bool := false

/-- `start` comes with the order in which it finds the devices; the monitor with whether it finds
`self_task_run_state_` at `RunOver`. -/
inductive Label where
  | init (cfg : Json)
  | start (order : List String)
  | shutdown
  | submit (cmd : RawCommand)
  | appendTask (task : Task)
  | setEStop (active : Bool) (reason : String)
  | hold
  | monitor (runOver : Bool)
  | action
  | snapshot
  | device (deviceId : String)

namespace Edge

/-- What `Submit` reads of the edge. -/
def gate (s : Edge) : Gate where
  edgeId := s.settings.edgeId
  runState := s.runState
  eStop := s.eStop
  eStopReason := s.eStopReason
  allowQueueWhenEStop := s.settings.allowQueueWhenEStop
  deviceTypeById deviceId := s.tables.deviceTypeById.lookup deviceId

/-- The queues, by the ids of their devices. -/
def queues (s : Edge) : Queues := fun deviceId => s.tables.queues.lookup deviceId

/-- What a pointer points to, if it is still there. -/
def deref (s : Edge) (q : QueuePtr) : Option TaskQueue :=
  if q.gen = s.gen then s.tables.queues.lookup q.deviceId else none

/-- The queue of that id becomes another. -/
def setQueue (s : Edge) (deviceId : String) (q : TaskQueue) : Edge :=
  { s with tables := { s.tables with queues := s.tables.queues.insert deviceId q } }

/-- The device of that id becomes another. -/
def setDevice (s : Edge) (deviceId : String) (dev : Device) : Edge :=
  { s with tables := { s.tables with devices := s.tables.devices.insert deviceId dev } }

/-- What an entry point does to the edge. -/
def enter (s : Edge) : Change → Edge
  | none => s
  | some (deviceId, q) => s.setQueue deviceId q

/-- A call that takes the lock. -/
def locked (s t : Edge) : Option Edge :=
  match s.holder with
  | .free => some t
  | _ => none

/-! ## `Init`, `Start` and `Shutdown` -/

/-- `Init` up to `devices_.clear()`. It is over where a setting throws. -/
def init (s : Edge) (cfg : Json) : Edge :=
  { s with
    runState := .initializing
    settings := (s.settings.read cfg).1
    holder :=
      if (s.settings.read cfg).2 then .destroying (some cfg) s.tables.devices.keys else .free }

/-- `StartSelfTaskMonitorThreadLocked`. -/
def startMonitor (s : Edge) : Edge :=
  if s.monitor = .none then { s with monitorStop := false, monitor := .running .testing } else s

/-- `StartSelfActionThreadLocked`. -/
def startAction (s : Edge) : Edge :=
  if s.settings.selfActionEnable ∧ s.action = .none then
    { s with actionStop := false, action := .running .testing }
  else s

/-- `StartSnapshotThreadLocked`. -/
def startSnapshot (s : Edge) : Edge :=
  if s.settings.snapshotEnable ∧ s.snapshot = .none then
    { s with snapshotStop := false, snapshot := .running .testing }
  else s

/-- `Start` up to the first device. -/
def start (s : Edge) (order : List String) : Edge :=
  if s.runState = .ready then
    { s.startMonitor.startAction.startSnapshot with holder := .starting order, returned := false }
  else s

/-- `Shutdown` up to the end of the snapshot thread. -/
def shutdown (s : Edge) : Edge :=
  if s.runState = .stopped ∨ s.runState = .stopping then { s with returned := true }
  else { s with runState := .stopping, snapshotStop := true, holder := .joiningSnapshot }

/-- A workflow is destroyed: its thread is stopped and joined, and then it goes on. -/
def retire (s : Edge) (deviceId : String) (dev : Device) (t : Edge) : Option Edge :=
  match dev.worker with
  | .running _ => if dev.stop then none else some (s.setDevice deviceId { dev with stop := true })
  | _ => some t

/-- The tables after `queues_.clear()` and `device_type_by_id_.clear()`, and what follows. -/
def clear (s : Edge) : Option Json → Edge
  | none =>
    { s with
      tables := { s.tables with queues := ∅, deviceTypeById := ∅ }
      gen := s.gen + 1
      runState := .stopped
      holder := .free
      returned := true }
  | some cfg =>
    { s with
      tables := Tables.load s.settings.selfDeviceId cfg s.tables.devices
      gen := s.gen + 1
      runState := .ready
      holder := .free }

/-- `Start` at a device. A `Start` that has failed leaves the others as they are. -/
def startDevice (s : Edge) (deviceId : String) (rest : List String) : Option Edge :=
  match s.tables.devices.lookup deviceId, s.tables.queues.lookup deviceId with
  | some dev, some _ =>
    if dev.hasControl then
      s.retire deviceId dev
        { s.setDevice deviceId { dev with
            stop := false, worker := .running .testing, queue := s.gen } with
          holder := .starting rest }
    else some { s with holder := .free }
  | _, _ => some { s with holder := .free }

/-- `Stop` of a device. -/
def stopDevice (s : Edge) (deviceId : String) : Edge :=
  match s.tables.devices.lookup deviceId with
  | some dev =>
    match dev.worker with
    | .running _ => s.setDevice deviceId { dev with stop := true }
    | _ => s
  | none => s

/-- `Shutdown` of a queue. -/
def closeQueue (s : Edge) (deviceId : String) : Edge :=
  match s.tables.queues.lookup deviceId with
  | some q => s.setQueue deviceId { q with shutdown := true }
  | none => s

/-- `Join` of a device. -/
def joinDevice (s : Edge) (deviceId : String) : Option Edge :=
  match s.tables.devices.lookup deviceId with
  | some dev =>
    match dev.worker with
    | .running _ => none
    | _ => some (s.setDevice deviceId { dev with worker := .none })
  | none => some s

/-- `devices_.clear()` at its next device. -/
def destroyDevice (s : Edge) (cfg : Option Json) (deviceId : String) (rest : List String) :
    Option Edge :=
  match s.tables.devices.lookup deviceId with
  | some dev =>
    s.retire deviceId dev { s with
      tables := { s.tables with devices := s.tables.devices.erase deviceId }
      holder := .destroying cfg rest }
  | none => some { s with holder := .destroying cfg rest }

/-- The holder of the lock goes on, unless it waits for a thread. -/
def hold (s : Edge) : Holder → Option Edge
  | .free => none
  | .destroying cfg [] => some (s.clear cfg)
  | .destroying cfg (deviceId :: rest) => s.destroyDevice cfg deviceId rest
  | .starting [] => some { s with runState := .running, holder := .free }
  | .starting (deviceId :: rest) => s.startDevice deviceId rest
  | .joiningSnapshot =>
    match s.snapshot with
    | .running _ => none
    | _ => some { s with snapshot := .none, actionStop := true, holder := .joiningAction }
  | .joiningAction =>
    match s.action with
    | .running _ => none
    | _ => some { s with action := .none, holder := .stopping s.tables.devices.keys }
  | .stopping [] => some { s with holder := .closing s.tables.queues.keys }
  | .stopping (deviceId :: rest) =>
    some { s.stopDevice deviceId with holder := .stopping rest }
  | .closing [] => some { s with holder := .joining s.tables.devices.keys }
  | .closing (deviceId :: rest) =>
    some { s.closeQueue deviceId with holder := .closing rest }
  | .joining [] => some { s with holder := .destroying none s.tables.devices.keys }
  | .joining (deviceId :: rest) =>
    (s.joinDevice deviceId).map fun t => { t with holder := .joining rest }

/-! ## The threads -/

/-- One step of the monitor. A pointer to a queue that is no more is noted as a misuse. -/
def monitorStep (s : Edge) (runOver : Bool) : Monitor → Option Edge
  | .testing =>
    some { s with monitor := if s.monitorStop then .exited else .running .fetching }
  | .fetching => some { s with monitor := .running (if runOver then .looking else .sleeping) }
  | .looking =>
    s.locked { s with monitor :=
      match s.tables.queues.lookup s.settings.selfDeviceId with
      | none => .exited
      | some _ => .running (.asking ⟨s.gen, s.settings.selfDeviceId⟩) }
  | .asking q =>
    match s.deref q with
    | none => some { s with misuses := s.misuses ++ [.monitor], monitor := .running .sleeping }
    | some tq =>
      some { s with monitor := if tq.shutdown then .exited else .running (.popping q) }
  | .popping q =>
    match s.deref q with
    | none => some { s with misuses := s.misuses ++ [.monitor], monitor := .running .sleeping }
    | some tq =>
      match tq.popBlocking with
      | none => some { s with monitor := .running .sleeping }
      | some (_, tq') => some { s.setQueue q.deviceId tq' with monitor := .running .sleeping }
  | .sleeping => some { s with monitor := .running .testing }

/-- One step of the self-action thread. -/
def actionStep (s : Edge) : Action → Edge
  | .testing => { s with action := if s.actionStop then .exited else .running .executing }
  | .executing => { s with action := .running .testing }

/-- One step of the snapshot thread. -/
def snapshotStep (s : Edge) : Snapshot → Option Edge
  | .testing => some { s with snapshot := if s.snapshotStop then .exited else .running .reporting }
  | .reporting => s.locked { s with snapshot := .running .sleeping }
  | .sleeping => some { s with snapshot := .running .testing }

/-- The thread of a device, and what becomes of it. -/
def workerStep (s : Edge) (deviceId : String) (dev : Device) : Worker → Edge
  | .testing =>
    s.setDevice deviceId { dev with worker := if dev.stop then .exited else .running .checking }
  | .checking =>
    s.setDevice deviceId { dev with worker := .running (if s.eStop then .testing else .popping) }
  | .popping =>
    match s.deref ⟨dev.queue, deviceId⟩ with
    | none =>
      { s.setDevice deviceId { dev with worker := .running .testing } with
        misuses := s.misuses ++ [.device deviceId] }
    | some q =>
      match q.popBlocking with
      | none => s.setDevice deviceId { dev with worker := .running .missed }
      | some (_, q') =>
        (s.setQueue deviceId q').setDevice deviceId { dev with worker := .running .working }
  | .missed =>
    match s.deref ⟨dev.queue, deviceId⟩ with
    | none =>
      { s.setDevice deviceId { dev with worker := .running .testing } with
        misuses := s.misuses ++ [.device deviceId] }
    | some q =>
      s.setDevice deviceId { dev with worker := if q.shutdown then .exited else .running .testing }
  | .working => s.setDevice deviceId { dev with worker := .running .testing }

/-! ## The observations -/

/-- How many tasks are in the queue of that id. -/
def pending (s : Edge) (deviceId : String) : Nat :=
  match s.tables.queues.lookup deviceId with
  | none => 0
  | some q => q.q.length

/-- `tasks_pending_total` of `GetStatusSnapshot`. -/
def tasksPendingTotal (s : Edge) : Nat :=
  (s.tables.devices.keys.map s.pending).sum + s.pending s.settings.selfDeviceId

end Edge

/-- What normalises the commands is up to the edges that inherit `BaseEdge`. -/
abbrev Normalize := RawCommand → String → String → Except String Task

/-- One step. A thread that waits has no successor. -/
def step (normalize : Normalize) (s : Edge) : Label → Option Edge
  | .init cfg => s.locked (s.init cfg)
  | .start order =>
    if order.Perm s.tables.devices.keys then s.locked (s.start order) else none
  | .shutdown => s.locked s.shutdown
  | .submit cmd => s.locked (s.enter (BaseEdge.submit normalize s.gate s.queues cmd).2)
  | .appendTask task => s.locked (s.enter (BaseEdge.appendTask s.queues task).2)
  | .setEStop active reason => s.locked { s with eStop := active, eStopReason := reason }
  | .hold => s.hold s.holder
  | .monitor runOver =>
    match s.monitor with
    | .running p => s.monitorStep runOver p
    | _ => none
  | .action =>
    match s.action with
    | .running p => some (s.actionStep p)
    | _ => none
  | .snapshot =>
    match s.snapshot with
    | .running p => s.snapshotStep p
    | _ => none
  | .device deviceId =>
    match s.tables.devices.lookup deviceId with
    | some dev =>
      match dev.worker with
      | .running p => some (s.workerStep deviceId dev p)
      | _ => none
    | none => none

/-! ## Pointers -/

namespace Edge

variable {s t u : Edge} {q : QueuePtr}

/-- The queue that it points to is still there. -/
def Live (s : Edge) (q : QueuePtr) : Prop := q.gen = s.gen ∧ q.deviceId ∈ s.tables.queues

/-- A pointer to a queue that is there points to that queue. -/
theorem Live.deref (h : s.Live q) :
    ∃ tq, s.tables.queues.lookup q.deviceId = some tq ∧ s.deref q = some tq := by
  obtain ⟨tq, htq⟩ := exists_lookup h.2
  exact ⟨tq, htq, by rw [Edge.deref, if_pos h.1, htq]⟩

/-- What a pointer points to is the queue of its id. -/
theorem lookup_of_deref {tq : TaskQueue} (h : s.deref q = some tq) :
    s.tables.queues.lookup q.deviceId = some tq := by
  unfold Edge.deref at h
  split at h
  next => exact h
  next => cases h

/-- A call goes on when nobody holds the lock. -/
theorem locked_some (h : s.locked t = some u) : s.holder = .free ∧ u = t := by
  unfold locked at h
  split at h
  next hfree => exact ⟨hfree, (Option.some.inj h).symm⟩
  next => cases h

/-- A call takes the lock when it is free. -/
theorem locked_of_free (h : s.holder = .free) : s.locked t = some t := by
  unfold locked
  rw [h]

/-! ## What `Start` starts first -/

/-- Starting the monitor changes nothing else. -/
theorem startMonitor_rest (s : Edge) : s.startMonitor =
    { s with monitorStop := s.startMonitor.monitorStop, monitor := s.startMonitor.monitor } := by
  unfold startMonitor
  split <;> rfl

/-- Starting the self-action thread changes nothing else. -/
theorem startAction_rest (s : Edge) : s.startAction =
    { s with actionStop := s.startAction.actionStop, action := s.startAction.action } := by
  unfold startAction
  split <;> rfl

/-- Starting the snapshot thread changes nothing else. -/
theorem startSnapshot_rest (s : Edge) : s.startSnapshot =
    { s with
      snapshotStop := s.startSnapshot.snapshotStop, snapshot := s.startSnapshot.snapshot } := by
  unfold startSnapshot
  split <;> rfl

/-- The three threads of the edge are all that it concerns. -/
theorem startThreads_rest (s : Edge) :
    ∃ actionStop action snapshotStop snapshot, s.startMonitor.startAction.startSnapshot =
      { s with
        monitorStop := s.startMonitor.monitorStop, monitor := s.startMonitor.monitor,
        actionStop, action, snapshotStop, snapshot } := by
  rw [startSnapshot_rest, startAction_rest, startMonitor_rest]
  exact ⟨_, _, _, _, rfl⟩

/-! ## What only concerns the tables -/

/-- Nothing but devices and what is in the queues has changed. -/
structure Keeps (s t : Edge) : Prop where
  rest : t = { s with tables := t.tables }
  queues : ∀ deviceId, deviceId ∈ t.tables.queues ↔ deviceId ∈ s.tables.queues

/-- Where nothing happens nothing has changed. -/
theorem Keeps.refl (s : Edge) : Keeps s s := ⟨rfl, fun _ => Iff.rfl⟩

variable {deviceId : String}

/-- A device changes, and nothing else. -/
theorem setDevice_keeps (s : Edge) (deviceId : String) (dev : Device) :
    Keeps s (s.setDevice deviceId dev) := ⟨rfl, fun _ => Iff.rfl⟩

/-- What is in a queue changes, and nothing else. -/
theorem setQueue_keeps {q₀ : TaskQueue} (hq : s.tables.queues.lookup deviceId = some q₀)
    (q : TaskQueue) : Keeps s (s.setQueue deviceId q) := ⟨rfl, fun _ => mem_insert_of_lookup hq⟩

/-- The queues that were there are there. -/
theorem Keeps.live (h : Keeps s t) : t.Live q ↔ s.Live q := by
  rw [Live, Live, h.queues, show t.gen = s.gen by rw [h.rest]]

/-- An entry point pushes a task, or does nothing. -/
theorem submit_change (normalize : RawCommand → String → String → Except String Task) (s : Edge)
    (cmd : RawCommand) :
    (BaseEdge.submit normalize s.gate s.queues cmd).2 = none ∨
      ∃ deviceId, BaseEdge.Pushes s.queues deviceId
        (BaseEdge.submit normalize s.gate s.queues cmd).2 := by
  rcases BaseEdge.submit_pushes normalize s.gate s.queues cmd with ⟨r, -, -, -, hpush⟩ | ⟨hnone, -⟩
  · exact .inr ⟨r.deviceId, hpush⟩
  · exact .inl hnone

/-- `AppendTask` pushes into one queue at most. -/
theorem appendTask_change (s : Edge) (task : Task) :
    (BaseEdge.appendTask s.queues task).2 = none ∨
      ∃ deviceId, BaseEdge.Pushes s.queues deviceId (BaseEdge.appendTask s.queues task).2 := by
  rcases BaseEdge.appendTask_pushes s.queues task with ⟨-, hpush⟩ | hnone
  · exact .inr ⟨task.deviceId, hpush⟩
  · rw [hnone]
    exact .inl rfl

/-- An entry point changes what is in a queue, and nothing else. -/
theorem enter_keeps {change : Change}
    (h : change = none ∨ ∃ deviceId, BaseEdge.Pushes s.queues deviceId change) :
    Keeps s (s.enter change) := by
  rcases h with rfl | ⟨deviceId, -, q, task, hq, -, rfl⟩
  · exact .refl s
  · exact setQueue_keeps hq _

/-- Stopping a device changes that device. -/
theorem stopDevice_keeps (s : Edge) (deviceId : String) : Keeps s (s.stopDevice deviceId) := by
  unfold stopDevice
  split
  next =>
    split
    next => exact setDevice_keeps s _ _
    next => exact .refl s
  next => exact .refl s

/-- Shutting a queue down changes that queue. -/
theorem closeQueue_keeps (s : Edge) (deviceId : String) : Keeps s (s.closeQueue deviceId) := by
  unfold closeQueue
  split
  next hq => exact setQueue_keeps hq _
  next => exact .refl s

/-- Joining a device changes that device. -/
theorem joinDevice_keeps (h : s.joinDevice deviceId = some t) : Keeps s t := by
  unfold joinDevice at h
  split at h
  next =>
    split at h
    next => cases h
    next =>
      cases h
      exact setDevice_keeps s _ _
  next =>
    cases h
    exact .refl s

/-- A device that runs with a queue that is there does not notice the rest of the edge. -/
theorem workerStep_keeps {dev : Device} (hlive : s.Live ⟨dev.queue, deviceId⟩) (p : Worker) :
    Keeps s (s.workerStep deviceId dev p) := by
  obtain ⟨q, hq, hderef⟩ := hlive.deref
  cases p with
  | testing | checking | working => exact setDevice_keeps s _ _
  | popping =>
    simp only [workerStep, hderef]
    split
    next => exact setDevice_keeps s _ _
    next => exact ⟨rfl, fun _ => mem_insert_of_lookup hq⟩
  | missed =>
    simp only [workerStep, hderef]
    exact setDevice_keeps s _ _

/-! ## What the holder of the lock does with a device -/

/-- It waits for the thread of the workflow after it has told it to stop, or there is none left. -/
theorem retire_cases {dev : Device} (h : s.retire deviceId dev u = some t) :
    t = s.setDevice deviceId { dev with stop := true } ∨
      t = u ∧ ∀ p, dev.worker ≠ .running p := by
  unfold retire at h
  split at h
  next =>
    split at h
    next => cases h
    next => exact .inl (Option.some.inj h).symm
  next hp => exact .inr ⟨(Option.some.inj h).symm, hp⟩

/-- `Start` waits for the thread that the device has had, it starts a thread with the queue that
there is, or it fails. -/
theorem startDevice_cases {rest : List String} (h : s.startDevice deviceId rest = some t) :
    (∃ dev, s.tables.devices.lookup deviceId = some dev ∧
      (t = s.setDevice deviceId { dev with stop := true } ∨
        deviceId ∈ s.tables.queues ∧ t = { s.setDevice deviceId { dev with
          stop := false, worker := .running .testing, queue := s.gen } with
          holder := .starting rest })) ∨
      t = { s with holder := .free } := by
  unfold startDevice at h
  split at h
  next dev q hdev hq =>
    split at h
    next =>
      refine .inl ⟨dev, hdev, ?_⟩
      rcases retire_cases h with hstop | ⟨rfl, -⟩
      · exact .inl hstop
      · exact .inr ⟨mem_of_lookup hq, rfl⟩
    next => exact .inr (Option.some.inj h).symm
  next => exact .inr (Option.some.inj h).symm

/-- `devices_.clear()` waits for the thread of the device, or the device is gone. -/
theorem destroyDevice_cases {cfg : Option Json} {rest : List String}
    (h : s.destroyDevice cfg deviceId rest = some t) :
    (∃ dev, s.tables.devices.lookup deviceId = some dev ∧
      t = s.setDevice deviceId { dev with stop := true }) ∨
      t = { s with
        tables := { s.tables with devices := s.tables.devices.erase deviceId }
        holder := .destroying cfg rest } := by
  unfold destroyDevice at h
  split at h
  next dev hdev =>
    rcases retire_cases h with hstop | ⟨rfl, -⟩
    · exact .inl ⟨dev, hdev, hstop⟩
    · exact .inr rfl
  next hnone =>
    cases h
    have herase : s.tables.devices.erase deviceId = s.tables.devices := by
      refine AList.ext ?_
      exact List.kerase_of_notMem_keys (mt AList.mem_keys.2 (AList.lookup_eq_none.1 hnone))
    exact .inr (by rw [herase])

end Edge

end Lifecycle

end MyEdge
