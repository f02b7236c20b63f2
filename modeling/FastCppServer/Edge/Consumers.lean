import FastCppServer.Edge.Shutdown

/-!
# Who takes the tasks of an edge

A task is accepted where its queue is there, and it is counted where its device is there. `Init`
makes a queue for each item that has an id and a type, but a device only where `MyDevice::Create`
knows the type: so the tasks of an item of another type are accepted, and nobody takes or counts
them. The queue of the edge itself has the monitor, and a device as well where an item has the id of
the edge, and then its tasks are counted twice. And the monitor is started once: where it has exited
after a `Shutdown`, the next `Start` finds its thread joinable and does not start another one.

Where none of the three happens (`Consumable`), each accepted task has one consumer (`Up.served`),
and only there (`consumed_iff`). What `Init` and `Start` come to is followed from step to step
(`Stage`).
-/

namespace MyEdge

namespace Lifecycle

open Dict Transition MyData MyControl

/-! ## What is promised -/

/-- Everything but `Init` and `Shutdown`. -/
def Label.serves : Label → Bool
  | .init _ | .shutdown => false
  | _ => true

/-- The id of the queue, where a call reports success. -/
def accepts (normalize : Normalize) (s : Edge) : Label → Option String
  | .submit cmd =>
    match (BaseEdge.submit normalize s.gate s.queues cmd).1 with
    | some r => if r.code = .ok then some r.deviceId else none
    | none => none
  | .appendTask task => if (BaseEdge.appendTask s.queues task).1 then some task.deviceId else none
  | _ => none

/-- Anything but the holder of the lock, and what takes it for longer. -/
def Label.quiet : Label → Bool
  | .init _ | .start _ | .shutdown | .hold => false
  | _ => true

namespace Edge

/-- The device of that id runs, with the queue that there is now. -/
def deviceConsumes (s : Edge) (deviceId : String) : Bool :=
  match s.tables.devices.lookup deviceId with
  | some { worker := .running _, queue, .. } => queue = s.gen
  | _ => false

/-- The queue is that of the edge, and the monitor runs. -/
def monitorConsumes (s : Edge) (deviceId : String) : Bool :=
  match s.monitor with
  | .running _ => deviceId = s.settings.selfDeviceId
  | _ => false

/-- No queue has been shut down. -/
def Opened (s : Edge) : Prop := All (fun _ q => q.shutdown = false) s.tables.queues

/-- How many threads take tasks out of the queue of that id. -/
def consumers (s : Edge) (deviceId : String) : Nat :=
  (s.deviceConsumes deviceId).toNat + (s.monitorConsumes deviceId).toNat

/-- The sum of the sizes of all queues. -/
def queued (s : Edge) : Nat := (s.tables.queues.keys.map s.pending).sum

end Edge

/-- From here on, each task that is accepted has one consumer, and all tasks are counted. -/
def Served (normalize : Normalize) (s : Edge) : Prop :=
  ∀ ls t, (∀ l ∈ ls, l.serves = true) → run (step normalize) s ls = some t →
    t.tasksPendingTotal = t.queued ∧
    ∀ l u deviceId, step normalize t l = some u → accepts normalize t l = some deviceId →
      u.consumers deviceId = 1

/-- `Init` gives the configuration one consumer for each queue that tasks can come to. -/
structure Consumable (cfg : Json) (s : Edge) : Prop where
  created : ∀ dcfg ∈ items cfg, ∀ deviceId, Tables.Names deviceId dcfg →
    deviceId ≠ (s.settings.read cfg).1.selfDeviceId →
    ∃ dcfg' ∈ items cfg, Tables.Creates deviceId dcfg'
  unshared : ∀ dcfg ∈ items cfg, ¬ Tables.Creates (s.settings.read cfg).1.selfDeviceId dcfg
  monitored : (s.settings.read cfg).1.selfDeviceId ≠ "" → s.monitor ≠ .exited

/-! ## The stages -/

/-- The device runs and goes on. -/
structure Alive (gen : Nat) (dev : Device) : Prop where
  runs : ∃ p, dev.worker = .running p
  stop : dev.stop = false
  queue : dev.queue = gen

/-- What holds since `Init` has read its settings. -/
structure Kept (cfg : Json) (s₀ s : Edge) : Prop where
  self : s.settings.selfDeviceId = (s₀.settings.read cfg).1.selfDeviceId
  opened : s.Opened
  monitorStop : s.monitorStop = false
  monitor : s.monitor = .exited ↔ s₀.monitor = .exited

/-- What holds since the tables have been filled. -/
structure Loaded (cfg : Json) (s₀ s : Edge) : Prop extends Kept cfg s₀ s where
  queues : ∀ deviceId, deviceId ∈ s.tables.queues ↔
    deviceId = s.settings.selfDeviceId ∨ ∃ dcfg ∈ items cfg, Tables.Names deviceId dcfg
  devices : ∀ deviceId, deviceId ∈ s.tables.devices ↔
    ∃ dcfg ∈ items cfg, Tables.Creates deviceId dcfg

/-- The edge has been started. -/
structure Up (cfg : Json) (s₀ s : Edge) : Prop extends Loaded cfg s₀ s where
  free : s.holder = .free
  runState : s.runState = .running
  started : s.monitor ≠ .none
  alive : All (fun _ dev => Alive s.gen dev) s.tables.devices

/-- How far an edge has come since an `Init`: this has thrown, or it is about to clear the devices,
or it has returned; a `Start` is at a device, or it has succeeded. -/
inductive Stage (cfg : Json) (s₀ s : Edge) : Prop where
  | thrown (free : s.holder = .free) (runState : s.runState = .initializing)
  | clearing (rest : List String) (holder : s.holder = .destroying (some cfg) rest)
    (runState : s.runState = .initializing) (kept : Kept cfg s₀ s)
    (devices : ∀ deviceId, deviceId ∈ s.tables.devices → deviceId ∈ rest)
  | ready (free : s.holder = .free) (runState : s.runState = .ready) (loaded : Loaded cfg s₀ s)
  | starting (rest : List String) (holder : s.holder = .starting rest)
    (runState : s.runState = .ready) (loaded : Loaded cfg s₀ s) (started : s.monitor ≠ .none)
    (alive : All (fun deviceId dev => deviceId ∉ rest → Alive s.gen dev) s.tables.devices)
  | up (h : Up cfg s₀ s)

variable {normalize : Normalize} {cfg : Json} {s₀ s t : Edge} {deviceId : String}

/-! ## What everybody but the holder of the lock leaves alone -/

/-- The edge goes on as before, and so does each device that is alive. -/
structure Frame (s t : Edge) : Prop where
  holder : t.holder = s.holder
  runState : t.runState = s.runState
  settings : t.settings = s.settings
  gen : t.gen = s.gen
  monitorStop : t.monitorStop = s.monitorStop
  queues : ∀ deviceId, deviceId ∈ t.tables.queues ↔ deviceId ∈ s.tables.queues
  devices : ∀ deviceId, deviceId ∈ t.tables.devices ↔ deviceId ∈ s.tables.devices
  opened : s.Opened → t.Opened
  alive : s.Opened → ∀ deviceId dev', t.tables.devices.lookup deviceId = some dev' →
    ∃ dev, s.tables.devices.lookup deviceId = some dev ∧ (Alive s.gen dev → Alive t.gen dev')

/-- The devices are not concerned. -/
theorem Frame.of_keeps (h : s.Keeps t) (hdevices : t.tables.devices = s.tables.devices)
    (hopened : s.Opened → t.Opened) : Frame s t where
  holder := by rw [h.rest]
  runState := by rw [h.rest]
  settings := by rw [h.rest]
  gen := by rw [h.rest]
  monitorStop := by rw [h.rest]
  queues := h.queues
  devices deviceId := by rw [hdevices]
  opened := hopened
  alive _ deviceId dev hdev := by
    rw [hdevices] at hdev
    rw [h.rest]
    exact ⟨dev, hdev, id⟩

/-- An edge that nothing happens to goes on as before. -/
theorem Frame.refl (s : Edge) : Frame s s := .of_keeps (.refl s) rfl id

/-- A queue that changes, and is not shut down by it, leaves the edge to go on. -/
theorem setQueue_frame {q₀ q : TaskQueue} (hq : s.tables.queues.lookup deviceId = some q₀)
    (hopen : q₀.shutdown = false → q.shutdown = false) : Frame s (s.setQueue deviceId q) :=
  .of_keeps (Edge.setQueue_keeps hq q) rfl fun hopened =>
    All.insert hopened (hopen (hopened _ _ hq))

/-- What an entry point does. -/
theorem enter_frame {change : Change}
    (h : change = none ∨ ∃ deviceId, BaseEdge.Pushes s.queues deviceId change) :
    Frame s (s.enter change) := by
  rcases h with rfl | ⟨deviceId, -, q, task, hq, -, rfl⟩
  · exact .refl s
  · exact setQueue_frame hq fun hopen => (q.push_shutdown task).trans hopen

/-- A device that has not been stopped goes on. -/
theorem workerStep_device {dev : Device} (hlive : s.Live ⟨dev.queue, deviceId⟩) (p : Worker) :
    ∃ w, (s.workerStep deviceId dev p).tables.devices =
        s.tables.devices.insert deviceId { dev with worker := w } ∧
      (s.Opened → dev.stop = false → ∃ q, w = .running q) := by
  obtain ⟨q, hq, hderef⟩ := hlive.deref
  cases p with
  | testing =>
    refine ⟨_, rfl, fun _ hstop => ?_⟩
    rw [hstop]
    exact ⟨_, rfl⟩
  | checking | working => exact ⟨_, rfl, fun _ _ => ⟨_, rfl⟩⟩
  | popping =>
    simp only [Edge.workerStep, hderef]
    split <;> exact ⟨_, rfl, fun _ _ => ⟨_, rfl⟩⟩
  | missed =>
    simp only [Edge.workerStep, hderef]
    refine ⟨_, rfl, fun hopened _ => ?_⟩
    rw [hopened _ _ hq]
    exact ⟨_, rfl⟩

/-- The thread of a device shuts no queue down. -/
theorem workerStep_opened {dev : Device} (hlive : s.Live ⟨dev.queue, deviceId⟩) (p : Worker)
    (h : s.Opened) : (s.workerStep deviceId dev p).Opened := by
  obtain ⟨q, hq, hderef⟩ := hlive.deref
  cases p with
  | testing | checking | working => exact h
  | popping =>
    simp only [Edge.workerStep, hderef]
    split
    next => exact h
    next hpop =>
      exact All.insert h ((TaskQueue.popBlocking_some hpop).2.2.trans (h _ _ hq))
  | missed =>
    simp only [Edge.workerStep, hderef]
    exact h

/-- The thread of a device leaves the edge to go on, and the device alive. -/
theorem workerStep_frame {dev : Device} (hdev : s.tables.devices.lookup deviceId = some dev)
    (hlive : s.Live ⟨dev.queue, deviceId⟩) (p : Worker) :
    Frame s (s.workerStep deviceId dev p) := by
  have hkeeps := Edge.workerStep_keeps hlive p
  obtain ⟨w, hdevices, hruns⟩ := workerStep_device hlive p
  have hgen : (s.workerStep deviceId dev p).gen = s.gen := by rw [hkeeps.rest]
  exact {
    holder := by rw [hkeeps.rest]
    runState := by rw [hkeeps.rest]
    settings := by rw [hkeeps.rest]
    gen := hgen
    monitorStop := by rw [hkeeps.rest]
    queues := hkeeps.queues
    devices := fun id => by rw [hdevices]; exact mem_insert_of_lookup hdev
    opened := workerStep_opened hlive p
    alive := by
      intro hopened id dev' hdev'
      rw [hdevices] at hdev'
      rw [hgen]
      rcases eq_or_ne id deviceId with rfl | hne
      · rw [AList.lookup_insert] at hdev'
        cases hdev'
        exact ⟨dev, hdev, fun h => ⟨hruns hopened h.stop, h.stop, h.queue⟩⟩
      · rw [AList.lookup_insert_ne hne] at hdev'
        exact ⟨dev', hdev', fun h => h⟩ }

/-- The monitor. -/
theorem monitorStep_frame {runOver : Bool} {p : Monitor}
    (hs : s.monitorStep runOver p = some t) : Frame s t := by
  have hset : ∀ (m : Thread Monitor) (misuses : List Party),
      Frame s { s with monitor := m, misuses } := fun _ _ =>
    ⟨rfl, rfl, rfl, rfl, rfl, fun _ => Iff.rfl, fun _ => Iff.rfl, id, fun _ _ dev hdev =>
      ⟨dev, hdev, id⟩⟩
  cases p with
  | testing | fetching | sleeping =>
    cases hs
    exact hset _ s.misuses
  | looking =>
    obtain ⟨-, rfl⟩ := Edge.locked_some hs
    exact hset _ s.misuses
  | asking q =>
    simp only [Edge.monitorStep] at hs
    split at hs
    next =>
      cases hs
      exact hset _ _
    next =>
      cases hs
      exact hset _ s.misuses
  | popping q =>
    simp only [Edge.monitorStep] at hs
    split at hs
    next =>
      cases hs
      exact hset _ _
    next hq =>
      split at hs
      next =>
        cases hs
        exact hset _ s.misuses
      next hpop =>
        cases hs
        have hframe := setQueue_frame (Edge.lookup_of_deref hq)
          (TaskQueue.popBlocking_some hpop).2.2.trans
        exact { hframe with }

/-- **A quiet step leaves the edge to go on.** -/
theorem step_frame (htidy : Tidy s) {l : Label} (hl : l.quiet = true)
    (hs : step normalize s l = some t) : Frame s t := by
  cases l with
  | init | start | shutdown | hold => cases hl
  | submit cmd =>
    obtain ⟨-, rfl⟩ := Edge.locked_some hs
    exact enter_frame (Edge.submit_change normalize s cmd)
  | appendTask task =>
    obtain ⟨-, rfl⟩ := Edge.locked_some hs
    exact enter_frame (Edge.appendTask_change s task)
  | setEStop active reason =>
    obtain ⟨-, rfl⟩ := Edge.locked_some hs
    exact { Frame.refl s with }
  | monitor runOver =>
    simp only [step] at hs
    split at hs
    next => exact monitorStep_frame hs
    next => cases hs
  | action =>
    simp only [step] at hs
    split at hs
    next p hp =>
      cases hs
      cases p <;> exact { Frame.refl s with }
    next => cases hs
  | snapshot =>
    simp only [step] at hs
    split at hs
    next p hp =>
      cases p with
      | testing | sleeping =>
        cases hs
        exact { Frame.refl s with }
      | reporting =>
        obtain ⟨-, rfl⟩ := Edge.locked_some hs
        exact { Frame.refl s with }
    next => cases hs
  | device deviceId =>
    simp only [step] at hs
    split at hs
    next dev hdev =>
      split at hs
      next p hp =>
        cases hs
        exact workerStep_frame hdev (htidy.uses _ _ hdev p hp) p
      next => cases hs
    next => cases hs

/-- The monitor goes on where it finds its queue, and this has not been shut down. -/
theorem monitorStep_runs (hopened : s.Opened) (hstop : s.monitorStop = false)
    (hself : s.holder = .free → s.settings.selfDeviceId ∈ s.tables.queues) {runOver : Bool}
    {p : Monitor} (hs : s.monitorStep runOver p = some t) : ∃ q, t.monitor = .running q := by
  cases p with
  | testing =>
    cases hs
    rw [hstop]
    exact ⟨_, rfl⟩
  | fetching | sleeping =>
    cases hs
    exact ⟨_, rfl⟩
  | looking =>
    obtain ⟨hfree, rfl⟩ := Edge.locked_some hs
    obtain ⟨q, hq⟩ := exists_lookup (hself hfree)
    rw [hq]
    exact ⟨_, rfl⟩
  | asking q =>
    simp only [Edge.monitorStep] at hs
    split at hs
    next =>
      cases hs
      exact ⟨_, rfl⟩
    next hderef =>
      cases hs
      rw [hopened _ _ (Edge.lookup_of_deref hderef)]
      exact ⟨_, rfl⟩
  | popping q =>
    simp only [Edge.monitorStep] at hs
    split at hs
    next =>
      cases hs
      exact ⟨_, rfl⟩
    next =>
      split at hs
      next =>
        cases hs
        exact ⟨_, rfl⟩
      next =>
        cases hs
        exact ⟨_, rfl⟩

/-- The monitor, if it runs, runs on over a quiet step while its queue is there and open. -/
theorem step_monitor (htidy : Tidy s) (hopened : s.Opened) (hstop : s.monitorStop = false)
    (hself : s.holder = .free → s.settings.selfDeviceId ∈ s.tables.queues) {l : Label}
    (hl : l.quiet = true) (hs : step normalize s l = some t) :
    t.monitor = s.monitor ∨ (∃ p, s.monitor = .running p) ∧ ∃ q, t.monitor = .running q := by
  cases l with
  | init | start | shutdown | hold => cases hl
  | submit cmd =>
    obtain ⟨-, rfl⟩ := Edge.locked_some hs
    rw [(Edge.enter_keeps (Edge.submit_change normalize s cmd)).rest]
    exact .inl rfl
  | appendTask task =>
    obtain ⟨-, rfl⟩ := Edge.locked_some hs
    rw [(Edge.enter_keeps (Edge.appendTask_change s task)).rest]
    exact .inl rfl
  | setEStop active reason =>
    obtain ⟨-, rfl⟩ := Edge.locked_some hs
    exact .inl rfl
  | monitor runOver =>
    simp only [step] at hs
    split at hs
    next p hp => exact .inr ⟨⟨p, hp⟩, monitorStep_runs hopened hstop hself hs⟩
    next => cases hs
  | action =>
    simp only [step] at hs
    split at hs
    next p hp =>
      cases hs
      cases p <;> exact .inl rfl
    next => cases hs
  | snapshot =>
    simp only [step] at hs
    split at hs
    next p hp =>
      cases p with
      | testing | sleeping =>
        cases hs
        exact .inl rfl
      | reporting =>
        obtain ⟨-, rfl⟩ := Edge.locked_some hs
        exact .inl rfl
    next => cases hs
  | device deviceId =>
    simp only [step] at hs
    split at hs
    next dev hdev =>
      split at hs
      next p hp =>
        cases hs
        rw [(Edge.workerStep_keeps (htidy.uses _ _ hdev p hp) p).rest]
        exact .inl rfl
      next => cases hs
    next => cases hs

/-! ## Before `Init` -/

/-- A queue is shut down in a `Shutdown` only, and the monitor is never told to stop. -/
structure Orderly (s : Edge) : Prop where
  opened : s.holder.shuts = false → s.Opened
  monitorStop : s.monitorStop = false

/-- Starting the monitor does not tell it to stop. -/
theorem startMonitor_monitorStop (h : s.monitorStop = false) :
    s.startMonitor.monitorStop = false := by
  unfold Edge.startMonitor
  split
  next => rfl
  next => exact h

/-- In `Shutdown` the queues may be shut down. -/
theorem Orderly.of_shuts (h : Orderly s) (ht : t.holder.shuts = true)
    (hstop : t.monitorStop = s.monitorStop) : Orderly t :=
  ⟨fun hshuts => absurd (ht.symm.trans hshuts) Bool.noConfusion, hstop.trans h.monitorStop⟩

/-- What the holder of the lock does is orderly. -/
theorem hold_orderly (htidy : Tidy s) (h : Orderly s) (hs : s.hold s.holder = some t) :
    Orderly t := by
  cases hholder : s.holder with
  | free =>
    rw [hholder] at hs
    cases hs
  | destroying cfg rest =>
    rw [hholder] at hs
    cases rest with
    | nil =>
      have hnone : All (fun _ dev => dev.worker = .none) s.tables.devices := by
        intro id dev hdev
        exact absurd (htidy.destroys _ _ hholder id (mem_of_lookup hdev)) List.not_mem_nil
      cases hs
      cases cfg with
      | none => exact ⟨fun _ => All.empty, h.monitorStop⟩
      | some cfg => exact ⟨fun _ => (Tables.fresh_load _ cfg hnone).queues, h.monitorStop⟩
    | cons deviceId rest =>
      have hopened : Holder.shuts (.destroying cfg rest) = false → s.Opened := by
        intro hshuts
        refine h.opened ?_
        rw [hholder]
        cases cfg <;> exact hshuts
      rcases Edge.destroyDevice_cases hs with ⟨dev, hdev, rfl⟩ | rfl
      · exact ⟨h.opened, h.monitorStop⟩
      · exact ⟨hopened, h.monitorStop⟩
  | starting rest =>
    have hopened := h.opened (by rw [hholder]; rfl)
    rw [hholder] at hs
    cases rest with
    | nil =>
      cases hs
      exact ⟨fun _ => hopened, h.monitorStop⟩
    | cons deviceId rest =>
      rcases Edge.startDevice_cases hs with ⟨dev, hdev, rfl | ⟨hq, rfl⟩⟩ | rfl
      · exact ⟨fun _ => hopened, h.monitorStop⟩
      · exact ⟨fun _ => hopened, h.monitorStop⟩
      · exact ⟨fun _ => hopened, h.monitorStop⟩
  | joiningSnapshot | joiningAction =>
    rw [hholder] at hs
    simp only [Edge.hold] at hs
    split at hs
    next => cases hs
    next =>
      cases hs
      exact h.of_shuts rfl rfl
  | stopping rest =>
    rw [hholder] at hs
    cases rest with
    | nil =>
      cases hs
      exact h.of_shuts rfl rfl
    | cons deviceId rest =>
      cases hs
      exact h.of_shuts rfl (by rw [(Edge.stopDevice_keeps s deviceId).rest])
  | closing rest =>
    rw [hholder] at hs
    cases rest with
    | nil =>
      cases hs
      exact h.of_shuts rfl rfl
    | cons deviceId rest =>
      cases hs
      exact h.of_shuts rfl (by rw [(Edge.closeQueue_keeps s deviceId).rest])
  | joining rest =>
    rw [hholder] at hs
    cases rest with
    | nil =>
      cases hs
      exact h.of_shuts rfl rfl
    | cons deviceId rest =>
      obtain ⟨u, hu, rfl⟩ := Option.map_eq_some_iff.1 hs
      exact h.of_shuts rfl (by rw [(Edge.joinDevice_keeps hu).rest])

/-- **Every step is orderly.** -/
theorem step_orderly (htidy : Tidy s) (h : Orderly s) {l : Label}
    (hs : step normalize s l = some t) : Orderly t := by
  have hquiet : l.quiet = true → Orderly t := by
    intro hl
    have hframe := step_frame htidy hl hs
    refine ⟨fun hshuts => ?_, hframe.monitorStop.trans h.monitorStop⟩
    rw [hframe.holder] at hshuts
    exact hframe.opened (h.opened hshuts)
  cases l with
  | submit | appendTask | setEStop | monitor | action | snapshot | device => exact hquiet rfl
  | init cfg =>
    obtain ⟨hfree, rfl⟩ := Edge.locked_some hs
    exact ⟨fun _ => h.opened (by rw [hfree]; rfl), h.monitorStop⟩
  | start order =>
    simp only [step] at hs
    split at hs
    next =>
      obtain ⟨hfree, rfl⟩ := Edge.locked_some hs
      unfold Edge.start
      split
      next =>
        obtain ⟨actionStop, action, snapshotStop, snapshot, heq⟩ := Edge.startThreads_rest s
        rw [heq]
        exact ⟨fun _ => h.opened (by rw [hfree]; rfl), startMonitor_monitorStop h.monitorStop⟩
      next => exact h
    next => cases hs
  | shutdown =>
    obtain ⟨hfree, rfl⟩ := Edge.locked_some hs
    unfold Edge.shutdown
    split
    next => exact ⟨h.opened, h.monitorStop⟩
    next => exact ⟨fun hshuts => (by cases hshuts), h.monitorStop⟩
  | hold => exact hold_orderly htidy h hs

/-! ## From `Init` to the end of `Start` -/

/-- What holds since the settings are read goes on with the edge. -/
theorem Kept.frame (h : Kept cfg s₀ s) (hf : Frame s t)
    (hm : t.monitor = s.monitor ∨ (∃ p, s.monitor = .running p) ∧ ∃ q, t.monitor = .running q) :
    Kept cfg s₀ t where
  self := by rw [hf.settings, h.self]
  opened := hf.opened h.opened
  monitorStop := hf.monitorStop.trans h.monitorStop
  monitor := by
    rcases hm with hm | ⟨⟨p, hp⟩, q, hq⟩
    · rw [hm, h.monitor]
    · rw [← h.monitor, hp, hq]
      exact ⟨fun heq => (by cases heq), fun heq => by cases heq⟩

/-- What holds since the tables are filled goes on with the edge. -/
theorem Loaded.frame (h : Loaded cfg s₀ s) (hf : Frame s t)
    (hm : t.monitor = s.monitor ∨ (∃ p, s.monitor = .running p) ∧ ∃ q, t.monitor = .running q) :
    Loaded cfg s₀ t where
  toKept := h.toKept.frame hf hm
  queues deviceId := by rw [hf.queues, hf.settings, h.queues]
  devices deviceId := by rw [hf.devices, h.devices]

/-- The queue of the edge is there. -/
theorem Loaded.self_mem (h : Loaded cfg s₀ s) : s.settings.selfDeviceId ∈ s.tables.queues :=
  (h.queues _).2 (.inl rfl)

/-- The thread of the monitor is not taken away. -/
theorem monitor_started (hs : s.monitor ≠ .none)
    (hm : t.monitor = s.monitor ∨ (∃ p, s.monitor = .running p) ∧ ∃ q, t.monitor = .running q) :
    t.monitor ≠ .none := by
  rcases hm with hm | ⟨-, q, hq⟩
  · rw [hm]
    exact hs
  · rw [hq]
    exact fun heq => by cases heq

/-- What holds since the edge was started goes on with it. -/
theorem Up.frame (h : Up cfg s₀ s) (hf : Frame s t)
    (hm : t.monitor = s.monitor ∨ (∃ p, s.monitor = .running p) ∧ ∃ q, t.monitor = .running q) :
    Up cfg s₀ t where
  toLoaded := h.toLoaded.frame hf hm
  free := hf.holder.trans h.free
  runState := hf.runState.trans h.runState
  started := monitor_started h.started hm
  alive deviceId dev' hdev' := by
    obtain ⟨dev, hdev, halive⟩ := hf.alive h.opened deviceId dev' hdev'
    exact halive (h.alive deviceId dev hdev)

/-- A quiet step leaves the edge at its stage. -/
theorem Stage.quiet (htidy : Tidy s) (h : Stage cfg s₀ s) {l : Label} (hl : l.quiet = true)
    (hs : step normalize s l = some t) : Stage cfg s₀ t := by
  have hf := step_frame htidy hl hs
  cases h with
  | thrown free runState => exact .thrown (hf.holder.trans free) (hf.runState.trans runState)
  | clearing rest holder runState kept devices =>
    refine .clearing rest (hf.holder.trans holder) (hf.runState.trans runState) (kept.frame hf ?_)
      fun id hid => devices id ((hf.devices id).1 hid)
    refine step_monitor htidy kept.opened kept.monitorStop (fun free => ?_) hl hs
    rw [holder] at free
    cases free
  | ready free runState loaded =>
    have hm := step_monitor htidy loaded.opened loaded.monitorStop (fun _ => loaded.self_mem) hl hs
    exact .ready (hf.holder.trans free) (hf.runState.trans runState) (loaded.frame hf hm)
  | starting rest holder runState loaded started alive =>
    have hm := step_monitor htidy loaded.opened loaded.monitorStop (fun _ => loaded.self_mem) hl hs
    refine .starting rest (hf.holder.trans holder) (hf.runState.trans runState)
      (loaded.frame hf hm) (monitor_started started hm) fun id dev' hdev' hid => ?_
    obtain ⟨dev, hdev, halive⟩ := hf.alive loaded.opened id dev' hdev'
    exact halive (alive id dev hdev hid)
  | up h =>
    exact .up (h.frame hf
      (step_monitor htidy h.opened h.monitorStop (fun _ => h.self_mem) hl hs))

/-- After it has been started there is a monitor; it has ended if it had ended before. -/
theorem startMonitor_monitor (s : Edge) : s.startMonitor.monitor ≠ .none ∧
    (s.startMonitor.monitor = .exited ↔ s.monitor = .exited) := by
  unfold Edge.startMonitor
  split
  next hnone =>
    rw [hnone]
    exact ⟨fun heq => (by cases heq), fun heq => (by cases heq), fun heq => by cases heq⟩
  next hsome => exact ⟨hsome, Iff.rfl⟩

/-- `Start` gets to its devices after an `Init`; else it is rejected. -/
theorem Stage.start (h : Stage cfg s₀ s) (hfree : s.holder = .free) {order : List String}
    (horder : order.Perm s.tables.devices.keys) : Stage cfg s₀ (s.start order) := by
  have hrejected : s.runState ≠ .ready → s.start order = s := fun hrun => if_neg hrun
  cases h with
  | thrown free runState =>
    rw [hrejected (by rw [runState]; exact fun heq => by cases heq)]
    exact .thrown free runState
  | clearing rest holder =>
    rw [hfree] at holder
    cases holder
  | ready free runState loaded =>
    obtain ⟨actionStop, action, snapshotStop, snapshot, heq⟩ := Edge.startThreads_rest s
    obtain ⟨hstarted, hexited⟩ := startMonitor_monitor s
    rw [Edge.start, if_pos runState, heq]
    refine .starting order rfl runState ?_ hstarted fun id dev hdev hid => ?_
    · exact {
        self := loaded.self
        opened := loaded.opened
        monitorStop := startMonitor_monitorStop loaded.monitorStop
        monitor := hexited.trans loaded.monitor
        queues := loaded.queues
        devices := loaded.devices }
    · exact absurd (horder.mem_iff.2 (AList.mem_keys.1 (mem_of_lookup hdev))) hid
  | starting rest holder =>
    rw [hfree] at holder
    cases holder
  | up h =>
    rw [hrejected (by rw [h.runState]; exact fun heq => by cases heq)]
    exact .up h

/-- `Init` fills the tables after it has destroyed the devices. -/
theorem Kept.clear (h : Kept cfg s₀ s) (hdevices : ∀ deviceId, deviceId ∉ s.tables.devices) :
    Loaded cfg s₀ (s.clear (some cfg)) := by
  have hnone : All (fun _ dev => dev.worker = .none) s.tables.devices :=
    fun id _ hdev => absurd (mem_of_lookup hdev) (hdevices id)
  exact {
    self := h.self
    opened := (Tables.fresh_load _ cfg hnone).queues
    monitorStop := h.monitorStop
    monitor := h.monitor
    queues := fun _ => Tables.mem_queues_load
    devices := fun id => by
      refine Tables.mem_devices_load.trans ⟨fun hid => ?_, .inr⟩
      exact hid.resolve_left (hdevices id) }

/-- **The holder of the lock takes the edge from stage to stage.** -/
theorem Stage.hold (h : Stage cfg s₀ s) (hs : s.hold s.holder = some t) : Stage cfg s₀ t := by
  cases h with
  | thrown free | ready free =>
    rw [free] at hs
    cases hs
  | up h =>
    rw [h.free] at hs
    cases hs
  | clearing rest holder runState kept devices =>
    rw [holder] at hs
    cases rest with
    | nil =>
      cases hs
      exact .ready rfl rfl (kept.clear fun id hid => List.not_mem_nil (devices id hid))
    | cons deviceId rest =>
      rcases Edge.destroyDevice_cases hs with ⟨dev, hdev, rfl⟩ | rfl
      · refine .clearing (deviceId :: rest) holder runState ?_ fun id hid => ?_
        · exact ⟨kept.self, kept.opened, kept.monitorStop, kept.monitor⟩
        · exact devices id ((mem_insert_of_lookup hdev).1 hid)
      · refine .clearing rest rfl runState ?_ fun id hid => ?_
        · exact ⟨kept.self, kept.opened, kept.monitorStop, kept.monitor⟩
        · obtain ⟨hne, hid⟩ := AList.mem_erase.1 hid
          exact (List.mem_cons.1 (devices id hid)).resolve_left hne
  | starting rest holder runState loaded started alive =>
    rw [holder] at hs
    cases rest with
    | nil =>
      cases hs
      refine .up ⟨?_, rfl, rfl, started, ?_⟩
      · exact ⟨⟨loaded.self, loaded.opened, loaded.monitorStop, loaded.monitor⟩, loaded.queues,
          loaded.devices⟩
      · exact alive.mono fun _ _ halive => halive List.not_mem_nil
    | cons deviceId rest =>
      have hset : ∀ {dev dev₀ : Device}, s.tables.devices.lookup deviceId = some dev₀ →
          Loaded cfg s₀ (s.setDevice deviceId dev) := fun hdev =>
        ⟨⟨loaded.self, loaded.opened, loaded.monitorStop, loaded.monitor⟩, loaded.queues,
          fun id => (mem_insert_of_lookup hdev).trans (loaded.devices id)⟩
      rcases Edge.startDevice_cases hs with ⟨dev, hdev, rfl | ⟨hq, rfl⟩⟩ | rfl
      · exact .starting (deviceId :: rest) holder runState (hset hdev) started
          (alive.insert fun hid => absurd List.mem_cons_self hid)
      · have hloaded : Loaded cfg s₀ (s.setDevice deviceId { dev with
            stop := false, worker := .running .testing, queue := s.gen }) := hset hdev
        refine .starting rest rfl runState ?_ started ?_
        · exact ⟨⟨hloaded.self, hloaded.opened, hloaded.monitorStop, hloaded.monitor⟩,
            hloaded.queues, hloaded.devices⟩
        · refine All.insert_of_ne (fun id dev' hne hdev' hid => ?_) fun _ => ⟨⟨_, rfl⟩, rfl, rfl⟩
          refine alive id dev' hdev' fun hmem => hid ?_
          exact (List.mem_cons.1 hmem).resolve_left hne
      · refine .ready rfl runState ?_
        exact ⟨⟨loaded.self, loaded.opened, loaded.monitorStop, loaded.monitor⟩, loaded.queues,
          loaded.devices⟩

/-- Every step but `Init` and `Shutdown` keeps to the stages. -/
theorem Stage.step (htidy : Tidy s) (h : Stage cfg s₀ s) {l : Label} (hl : l.serves = true)
    (hs : Lifecycle.step normalize s l = some t) : Stage cfg s₀ t := by
  cases l with
  | init | shutdown => cases hl
  | submit | appendTask | setEStop | monitor | action | snapshot | device =>
    exact h.quiet htidy rfl hs
  | start order =>
    simp only [Lifecycle.step] at hs
    split at hs
    next horder =>
      obtain ⟨hfree, rfl⟩ := Edge.locked_some hs
      exact h.start hfree horder
    next => cases hs
  | hold => exact h.hold hs

/-- An `Init` is the first of the stages. -/
theorem Stage.init (h : Orderly s) (hfree : s.holder = .free) (cfg : Json) :
    Stage cfg s (s.init cfg) := by
  have hopened : s.Opened := h.opened (by rw [hfree]; rfl)
  cases hread : (s.settings.read cfg).2 with
  | false => exact .thrown (by simp [Edge.init, hread]) rfl
  | true =>
    refine .clearing s.tables.devices.keys (by simp [Edge.init, hread]) rfl ?_
      fun id hid => AList.mem_keys.1 hid
    exact ⟨rfl, hopened, h.monitorStop, Iff.rfl⟩

/-- Every run from a new edge is tidy and orderly. -/
theorem orderly_of_run {ls : List Label} (h : run (step normalize) {} ls = some s) :
    Tidy s ∧ Orderly s :=
  run_invariant (P := fun s => Tidy s ∧ Orderly s)
    (fun _ _ _ hs hstep => ⟨step_tidy hs.1 hstep, step_orderly hs.1 hs.2 hstep⟩)
    ⟨tidy_init, fun _ => All.empty, rfl⟩ h

/-- **What `Init` and `Start` come to.** An edge that has been initialised, whatever it has done
before, and then started with success. -/
theorem up_of_run {ls₀ ls : List Label} (h₀ : run (step normalize) {} ls₀ = some s₀)
    (h : run (step normalize) s₀ (.init cfg :: ls) = some t)
    (hserves : ∀ l ∈ ls, l.serves = true) (hrun : t.runState = .running) :
    Tidy t ∧ Up cfg s₀ t := by
  obtain ⟨htidy, horderly⟩ := orderly_of_run h₀
  rw [run_cons] at h
  obtain ⟨s, hinit, hls⟩ := Option.bind_eq_some_iff.1 h
  have htidy' := step_tidy htidy hinit
  obtain ⟨hfree₀, rfl⟩ := Edge.locked_some hinit
  obtain ⟨ht, hstage⟩ := run_along (P := fun s => Tidy s ∧ Stage cfg s₀ s)
    (fun _ _ _ hl hs hstep => ⟨step_tidy hs.1 hstep, hs.2.step hs.1 hl hstep⟩)
    ⟨htidy', Stage.init horderly hfree₀ cfg⟩ (along_of_forall hserves _) hls
  refine ⟨ht, ?_⟩
  cases hstage with
  | thrown _ runState | clearing _ _ runState | ready _ runState | starting _ _ runState =>
    rw [hrun] at runState
    cases runState
  | up h => exact h

/-! ## The consumers -/

/-- In an edge that is up each device takes tasks from the queue of its id. -/
theorem Up.deviceConsumes_iff (h : Up cfg s₀ s) :
    s.deviceConsumes deviceId = true ↔ deviceId ∈ s.tables.devices := by
  unfold Edge.deviceConsumes
  constructor
  · intro hc
    split at hc
    next hdev => exact mem_of_lookup hdev
    next => cases hc
  · intro hmem
    obtain ⟨dev, hdev⟩ := exists_lookup hmem
    obtain ⟨⟨p, hp⟩, -, hq⟩ := h.alive _ _ hdev
    obtain ⟨hasControl, stop, worker, queue⟩ := dev
    cases hp
    rw [hdev]
    exact decide_eq_true hq

/-- In an edge that is up the monitor takes tasks from the edge's own queue, unless it had ended
before. -/
theorem Up.monitorConsumes_iff (h : Up cfg s₀ s) :
    s.monitorConsumes deviceId = true ↔
      deviceId = s.settings.selfDeviceId ∧ s₀.monitor ≠ .exited := by
  rw [Ne, ← h.monitor, Edge.monitorConsumes]
  cases hm : s.monitor with
  | none => exact absurd hm h.started
  | running p => simp
  | exited => simp

/-- There is one consumer where there is a device or the monitor, and not both. -/
theorem Up.consumers_iff (h : Up cfg s₀ s) : s.consumers deviceId = 1 ↔
    ¬ (deviceId ∈ s.tables.devices ↔
      deviceId = s.settings.selfDeviceId ∧ s₀.monitor ≠ .exited) := by
  rw [← h.deviceConsumes_iff, ← h.monitorConsumes_iff, Edge.consumers]
  cases s.deviceConsumes deviceId <;> cases s.monitorConsumes deviceId <;> simp

/-- Where the edge shares no id with a device, and every other queue has its device, the tasks are
counted once. -/
theorem Up.counted (h : Up cfg s₀ s) (hself : s.settings.selfDeviceId ∉ s.tables.devices)
    (hothers : ∀ deviceId, deviceId ∈ s.tables.queues → deviceId ≠ s.settings.selfDeviceId →
      deviceId ∈ s.tables.devices) : s.tasksPendingTotal = s.queued := by
  rw [Edge.tasksPendingTotal, Edge.queued, Nat.add_comm]
  refine (sum_keys_of_cons hself (fun id => ⟨fun hid => ?_, fun hid => ?_⟩) s.pending).symm
  · by_cases heq : id = s.settings.selfDeviceId
    · exact .inl heq
    · exact .inr (hothers id hid heq)
  · rcases hid with rfl | hid
    · exact h.self_mem
    · obtain ⟨dcfg, hdcfg, hcreates⟩ := (h.devices id).1 hid
      exact (h.queues id).2 (.inr ⟨dcfg, hdcfg, hcreates.names⟩)

/-- Where the edge shares its id, its tasks are counted twice. -/
theorem Up.counted_twice (h : Up cfg s₀ s) (hself : s.settings.selfDeviceId ∈ s.tables.devices)
    (hothers : ∀ deviceId, deviceId ∈ s.tables.queues → deviceId ≠ s.settings.selfDeviceId →
      deviceId ∈ s.tables.devices) :
    s.tasksPendingTotal = s.queued + s.pending s.settings.selfDeviceId := by
  rw [Edge.tasksPendingTotal, Edge.queued]
  congr 1
  refine sum_keys (fun id => ⟨fun hid => ?_, fun hid => ?_⟩) s.pending
  · obtain ⟨dcfg, hdcfg, hcreates⟩ := (h.devices id).1 hid
    exact (h.queues id).2 (.inr ⟨dcfg, hdcfg, hcreates.names⟩)
  · by_cases heq : id = s.settings.selfDeviceId
    · rw [heq]
      exact hself
    · exact hothers id hid heq

/-- A call that reports success has found its queue. -/
theorem accepts_pushes {l : Label} (h : accepts normalize s l = some deviceId) :
    deviceId ≠ "" ∧ deviceId ∈ s.tables.queues ∧ l.quiet = true := by
  cases l with
  | submit cmd =>
    simp only [accepts] at h
    rcases BaseEdge.submit_pushes normalize s.gate s.queues cmd with
      ⟨r, hr, hok, -, hid, q, task, hq, -⟩ | ⟨-, hno⟩
    · rw [hr] at h
      simp only [hok, if_true] at h
      cases h
      exact ⟨hid, mem_of_lookup hq, rfl⟩
    · split at h
      next r hr =>
        rw [if_neg (hno r hr)] at h
        cases h
      next => cases h
  | appendTask task =>
    simp only [accepts] at h
    rcases BaseEdge.appendTask_pushes s.queues task with ⟨hok, hid, q, task', hq, -⟩ | hno
    · rw [if_pos hok] at h
      cases h
      exact ⟨hid, mem_of_lookup hq, rfl⟩
    · rw [hno] at h
      cases h
  | init | start | shutdown | setEStop | hold | monitor | action | snapshot | device => cases h

/-- **Every step but `Init` and `Shutdown` keeps the edge up.** -/
theorem Up.step (htidy : Tidy s) (h : Up cfg s₀ s) {l : Label} (hl : l.serves = true)
    (hs : Lifecycle.step normalize s l = some t) : Up cfg s₀ t := by
  have hquiet : l.quiet = true → Up cfg s₀ t := fun hl =>
    h.frame (step_frame htidy hl hs)
      (step_monitor htidy h.opened h.monitorStop (fun _ => h.self_mem) hl hs)
  cases l with
  | init | shutdown => cases hl
  | submit | appendTask | setEStop | monitor | action | snapshot | device => exact hquiet rfl
  | start order =>
    simp only [Lifecycle.step] at hs
    split at hs
    next =>
      obtain ⟨-, rfl⟩ := Edge.locked_some hs
      have hready : s.runState ≠ .ready := by
        rw [h.runState]
        exact fun heq => by cases heq
      rw [Edge.start, if_neg hready]
      exact h
    next => cases hs
  | hold =>
    simp only [Lifecycle.step, h.free] at hs
    cases hs

/-- An open queue takes what is appended. -/
theorem Up.appends (normalize : Normalize) (h : Up cfg s₀ s) (hid : deviceId ≠ "")
    (hmem : deviceId ∈ s.tables.queues) :
    ∃ t, Lifecycle.step normalize s (.appendTask { deviceId }) = some t ∧
      accepts normalize s (.appendTask { deviceId }) = some deviceId ∧ 0 < t.pending deviceId := by
  obtain ⟨q, hq⟩ := exists_lookup hmem
  have hopen := h.opened _ _ hq
  have hchange : BaseEdge.appendTask s.queues { deviceId } =
      (true, some (deviceId, q.push { deviceId })) := by
    simp [BaseEdge.appendTask, BaseEdge.appendTaskToQueueLocked, Edge.queues, hid, hq, hopen]
  refine ⟨_, Edge.locked_of_free h.free, ?_, ?_⟩
  · rw [accepts, hchange]
    rfl
  · rw [hchange]
    simp only [Edge.enter, Edge.pending, Edge.setQueue, AList.lookup_insert]
    rw [TaskQueue.push_of_open hopen]
    simp

/-- An edge that is up serves its queues if its configuration can be served. -/
theorem Up.served (htidy : Tidy s) (h : Up cfg s₀ s) (hc : Consumable cfg s₀) :
    Served normalize s := by
  intro ls t hls hrun
  obtain ⟨htidy, h⟩ := run_along (P := fun s => Tidy s ∧ Up cfg s₀ s)
    (fun _ _ _ hl hs hstep => ⟨step_tidy hs.1 hstep, hs.2.step hs.1 hl hstep⟩)
    ⟨htidy, h⟩ (along_of_forall hls s) hrun
  have hself : ∀ {u}, Up cfg s₀ u → u.settings.selfDeviceId ∉ u.tables.devices := by
    intro u hu hmem
    obtain ⟨dcfg, hdcfg, hcreates⟩ := (hu.devices _).1 hmem
    rw [hu.self] at hcreates
    exact hc.unshared dcfg hdcfg hcreates
  have hothers : ∀ {u}, Up cfg s₀ u → ∀ deviceId, deviceId ∈ u.tables.queues →
      deviceId ≠ u.settings.selfDeviceId → deviceId ∈ u.tables.devices := by
    intro u hu deviceId hmem hne
    obtain ⟨dcfg, hdcfg, hnames⟩ := ((hu.queues _).1 hmem).resolve_left hne
    rw [hu.self] at hne
    exact (hu.devices _).2 (hc.created dcfg hdcfg deviceId hnames hne)
  refine ⟨h.counted (hself h) (hothers h), fun l u deviceId hstep hacc => ?_⟩
  obtain ⟨hid, hmem, hquiet⟩ := accepts_pushes hacc
  have hframe := step_frame htidy hquiet hstep
  have hu : Up cfg s₀ u := h.frame hframe
    (step_monitor htidy h.opened h.monitorStop (fun _ => h.self_mem) hquiet hstep)
  rw [← hframe.queues] at hmem
  rw [hu.consumers_iff]
  intro hboth
  by_cases heq : deviceId = u.settings.selfDeviceId
  · have hmonitor : s₀.monitor ≠ .exited := by
      refine hc.monitored ?_
      rw [← hu.self, ← heq]
      exact hid
    exact hself hu (heq ▸ hboth.2 ⟨heq, hmonitor⟩)
  · exact heq (hboth.1 (hothers hu deviceId hmem heq)).1

/-- An edge that is up serves its queues only if its configuration can be served. -/
theorem Up.consumable (htidy : Tidy s) (h : Up cfg s₀ s) (hserved : Served normalize s) :
    Consumable cfg s₀ := by
  -- a task is appended to the queue
  have happend : ∀ deviceId, deviceId ≠ "" → deviceId ∈ s.tables.queues → ∃ t, Up cfg s₀ t ∧
      t.tasksPendingTotal = t.queued ∧ 0 < t.pending deviceId ∧
      ¬ (deviceId ∈ t.tables.devices ↔
        deviceId = t.settings.selfDeviceId ∧ s₀.monitor ≠ .exited) := by
    intro deviceId hid hmem
    obtain ⟨t, hstep, hacc, hpending⟩ := h.appends normalize hid hmem
    have ht := h.step htidy rfl hstep
    have hrun : run (Lifecycle.step normalize) s [.appendTask { deviceId }] = some t := by
      rw [run_cons, hstep]
      rfl
    refine ⟨t, ht, (hserved _ t (fun l hl => ?_) hrun).1, hpending, ht.consumers_iff.1 ?_⟩
    · rw [List.mem_singleton.1 hl]
      rfl
    · exact (hserved [] s (fun _ hl => absurd hl List.not_mem_nil) rfl).2 _ t deviceId hstep hacc
  have hcreated : ∀ dcfg ∈ items cfg, ∀ deviceId, Tables.Names deviceId dcfg →
      deviceId ≠ (s₀.settings.read cfg).1.selfDeviceId →
      ∃ dcfg' ∈ items cfg, Tables.Creates deviceId dcfg' := by
    intro dcfg hdcfg deviceId hnames hne
    have hmem := (h.queues deviceId).2 (.inr ⟨dcfg, hdcfg, hnames⟩)
    obtain ⟨t, ht, -, -, hone⟩ := happend deviceId hnames.ne_empty hmem
    rw [ht.self, ht.devices] at hone
    by_contra hno
    exact hone ⟨fun hmem => absurd hmem hno, fun hself => absurd hself.1 hne⟩
  have hunshared : ∀ dcfg ∈ items cfg,
      ¬ Tables.Creates (s₀.settings.read cfg).1.selfDeviceId dcfg := by
    intro dcfg hdcfg hcreates
    have hid := hcreates.names.ne_empty
    rw [← h.self] at hid
    obtain ⟨t, ht, htotal, hpending, -⟩ := happend _ hid h.self_mem
    have hself : t.settings.selfDeviceId ∈ t.tables.devices := by
      rw [ht.devices, ht.self]
      exact ⟨dcfg, hdcfg, hcreates⟩
    have htwice := ht.counted_twice hself fun deviceId hmem hne => by
      obtain ⟨dcfg', hdcfg', hnames⟩ := ((ht.queues _).1 hmem).resolve_left hne
      rw [ht.self] at hne
      exact (ht.devices _).2 (hcreated dcfg' hdcfg' deviceId hnames hne)
    rw [h.self, ← ht.self] at hpending
    omega
  refine ⟨hcreated, hunshared, fun hid hexited => ?_⟩
  rw [← h.self] at hid
  obtain ⟨t, ht, -, -, hone⟩ := happend _ hid h.self_mem
  refine hone ⟨fun hmem => ?_, fun hself => absurd hexited hself.2⟩
  obtain ⟨dcfg, hdcfg, hcreates⟩ := (ht.devices _).1 hmem
  rw [h.self] at hcreates
  exact absurd hcreates (hunshared dcfg hdcfg)

/-- **Every task that is accepted has one consumer and is counted once, if and only if** the
configuration has a device for every other id, none for that of the edge, and the monitor has not
exited before: in every run in which an edge is initialised with it and then started. -/
theorem consumed_iff {ls₀ ls : List Label} (h₀ : run (step normalize) {} ls₀ = some s₀)
    (h : run (step normalize) s₀ (.init cfg :: ls) = some t)
    (hserves : ∀ l ∈ ls, l.serves = true) (hrun : t.runState = .running) :
    Served normalize t ↔ Consumable cfg s₀ := by
  obtain ⟨htidy, hup⟩ := up_of_run h₀ h hserves hrun
  exact ⟨hup.consumable htidy, hup.served htidy⟩

/-! ## Runs -/

/-- The item of `oneDevice`. -/
theorem described_oneDevice : ∀ dcfg ∈ items oneDevice,
    described dcfg = some ("uuv-1", "uuv") ∧ (MyDevice.create "uuv" dcfg).isSome = true := by
  intro dcfg hdcfg
  rw [List.mem_singleton.1 hdcfg]
  exact ⟨rfl, rfl⟩

/-- An edge of one device is started, with its self-actions enabled, and serves both of its
queues. -/
theorem consumed_iff_oneDevice :
    ∃ t, run (step noNormalize) {} [.init oneDevice, .hold, .start ["uuv-1"], .hold, .hold] =
      some t ∧
      t.runState = .running ∧ t.settings.selfActionEnable = true ∧
      Consumable oneDevice {} ∧ (Served noNormalize t ↔ Consumable oneDevice {}) := by
  have hrun : run (step noNormalize) {}
    [.init oneDevice, .hold, .start ["uuv-1"], .hold, .hold] = some _ := rfl
  have hself : (({} : Edge).settings.read oneDevice).1.selfDeviceId = "self" := rfl
  refine ⟨_, hrun, rfl, rfl, ⟨?_, ?_, ?_⟩,
    consumed_iff (show run (step noNormalize) {} [] = some {} from rfl) hrun (by decide) rfl⟩
  · intro dcfg hdcfg deviceId hnames _
    obtain ⟨hd, hcreate⟩ := described_oneDevice dcfg hdcfg
    exact ⟨dcfg, hdcfg, (Tables.creates_iff hd).2 ⟨(Tables.names_iff hd).1 hnames, hcreate⟩⟩
  · intro dcfg hdcfg hcreates
    obtain ⟨hd, -⟩ := described_oneDevice dcfg hdcfg
    have hid := ((Tables.creates_iff hd).1 hcreates).1
    rw [hself] at hid
    exact absurd hid (by decide)
  · exact fun _ hexited => by cases hexited

/-- An item of a type that `MyDevice::Create` does not know. -/
def unknownType : Json :=
  .object [("devices",
    .array [.object [("device_id", .string "arm-1"), ("type", .string "robot_arm")]])]

/-- A task for it is accepted, and nobody takes it. -/
theorem not_served :
    ¬ ∀ (normalize : Normalize) (cfg : Json) (ls : List Label) (t : Edge),
      run (step normalize) {} (.init cfg :: ls) = some t → (∀ l ∈ ls, l.serves = true) →
      t.runState = .running → t.settings.selfActionEnable = true → Served normalize t := by
  intro h
  have hserved := h noNormalize unknownType [.hold, .start [], .hold] _ rfl (by decide) rfl rfl
  have hone := (hserved [] _ (fun _ hl => absurd hl List.not_mem_nil) rfl).2
    (.appendTask { taskId := "a", deviceId := "arm-1" }) _ "arm-1" rfl rfl
  cases hone

end Lifecycle

end MyEdge
