import FastCppServer.Edge.Lifecycle

/-!
# What is left after `Shutdown`

`Shutdown` joins the snapshot thread, the self-action thread and the devices before it clears the
queues, and so does `Init` with the devices. But nothing joins the monitor: its function for that,
`StopSelfTaskMonitorThreadLocked`, has no caller. So the monitor is still there when `Shutdown`
returns, and since it waits in `PopBlocking` without the lock, the queue it waits for is destroyed
under it, by `Shutdown` or by the next `Init`.

Neither happens where a `Shutdown` gets to work only if no `Start` has started the monitor, and
where `Init` clears the queues while the monitor has no pointer to one (`Careful`). Everything else
is kept in any case (`Tidy`).
-/

namespace MyEdge

namespace Lifecycle

open Dict Transition MyData MyControl

/-- Between its look at the queues and the end of `PopBlocking`. -/
def Edge.monitorPtr (s : Edge) : Option QueuePtr :=
  match s.monitor with
  | .running p => p.ptr
  | _ => none

/-- The next thing that the holder of the lock does is to clear the queues. -/
def Edge.clears (s : Edge) : Bool :=
  match s.holder with
  | .destroying _ [] => true
  | _ => false

/-- A `Shutdown` goes on only if the monitor has not been started, and the queues are cleared while
it has no pointer to one. -/
def Careful (s : Edge) : Label → Prop
  | .shutdown => s.runState = .stopped ∨ s.runState = .stopping ∨ s.monitor = .none
  | .hold => s.clears = true → s.monitorPtr = none
  | _ => True

instance (s : Edge) : ∀ l, Decidable (Careful s l)
  | .shutdown =>
    inferInstanceAs (Decidable (s.runState = .stopped ∨ s.runState = .stopping ∨ s.monitor = .none))
  | .hold => inferInstanceAs (Decidable (s.clears = true → s.monitorPtr = none))
  | .init _ | .start _ | .submit _ | .appendTask _ | .setEStop _ _ | .monitor _ | .action |
    .snapshot | .device _ => isTrue trivial

/-- No thread of the edge is left after a `Shutdown`, nor one of a device, and no queue has been
used after its end. -/
structure Safe (s : Edge) : Prop where
  monitor : s.returned = true → s.monitor = .none
  action : s.returned = true → s.action = .none
  snapshot : s.returned = true → s.snapshot = .none
  devices : s.returned = true → All (fun _ dev => ∀ p, dev.worker ≠ .running p) s.tables.devices
  uses : s.misuses = []

/-! ## What is kept -/

/-- It is in `Shutdown`. -/
def Holder.shuts : Holder → Bool
  | destroying none _ | joiningSnapshot | joiningAction | stopping _ | closing _ | joining _ => true
  | _ => false

/-- It is in `Shutdown`, after the two threads of the edge have been joined. -/
def Holder.hasJoined : Holder → Bool
  | destroying none _ | stopping _ | closing _ | joining _ => true
  | _ => false

/-- Who has joined the threads is in a `Shutdown`. -/
theorem Holder.shuts_of_hasJoined {holder : Holder} (h : holder.hasJoined = true) :
    holder.shuts = true := by
  unfold Holder.hasJoined at h
  split at h
  case h_5 => cases h
  all_goals rfl

/-- **What every step keeps**: a device uses its own queue, what has to be destroyed will be, and no
thread but the monitor outlives a `Shutdown` or uses what is no more. -/
structure Tidy (s : Edge) : Prop where
  /-- A device runs with a queue that is there. -/
  uses : All (fun deviceId dev => ∀ p, dev.worker = .running p → s.Live ⟨dev.queue, deviceId⟩)
    s.tables.devices
  /-- `devices_.clear()` comes to every device. -/
  destroys : ∀ cfg rest, s.holder = .destroying cfg rest →
    ∀ deviceId, deviceId ∈ s.tables.devices → deviceId ∈ rest
  rests : s.returned = true → s.action = .none ∧ s.snapshot = .none ∧
    All (fun _ dev => ∀ p, dev.worker ≠ .running p) s.tables.devices
  starts : ∀ rest, s.holder = .starting rest → s.returned = false
  joinsSnapshot : s.holder = .joiningAction → s.snapshot = .none
  joins : s.holder.hasJoined = true → s.action = .none ∧ s.snapshot = .none
  stopped : s.runState = .stopped → s.returned = true
  stopping : s.runState = .stopping → s.holder.shuts = true
  /-- Only the monitor uses what is no more. -/
  misuses : ∀ w ∈ s.misuses, w = .monitor

variable {normalize : Normalize} {s t : Edge} {deviceId : String}

/-- A new edge has no device and no thread. -/
theorem tidy_init : Tidy {} where
  uses := All.empty
  destroys _ _ h := by cases h
  rests h := by cases h
  starts _ h := by cases h
  joinsSnapshot h := by cases h
  joins h := by cases h
  stopped h := by cases h
  stopping h := by cases h
  misuses _ h := by cases h

/-! ## The parts of a step -/

/-- A queue changes. -/
theorem Tidy.setQueue (h : Tidy s) {q₀ : TaskQueue} (hq : s.queues deviceId = some q₀)
    (q : TaskQueue) : Tidy (s.setQueue deviceId q) where
  uses := h.uses.mono fun _ _ hlive p hp =>
    ⟨(hlive p hp).1, (mem_insert_of_lookup hq).2 (hlive p hp).2⟩
  destroys := h.destroys
  rests := h.rests
  starts := h.starts
  joinsSnapshot := h.joinsSnapshot
  joins := h.joins
  stopped := h.stopped
  stopping := h.stopping
  misuses := h.misuses

/-- A device changes. -/
theorem Tidy.setDevice (h : Tidy s) {dev₀ dev : Device}
    (hdev : s.tables.devices.lookup deviceId = some dev₀)
    (hlive : ∀ p, dev.worker = .running p → s.Live ⟨dev.queue, deviceId⟩)
    (hrest : s.returned = true → ∀ p, dev.worker ≠ .running p) :
    Tidy (s.setDevice deviceId dev) where
  uses := h.uses.insert hlive
  destroys cfg rest hholder id hid :=
    h.destroys cfg rest hholder id ((mem_insert_of_lookup hdev).1 hid)
  rests hret := ⟨(h.rests hret).1, (h.rests hret).2.1, (h.rests hret).2.2.insert (hrest hret)⟩
  starts := h.starts
  joinsSnapshot := h.joinsSnapshot
  joins := h.joins
  stopped := h.stopped
  stopping := h.stopping
  misuses := h.misuses

/-- It is kept whatever the monitor does. -/
theorem Tidy.setMonitor (h : Tidy s) (m : Thread Monitor) {misuses : List Party}
    (hmisuses : ∀ w ∈ misuses, w = .monitor) : Tidy { s with monitor := m, misuses } where
  uses := h.uses
  destroys := h.destroys
  rests := h.rests
  starts := h.starts
  joinsSnapshot := h.joinsSnapshot
  joins := h.joins
  stopped := h.stopped
  stopping := h.stopping
  misuses := hmisuses

/-- A thread that runs has not been joined. -/
theorem Tidy.setAction (h : Tidy s) {p : Action} (hp : s.action = .running p) (a : Thread Action) :
    Tidy { s with action := a } where
  uses := h.uses
  destroys := h.destroys
  rests hret := by
    have hnone := (h.rests hret).1
    rw [hp] at hnone
    cases hnone
  starts := h.starts
  joinsSnapshot := h.joinsSnapshot
  joins hj := by
    have hnone := (h.joins hj).1
    rw [hp] at hnone
    cases hnone
  stopped := h.stopped
  stopping := h.stopping
  misuses := h.misuses

/-- It is kept whatever the snapshot thread does. -/
theorem Tidy.setSnapshot (h : Tidy s) {p : Snapshot} (hp : s.snapshot = .running p)
    (a : Thread Snapshot) : Tidy { s with snapshot := a } where
  uses := h.uses
  destroys := h.destroys
  rests hret := by
    have hnone := (h.rests hret).2.1
    rw [hp] at hnone
    cases hnone
  starts := h.starts
  joinsSnapshot hj := by
    have hnone := h.joinsSnapshot hj
    rw [hp] at hnone
    cases hnone
  joins hj := by
    have hnone := (h.joins hj).2
    rw [hp] at hnone
    cases hnone
  stopped := h.stopped
  stopping := h.stopping
  misuses := h.misuses

/-- What an entry point does. -/
theorem Tidy.enter (h : Tidy s) {change : Change}
    (hchange : change = none ∨ ∃ deviceId, BaseEdge.Pushes s.queues deviceId change) :
    Tidy (s.enter change) := by
  rcases hchange with rfl | ⟨deviceId, -, q, task, hq, -, rfl⟩
  · exact h
  · exact h.setQueue hq _

/-- The holder of the lock goes on to its next section. -/
theorem Tidy.setHolder (h : Tidy s) {holder : Holder}
    (hdestroys : ∀ cfg rest, holder = .destroying cfg rest →
      ∀ deviceId, deviceId ∈ s.tables.devices → deviceId ∈ rest)
    (hstarts : ∀ rest, holder = .starting rest → s.returned = false)
    (hjoinsSnapshot : holder = .joiningAction → s.snapshot = .none)
    (hjoins : holder.hasJoined = true → s.action = .none ∧ s.snapshot = .none)
    (hstopping : s.holder.shuts = true → holder.shuts = true) : Tidy { s with holder } where
  uses := h.uses
  destroys := hdestroys
  rests := h.rests
  starts := hstarts
  joinsSnapshot := hjoinsSnapshot
  joins := hjoins
  stopped := h.stopped
  stopping hrun := hstopping (h.stopping hrun)
  misuses := h.misuses

/-! ## The threads -/

/-- A step of the monitor keeps it. -/
theorem monitorStep_tidy (h : Tidy s) {runOver : Bool} {p : Monitor}
    (hs : s.monitorStep runOver p = some t) : Tidy t := by
  have hmisuses : ∀ w ∈ s.misuses ++ [Party.monitor], w = .monitor := by
    intro w hw
    rcases List.mem_append.1 hw with hw | hw
    · exact h.misuses w hw
    · exact List.mem_singleton.1 hw
  cases p with
  | testing | fetching | sleeping =>
    cases hs
    exact h.setMonitor _ h.misuses
  | looking =>
    obtain ⟨-, rfl⟩ := Edge.locked_some hs
    exact h.setMonitor _ h.misuses
  | asking q =>
    simp only [Edge.monitorStep] at hs
    split at hs
    next =>
      cases hs
      exact h.setMonitor _ hmisuses
    next =>
      cases hs
      exact h.setMonitor _ h.misuses
  | popping q =>
    simp only [Edge.monitorStep] at hs
    split at hs
    next =>
      cases hs
      exact h.setMonitor _ hmisuses
    next hq =>
      split at hs
      next =>
        cases hs
        exact h.setMonitor _ h.misuses
      next =>
        cases hs
        exact (h.setQueue (Edge.lookup_of_deref hq) _).setMonitor _ h.misuses

/-- A device that runs has found its queue to be there. -/
theorem workerStep_tidy (h : Tidy s) {dev : Device} {p : Worker}
    (hdev : s.tables.devices.lookup deviceId = some dev) (hp : dev.worker = .running p) :
    Tidy (s.workerStep deviceId dev p) := by
  have hlive := h.uses _ _ hdev p hp
  have hset : ∀ w, Tidy (s.setDevice deviceId { dev with worker := w }) := fun w =>
    h.setDevice hdev (fun _ _ => hlive) fun hret => absurd hp ((h.rests hret).2.2 _ _ hdev p)
  obtain ⟨q, hq, hderef⟩ := hlive.deref
  cases p with
  | testing | checking | working => exact hset _
  | popping =>
    simp only [Edge.workerStep, hderef]
    split
    next => exact hset _
    next =>
      refine (h.setQueue hq _).setDevice hdev (fun _ _ => ?_) fun hret =>
        absurd hp ((h.rests hret).2.2 _ _ hdev _)
      exact ⟨hlive.1, (mem_insert_of_lookup hq).2 hlive.2⟩
  | missed =>
    simp only [Edge.workerStep, hderef]
    exact hset _

/-! ## The holder of the lock -/

/-- A device is told to stop. -/
theorem Tidy.setStop (h : Tidy s) {dev : Device}
    (hdev : s.tables.devices.lookup deviceId = some dev) :
    Tidy (s.setDevice deviceId { dev with stop := true }) := by
  have huses := h.uses _ _ hdev
  exact h.setDevice hdev huses fun hret => (h.rests hret).2.2 deviceId dev hdev

/-- Destroying a device keeps it. -/
theorem destroyDevice_tidy (h : Tidy s) {cfg : Option Json} {rest : List String}
    (hholder : s.holder = .destroying cfg (deviceId :: rest))
    (hs : s.destroyDevice cfg deviceId rest = some t) : Tidy t := by
  rcases Edge.destroyDevice_cases hs with ⟨dev, hdev, rfl⟩ | rfl
  · exact h.setStop hdev
  · exact {
      uses := h.uses.erase
      destroys := by
        intro cfg' rest' heq id hid
        cases heq
        obtain ⟨hne, hid⟩ := AList.mem_erase.1 hid
        exact (List.mem_cons.1 (h.destroys _ _ hholder id hid)).resolve_left hne
      rests := fun hret => ⟨(h.rests hret).1, (h.rests hret).2.1, (h.rests hret).2.2.erase⟩
      starts := fun _ heq => by cases heq
      joinsSnapshot := fun heq => by cases heq
      joins := by
        intro hj
        refine h.joins ?_
        rw [hholder]
        cases cfg <;> exact hj
      stopped := h.stopped
      stopping := by
        intro hrun
        have hshuts := h.stopping hrun
        rw [hholder] at hshuts
        cases cfg <;> exact hshuts
      misuses := h.misuses }

/-- The queues are destroyed after the devices. -/
theorem clear_tidy (h : Tidy s) {cfg : Option Json} (hholder : s.holder = .destroying cfg []) :
    Tidy (s.clear cfg) := by
  have hnone : ∀ {P : String → Device → Prop}, All P s.tables.devices := by
    intro P id dev hdev
    exact absurd (h.destroys _ _ hholder id (mem_of_lookup hdev)) List.not_mem_nil
  cases cfg with
  | none =>
    have hj := h.joins (by rw [hholder]; rfl)
    exact {
      uses := hnone
      destroys := fun _ _ heq => by cases heq
      rests := fun _ => ⟨hj.1, hj.2, hnone⟩
      starts := fun _ heq => by cases heq
      joinsSnapshot := fun heq => by cases heq
      joins := fun heq => by cases heq
      stopped := fun _ => rfl
      stopping := fun heq => by cases heq
      misuses := h.misuses }
  | some cfg =>
    have hfresh := Tables.fresh_load s.settings.selfDeviceId cfg hnone
    have hidle : All (fun _ dev => ∀ p, dev.worker ≠ .running p)
        (Tables.load s.settings.selfDeviceId cfg s.tables.devices).devices :=
      hfresh.devices.mono fun _ _ hw p hp => by
        rw [hw] at hp
        cases hp
    exact {
      uses := hidle.mono fun _ _ hw p hp => absurd hp (hw p)
      destroys := fun _ _ heq => by cases heq
      rests := fun hret => ⟨(h.rests hret).1, (h.rests hret).2.1, hidle⟩
      starts := fun _ heq => by cases heq
      joinsSnapshot := fun heq => by cases heq
      joins := fun heq => by cases heq
      stopped := fun heq => by cases heq
      stopping := fun heq => by cases heq
      misuses := h.misuses }

/-- A device is started with a queue that is there. -/
theorem startDevice_tidy (h : Tidy s) {rest : List String}
    (hholder : s.holder = .starting (deviceId :: rest))
    (hs : s.startDevice deviceId rest = some t) : Tidy t := by
  have hret := h.starts _ hholder
  have hshuts : s.holder.shuts ≠ true := by
    rw [hholder]
    exact fun heq => by cases heq
  rcases Edge.startDevice_cases hs with ⟨dev, hdev, rfl | ⟨hq, rfl⟩⟩ | rfl
  · exact h.setStop hdev
  · have hset : Tidy (s.setDevice deviceId { dev with
        stop := false, worker := .running .testing, queue := s.gen }) := by
      refine h.setDevice hdev (fun _ _ => ⟨rfl, hq⟩) fun hret' => ?_
      rw [hret] at hret'
      cases hret'
    exact hset.setHolder (fun _ _ heq => by cases heq) (fun _ _ => hret)
      (fun heq => by cases heq) (fun heq => by cases heq) fun heq => absurd heq hshuts
  · exact h.setHolder (fun _ _ heq => by cases heq) (fun _ heq => by cases heq)
      (fun heq => by cases heq) (fun heq => by cases heq) fun heq => absurd heq hshuts

/-- Stopping a device keeps it. -/
theorem stopDevice_tidy (h : Tidy s) (deviceId : String) : Tidy (s.stopDevice deviceId) := by
  unfold Edge.stopDevice
  split
  next dev hdev =>
    split
    next => exact h.setStop hdev
    next => exact h
  next => exact h

/-- Shutting a queue down keeps it. -/
theorem closeQueue_tidy (h : Tidy s) (deviceId : String) : Tidy (s.closeQueue deviceId) := by
  unfold Edge.closeQueue
  split
  next hq => exact h.setQueue hq _
  next => exact h

/-- Joining a device keeps it. -/
theorem joinDevice_tidy (h : Tidy s) (hs : s.joinDevice deviceId = some t) : Tidy t := by
  unfold Edge.joinDevice at hs
  split at hs
  next hdev =>
    split at hs
    next => cases hs
    next =>
      cases hs
      exact h.setDevice hdev (fun _ hp => by cases hp) fun _ _ hp => by cases hp
  next =>
    cases hs
    exact h

/-- From one section of `Shutdown` to the next, after the two threads have been joined. -/
theorem Tidy.shutsDown (h : Tidy s) (hkeeps : s.Keeps t) (ht : Tidy t)
    (hjoined : s.holder.hasJoined = true) {holder : Holder} (hnext : holder.hasJoined = true)
    (hdestroys : ∀ cfg rest, holder = .destroying cfg rest →
      ∀ deviceId, deviceId ∈ t.tables.devices → deviceId ∈ rest) : Tidy { t with holder } := by
  refine ht.setHolder hdestroys (fun _ heq => ?_) (fun heq => ?_) (fun _ => ?_) fun _ =>
    Holder.shuts_of_hasJoined hnext
  · rw [heq] at hnext
    cases hnext
  · rw [heq] at hnext
    cases hnext
  · rw [hkeeps.rest]
    exact h.joins hjoined

/-- `Shutdown` joins the snapshot thread. -/
theorem Tidy.joinSnapshot (h : Tidy s) (hs : s.hold .joiningSnapshot = some t) : Tidy t := by
  simp only [Edge.hold] at hs
  split at hs
  next => cases hs
  next =>
    cases hs
    exact {
      uses := h.uses
      destroys := fun _ _ heq => by cases heq
      rests := fun hret => ⟨(h.rests hret).1, rfl, (h.rests hret).2.2⟩
      starts := fun _ heq => by cases heq
      joinsSnapshot := fun _ => rfl
      joins := fun heq => by cases heq
      stopped := h.stopped
      stopping := fun _ => rfl
      misuses := h.misuses }

/-- `Shutdown` joins the thread of the self actions, the snapshot thread being joined. -/
theorem Tidy.joinAction (h : Tidy s) (hholder : s.holder = .joiningAction)
    (hs : s.hold .joiningAction = some t) : Tidy t := by
  have hsnapshot := h.joinsSnapshot hholder
  simp only [Edge.hold] at hs
  split at hs
  next => cases hs
  next =>
    cases hs
    exact {
      uses := h.uses
      destroys := fun _ _ heq => by cases heq
      rests := fun hret => ⟨rfl, (h.rests hret).2⟩
      starts := fun _ heq => by cases heq
      joinsSnapshot := fun heq => by cases heq
      joins := fun _ => ⟨rfl, hsnapshot⟩
      stopped := h.stopped
      stopping := fun _ => rfl
      misuses := h.misuses }

/-- **What the holder of the lock does keeps it.** -/
theorem hold_tidy (h : Tidy s) (hs : s.hold s.holder = some t) : Tidy t := by
  cases hholder : s.holder with
  | free =>
    rw [hholder] at hs
    cases hs
  | destroying cfg rest =>
    rw [hholder] at hs
    cases rest with
    | nil =>
      cases hs
      exact clear_tidy h hholder
    | cons deviceId rest => exact destroyDevice_tidy h hholder hs
  | starting rest =>
    rw [hholder] at hs
    cases rest with
    | nil =>
      cases hs
      exact {
        uses := h.uses
        destroys := fun _ _ heq => by cases heq
        rests := h.rests
        starts := fun _ heq => by cases heq
        joinsSnapshot := fun heq => by cases heq
        joins := fun heq => by cases heq
        stopped := fun heq => by cases heq
        stopping := fun heq => by cases heq
        misuses := h.misuses }
    | cons deviceId rest => exact startDevice_tidy h hholder hs
  | joiningSnapshot =>
    rw [hholder] at hs
    exact h.joinSnapshot hs
  | joiningAction =>
    rw [hholder] at hs
    exact h.joinAction hholder hs
  | stopping rest =>
    have hjoined : s.holder.hasJoined = true := by rw [hholder]; rfl
    rw [hholder] at hs
    cases rest with
    | nil =>
      cases hs
      exact h.shutsDown (.refl s) h hjoined rfl fun _ _ heq => by cases heq
    | cons deviceId rest =>
      cases hs
      exact h.shutsDown (Edge.stopDevice_keeps s deviceId) (stopDevice_tidy h deviceId) hjoined rfl
        fun _ _ heq => by cases heq
  | closing rest =>
    have hjoined : s.holder.hasJoined = true := by rw [hholder]; rfl
    rw [hholder] at hs
    cases rest with
    | nil =>
      cases hs
      exact h.shutsDown (.refl s) h hjoined rfl fun _ _ heq => by cases heq
    | cons deviceId rest =>
      cases hs
      exact h.shutsDown (Edge.closeQueue_keeps s deviceId) (closeQueue_tidy h deviceId) hjoined rfl
        fun _ _ heq => by cases heq
  | joining rest =>
    have hjoined : s.holder.hasJoined = true := by rw [hholder]; rfl
    rw [hholder] at hs
    cases rest with
    | nil =>
      cases hs
      refine h.shutsDown (.refl s) h hjoined rfl fun _ _ heq id hid => ?_
      cases heq
      exact AList.mem_keys.1 hid
    | cons deviceId rest =>
      obtain ⟨u, hu, rfl⟩ := Option.map_eq_some_iff.1 hs
      exact h.shutsDown (Edge.joinDevice_keeps hu) (joinDevice_tidy h hu) hjoined rfl
        fun _ _ heq => by cases heq

/-! ## A step -/

/-- `Init` keeps it. -/
theorem init_tidy (h : Tidy s) (cfg : Json) : Tidy (s.init cfg) where
  uses := h.uses
  destroys cfg' rest hholder id hid := by
    simp only [Edge.init] at hholder
    split at hholder
    next =>
      cases hholder
      exact AList.mem_keys.1 hid
    next => cases hholder
  rests := h.rests
  starts rest hholder := by
    simp only [Edge.init] at hholder
    split at hholder <;> cases hholder
  joinsSnapshot hholder := by
    simp only [Edge.init] at hholder
    split at hholder <;> cases hholder
  joins hj := by
    simp only [Edge.init] at hj
    split at hj <;> cases hj
  stopped hrun := by cases hrun
  stopping hrun := by cases hrun
  misuses := h.misuses

/-- `Start` keeps it. -/
theorem start_tidy (h : Tidy s) (order : List String) : Tidy (s.start order) := by
  unfold Edge.start
  split
  next hready =>
    obtain ⟨actionStop, action, snapshotStop, snapshot, heq⟩ := Edge.startThreads_rest s
    rw [heq]
    exact {
      uses := h.uses
      destroys := fun _ _ hholder => by cases hholder
      rests := fun hret => by cases hret
      starts := fun _ _ => rfl
      joinsSnapshot := fun hholder => by cases hholder
      joins := fun hj => by cases hj
      stopped := fun hrun => by
        rw [show s.runState = .stopped from hrun] at hready
        cases hready
      stopping := fun hrun => by
        rw [show s.runState = .stopping from hrun] at hready
        cases hready
      misuses := h.misuses }
  next => exact h

/-- `Shutdown` keeps it. -/
theorem shutdown_tidy (h : Tidy s) (hfree : s.holder = .free) : Tidy s.shutdown := by
  unfold Edge.shutdown
  split
  next hrun =>
    have hret : s.returned = true := by
      rcases hrun with hrun | hrun
      · exact h.stopped hrun
      · have hshuts := h.stopping hrun
        rw [hfree] at hshuts
        cases hshuts
    rw [← hret]
    exact h
  next hrun =>
    exact {
      uses := h.uses
      destroys := fun _ _ hholder => by cases hholder
      rests := h.rests
      starts := fun _ hholder => by cases hholder
      joinsSnapshot := fun hholder => by cases hholder
      joins := fun hj => by cases hj
      stopped := fun hrun => by cases hrun
      stopping := fun _ => rfl
      misuses := h.misuses }

/-- **Every step** keeps it. -/
theorem step_tidy (h : Tidy s) {l : Label} (hs : step normalize s l = some t) : Tidy t := by
  cases l with
  | init cfg =>
    obtain ⟨-, rfl⟩ := Edge.locked_some hs
    exact init_tidy h cfg
  | start order =>
    simp only [step] at hs
    split at hs
    next =>
      obtain ⟨-, rfl⟩ := Edge.locked_some hs
      exact start_tidy h order
    next => cases hs
  | shutdown =>
    obtain ⟨hfree, rfl⟩ := Edge.locked_some hs
    exact shutdown_tidy h hfree
  | submit cmd =>
    obtain ⟨-, rfl⟩ := Edge.locked_some hs
    exact h.enter (Edge.submit_change normalize s cmd)
  | appendTask task =>
    obtain ⟨-, rfl⟩ := Edge.locked_some hs
    exact h.enter (Edge.appendTask_change s task)
  | setEStop active reason =>
    obtain ⟨-, rfl⟩ := Edge.locked_some hs
    exact ⟨h.uses, h.destroys, h.rests, h.starts, h.joinsSnapshot, h.joins, h.stopped, h.stopping,
      h.misuses⟩
  | hold => exact hold_tidy h hs
  | monitor runOver =>
    simp only [step] at hs
    split at hs
    next => exact monitorStep_tidy h hs
    next => cases hs
  | action =>
    simp only [step] at hs
    split at hs
    next p hp =>
      cases hs
      cases p <;> exact h.setAction hp _
    next => cases hs
  | snapshot =>
    simp only [step] at hs
    split at hs
    next p hp =>
      cases p with
      | testing | sleeping =>
        cases hs
        exact h.setSnapshot hp _
      | reporting =>
        obtain ⟨-, rfl⟩ := Edge.locked_some hs
        exact h.setSnapshot hp _
    next => cases hs
  | device deviceId =>
    simp only [step] at hs
    split at hs
    next dev hdev =>
      split at hs
      next p hp =>
        cases hs
        exact workerStep_tidy h hdev hp
      next => cases hs
    next => cases hs

/-! ## The monitor -/

/-- The monitor has nothing to do with a `Shutdown`, and its pointer is good. -/
structure Spared (s : Edge) : Prop where
  shuts : s.holder.shuts = true → s.monitor = .none
  returned : s.returned = true → s.monitor = .none
  live : ∀ q, s.monitorPtr = some q → s.Live q
  misuses : s.misuses = []

/-- What a step of somebody else leaves to the monitor. -/
structure Spares (s t : Edge) : Prop where
  monitor : t.monitor = s.monitor
  misuses : t.misuses = s.misuses
  live : ∀ q, s.monitorPtr = some q → s.Live q → t.Live q
  shuts : t.holder.shuts = true → s.holder.shuts = true
  returned : t.returned = true → s.returned = true ∨ s.holder.shuts = true

/-- What spares the monitor keeps its pointer good. -/
theorem Spared.spares (h : Spared s) (hst : Spares s t) : Spared t where
  shuts hshuts := hst.monitor.trans (h.shuts (hst.shuts hshuts))
  returned hret := hst.monitor.trans <| (hst.returned hret).elim h.returned h.shuts
  live q hq := by
    have hptr : t.monitorPtr = s.monitorPtr := by rw [Edge.monitorPtr, Edge.monitorPtr, hst.monitor]
    rw [hptr] at hq
    exact hst.live q hq (h.live q hq)
  misuses := hst.misuses.trans h.misuses

/-- A change of devices, and of what is in the queues, spares the monitor. -/
theorem Spares.of_keeps (h : s.Keeps t) : Spares s t where
  monitor := by rw [h.rest]
  misuses := by rw [h.rest]
  live _ _ hlive := h.live.2 hlive
  shuts hshuts := by rwa [h.rest] at hshuts
  returned hret := by
    rw [h.rest] at hret
    exact .inl hret

/-- The holder goes on. -/
theorem Spares.setHolder (h : Spares s t) {holder : Holder}
    (hshuts : holder.shuts = true → s.holder.shuts = true) : Spares s { t with holder } :=
  ⟨h.monitor, h.misuses, h.live, hshuts, h.returned⟩

/-- Starting a device spares the monitor. -/
theorem startDevice_spares {rest : List String}
    (hs : s.startDevice deviceId rest = some t) : Spares s t := by
  rcases Edge.startDevice_cases hs with ⟨dev, hdev, rfl | ⟨hq, rfl⟩⟩ | rfl
  · exact .of_keeps (Edge.setDevice_keeps s _ _)
  · exact (Spares.of_keeps (Edge.setDevice_keeps s _ _)).setHolder fun heq => by cases heq
  · exact (Spares.of_keeps (.refl s)).setHolder fun heq => by cases heq

/-- Destroying a device spares the monitor. -/
theorem destroyDevice_spares {cfg : Option Json} {rest : List String}
    (hholder : s.holder = .destroying cfg (deviceId :: rest))
    (hs : s.destroyDevice cfg deviceId rest = some t) : Spares s t := by
  rcases Edge.destroyDevice_cases hs with ⟨dev, hdev, rfl⟩ | rfl
  · exact .of_keeps (Edge.setDevice_keeps s _ _)
  · refine ⟨rfl, rfl, fun _ _ hlive => hlive, fun hshuts => ?_, .inl⟩
    rw [hholder]
    cases cfg <;> exact hshuts

/-- The queues are cleared while the monitor has no pointer to one. -/
theorem clear_spares {cfg : Option Json} (hholder : s.holder = .destroying cfg [])
    (hptr : s.monitorPtr = none) : Spares s (s.clear cfg) := by
  have hlive : ∀ q, s.monitorPtr = some q → s.Live q → (s.clear cfg).Live q := by
    intro q hq
    rw [hptr] at hq
    cases hq
  cases cfg with
  | none => exact ⟨rfl, rfl, hlive, (fun heq => by cases heq), fun _ => .inr (by rw [hholder]; rfl)⟩
  | some cfg => exact ⟨rfl, rfl, hlive, (fun heq => by cases heq), .inl⟩

/-- **What a careful holder of the lock does spares the monitor.** -/
theorem hold_spares (hc : Careful s .hold) (hs : s.hold s.holder = some t) : Spares s t := by
  have hrefl : Spares s s := .of_keeps (.refl s)
  cases hholder : s.holder with
  | free =>
    rw [hholder] at hs
    cases hs
  | destroying cfg rest =>
    rw [hholder] at hs
    cases rest with
    | nil =>
      cases hs
      exact clear_spares hholder (hc (by rw [Edge.clears, hholder]))
    | cons deviceId rest => exact destroyDevice_spares hholder hs
  | starting rest =>
    rw [hholder] at hs
    cases rest with
    | nil =>
      cases hs
      exact ⟨rfl, rfl, hrefl.live, (fun heq => by cases heq), .inl⟩
    | cons deviceId rest => exact startDevice_spares hs
  | joiningSnapshot | joiningAction =>
    have hshuts : s.holder.shuts = true := by rw [hholder]; rfl
    rw [hholder] at hs
    simp only [Edge.hold] at hs
    split at hs
    next => cases hs
    next =>
      cases hs
      exact ⟨rfl, rfl, hrefl.live, fun _ => hshuts, .inl⟩
  | stopping rest =>
    have hshuts : s.holder.shuts = true := by rw [hholder]; rfl
    rw [hholder] at hs
    cases rest with
    | nil =>
      cases hs
      exact hrefl.setHolder fun _ => hshuts
    | cons deviceId rest =>
      cases hs
      exact (Spares.of_keeps (Edge.stopDevice_keeps s deviceId)).setHolder fun _ => hshuts
  | closing rest =>
    have hshuts : s.holder.shuts = true := by rw [hholder]; rfl
    rw [hholder] at hs
    cases rest with
    | nil =>
      cases hs
      exact hrefl.setHolder fun _ => hshuts
    | cons deviceId rest =>
      cases hs
      exact (Spares.of_keeps (Edge.closeQueue_keeps s deviceId)).setHolder fun _ => hshuts
  | joining rest =>
    have hshuts : s.holder.shuts = true := by rw [hholder]; rfl
    rw [hholder] at hs
    cases rest with
    | nil =>
      cases hs
      exact hrefl.setHolder fun _ => hshuts
    | cons deviceId rest =>
      obtain ⟨u, hu, rfl⟩ := Option.map_eq_some_iff.1 hs
      exact (Spares.of_keeps (Edge.joinDevice_keeps hu)).setHolder fun _ => hshuts

/-- The monitor gets a pointer to a queue that is there, and it is still there when it is used. -/
theorem monitorStep_spared (h : Spared s) {runOver : Bool} {p : Monitor}
    (hp : s.monitor = .running p) (hs : s.monitorStep runOver p = some t) : Spared t := by
  have hrun : ∀ {P : Prop}, s.monitor = .none → P := by
    intro P hnone
    rw [hp] at hnone
    cases hnone
  have hset : ∀ m : Thread Monitor, (∀ q, Edge.monitorPtr { s with monitor := m } = some q →
      s.Live q) → Spared { s with monitor := m } := fun m hlive =>
    ⟨fun hshuts => hrun (h.shuts hshuts), fun hret => hrun (h.returned hret), hlive, h.misuses⟩
  have hptr : ∀ q, p.ptr = some q → s.Live q := fun q hq =>
    h.live q (by rw [Edge.monitorPtr, hp]; exact hq)
  cases p with
  | testing =>
    cases hs
    refine hset _ fun q hq => ?_
    cases hstop : s.monitorStop <;> simp [Edge.monitorPtr, hstop, Monitor.ptr] at hq
  | fetching =>
    cases hs
    refine hset _ fun q hq => ?_
    cases runOver <;> simp [Edge.monitorPtr, Monitor.ptr] at hq
  | looking =>
    obtain ⟨-, rfl⟩ := Edge.locked_some hs
    refine hset _ fun q hq => ?_
    split at hq
    next => cases hq
    next hlook =>
      cases hq
      exact ⟨rfl, mem_of_lookup hlook⟩
  | asking q =>
    have hlive := hptr q rfl
    obtain ⟨tq, -, hderef⟩ := hlive.deref
    simp only [Edge.monitorStep, hderef] at hs
    cases hs
    refine hset _ fun q' hq' => ?_
    split at hq'
    next => cases hq'
    next =>
      cases hq'
      exact hlive
  | popping q =>
    obtain ⟨tq, htq, hderef⟩ := (hptr q rfl).deref
    simp only [Edge.monitorStep, hderef] at hs
    split at hs
    next =>
      cases hs
      exact hset _ fun q' hq' => by cases hq'
    next =>
      cases hs
      exact ⟨fun hshuts => hrun (h.shuts hshuts), fun hret => hrun (h.returned hret),
        fun q' hq' => (by cases hq'), h.misuses⟩
  | sleeping =>
    cases hs
    exact hset _ fun q hq => by cases hq

/-- Starting the monitor gives it no pointer. -/
theorem startMonitor_ptr (s : Edge) : s.startMonitor.monitorPtr = s.monitorPtr := by
  unfold Edge.startMonitor
  split
  next hnone =>
    rw [Edge.monitorPtr, Edge.monitorPtr, hnone]
    rfl
  next => rfl

/-- After a `Start` the monitor has its pointer to look for. -/
theorem start_spared (h : Spared s) (order : List String) : Spared (s.start order) := by
  unfold Edge.start
  split
  next =>
    obtain ⟨actionStop, action, snapshotStop, snapshot, heq⟩ := Edge.startThreads_rest s
    rw [heq]
    refine ⟨fun hshuts => (by cases hshuts), fun hret => (by cases hret), fun q hq => ?_, h.misuses⟩
    exact h.live q ((startMonitor_ptr s).symm.trans hq)
  next => exact h

/-- A careful `Shutdown` begins where no monitor has been started. -/
theorem shutdown_spared (htidy : Tidy s) (h : Spared s) (hfree : s.holder = .free)
    (hc : Careful s .shutdown) : Spared s.shutdown := by
  have hnone : s.monitor = .none := by
    rcases hc with hrun | hrun | hnone
    · exact h.returned (htidy.stopped hrun)
    · have hshuts := htidy.stopping hrun
      rw [hfree] at hshuts
      cases hshuts
    · exact hnone
  unfold Edge.shutdown
  split
  next => exact ⟨fun _ => hnone, fun _ => hnone, h.live, h.misuses⟩
  next => exact ⟨fun _ => hnone, fun _ => hnone, h.live, h.misuses⟩

/-- Whatever happens, only the monitor is left after a `Shutdown`, and only it uses a queue after
its end. -/
theorem tidy_of_run {ls : List Label} (h : run (step normalize) {} ls = some s) : Tidy s :=
  run_invariant (P := Tidy) (fun _ _ _ hs hstep => step_tidy hs hstep) tidy_init h

/-- **A careful step** spares the monitor. -/
theorem step_spared (htidy : Tidy s) (h : Spared s) {l : Label} (hc : Careful s l)
    (hs : step normalize s l = some t) : Spared t := by
  cases l with
  | init cfg =>
    obtain ⟨-, rfl⟩ := Edge.locked_some hs
    refine h.spares ⟨rfl, rfl, fun _ _ hlive => hlive, fun hshuts => ?_, .inl⟩
    simp only [Edge.init] at hshuts
    split at hshuts <;> cases hshuts
  | start order =>
    simp only [step] at hs
    split at hs
    next =>
      obtain ⟨-, rfl⟩ := Edge.locked_some hs
      exact start_spared h order
    next => cases hs
  | shutdown =>
    obtain ⟨hfree, rfl⟩ := Edge.locked_some hs
    exact shutdown_spared htidy h hfree hc
  | submit cmd =>
    obtain ⟨-, rfl⟩ := Edge.locked_some hs
    exact h.spares (.of_keeps (Edge.enter_keeps (Edge.submit_change normalize s cmd)))
  | appendTask task =>
    obtain ⟨-, rfl⟩ := Edge.locked_some hs
    exact h.spares (.of_keeps (Edge.enter_keeps (Edge.appendTask_change s task)))
  | setEStop active reason =>
    obtain ⟨-, rfl⟩ := Edge.locked_some hs
    exact h.spares ⟨rfl, rfl, fun _ _ hlive => hlive, id, .inl⟩
  | hold => exact h.spares (hold_spares hc hs)
  | monitor runOver =>
    simp only [step] at hs
    split at hs
    next hp => exact monitorStep_spared h hp hs
    next => cases hs
  | action =>
    simp only [step] at hs
    split at hs
    next p hp =>
      cases hs
      cases p <;> exact h.spares ⟨rfl, rfl, fun _ _ hlive => hlive, id, .inl⟩
    next => cases hs
  | snapshot =>
    simp only [step] at hs
    split at hs
    next p hp =>
      cases p with
      | testing | sleeping =>
        cases hs
        exact h.spares ⟨rfl, rfl, fun _ _ hlive => hlive, id, .inl⟩
      | reporting =>
        obtain ⟨-, rfl⟩ := Edge.locked_some hs
        exact h.spares ⟨rfl, rfl, fun _ _ hlive => hlive, id, .inl⟩
    next => cases hs
  | device deviceId =>
    simp only [step] at hs
    split at hs
    next dev hdev =>
      split at hs
      next p hp =>
        cases hs
        exact h.spares (.of_keeps (Edge.workerStep_keeps (htidy.uses _ _ hdev p hp) p))
      next => cases hs
    next => cases hs

/-- **After `Shutdown` nothing of the edge runs**, and no queue is used after its end: in every run
in which a `Shutdown` gets to work only before the monitor has been started, and the queues are not
cleared while the monitor is at one of them. -/
theorem nothing_runs {ls : List Label} (hc : Along (step normalize) Careful {} ls)
    (h : run (step normalize) {} ls = some s) : Safe s := by
  have hspared : Spared {} :=
    ⟨fun hshuts => (by cases hshuts), fun hret => (by cases hret), fun _ hq => (by cases hq), rfl⟩
  obtain ⟨htidy, hspared⟩ := run_along (P := fun s => Tidy s ∧ Spared s)
    (fun _ _ _ hl hs hstep => ⟨step_tidy hs.1 hstep, step_spared hs.1 hs.2 hl hstep⟩)
    ⟨tidy_init, hspared⟩ hc h
  exact ⟨hspared.returned, fun hret => (htidy.rests hret).1, fun hret => (htidy.rests hret).2.1,
    fun hret => (htidy.rests hret).2.2, hspared.misuses⟩

/-! ## Runs -/

/-- An edge with one device, which normalises nothing. -/
def oneDevice : Json :=
  .object [("devices",
    .array [.object [("device_id", .string "uuv-1"), ("type", .string "uuv")]])]

/-- An edge that normalises nothing. -/
def noNormalize : Normalize := fun _ _ _ => .error ""

/-- `Init`, and the whole of a `Shutdown` before any `Start`. -/
def initShutdown : List Label :=
  [.init oneDevice, .hold, .shutdown, .hold, .hold, .hold, .hold, .hold, .hold, .hold, .hold, .hold,
    .hold, .hold]

/-- Then the edge is started, a task comes for the edge itself and one for the device, both are
taken, and the edge is initialised once more. -/
def reinitialised : List Label :=
  initShutdown ++
    [.init oneDevice, .hold, .start ["uuv-1"], .hold, .hold,
      .appendTask { taskId := "a", deviceId := "self" },
      .appendTask { taskId := "b", deviceId := "uuv-1" },
      .monitor true, .monitor true, .monitor true, .monitor true, .monitor true,
      .device "uuv-1", .device "uuv-1", .device "uuv-1", .device "uuv-1",
      .init oneDevice, .hold, .device "uuv-1", .hold, .hold]

/-- An edge that is shut down at once, and one that is started, serves its tasks and is initialised
again, are both left without a thread that should not be there. -/
theorem nothing_runs_reinitialised :
    (∃ s, run (step noNormalize) {} initShutdown = some s ∧ s.returned = true ∧ Safe s) ∧
      ∃ s, run (step noNormalize) {} reinitialised = some s ∧ s.runState = .ready ∧ s.gen = 4 ∧
        Safe s := by
  have hrun : run (step noNormalize) {} initShutdown = some _ := rfl
  have hrun' : run (step noNormalize) {} reinitialised = some _ := rfl
  exact ⟨⟨_, hrun, rfl, nothing_runs (by decide) hrun⟩,
    _, hrun', rfl, rfl, nothing_runs (by decide) hrun'⟩

/-- `Shutdown` returns while the monitor waits in `PopBlocking`. It has not been joined, and the
queue that it waits for is no more. -/
theorem not_nothing_runs :
    ¬ ∀ (normalize : Normalize) (ls : List Label) (s : Edge),
      run (step normalize) {} ls = some s → Safe s := by
  intro h
  have hsafe := h noNormalize
    [.init (.object []), .hold, .start [], .hold,
      .monitor true, .monitor true, .monitor true, .monitor true,
      .shutdown, .snapshot, .hold, .action, .hold, .hold, .hold, .hold, .hold, .hold,
      .monitor true] _ rfl
  have huses := hsafe.uses
  cases huses

end Lifecycle

end MyEdge
