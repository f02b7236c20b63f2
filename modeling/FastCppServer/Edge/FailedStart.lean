import FastCppServer.Edge.SelfTask

/-!
# A start that fails

`Start` of the three edges, which each hold `rw_mutex_` all the time. It goes over the devices and
returns from the middle of the loop where one does not start: what has been started before is left
as it is. `BaseEdge` starts its threads before the loop, the two others after it. So nothing runs
after a failure only if the first device is the one that fails, no other one has been left over, and
`BaseEdge` has no thread to start (`Harmless`).

How the `Start` of a device ends is up to the device. A vehicle that does not connect does not let
`TUNAEdge::Start` fail.
-/

namespace MyEdge

namespace FailedStart

open Transition

/-- How `Start` of a device ends: with the thread of a new workflow, or without a workflow
(`control_` is null), or with a new workflow that does not start. -/
inductive Outcome where
  | started
  | refused
  | failed
  deriving DecidableEq

/-- A device: whether the thread of its workflow runs, and how many have been started so far. -/
structure Device where
  running : Bool := false
  starts : Nat := 0
  deriving DecidableEq

/-- `Start` of a device. A new workflow takes the place of the old one, which is stopped and joined
as it is destroyed. -/
def Device.start (dev : Device) : Outcome → Bool × Device
  | .started => (true, { running := true, starts := dev.starts + 1 })
  | .refused => (false, dev)
  | .failed => (false, { dev with running := false })

/-- What `Start` reads and writes. The devices are in the order in which the loop comes to them.
`BaseEdge` has all three threads, `UUVEdge` the last two, and `TUNAEdge` the last one. -/
structure Edge where
  runState : RunState := .initializing
  devices : List (String × Device) := []
  /-- There is a queue of that id. -/
  queues : String → Bool := fun _ => false
  monitorEnable : Bool := true
  selfActionEnable : Bool := true
  selfDeviceId : String := "self"
  snapshotEnable : Bool := true
  /-- `MyDB::IsInitialized`. -/
  dbInitialized : Bool := false
  connectionUrl : String := ""
  /-- `vehicle_`, and whether it is connected. -/
  vehicle : Option Bool := none
  monitor : Thread Unit := .none
  action : Thread Unit := .none
  snapshot : Thread Unit := .none

/-- What the devices and the vehicle do in a call of `Start`. -/
structure Attempt where
  device : String → Outcome
  vehicle : Bool := false

/-- A thread that is enabled is started where its handle is not joinable. -/
def startThread (enabled : Bool) (thread : Thread Unit) : Thread Unit :=
  if enabled && thread == .none then .running () else thread

/-- The loop over the devices. -/
def startDevices (queues : String → Bool) (a : Attempt) :
    List (String × Device) → Bool × List (String × Device)
  | [] => (true, [])
  | (deviceId, dev) :: rest =>
    if queues deviceId then
      match dev.start (a.device deviceId) with
      | (false, dev') => (false, (deviceId, dev') :: rest)
      | (true, dev') =>
        ((startDevices queues a rest).1, (deviceId, dev') :: (startDevices queues a rest).2)
    else (false, (deviceId, dev) :: rest)

/-- The three calls of `BaseEdge::Start` before the loop. -/
def Edge.startThreads (s : Edge) : Edge :=
  { s with
    monitor := startThread s.monitorEnable s.monitor
    action := startThread s.selfActionEnable s.action
    snapshot := startThread s.snapshotEnable s.snapshot }

/-- `BaseEdge::Start`: the threads are started before the devices. -/
def BaseEdge.start (s : Edge) (a : Attempt) : Bool × Edge :=
  if s.runState = .ready then
    let s := s.startThreads
    match startDevices s.queues a s.devices with
    | (false, devices) => (false, { s with devices })
    | (true, devices) => (true, { s with devices, runState := .running })
  else (false, s)

/-- `UUVEdge::Start`: the threads are started when all devices have been. -/
def UUVEdge.start (s : Edge) (a : Attempt) : Bool × Edge :=
  if s.runState = .ready then
    match startDevices s.queues a s.devices with
    | (false, devices) => (false, { s with devices, runState := .ready })
    | (true, devices) => (true, { s with
        devices
        runState := .running
        snapshot := startThread (s.snapshotEnable && s.dbInitialized) s.snapshot
        action := startThread (s.selfActionEnable && s.queues s.selfDeviceId) s.action })
  else (false, s)

/-- `TUNAEdge::Start`: so are the vehicle and the thread. -/
def TUNAEdge.start (s : Edge) (a : Attempt) : Bool × Edge :=
  if s.runState = .ready then
    match startDevices s.queues a s.devices with
    | (false, devices) => (false, { s with devices, runState := .ready })
    | (true, devices) => (true, { s with
        devices
        vehicle :=
          if s.vehicle.isSome && s.connectionUrl != "" then some a.vehicle else s.vehicle
        runState := .running
        snapshot := startThread (s.snapshotEnable && s.dbInitialized) s.snapshot })
  else (false, s)

/-- The three edges that have a `Start` of their own. -/
inductive Kind where
  | base
  | uuv
  | tuna
  deriving DecidableEq

/-- `Start`, of an edge of that kind. -/
def start : Kind → Edge → Attempt → Bool × Edge
  | .base => BaseEdge.start
  | .uuv => UUVEdge.start
  | .tuna => TUNAEdge.start

/-! ## What a failure is to leave -/

/-- The device is able to start: it has a queue, and its `Start` starts it. -/
def Able (s : Edge) (a : Attempt) (deviceId : String) : Prop :=
  s.queues deviceId = true ∧ a.device deviceId = .started

instance {s : Edge} {a : Attempt} {deviceId : String} : Decidable (Able s a deviceId) :=
  inferInstanceAs (Decidable (_ ∧ _))

/-- No device runs, and no other thread than before; and a later `Start` that is admitted, where all
devices are able to start, succeeds, with one start for each device in both calls together. -/
structure LeavesNothing (k : Kind) (s t : Edge) : Prop where
  devices : ∀ d ∈ t.devices, d.2.running = false
  monitor : t.monitor = .running () → s.monitor = .running ()
  action : t.action = .running () → s.action = .running ()
  snapshot : t.snapshot = .running () → s.snapshot = .running ()
  runState : t.runState = s.runState
  retry : t.runState = .ready → ∀ a, (∀ d ∈ t.devices, Able t a d.1) →
    (start k t a).1 = true ∧ (start k t a).2.runState = .running ∧
      (start k t a).2.devices =
        s.devices.map fun d => (d.1, { running := true, starts := d.2.starts + 1 })

/-- A `Start` that fails leaves nothing running. -/
def FailsClean (k : Kind) (s : Edge) (a : Attempt) : Prop :=
  (start k s a).1 = false → LeavesNothing k s (start k s a).2

/-- The first device is the one that fails, and it does not run afterwards; no other one has been
left over. -/
def FailsFirst (s : Edge) (a : Attempt) : List (String × Device) → Prop
  | [] => False
  | d :: rest =>
    ¬ Able s a d.1 ∧
      (d.2.running = false ∨ s.queues d.1 = true ∧ a.device d.1 = .failed) ∧
      ∀ e ∈ rest, e.2.running = false

/-- When a `Start` that fails leaves nothing running. One that is refused changes nothing. -/
def Harmless (k : Kind) (s : Edge) (a : Attempt) : Prop :=
  if s.runState = .ready then
    (∀ d ∈ s.devices, Able s a d.1) ∨
      FailsFirst s a s.devices ∧ (k = .base → s.startThreads = s)
  else ∀ d ∈ s.devices, d.2.running = false

/-! ## The loop -/

section
variable {s : Edge} {a : Attempt}

/-- The device after it has been started. -/
def Device.restarted (dev : Device) : Device := { running := true, starts := dev.starts + 1 }

/-- A device that is able to start is started, and the loop goes on. -/
theorem startDevices_able {d : String × Device} {rest : List (String × Device)}
    (h : Able s a d.1) : startDevices s.queues a (d :: rest) =
      ((startDevices s.queues a rest).1,
        (d.1, d.2.restarted) :: (startDevices s.queues a rest).2) := by
  rw [startDevices, if_pos h.1, h.2]
  rfl

/-- The loop ends at the first device that is not able to start. -/
theorem startDevices_unable {d : String × Device} {rest : List (String × Device)}
    (h : ¬ Able s a d.1) : startDevices s.queues a (d :: rest) =
      (false, (if s.queues d.1 = true ∧ a.device d.1 = .failed
        then (d.1, { d.2 with running := false }) else d) :: rest) := by
  rw [startDevices]
  by_cases hq : s.queues d.1 = true
  · cases ho : a.device d.1 with
    | started => exact absurd ⟨hq, ho⟩ h
    | refused => simp [hq, Device.start]
    | failed => simp [hq, Device.start]
  · simp [hq]

/-- **The loop succeeds** where all devices are able to start. -/
theorem startDevices_fst {ds : List (String × Device)} :
    (startDevices s.queues a ds).1 = true ↔ ∀ d ∈ ds, Able s a d.1 := by
  induction ds with
  | nil => simp [startDevices]
  | cons d rest ih =>
    rw [List.forall_mem_cons, ← ih]
    by_cases h : Able s a d.1
    · rw [startDevices_able h]
      simp [h]
    · rw [startDevices_unable h]
      simp [h]

/-- It has started each device once, then. -/
theorem startDevices_snd {ds : List (String × Device)} (h : ∀ d ∈ ds, Able s a d.1) :
    (startDevices s.queues a ds).2 = ds.map fun d => (d.1, d.2.restarted) := by
  induction ds with
  | nil => rfl
  | cons d rest ih =>
    obtain ⟨hd, hrest⟩ := List.forall_mem_cons.1 h
    rw [startDevices_able hd, List.map_cons, ih hrest]

/-- **A loop that fails** leaves no device running where it fails at the first one. -/
theorem startDevices_idle_iff {ds : List (String × Device)} (h : ¬ ∀ d ∈ ds, Able s a d.1) :
    (∀ d ∈ (startDevices s.queues a ds).2, d.2.running = false) ↔ FailsFirst s a ds := by
  cases ds with
  | nil => exact absurd (fun d hd => by cases hd) h
  | cons d rest =>
    by_cases hd : Able s a d.1
    · rw [startDevices_able hd, List.forall_mem_cons]
      simp [FailsFirst, hd, Device.restarted]
    · rw [startDevices_unable hd, List.forall_mem_cons]
      simp only [FailsFirst, hd, not_false_eq_true, true_and]
      apply and_congr_left
      intro _
      split
      next hfailed => simp [hfailed]
      next hfailed => simp [hfailed]

/-- It has started none, then. -/
theorem startDevices_restarted {ds : List (String × Device)} (h : FailsFirst s a ds) :
    ((startDevices s.queues a ds).2.map fun d => (d.1, d.2.restarted)) =
      ds.map fun d => (d.1, d.2.restarted) := by
  cases ds with
  | nil => rfl
  | cons d rest =>
    rw [startDevices_unable h.1, List.map_cons, List.map_cons]
    split <;> rfl

/-! ## The three edges -/

variable {k : Kind}

/-- What a `Start` that fails in the loop has done. -/
theorem start_failed (hready : s.runState = .ready)
    (h : (startDevices s.queues a s.devices).1 = false) :
    start k s a = (false, { (if k = .base then s.startThreads else s) with
      devices := (startDevices s.queues a s.devices).2 }) := by
  have hpair : startDevices s.queues a s.devices =
      (false, (startDevices s.queues a s.devices).2) := Prod.ext h rfl
  cases k with
  | base =>
    rw [start, BaseEdge.start, if_pos hready]
    simp only [Edge.startThreads]
    rw [hpair]
    rfl
  | uuv =>
    rw [start, UUVEdge.start, if_pos hready, hpair, ← hready]
    rfl
  | tuna =>
    rw [start, TUNAEdge.start, if_pos hready, hpair, ← hready]
    rfl

/-- What a `Start` has done that does not. -/
theorem start_succeeded (hready : s.runState = .ready)
    (h : (startDevices s.queues a s.devices).1 = true) :
    (start k s a).1 = true ∧ (start k s a).2.runState = .running ∧
      (start k s a).2.devices = (startDevices s.queues a s.devices).2 := by
  have hpair : startDevices s.queues a s.devices =
      (true, (startDevices s.queues a s.devices).2) := Prod.ext h rfl
  cases k with
  | base =>
    rw [start, BaseEdge.start, if_pos hready]
    simp only [Edge.startThreads]
    rw [hpair]
    exact ⟨rfl, rfl, rfl⟩
  | uuv =>
    rw [start, UUVEdge.start, if_pos hready, hpair]
    exact ⟨rfl, rfl, rfl⟩
  | tuna =>
    rw [start, TUNAEdge.start, if_pos hready, hpair]
    exact ⟨rfl, rfl, rfl⟩

/-- A `Start` that is refused does nothing. -/
theorem start_refused (h : s.runState ≠ .ready) : start k s a = (false, s) := by
  cases k with
  | base => exact if_neg h
  | uuv => exact if_neg h
  | tuna => exact if_neg h

/-- A thread that is not started stays as it is. -/
theorem startThread_eq_iff {enabled : Bool} {thread : Thread Unit} :
    startThread enabled thread = thread ↔
      (startThread enabled thread = .running () → thread = .running ()) := by
  unfold startThread
  cases enabled <;> cases thread <;> simp

/-- What is left by a `Start` that fails in the loop. -/
theorem leavesNothing_iff {t : Edge} {devices : List (String × Device)}
    (ht : t = { (if k = .base then s.startThreads else s) with devices })
    (hstarts : (∀ d ∈ devices, d.2.running = false) →
      devices.map (fun d => (d.1, d.2.restarted)) = s.devices.map fun d => (d.1, d.2.restarted)) :
    LeavesNothing k s t ↔
      (∀ d ∈ devices, d.2.running = false) ∧ (k = .base → s.startThreads = s) := by
  have hdevices : t.devices = devices := by rw [ht]
  have hrun : t.runState = s.runState := by
    rw [ht]
    split <;> rfl
  constructor
  · intro h
    refine ⟨hdevices ▸ h.devices, ?_⟩
    rintro rfl
    rw [if_pos rfl] at ht
    have hmonitor := startThread_eq_iff.2 fun hm => h.monitor (by rw [ht]; exact hm)
    have haction := startThread_eq_iff.2 fun ha => h.action (by rw [ht]; exact ha)
    have hsnapshot := startThread_eq_iff.2 fun hs => h.snapshot (by rw [ht]; exact hs)
    rw [Edge.startThreads, hmonitor, haction, hsnapshot]
  · rintro ⟨hidle, hthreads⟩
    have hbase : (if k = .base then s.startThreads else s) = s := by
      split
      next hk => exact hthreads hk
      next => rfl
    rw [hbase] at ht
    refine ⟨hdevices ▸ hidle, ?_, ?_, ?_, hrun, fun hready' a' hable => ?_⟩
    · exact fun hm => by rwa [ht] at hm
    · exact fun ha => by rwa [ht] at ha
    · exact fun hs => by rwa [ht] at hs
    · have hloop := startDevices_fst.2 hable
      obtain ⟨hok, hrunning, hds⟩ := start_succeeded hready' hloop
      refine ⟨hok, hrunning, ?_⟩
      rw [hds, startDevices_snd hable, hdevices]
      exact hstarts hidle

/-- **When a start that fails leaves nothing running**, for every device map, for every end of the
`Start` of each device and for each of the three edges. -/
theorem failsClean_iff (k : Kind) (s : Edge) (a : Attempt) :
    FailsClean k s a ↔ Harmless k s a := by
  unfold FailsClean Harmless
  by_cases hready : s.runState = .ready
  · rw [if_pos hready]
    by_cases hall : ∀ d ∈ s.devices, Able s a d.1
    · rw [(start_succeeded hready (startDevices_fst.2 hall)).1]
      exact ⟨fun _ => .inl hall, fun _ h => absurd h (by decide)⟩
    · have hfails : (startDevices s.queues a s.devices).1 = false := by
        rw [← Bool.not_eq_true, startDevices_fst]
        exact hall
      have hidle := startDevices_idle_iff hall
      rw [start_failed hready hfails, or_iff_right hall, ← hidle]
      rw [leavesNothing_iff rfl fun h => startDevices_restarted (hidle.1 h)]
      simp
  · rw [if_neg hready, start_refused hready]
    constructor
    · intro h
      exact (h rfl).devices
    · intro h _
      exact ⟨h, id, id, id, rfl, fun hr => absurd hr hready⟩

end

/-- The second of two devices has no control: the first one is left running. -/
theorem not_failsClean : ¬ ∀ k s a, FailsClean k s a := by
  intro h
  have hclean := h .uuv
    { runState := .ready, devices := [("uuv-1", {}), ("uuv-2", {})], queues := fun _ => true }
    { device := fun deviceId => if deviceId = "uuv-2" then .refused else .started } (by decide)
  exact absurd (hclean.devices ("uuv-1", { running := true, starts := 1 }) (by decide)) (by decide)

end FailedStart

end MyEdge
