import FastCppServer.Edge.BaseEdge
import FastCppServer.Lib.Dict

/-!
# What `Init` makes of a configuration

`BaseEdge::Init` reads its settings one after the other and throws at the first one that does not
have its type, with those before it already assigned. Then it fills three tables: each item of
`devices` that has an id and a type gets its type and a queue, and a device where `MyDevice::Create`
knows the type. An item is skipped as far as it fails and the loop goes on, so the tables need not
have the same ids (`mem_queues_load`, `mem_devices_load`). The edge itself gets a type and a queue,
under an id that an item may have as well.

A table is an `std::unordered_map`: the order of its ids means nothing.
-/

namespace MyEdge

open Dict Transition MyData MyControl

/-! ## The settings -/

/-- The fields that `Init` reads. `version_`, `edge_type_` and `snapshot_interval_ms_` are read, but
nothing here depends on them. -/
structure Settings where
  edgeId : String := "edge-default"
  allowQueueWhenEStop : Bool := false
  selfActionEnable : Bool := true
  selfDeviceId : String := "self"
  snapshotEnable : Bool := true

namespace Settings

/-- Its assignments, in the order of the source. -/
def assignments (cfg : Json) : List (Settings → Option Settings) :=
  [fun s => (cfg.value Json.asString "edge_id" s.edgeId).map fun edgeId => { s with edgeId },
    fun s => (cfg.value Json.asString "version" "").map fun _ => s,
    fun s => (cfg.value Json.asString "edge_type" "").map fun _ => s,
    fun s => (cfg.value Json.asBool "allow_queue_when_estop" false).map fun allowQueueWhenEStop =>
      { s with allowQueueWhenEStop },
    fun s => (cfg.value Json.asBool "self_action_enable" s.selfActionEnable).map
      fun selfActionEnable => { s with selfActionEnable },
    fun s => (cfg.value Json.asString "self_device_id" s.selfDeviceId).map fun selfDeviceId =>
      { s with selfDeviceId },
    fun s => (cfg.value Json.asBool "snapshot_enable" s.snapshotEnable).map fun snapshotEnable =>
      { s with snapshotEnable },
    fun s => (cfg.value Json.asInt "snapshot_interval_ms" ()).map fun _ => s]

/-- The assignments up to the first one that throws, and whether there is none. -/
def assign : List (Settings → Option Settings) → Settings → Settings × Bool
  | [], s => (s, true)
  | f :: fs, s =>
    match f s with
    | none => (s, false)
    | some s' => assign fs s'

/-- The settings that are read, and whether no reading throws. -/
def read (cfg : Json) (s : Settings) : Settings × Bool := assign (assignments cfg) s

end Settings

/-! ## The devices -/

/-- Where the thread of a device stands in `RunLoop`: before the test of `stop_`, the test of
`*estop_flag_`, `PopBlocking`, `IsShutdown`, and in the execution of a task. -/
inductive Worker where
  | testing
  | checking
  | popping
  | missed
  | working
  deriving DecidableEq

/-- A device and its workflow. -/
structure Device where
  /-- `control_` is not null. -/
  hasControl : Bool
  /-- `stop_`. -/
  stop : Bool := false
  worker : Thread Worker := .none
  /-- Which one of the queues of its id, over time, it has been started with. -/
  queue : Nat := 0

namespace MyDevice

/-- The types of `MyDevice::Create`. Each is a type of `MyControl::CreateControl` as well. -/
def types : List String := ["uuv", "UUV", "depth_sensor", "flow_sensor", "wind_sensor"]

/-- `Create`. What is thrown in the `Init` of a device is caught there, and the device is created
without a control. -/
def create (type : String) (dcfg : Json) : Option Device :=
  if type ∈ types then
    some { hasControl :=
      (dcfg.value Json.asString "device_id" "").isSome &&
        (dcfg.value Json.asString "device_name" "").isSome }
  else none

/-- A device is created without a thread. -/
theorem worker_create {type : String} {dcfg : Json} {d : Device} (h : create type dcfg = some d) :
    d.worker = .none := by
  unfold create at h
  split at h
  next =>
    cases h
    rfl
  next => cases h

end MyDevice

/-! ## The tables -/

/-- The three tables of an edge, by the ids of the devices. -/
structure Tables where
  deviceTypeById : AList fun _ : String => String := ∅
  queues : AList fun _ : String => TaskQueue := ∅
  devices : AList fun _ : String => Device := ∅

/-- The id and the type of an item, where it has both. -/
def described (dcfg : Json) : Option (String × String) :=
  match dcfg.value Json.asString "device_id" "", dcfg.value Json.asString "type" "" with
  | some deviceId, some type => if deviceId = "" ∨ type = "" then none else some (deviceId, type)
  | _, _ => none

/-- The items of `devices`, where it is an array. -/
def items (cfg : Json) : List Json :=
  match cfg.find "devices" with
  | some (.array items) => items
  | _ => []

namespace Tables

/-- What the loop does with an item that it does not skip. -/
def enter (t : Tables) (deviceId type : String) (dcfg : Json) : Tables where
  deviceTypeById := t.deviceTypeById.insert deviceId type
  queues := t.queues.insert deviceId {}
  devices :=
    match MyDevice.create type dcfg with
    | none => t.devices
    | some dev => t.devices.insert deviceId dev

/-- The body of the loop. -/
def add (t : Tables) (dcfg : Json) : Tables :=
  match described dcfg with
  | none => t
  | some (deviceId, type) => t.enter deviceId type dcfg

/-- What is made of the tables, after they have been cleared. -/
def load (selfDeviceId : String) (cfg : Json) (devices : AList fun _ : String => Device) : Tables :=
  (items cfg).foldl add
    { deviceTypeById := AList.singleton selfDeviceId "self"
      queues := AList.singleton selfDeviceId {}
      devices }

/-- The item has that id, and a type. -/
def Names (deviceId : String) (dcfg : Json) : Prop := ∃ type, described dcfg = some (deviceId, type)

/-- The item gives a device to that id. -/
def Creates (deviceId : String) (dcfg : Json) : Prop :=
  ∃ type, described dcfg = some (deviceId, type) ∧ (MyDevice.create type dcfg).isSome

/-- An item that gives a device to an id has that id. -/
theorem Creates.names {deviceId : String} {dcfg : Json} (h : Creates deviceId dcfg) :
    Names deviceId dcfg := by
  obtain ⟨type, hd, -⟩ := h
  exact ⟨type, hd⟩

/-- The id of an item is not empty. -/
theorem Names.ne_empty {deviceId : String} {dcfg : Json} (h : Names deviceId dcfg) :
    deviceId ≠ "" := by
  obtain ⟨type, hd⟩ := h
  unfold described at hd
  split at hd
  next =>
    split at hd
    next => cases hd
    next hne =>
      cases hd
      exact fun hid => hne (.inl hid)
  next => cases hd

/-- The id that an item has. -/
theorem names_iff {deviceId : String} {dcfg : Json} {named : String × String}
    (hd : described dcfg = some named) : Names deviceId dcfg ↔ deviceId = named.1 := by
  rw [Names, hd]
  exact ⟨fun ⟨type, h⟩ => by rw [Option.some.inj h], fun h => ⟨named.2, by rw [h]⟩⟩

/-- The id that an item gives a device to, where its device can be created. -/
theorem creates_iff {deviceId : String} {dcfg : Json} {named : String × String}
    (hd : described dcfg = some named) :
    Creates deviceId dcfg ↔ deviceId = named.1 ∧ (MyDevice.create named.2 dcfg).isSome := by
  rw [Creates, hd]
  constructor
  · rintro ⟨type, h, hc⟩
    rw [Option.some.inj h]
    exact ⟨rfl, hc⟩
  · rintro ⟨rfl, hc⟩
    exact ⟨named.2, rfl, hc⟩

/-- An item adds the queue of its id. -/
theorem mem_queues_add {t : Tables} {dcfg : Json} {deviceId : String} :
    deviceId ∈ (t.add dcfg).queues ↔ deviceId ∈ t.queues ∨ Names deviceId dcfg := by
  unfold add
  cases hd : described dcfg with
  | none => simp [Names, hd]
  | some named =>
    rw [names_iff hd, or_comm]
    exact AList.mem_insert _

/-- An item adds the device of its id, where it can be created. -/
theorem mem_devices_add {t : Tables} {dcfg : Json} {deviceId : String} :
    deviceId ∈ (t.add dcfg).devices ↔ deviceId ∈ t.devices ∨ Creates deviceId dcfg := by
  unfold add
  cases hd : described dcfg with
  | none => simp [Creates, hd]
  | some named =>
    rw [creates_iff hd]
    unfold enter
    cases hc : MyDevice.create named.2 dcfg with
    | none => simp [hc]
    | some dev => simp [hc, AList.mem_insert, or_comm]

/-- A loop over the items that gives an id to the table at one of them. -/
theorem foldl_add_iff {P : Tables → Prop} {C : Json → Prop}
    (h : ∀ t dcfg, P (add t dcfg) ↔ P t ∨ C dcfg) (t : Tables) (dcfgs : List Json) :
    P (dcfgs.foldl add t) ↔ P t ∨ ∃ dcfg ∈ dcfgs, C dcfg := by
  induction dcfgs generalizing t with
  | nil => simp
  | cons dcfg dcfgs ih => simp [ih, h, or_assoc]

/-- **The queues**: that of the edge, and one for each id of an item. -/
theorem mem_queues_load {selfDeviceId : String} {cfg : Json}
    {devices : AList fun _ : String => Device} {deviceId : String} :
    deviceId ∈ (load selfDeviceId cfg devices).queues ↔
      deviceId = selfDeviceId ∨ ∃ dcfg ∈ items cfg, Names deviceId dcfg := by
  rw [load, foldl_add_iff (P := fun t => deviceId ∈ t.queues) fun _ _ => mem_queues_add]
  simp [AList.mem_keys]

/-- **The devices**: one for each id that an item creates a device for. -/
theorem mem_devices_load {selfDeviceId : String} {cfg : Json}
    {devices : AList fun _ : String => Device} {deviceId : String} :
    deviceId ∈ (load selfDeviceId cfg devices).devices ↔
      deviceId ∈ devices ∨ ∃ dcfg ∈ items cfg, Creates deviceId dcfg := by
  rw [load, foldl_add_iff (P := fun t => deviceId ∈ t.devices) fun _ _ => mem_devices_add]

/-- No queue has been shut down, and no device runs. -/
structure Fresh (t : Tables) : Prop where
  queues : All (fun _ q => q.shutdown = false) t.queues
  devices : All (fun _ dev => dev.worker = .none) t.devices

/-- An item adds what is fresh. -/
theorem Fresh.add {t : Tables} (h : Fresh t) (dcfg : Json) : Fresh (t.add dcfg) := by
  unfold Tables.add
  cases described dcfg with
  | none => exact h
  | some named =>
    refine ⟨h.queues.insert rfl, ?_⟩
    simp only [enter]
    split
    next => exact h.devices
    next dev hc => exact h.devices.insert (MyDevice.worker_create hc)

/-- All tables are fresh after they have been filled. -/
theorem fresh_load (selfDeviceId : String) (cfg : Json)
    {devices : AList fun _ : String => Device}
    (h : All (fun _ dev => dev.worker = .none) devices) :
    Fresh (load selfDeviceId cfg devices) := by
  have hfold : ∀ (dcfgs : List Json) t, Fresh t → Fresh (dcfgs.foldl Tables.add t) := by
    intro dcfgs
    induction dcfgs with
    | nil => exact fun _ ht => ht
    | cons dcfg dcfgs ih => exact fun t ht => ih (t.add dcfg) (ht.add dcfg)
  exact hfold _ _ ⟨All.singleton rfl, h⟩

end Tables

end MyEdge
