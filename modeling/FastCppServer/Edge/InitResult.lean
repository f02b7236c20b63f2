import FastCppServer.Edge.Init

/-!
# What the result of `Init` says

`Init` of `UUVEdge` and of `TUNAEdge`. Its loop sets `run_state_` to `Ready` at each item that it
makes a device of and to `Initializing` at each other one, so the last item decides it, while the
result is `true` where no item has failed. They agree where the last item fails, or where all items
are good and no id comes twice (`Agree`). `UUVEdge` goes on to the loop where `devices` is no array
or is not there, which for a `const` object is undefined.

A queue and a device are what has been made at an item of the list, so they name its place. How
the creation of a device ends is a parameter.
-/

namespace MyEdge

namespace InitResult

open Function MyData

/-- How `MyDevice::Create` ends: with a device, with a null pointer or with an exception. -/
inductive Creation where
  | made
  | null
  | threw
  deriving DecidableEq

/-- `MyDevice::Create`, with the type and the item that it is given. -/
abbrev Create := String → Json → Creation

/-- What a queue has been made for. -/
inductive Owner where
  | edge
  | item (i : Nat)
  deriving DecidableEq

/-- What `Init` writes. A device is the place of its item. -/
structure Edge where
  settings : Settings := {}
  runState : RunState := .initializing
  deviceTypeById : String → Option String := fun _ => none
  normalizersByType : String → Bool := fun _ => false
  queues : String → Option Owner := fun _ => none
  devices : String → Option Nat := fun _ => none
  /-- `vehicle_` of a `TUNAEdge` is not null. -/
  vehicle : Bool := false

/-- How `Init` ends. The last one is `operator[]` of the `const` configuration at a key that it does
not have. -/
inductive Result where
  | returned (status : Bool)
  | threw
  | undefined
  deriving DecidableEq

/-- The elements of a range over a value: a value that is no array and no object, and not null, is
its only one. -/
def elements : Json → List Json
  | .array items => items
  | .object fields => fields.map Prod.snd
  | .null => []
  | j => [j]

/-- The loop over the devices, from the place `i` on, with `initStatus`. -/
def initDevices (body : Edge → Nat → Json → Bool × Edge) :
    Nat → List Json → Bool → Edge → Bool × Edge
  | _, [], initStatus, s => (initStatus, s)
  | i, dcfg :: rest, initStatus, s =>
    initDevices body (i + 1) rest (initStatus && (body s i dcfg).1) (body s i dcfg).2

namespace UUVEdge

/-- `MyControl::CreateNormalizer` knows the type. -/
def createNormalizer (type : String) : Bool :=
  type ∈ ["uuv", "UUV", "depth_sensor", "flow_sensor", "wind_sensor"]

/-- `EnsureNormalizerForTypeLocked`. -/
def ensureNormalizerForTypeLocked (s : Edge) (type : String) : Bool × Edge :=
  if s.normalizersByType type then (true, s)
  else if createNormalizer type then
    (true, { s with normalizersByType := update s.normalizersByType type true })
  else (false, s)

/-- The body of the loop. What is thrown in it is caught in it. -/
def initDevice (create : Create) (s : Edge) (i : Nat) (dcfg : Json) : Bool × Edge :=
  match described dcfg with
  | none => (false, { s with runState := .initializing })
  | some (deviceId, type) =>
    let s := { s with deviceTypeById := update s.deviceTypeById deviceId (some type) }
    match ensureNormalizerForTypeLocked s type with
    | (false, s) => (false, { s with runState := .initializing })
    | (true, s) =>
      let s := { s with queues := update s.queues deviceId (some (.item i)) }
      match create type dcfg with
      | .null | .threw => (false, { s with runState := .initializing })
      | .made => (true, { s with
          devices := update s.devices deviceId (some i), runState := .ready })

/-- The assignments of `UUVEdge::Init`, in their order. -/
def assignments (cfg : Json) : List (Settings → Option Settings) :=
  [fun s => (cfg.value Json.asString "edge_id" s.edgeId).map fun edgeId => { s with edgeId },
    fun s => (cfg.value Json.asString "version" "").map fun _ => s,
    fun s => (cfg.value Json.asString "edge_type" "").map fun _ => s,
    fun s => (cfg.value Json.asBool "allow_queue_when_estop" false).map fun allowQueueWhenEStop =>
      { s with allowQueueWhenEStop },
    fun s => (cfg.value Json.asBool "self_action_enable" true).map fun selfActionEnable =>
      { s with selfActionEnable },
    fun s => (cfg.value Json.asString "self_device_id" s.selfDeviceId).map fun selfDeviceId =>
      { s with selfDeviceId }]

/-- The tables after they have been cleared, with the queue of the edge itself. -/
def cleared (s : Edge) (settings : Settings) : Edge where
  settings
  runState := s.runState
  vehicle := s.vehicle
  queues :=
    if settings.selfActionEnable then update (fun _ => none) settings.selfDeviceId (some .edge)
    else fun _ => none

/-- `UUVEdge::Init`. -/
def init (create : Create) (s : Edge) (cfg : Json) : Result × Edge :=
  match Settings.assign (assignments cfg) s.settings with
  | (settings, false) => (.threw, { s with settings })
  | (settings, true) =>
    let s := cleared s settings
    match cfg.find "devices" with
    | none => (.undefined, { s with runState := .initializing })
    | some (.array items) =>
      let (initStatus, s) := initDevices (initDevice create) 0 items true s
      (.returned initStatus, s)
    | some devices =>
      let (initStatus, s) := initDevices (initDevice create) 0 (elements devices) false
        { s with runState := .initializing }
      (.returned initStatus, s)

end UUVEdge

namespace TUNAEdge

/-- The body of the loop. What is thrown in it is caught in it. -/
def initDevice (create : Create) (s : Edge) (i : Nat) (dcfg : Json) : Bool × Edge :=
  match described dcfg with
  | none => (false, { s with runState := .initializing })
  | some (deviceId, type) =>
    let s := { s with
      deviceTypeById := update s.deviceTypeById deviceId (some type)
      queues := update s.queues deviceId (some (.item i)) }
    match create type dcfg with
    | .null | .threw => (false, { s with runState := .initializing })
    | .made => (true, { s with
        devices := update s.devices deviceId (some i), runState := .ready })

/-- The assignments of `TUNAEdge::Init`, in their order. -/
def assignments (cfg : Json) : List (Settings → Option Settings) :=
  [fun s => (cfg.value Json.asString "edge_id" s.edgeId).map fun edgeId => { s with edgeId },
    fun s => (cfg.value Json.asString "version" "").map fun _ => s,
    fun s => (cfg.value Json.asString "edge_type" "").map fun _ => s,
    fun s => (cfg.value Json.asBool "allow_queue_when_estop" false).map fun allowQueueWhenEStop =>
      { s with allowQueueWhenEStop }]

/-- The tables of a `TUNAEdge` after they have been cleared. The vehicle stays. -/
def cleared (s : Edge) (settings : Settings) : Edge where
  settings
  runState := s.runState
  vehicle := s.vehicle

/-- `TUNAEdge::Init`. -/
def init (create : Create) (s : Edge) (cfg : Json) : Result × Edge :=
  match Settings.assign (assignments cfg) s.settings with
  | (settings, false) => (.threw, { s with settings })
  | (settings, true) =>
    let s := cleared s settings
    match cfg.find "devices" with
    | some (.array items) =>
      let (initStatus, s) := initDevices (initDevice create) 0 items true s
      match cfg.value Json.asString "connection_url" "" with
      | none => (.threw, s)
      | some conn => (.returned initStatus, { s with vehicle := s.vehicle || conn != "" })
    | _ => (.returned false, { s with runState := .initializing })

end TUNAEdge

/-! ## What the result is to say -/

/-- Each item of the list has the type, the queue and the device that were made for it. -/
def Served (items : List Json) (t : Edge) : Prop :=
  ∀ i dcfg, items[i]? = some dcfg → ∃ deviceId type, described dcfg = some (deviceId, type) ∧
    t.deviceTypeById deviceId = some type ∧ t.queues deviceId = some (.item i) ∧
    t.devices deviceId = some i

/-- It returns; `true` where the edge is ready and all listed items are served, and only there; and
after `false` the edge is not ready. -/
structure Truthful (cfg : Json) (ending : Result × Edge) : Prop where
  returns : ∃ status, ending.1 = .returned status
  iff : ending.1 = .returned true ↔ ending.2.runState = .ready ∧ Served (items cfg) ending.2
  not_ready : ending.1 = .returned false → ending.2.runState ≠ .ready

/-! ## When it says it -/

/-- A device is made of the item, of a type that is known. -/
def good (known : String → Bool) (create : Create) (dcfg : Json) : Bool :=
  match described dcfg with
  | none => false
  | some (_, type) => known type && create type dcfg == .made

/-- The id of an item that has an id and a type. -/
def idOf (dcfg : Json) : Option String := (described dcfg).map Prod.fst

/-- The last item is not good; or all are good and no id comes twice, where an empty list leaves the
edge as it was. -/
def Agree (good : Json → Bool) (before : RunState) (items : List Json) : Prop :=
  match items.getLast? with
  | none => before = .ready
  | some last => good last = false ∨ (∀ dcfg ∈ items, good dcfg = true) ∧ (items.map idOf).Nodup

namespace UUVEdge

/-- When the result of `UUVEdge::Init` says what it should. -/
def Agrees (create : Create) (s : Edge) (cfg : Json) : Prop :=
  (Settings.assign (assignments cfg) s.settings).2 = true ∧
    match cfg.find "devices" with
    | none => False
    | some (.array items) => Agree (good createNormalizer create) s.runState items
    | some devices =>
      ∀ last, (elements devices).getLast? = some last →
        good createNormalizer create last = false

end UUVEdge

namespace TUNAEdge

/-- When the result of `TUNAEdge::Init` says what it should. -/
def Agrees (create : Create) (s : Edge) (cfg : Json) : Prop :=
  (Settings.assign (assignments cfg) s.settings).2 = true ∧
    match cfg.find "devices" with
    | some (.array items) =>
      (cfg.value Json.asString "connection_url" "").isSome = true ∧
        Agree (good (fun _ => true) create) s.runState items
    | _ => True

end TUNAEdge

/-! ## The loop -/

/-- What the body of a loop does: an item that is good gets its type, its queue and its device, and
after another one the edge is not ready. `inv` is about the edge before an item. -/
def Configures (inv : Edge → Prop) (good : Json → Bool)
    (body : Edge → Nat → Json → Bool × Edge) : Prop :=
  ∀ s i dcfg, inv s →
    (good dcfg = true ∧ ∃ deviceId type t, body s i dcfg = (true, t) ∧ inv t ∧
      described dcfg = some (deviceId, type) ∧
      t.deviceTypeById = update s.deviceTypeById deviceId (some type) ∧
      t.queues = update s.queues deviceId (some (.item i)) ∧
      t.devices = update s.devices deviceId (some i) ∧ t.runState = .ready) ∨
    good dcfg = false ∧ ∃ t, body s i dcfg = (false, t) ∧ inv t ∧ t.runState = .initializing

section
variable {inv : Edge → Prop} {good : Json → Bool} {body : Edge → Nat → Json → Bool × Edge}
  {s : Edge} {items : List Json}

/-- **The result** is `true` where no item has failed. -/
theorem initDevices_status (h : Configures inv good body) (hs : inv s) (i : Nat)
    (initStatus : Bool) :
    (initDevices body i items initStatus s).1 = (initStatus && items.all good) := by
  induction items generalizing i initStatus s with
  | nil => simp [initDevices]
  | cons dcfg rest ih =>
    rw [initDevices, List.all_cons, ← Bool.and_assoc]
    rcases h s i dcfg hs with ⟨hg, -, -, t, hbody, ht, -⟩ | ⟨hg, t, hbody, ht, -⟩
    · rw [hbody, ih ht, hg]
    · rw [hbody, ih ht, hg]

/-- **The last item** decides `run_state_`. -/
theorem initDevices_runState (h : Configures inv good body) (hs : inv s) (i : Nat)
    (initStatus : Bool) :
    (initDevices body i items initStatus s).2.runState =
      match items.getLast? with
      | none => s.runState
      | some last => if good last then .ready else .initializing := by
  induction items generalizing i initStatus s with
  | nil => rfl
  | cons dcfg rest ih =>
    rw [initDevices]
    rcases h s i dcfg hs with ⟨hg, -, -, t, hbody, ht, -, -, -, -, hrun⟩ | ⟨hg, t, hbody, ht, hrun⟩
    · rw [hbody, ih ht]
      cases rest with
      | nil => simp [hg, hrun]
      | cons dcfg' rest => rfl
    · rw [hbody, ih ht]
      cases rest with
      | nil => simp [hg, hrun]
      | cons dcfg' rest => rfl

/-- The items from the place `i` on are served. -/
def ServedFrom (i : Nat) (items : List Json) (t : Edge) : Prop :=
  ∀ j dcfg, items[j]? = some dcfg → ∃ deviceId type, described dcfg = some (deviceId, type) ∧
    t.deviceTypeById deviceId = some type ∧ t.queues deviceId = some (.item (i + j)) ∧
    t.devices deviceId = some (i + j)

/-- The tables of the two edges are the same at an id. -/
def SameAt (s t : Edge) (deviceId : String) : Prop :=
  t.deviceTypeById deviceId = s.deviceTypeById deviceId ∧
    t.queues deviceId = s.queues deviceId ∧ t.devices deviceId = s.devices deviceId

/-- **Good items whose ids differ are served**, and the tables are as they were at other ids. -/
theorem initDevices_serves (h : Configures inv good body) (hs : inv s) (i : Nat)
    (initStatus : Bool) (hgood : ∀ dcfg ∈ items, good dcfg = true)
    (hnodup : (items.map idOf).Nodup) :
    ServedFrom i items (initDevices body i items initStatus s).2 ∧
      ∀ deviceId, some deviceId ∉ items.map idOf →
        SameAt s (initDevices body i items initStatus s).2 deviceId := by
  induction items generalizing i initStatus s with
  | nil => exact ⟨fun j dcfg hj => (by cases hj), fun deviceId _ => ⟨rfl, rfl, rfl⟩⟩
  | cons dcfg rest ih =>
    obtain ⟨hdcfg, hrest⟩ := List.forall_mem_cons.1 hgood
    rw [List.map_cons, List.nodup_cons] at hnodup
    rcases h s i dcfg hs with
      ⟨-, deviceId, type, t, hbody, ht, hd, htypes, hqueues, hdevices, -⟩ | ⟨hbad, -⟩
    · have hid : idOf dcfg = some deviceId := by
        rw [idOf, hd]
        rfl
      rw [hid] at hnodup
      obtain ⟨hserved, hother⟩ := ih ht (i + 1) (initStatus && true) hrest hnodup.2
      rw [initDevices, hbody]
      constructor
      · intro j dcfg' hj
        cases j with
        | zero =>
          cases hj
          obtain ⟨hst, hsq, hsd⟩ := hother deviceId hnodup.1
          rw [htypes, update_self] at hst
          rw [hqueues, update_self] at hsq
          rw [hdevices, update_self] at hsd
          exact ⟨deviceId, type, hd, hst, hsq, hsd⟩
        | succ j =>
          obtain ⟨id', type', hd', hst, hsq, hsd⟩ := hserved j dcfg' hj
          rw [Nat.add_right_comm, Nat.add_assoc] at hsq hsd
          exact ⟨id', type', hd', hst, hsq, hsd⟩
      · intro id' hid'
        rw [List.map_cons, List.mem_cons, not_or, hid] at hid'
        have hne : id' ≠ deviceId := fun heq => hid'.1 (congrArg some heq)
        obtain ⟨hst, hsq, hsd⟩ := hother id' hid'.2
        rw [htypes, update_of_ne hne] at hst
        rw [hqueues, update_of_ne hne] at hsq
        rw [hdevices, update_of_ne hne] at hsd
        exact ⟨hst, hsq, hsd⟩
    · rw [hbad] at hdcfg
      cases hdcfg

/-- Two items of one id are not both served. -/
theorem Served.nodup {t : Edge} (h : Served items t) : (items.map idOf).Nodup := by
  rw [List.nodup_iff_getElem?_ne_getElem?]
  intro i j hij hj heq
  rw [List.length_map] at hj
  rw [List.getElem?_map, List.getElem?_map, List.getElem?_eq_getElem hj,
    List.getElem?_eq_getElem (hij.trans hj)] at heq
  obtain ⟨id₁, type₁, hd₁, -, -, hdev₁⟩ := h i _ (List.getElem?_eq_getElem (hij.trans hj))
  obtain ⟨id₂, type₂, hd₂, -, -, hdev₂⟩ := h j _ (List.getElem?_eq_getElem hj)
  simp only [Option.map_some, idOf, hd₁, hd₂, Option.some.injEq] at heq
  rw [heq, hdev₂] at hdev₁
  exact absurd (Option.some.inj hdev₁) (by omega)

/-- **The result of a loop over an array** agrees with the edge. -/
theorem initDevices_agree (h : Configures inv good body) (hs : inv s) :
    (((initDevices body 0 items true s).1 = true ↔
        (initDevices body 0 items true s).2.runState = .ready ∧
          Served items (initDevices body 0 items true s).2) ∧
      ((initDevices body 0 items true s).1 = false →
        (initDevices body 0 items true s).2.runState ≠ .ready)) ↔
      Agree good s.runState items := by
  have hstatus : (initDevices body 0 items true s).1 = true ↔ ∀ dcfg ∈ items, good dcfg = true := by
    rw [initDevices_status h hs, Bool.true_and, List.all_eq_true]
  have hstate : (initDevices body 0 items true s).2.runState =
      match items.getLast? with
      | none => s.runState
      | some last => if good last then .ready else .initializing := initDevices_runState h hs 0 true
  rw [← Bool.not_eq_true, hstatus, hstate, Agree]
  cases hlast : items.getLast? with
  | none =>
    rw [List.getLast?_eq_none_iff] at hlast
    subst hlast
    simp [Served]
  | some last =>
    by_cases hgood : good last = true
    · simp only [hgood, if_true, true_and, ne_eq, not_true_eq_false, imp_false, not_not,
        Bool.true_eq_false, false_or]
      constructor
      · rintro ⟨hiff, hall⟩
        exact ⟨hall, (hiff.1 hall).nodup⟩
      · rintro ⟨hall, hnodup⟩
        have hserved := (initDevices_serves h hs 0 true hall hnodup).1
        refine ⟨iff_of_true hall fun i dcfg hi => ?_, hall⟩
        have hi' := hserved i dcfg hi
        rwa [Nat.zero_add] at hi'
    · have hnot : ¬ ∀ dcfg ∈ items, good dcfg = true :=
        fun hall => hgood (hall last (List.mem_of_getLast? hlast))
      rw [Bool.not_eq_true] at hgood
      simp [hgood, hnot]

/-- **The result of a loop over what is no array** is `false`, and no item is listed. -/
theorem initDevices_refuses (h : Configures inv good body) (hs : inv s)
    (hstate : s.runState = .initializing) :
    (((initDevices body 0 items false s).1 = true ↔
        (initDevices body 0 items false s).2.runState = .ready ∧
          Served [] (initDevices body 0 items false s).2) ∧
      ((initDevices body 0 items false s).1 = false →
        (initDevices body 0 items false s).2.runState ≠ .ready)) ↔
      ∀ last, items.getLast? = some last → good last = false := by
  have hserved : ∀ t, Served [] t := fun t i dcfg hi => by cases hi
  rw [initDevices_status h hs, initDevices_runState h hs, Bool.false_and]
  cases items.getLast? with
  | none => simp [hstate]
  | some last => simp [hserved]

/-- What is said where `Init` returns. -/
theorem truthful_returned {cfg : Json} {status : Bool} {t : Edge} :
    Truthful cfg (.returned status, t) ↔
      (status = true ↔ t.runState = .ready ∧ Served (MyEdge.items cfg) t) ∧
        (status = false → t.runState ≠ .ready) := by
  constructor
  · intro h
    have hiff := h.iff
    have hnot := h.not_ready
    simp only [Result.returned.injEq] at hiff hnot
    exact ⟨hiff, hnot⟩
  · intro h
    exact ⟨⟨status, rfl⟩, by simpa only [Result.returned.injEq] using h.1,
      by simpa only [Result.returned.injEq] using h.2⟩

/-- Where it does not return, the result says nothing. -/
theorem not_truthful_of_ne {cfg : Json} {ending : Result × Edge}
    (h : ∀ status, ending.1 ≠ .returned status) : ¬ Truthful cfg ending := by
  intro ht
  obtain ⟨status, hstatus⟩ := ht.returns
  exact h status hstatus

end

/-! ## The two edges -/

namespace UUVEdge

/-- The normalizers are of types that are known. -/
def Known (s : Edge) : Prop :=
  ∀ type, s.normalizersByType type = true → createNormalizer type = true

/-- A normalizer is there afterwards where the type is known; nothing else has changed. -/
theorem ensureNormalizerForTypeLocked_spec {s : Edge} (h : Known s) (type : String) :
    ∃ normalizersByType, ensureNormalizerForTypeLocked s type =
        (createNormalizer type, { s with normalizersByType }) ∧
      Known { s with normalizersByType } := by
  unfold ensureNormalizerForTypeLocked
  split
  next hthere => exact ⟨s.normalizersByType, by rw [h type hthere], h⟩
  next =>
    split
    next hknown =>
      refine ⟨_, by rw [hknown], fun type' htype' => ?_⟩
      rcases eq_or_ne type' type with rfl | hne
      · exact hknown
      · exact h type' ((update_of_ne hne _ _).symm.trans htype')
    next hunknown => exact ⟨s.normalizersByType, by rw [Bool.eq_false_iff.2 hunknown], h⟩

/-- The body of the loop of `UUVEdge` configures its item. -/
theorem initDevice_configures (create : Create) :
    Configures Known (good createNormalizer create) (initDevice create) := by
  intro s i dcfg hs
  unfold initDevice good
  cases hd : described dcfg with
  | none => exact .inr ⟨rfl, _, rfl, hs, rfl⟩
  | some named =>
    obtain ⟨deviceId, type⟩ := named
    obtain ⟨normalizersByType, hens, hknown⟩ := ensureNormalizerForTypeLocked_spec
      (s := { s with deviceTypeById := update s.deviceTypeById deviceId (some type) }) hs type
    dsimp only
    rw [hens]
    cases createNormalizer type with
    | false => exact .inr ⟨rfl, _, rfl, hknown, rfl⟩
    | true =>
      dsimp only
      cases create type dcfg with
      | made => exact .inl ⟨rfl, deviceId, type, _, rfl, hknown, rfl, rfl, rfl, rfl, rfl⟩
      | null => exact .inr ⟨rfl, _, rfl, hknown, rfl⟩
      | threw => exact .inr ⟨rfl, _, rfl, hknown, rfl⟩

end UUVEdge

namespace TUNAEdge

/-- The body of the loop of `TUNAEdge` configures its item. -/
theorem initDevice_configures (create : Create) :
    Configures (fun _ => True) (good (fun _ => true) create) (initDevice create) := by
  intro s i dcfg _
  unfold initDevice good
  cases hd : described dcfg with
  | none => exact .inr ⟨rfl, _, rfl, trivial, rfl⟩
  | some named =>
    obtain ⟨deviceId, type⟩ := named
    dsimp only
    cases create type dcfg with
    | made => exact .inl ⟨rfl, deviceId, type, _, rfl, trivial, rfl, rfl, rfl, rfl, rfl⟩
    | null => exact .inr ⟨rfl, _, rfl, trivial, rfl⟩
    | threw => exact .inr ⟨rfl, _, rfl, trivial, rfl⟩

end TUNAEdge

/-- **`UUVEdge::Init` says what it should** exactly where its readings agree. -/
theorem UUVEdge.truthful_iff (create : Create) (s : Edge) (cfg : Json) :
    Truthful cfg (UUVEdge.init create s cfg) ↔ UUVEdge.Agrees create s cfg := by
  have hbody := UUVEdge.initDevice_configures create
  unfold UUVEdge.init UUVEdge.Agrees
  rcases Settings.assign (UUVEdge.assignments cfg) s.settings with ⟨settings, read⟩
  cases read with
  | false => simpa using not_truthful_of_ne fun status h => by cases h
  | true =>
    have hknown : UUVEdge.Known (UUVEdge.cleared s settings) := fun _ h => by cases h
    dsimp only
    simp only [true_and]
    cases hdevices : cfg.find "devices" with
    | none => simpa using not_truthful_of_ne fun status h => by cases h
    | some devices =>
      cases devices with
      | array items =>
        have hitems : MyEdge.items cfg = items := by rw [MyEdge.items, hdevices]
        dsimp only
        rw [truthful_returned, hitems]
        exact initDevices_agree hbody hknown
      | _ =>
        have hitems : MyEdge.items cfg = [] := by rw [MyEdge.items, hdevices]
        dsimp only
        rw [truthful_returned, hitems]
        exact initDevices_refuses hbody (s := { UUVEdge.cleared s settings with
          runState := .initializing }) hknown rfl

/-- **`TUNAEdge::Init` says what it should** exactly where its readings agree. -/
theorem TUNAEdge.truthful_iff (create : Create) (s : Edge) (cfg : Json) :
    Truthful cfg (TUNAEdge.init create s cfg) ↔ TUNAEdge.Agrees create s cfg := by
  have hbody := TUNAEdge.initDevice_configures create
  unfold TUNAEdge.init TUNAEdge.Agrees
  rcases Settings.assign (TUNAEdge.assignments cfg) s.settings with ⟨settings, read⟩
  cases read with
  | false => simpa using not_truthful_of_ne fun status h => by cases h
  | true =>
    dsimp only
    simp only [true_and]
    have hother : Truthful cfg
        (.returned false, { TUNAEdge.cleared s settings with runState := .initializing }) := by
      simp [truthful_returned]
    cases hdevices : cfg.find "devices" with
    | none => exact iff_of_true hother trivial
    | some devices =>
      cases devices with
      | array items =>
        have hitems : MyEdge.items cfg = items := by rw [MyEdge.items, hdevices]
        dsimp only
        cases cfg.value Json.asString "connection_url" "" with
        | none => simpa using not_truthful_of_ne fun status h => by cases h
        | some conn =>
          simp only [Option.isSome_some, true_and]
          rw [truthful_returned, hitems]
          exact initDevices_agree hbody trivial
      | _ => exact iff_of_true hother trivial

/-- **When the result of `Init` says what has become of the edge**, for every configuration, every
edge before and every way in which the devices are created. -/
theorem init_truthful_iff (create : Create) (s : Edge) (cfg : Json) :
    (Truthful cfg (UUVEdge.init create s cfg) ↔ UUVEdge.Agrees create s cfg) ∧
      (Truthful cfg (TUNAEdge.init create s cfg) ↔ TUNAEdge.Agrees create s cfg) :=
  ⟨UUVEdge.truthful_iff create s cfg, TUNAEdge.truthful_iff create s cfg⟩

/-- What `MyDevice::Create` does for the types that it knows. -/
def creates : Create := fun type dcfg =>
  if (MyDevice.create type dcfg).isSome then .made else .null

/-- An item without an id and then a good one: the result is `false`, and the edge is ready. -/
theorem not_truthful : ¬ ∀ create s cfg, Truthful cfg (UUVEdge.init create s cfg) ∧
    Truthful cfg (TUNAEdge.init create s cfg) := by
  intro h
  have hready := (h creates {} (.object [("devices", .array [.object [],
    .object [("device_id", .string "uuv-1"), ("type", .string "uuv")]])])).1.not_ready
  exact hready rfl rfl

end InitResult

end MyEdge
