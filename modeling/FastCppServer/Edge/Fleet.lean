import FastCppServer.Edge.InitResult
import FastCppServer.Lib.Gather
import FastCppServer.Lib.Transition
import FastCppServer.MyData.RoundTrip
import FastCppServer.MyPod.PodConfig

/-!
# The edges of the program

`Pipeline::LaunchEdge` makes the edges of its arguments one by one and hands them to
`MyEdgeManager`, which has one edge of an id. A null pointer is passed over; an exception, which an
id that is there already is, ends the loop, and the edges made before it are started all the
same.

An edge without an array `devices` gets one, of a single device that has the type of the edge. So
`UUVEdge::Init` never reads a key that its configuration does not have. The device is one that
`MyDevice::Create` knows if the edge is a `UUVEdge`, and never if it is a `TUNAEdge`
(`ready_completed`).
-/

namespace MyEdge

namespace Fleet

open Gather InitResult MyData Transition

/-! ## Making an edge -/

/-- The types of an edge. -/
inductive Kind where
  | uuv
  | tuna
  | uav
  | una
  deriving DecidableEq

/-- The types of `MyEdge::Create`. -/
def kindOf (type : String) : Option Kind :=
  if type = "uuv" ∨ type = "UUV" then some .uuv
  else if type = "tuna" ∨ type = "TUNA" then some .tuna
  else if type = "uav" ∨ type = "UAV" then some .uav
  else if type = "una" ∨ type = "UNA" then some .una
  else none

/-- An edge, and the configuration it has been made of. -/
structure Member where
  kind : Kind
  cfg : Json
  id : String
  runState : RunState

/-- What `MyEdge::Create` comes to: a null pointer, an edge, or `operator[]` of a `const`
configuration at a key that it does not have. -/
inductive Made where
  | null
  | edge (m : Member)
  | undefined

/-- The constructor of a `UUVEdge` or a `TUNAEdge`, which goes on whatever `Init` returns. What is
thrown in it is caught in `Create`. -/
def made (kind : Kind) (cfg : Json) : Result × InitResult.Edge → Made
  | (.returned _, s) => .edge { kind, cfg, id := s.settings.edgeId, runState := s.runState }
  | (.threw, _) => .null
  | (.undefined, _) => .undefined

/-- The constructor of an edge that is a `BaseEdge`. -/
def madeBase (kind : Kind) (cfg : Json) : Made :=
  match Settings.read cfg {} with
  | (settings, true) => .edge { kind, cfg, id := settings.edgeId, runState := .ready }
  | (_, false) => .null

/-- `MyEdge::Create`. `vehicle` is whether the vehicle of a `UNAEdge` can be made. -/
def create (vehicle : Bool) (type : String) (cfg : Json) : Made :=
  match kindOf type with
  | some .uuv =>
    made .uuv cfg (UUVEdge.init creates { settings := { edgeId := "edge-unknown" } } cfg)
  | some .tuna =>
    made .tuna cfg (TUNAEdge.init creates { settings := { edgeId := "tuna-default" } } cfg)
  | some .uav => madeBase .uav cfg
  | some .una => if vehicle then madeBase .una cfg else .null
  | none => .null

/-! ## The arguments -/

/-- `args.value(key, dflt)` of an `int`. -/
def intValue (args : Json) (key : String) (dflt : Int32) : Option Int32 :=
  args.value (fun j => (PodModule.getNumber j).map Int32.ofInt) key dflt

/-- `edge_create_args.size()`. -/
def size : Json → Nat
  | .array items => items.length
  | .object fields => fields.length
  | .null => 0
  | _ => 1

/-- The arguments of one edge. The place of a value that is no array throws. -/
def singleEdgeArgs (edgeCreateArgs : Json) (i : Nat) : Option Json :=
  if i < size edgeCreateArgs then
    match edgeCreateArgs with
    | .array items => items[i]?
    | _ => none
  else some (.object [])

/-- The arguments have `devices`, as an array. -/
def hasDevices (args : Json) : Bool :=
  match args.find "devices" with
  | some (.array _) => true
  | _ => false

/-- The single device of an edge that has none. -/
def device (deviceId type : String) : Json :=
  .object [("device_id", .string deviceId), ("type", .string type)]

/-- The type of an edge, and its arguments with the `devices` that are missing. -/
def complete (i : Nat) (args : Json) : Option (String × Json) :=
  match args.value Json.asString "edge_type" "UnknownType" with
  | none => none
  | some edgeType =>
    if hasDevices args then some (edgeType, args)
    else
      match args.value Json.asString "name" ("device_" ++ toString i),
          args.value Json.asString "edge_type" edgeType with
      | some deviceId, some devType =>
        let completed := args.set "devices" (.array [device deviceId devType])
        if (completed.find "edge_id").isSome then some (edgeType, completed)
        else
          match completed.value Json.asString "name" ("edge_" ++ toString i) with
          | some edgeId => some (edgeType, completed.set "edge_id" (.string edgeId))
          | none => none
      | _, _ => none

/-! ## The manager -/

/-- The loop of `LaunchEdge` over `n` places from `i` on, with the edges of `MyEdgeManager` as they
have come. It is `none` where it comes to `undefined`; `appendEdge` throws at an id that is
there. -/
def launchLoop (vehicle : Nat → Bool) (edgeCreateArgs : Json) :
    Nat → Nat → List Member → Option (List Member)
  | 0, _, edges => some edges
  | n + 1, i, edges =>
    match (singleEdgeArgs edgeCreateArgs i).bind (complete i) with
    | none => some edges
    | some (edgeType, cfg) =>
      match create (vehicle i) edgeType cfg with
      | .null => launchLoop vehicle edgeCreateArgs n (i + 1) edges
      | .edge m =>
        if m.id ∈ edges.map Member.id then some edges
        else launchLoop vehicle edgeCreateArgs n (i + 1) (edges ++ [m])
      | .undefined => none

/-- `Start` of an edge, which does something where it is ready. `ok` is whether it comes to its
end. -/
def Member.start (ok : String → Bool) (m : Member) : Member :=
  if m.runState = .ready ∧ ok m.id = true then { m with runState := .running } else m

/-- `StartAllEdges`: every edge is started, whatever becomes of the others. -/
def startAllEdges (ok : String → Bool) (edges : List Member) : List Member :=
  edges.map (Member.start ok)

/-- `Shutdown` of an edge. -/
def Member.shutdown (m : Member) : Member := { m with runState := .stopped }

/-- `StopAllEdges`: every edge is shut down. -/
def stopAllEdges (edges : List Member) : List Member := edges.map Member.shutdown

/-- How many edges the arguments ask for, and the arguments of each. -/
def request (args : Json) : Option (Nat × Json) :=
  match intValue args "edge_number" 1, args.value some "edge_create_args" (.array []) with
  | some edgeNumber, some edgeCreateArgs => some (edgeNumber.toInt.toNat, edgeCreateArgs)
  | _, _ => none

/-- `LaunchEdge`. The exception of its first line leaves it. -/
def launchEdge (vehicle : Nat → Bool) (ok : String → Bool) (args : Json) (edges : List Member) :
    Option (List Member) :=
  match intValue args "interval_sec_" 10 with
  | none => some edges
  | some _ =>
    match request args with
    | none => some (startAllEdges ok edges)
    | some (n, edgeCreateArgs) =>
      (launchLoop vehicle edgeCreateArgs n 0 edges).map (startAllEdges ok)

/-- A call of the manager's owner. A launch brings what becomes of vehicles and of starts. -/
inductive Label where
  | launchEdge (vehicle : Nat → Bool) (ok : String → Bool) (args : Json)
  | startAllEdges (ok : String → Bool)
  | stopAllEdges

/-- One call. A launch has no successor where it leads to something undefined. -/
def step (edges : List Member) : Label → Option (List Member)
  | .launchEdge vehicle ok args => launchEdge vehicle ok args edges
  | .startAllEdges ok => some (startAllEdges ok edges)
  | .stopAllEdges => some (stopAllEdges edges)

/-! ## The arguments are completed -/

section
variable {args cfg : Json} {i : Nat} {type : String}

/-- What is found after a value has been set. -/
theorem find_set {j : Json} (h : j.isObject = true) (key key' : String) (value : Json) :
    (j.set key value).find key' = if key' = key then some value else j.find key' := by
  obtain ⟨fields, rfl⟩ := Json.isObject_iff.1 h
  exact Json.lookup_insert key key' value fields

/-- What `value` reads is an object. -/
theorem isObject_of_value {α : Type} {get : Json → Option α} {key : String} {dflt a : α}
    (h : args.value get key dflt = some a) : args.isObject = true := (Json.value_eq_some.1 h).1

/-- An object stays one when a value is set. -/
theorem isObject_set {j : Json} (h : j.isObject = true) (key : String) (value : Json) :
    (j.set key value).isObject = true := by
  obtain ⟨fields, rfl⟩ := Json.isObject_iff.1 h
  rfl

/-- The name of an edge, which is the id of its device. -/
def nameOf (i : Nat) (args : Json) : Option String :=
  args.value Json.asString "name" ("device_" ++ toString i)

/-- **What is completed.** The arguments have devices already, or they get the one that has the name
of the edge and its type. -/
theorem complete_cases (h : complete i args = some (type, cfg)) :
    args.value Json.asString "edge_type" "UnknownType" = some type ∧
      ((hasDevices args = true ∧ cfg = args) ∨
        hasDevices args = false ∧ ∃ name devType, nameOf i args = some name ∧
          args.value Json.asString "edge_type" type = some devType ∧
          cfg.find "devices" = some (.array [device name devType])) := by
  unfold complete at h
  cases htype : args.value Json.asString "edge_type" "UnknownType" with
  | none =>
    rw [htype] at h
    cases h
  | some edgeType =>
    have hobject := isObject_of_value htype
    rw [htype] at h
    dsimp only at h
    split at h
    next hdevices =>
      cases h
      exact ⟨rfl, .inl ⟨hdevices, rfl⟩⟩
    next hdevices =>
      split at h
      next deviceId devType hname hdev =>
        have hcompleted := find_set hobject "devices" "devices" (.array [device deviceId devType])
        rw [if_pos rfl] at hcompleted
        split at h
        next =>
          cases h
          exact ⟨rfl, .inr ⟨by simpa using hdevices, deviceId, devType, hname, hdev, hcompleted⟩⟩
        next =>
          split at h
          next edgeId hid =>
            cases h
            refine ⟨rfl, .inr ⟨by simpa using hdevices, deviceId, devType, hname, hdev, ?_⟩⟩
            rw [find_set (isObject_set hobject _ _), if_neg (by decide)]
            exact hcompleted
          next => cases h
      next => cases h

/-- The type of the device is that of the edge. -/
theorem devType_eq {devType : String}
    (h : args.value Json.asString "edge_type" "UnknownType" = some type)
    (hdev : args.value Json.asString "edge_type" type = some devType) : devType = type := by
  obtain ⟨-, ⟨hnone, rfl⟩ | ⟨field, hfield, hstring⟩⟩ := Json.value_eq_some.1 h
  · obtain ⟨-, ⟨-, rfl⟩ | ⟨field, hfield, -⟩⟩ := Json.value_eq_some.1 hdev
    · rfl
    · rw [hnone] at hfield
      cases hfield
  · obtain ⟨-, ⟨hnone, -⟩ | ⟨field', hfield', hstring'⟩⟩ := Json.value_eq_some.1 hdev
    · rw [hnone] at hfield
      cases hfield
    · rw [hfield] at hfield'
      cases hfield'
      rw [hstring] at hstring'
      exact (Option.some.inj hstring').symm

/-- What `devices` are, where there are any. -/
theorem find_devices_of_hasDevices (h : hasDevices cfg = true) :
    ∃ list, cfg.find "devices" = some (.array list) := by
  unfold hasDevices at h
  split at h
  next list hlist => exact ⟨list, hlist⟩
  next => cases h

/-- **The configuration of an edge has an array `devices`.** -/
theorem find_devices_complete (h : complete i args = some (type, cfg)) :
    ∃ list, cfg.find "devices" = some (.array list) := by
  obtain ⟨-, ⟨hdevices, rfl⟩ | ⟨-, name, devType, -, -, hlist⟩⟩ := complete_cases h
  · exact find_devices_of_hasDevices hdevices
  · exact ⟨_, hlist⟩

end

/-! ## An edge is ready -/

/-- The configuration is one of which the edge comes out ready. The last device decides. -/
def Ready (kind : Kind) (cfg : Json) : Prop :=
  match kind with
  | .uuv => ∃ last, (items cfg).getLast? = some last ∧
    good UUVEdge.createNormalizer creates last = true
  | .tuna => ∃ last, (items cfg).getLast? = some last ∧ good (fun _ => true) creates last = true
  | .uav | .una => True

/-- What an edge is like that has just been made. -/
structure Fresh (m : Member) : Prop where
  runState : m.runState = .ready ∨ m.runState = .initializing
  ready : m.runState = .ready ↔ Ready m.kind m.cfg

/-- A null pointer, or an edge of that kind. -/
def Makes (kind : Kind) (cfg : Json) (x : Made) : Prop :=
  x = .null ∨ ∃ m, x = .edge m ∧ m.kind = kind ∧ m.cfg = cfg ∧ Fresh m

section
variable {cfg : Json} {m : Member} {list : List Json}

/-- The state after a loop over the devices. -/
theorem runState_loop {inv : InitResult.Edge → Prop} {good : Json → Bool}
    {body : InitResult.Edge → Nat → Json → Bool × InitResult.Edge} {s : InitResult.Edge}
    (h : Configures inv good body) (hs : inv s) (hstate : s.runState = .initializing) :
    ((initDevices body 0 list true s).2.runState = .ready ∨
      (initDevices body 0 list true s).2.runState = .initializing) ∧
    ((initDevices body 0 list true s).2.runState = .ready ↔
      ∃ last, list.getLast? = some last ∧ good last = true) := by
  rw [initDevices_runState h hs]
  cases list.getLast? with
  | none => simp [hstate]
  | some last => cases hgood : good last <;> simp [hgood]

/-- **The constructor of a `UUVEdge`** makes an edge of its kind, of the configuration that it is
given. -/
theorem uuv_made {s : InitResult.Edge} (hs : s.runState = .initializing)
    (hlist : cfg.find "devices" = some (.array list)) :
    Makes .uuv cfg (made .uuv cfg (UUVEdge.init creates s cfg)) := by
  unfold UUVEdge.init
  split
  next => exact .inl rfl
  next settings _ =>
    have hknown : UUVEdge.Known (UUVEdge.cleared s settings) := fun _ h => by cases h
    have hloop := @runState_loop list _ _ _ (UUVEdge.cleared s settings)
      (UUVEdge.initDevice_configures creates) hknown hs
    have hitems : items cfg = list := by rw [items, hlist]
    rw [hlist]
    refine .inr ⟨_, rfl, rfl, rfl, hloop.1, hloop.2.trans ?_⟩
    rw [Ready, hitems]

/-- **The constructor of a `TUNAEdge`** makes an edge of its kind. -/
theorem tuna_made {s : InitResult.Edge} (hs : s.runState = .initializing)
    (hlist : cfg.find "devices" = some (.array list)) :
    Makes .tuna cfg (made .tuna cfg (TUNAEdge.init creates s cfg)) := by
  unfold TUNAEdge.init
  split
  next => exact .inl rfl
  next settings _ =>
    have hloop := @runState_loop list _ _ _ (TUNAEdge.cleared s settings)
      (TUNAEdge.initDevice_configures creates) trivial hs
    have hitems : items cfg = list := by rw [items, hlist]
    rw [hlist]
    dsimp only
    split
    next => exact .inl rfl
    next conn _ =>
      refine .inr ⟨_, rfl, rfl, rfl, hloop.1, hloop.2.trans ?_⟩
      rw [Ready, hitems]

/-- **The constructors that `BaseEdge` is enough for** make an edge of their kind. -/
theorem base_made {kind : Kind} (hkind : kind = .uav ∨ kind = .una) :
    Makes kind cfg (madeBase kind cfg) := by
  unfold madeBase
  split
  next settings _ =>
    refine .inr ⟨_, rfl, rfl, rfl, .inl rfl, iff_of_true rfl ?_⟩
    rcases hkind with rfl | rfl <;> trivial
  next => exact .inl rfl

/-- **Making an edge** of a configuration with an array `devices`. -/
theorem create_makes (vehicle : Bool) {type : String} {kind : Kind}
    (hlist : cfg.find "devices" = some (.array list)) (hkind : kindOf type = some kind) :
    Makes kind cfg (create vehicle type cfg) := by
  unfold create
  rw [hkind]
  cases kind with
  | uuv => exact uuv_made rfl hlist
  | tuna => exact tuna_made rfl hlist
  | uav => exact base_made (.inl rfl)
  | una =>
    cases vehicle with
    | false => exact .inl rfl
    | true => exact base_made (.inr rfl)

/-- Of a type that it does not know `Create` makes nothing. -/
theorem create_unknown (vehicle : Bool) {type : String} (hkind : kindOf type = none) :
    create vehicle type cfg = .null := by
  unfold create
  rw [hkind]

/-- The names of a `UUVEdge`. -/
theorem kindOf_uuv {type : String} (h : kindOf type = some .uuv) :
    type = "uuv" ∨ type = "UUV" := by
  unfold kindOf at h
  split_ifs at h with huuv
  · exact huuv
  all_goals cases h

/-- The names of a `TUNAEdge`. -/
theorem kindOf_tuna {type : String} (h : kindOf type = some .tuna) :
    type = "tuna" ∨ type = "TUNA" := by
  unfold kindOf at h
  split_ifs at h with huuv htuna
  · cases h
  · exact htuna
  all_goals cases h

/-- A device is described where its name and its type are not empty. -/
theorem described_device (name type : String) :
    described (device name type) = if name = "" ∨ type = "" then none else some (name, type) := rfl

/-- The device that an edge without devices gets is one that a `UUVEdge` can use if it has a name,
and that a `TUNAEdge` cannot use. -/
theorem ready_completed {kind : Kind} {type name : String} (hkind : kindOf type = some kind)
    (hdevice : cfg.find "devices" = some (.array [device name type])) :
    Ready kind cfg ↔ kind ≠ .tuna ∧ (kind = .uuv → name ≠ "") := by
  have hitems : items cfg = [device name type] := by rw [items, hdevice]
  cases kind with
  | uav | una => simp [Ready]
  | tuna =>
    have hbad : good (fun _ => true) creates (device name type) = false := by
      rw [good, described_device]
      rcases kindOf_tuna hkind with rfl | rfl <;> by_cases hname : name = "" <;>
        simp [hname, creates, MyDevice.create, MyDevice.types]
    simp [Ready, hitems, hbad]
  | uuv =>
    have hgood : good UUVEdge.createNormalizer creates (device name type) = true ↔ name ≠ "" := by
      rw [good, described_device]
      rcases kindOf_uuv hkind with rfl | rfl <;> by_cases hname : name = "" <;>
        simp [hname, creates, MyDevice.create, MyDevice.types, UUVEdge.createNormalizer]
    simp [Ready, hitems, hgood]

end

/-! ## The loop -/

/-- What the loop does with what `MyEdge::Create` comes to. -/
def Made.round : Made → Round Member
  | .edge m => .put m
  | .null | .undefined => .skip

/-- What the loop finds at a place. -/
def round (vehicle : Nat → Bool) (edgeCreateArgs : Json) (i : Nat) : Round Member :=
  match (singleEdgeArgs edgeCreateArgs i).bind (complete i) with
  | none => .stop
  | some (edgeType, cfg) => (create (vehicle i) edgeType cfg).round

section
variable {edgeCreateArgs cfg : Json} {edgeType : String} {i n : Nat} {edges : List Member}
  {m : Member} (vehicle : Nat → Bool)

/-- What the loop finds at a place that has arguments. -/
theorem round_of_args
    (hargs : (singleEdgeArgs edgeCreateArgs i).bind (complete i) = some (edgeType, cfg)) :
    round vehicle edgeCreateArgs i = (create (vehicle i) edgeType cfg).round := by
  rw [round, hargs]

/-- **A round** never comes to `undefined`. -/
theorem create_of_args
    (hargs : (singleEdgeArgs edgeCreateArgs i).bind (complete i) = some (edgeType, cfg)) :
    create (vehicle i) edgeType cfg = .null ∨
      ∃ m, create (vehicle i) edgeType cfg = .edge m ∧ kindOf edgeType = some m.kind ∧
        m.cfg = cfg ∧ Fresh m := by
  obtain ⟨args, -, hcomplete⟩ := Option.bind_eq_some_iff.1 hargs
  obtain ⟨list, hlist⟩ := find_devices_complete hcomplete
  cases hkind : kindOf edgeType with
  | none => exact .inl (create_unknown _ hkind)
  | some kind =>
    rcases create_makes (vehicle i) hlist hkind with hnull | ⟨m, hm, hk, hcfg, hfresh⟩
    · exact .inl hnull
    · exact .inr ⟨m, hm, congrArg some hk.symm, hcfg, hfresh⟩

variable {vehicle}

/-- **The loop** puts together what it finds. -/
theorem launchLoop_eq :
    launchLoop vehicle edgeCreateArgs n i edges =
      some (gather Member.id (round vehicle edgeCreateArgs) n i edges) := by
  induction n generalizing i edges with
  | zero => rfl
  | succ n ih =>
    unfold launchLoop
    cases hargs : (singleEdgeArgs edgeCreateArgs i).bind (complete i) with
    | none =>
      have hround : round vehicle edgeCreateArgs i = .stop := by rw [round, hargs]
      rw [gather_stop hround]
    | some found =>
      obtain ⟨edgeType, cfg⟩ := found
      have hround := round_of_args vehicle hargs
      dsimp only
      rcases create_of_args vehicle hargs with hnull | ⟨m, hm, -⟩
      · rw [hnull] at hround ⊢
        rw [gather_skip hround]
        exact ih
      · rw [hm] at hround ⊢
        by_cases hid : m.id ∈ edges.map Member.id
        · rw [gather_taken hround hid]
          exact if_pos hid
        · rw [gather_put hround hid]
          exact (if_neg hid).trans ih

/-- **What an edge has been made of**: the arguments at its place, with the devices that they have
or the one that is given to them. -/
theorem round_put (h : round vehicle edgeCreateArgs i = .put m) :
    Fresh m ∧ ∃ args type, singleEdgeArgs edgeCreateArgs i = some args ∧
      complete i args = some (type, m.cfg) ∧ kindOf type = some m.kind ∧
      (hasDevices args = false → ∃ name, nameOf i args = some name ∧
        (m.runState = .ready ↔ m.kind ≠ .tuna ∧ (m.kind = .uuv → name ≠ ""))) := by
  cases hfound : (singleEdgeArgs edgeCreateArgs i).bind (complete i) with
  | none =>
    rw [round, hfound] at h
    cases h
  | some found =>
    obtain ⟨edgeType, cfg⟩ := found
    rw [round_of_args vehicle hfound] at h
    rcases create_of_args vehicle hfound with hnull | ⟨m', hm, hkind, rfl, hfresh⟩
    · rw [hnull] at h
      cases h
    · rw [hm] at h
      cases h
      obtain ⟨args, hargs, hcomplete⟩ := Option.bind_eq_some_iff.1 hfound
      refine ⟨hfresh, args, edgeType, hargs, hcomplete, hkind, fun hno => ?_⟩
      obtain ⟨htype, ⟨hdevices, -⟩ | ⟨-, name, devType, hname, hdev, hfind⟩⟩ :=
        complete_cases hcomplete
      · rw [hno] at hdevices
        cases hdevices
      · rw [devType_eq htype hdev] at hfind
        exact ⟨name, hname, hfresh.ready.trans (ready_completed hkind hfind)⟩

end

/-! ## One launch -/

section
variable {ok : String → Bool} {edges : List Member} {m : Member}

/-- `Start` leaves the type of an edge alone. -/
@[simp] theorem start_kind : (m.start ok).kind = m.kind := by
  unfold Member.start
  split <;> rfl

/-- `Start` leaves the configuration of an edge alone. -/
@[simp] theorem start_cfg : (m.start ok).cfg = m.cfg := by
  unfold Member.start
  split <;> rfl

/-- `Start` leaves the id of an edge alone. -/
@[simp] theorem start_id : (m.start ok).id = m.id := by
  unfold Member.start
  split <;> rfl

/-- An edge that is started runs, if it was ready, and is left alone otherwise. -/
theorem start_runState :
    (m.start ok).runState = m.runState ∨
      m.runState = .ready ∧ (m.start ok).runState = .running := by
  unfold Member.start
  split
  next h => exact .inr ⟨h.1, rfl⟩
  next => exact .inl rfl

/-- An edge that has been stopped does not start again. -/
theorem start_of_stopped (h : m.runState = .stopped) : m.start ok = m := by
  unfold Member.start
  rw [if_neg (by simp [h])]

/-- Starting the edges leaves their ids alone. -/
@[simp] theorem map_id_startAllEdges :
    (startAllEdges ok edges).map Member.id = edges.map Member.id := by
  rw [startAllEdges, List.map_map]
  exact List.map_congr_left fun m _ => start_id

/-- Stopping the edges leaves their ids alone. -/
@[simp] theorem map_id_stopAllEdges :
    (stopAllEdges edges).map Member.id = edges.map Member.id := by
  rw [stopAllEdges, List.map_map]
  rfl

/-- **A launch that is not refused** gathers the edges of its places, and starts all that are
there. -/
theorem launchEdge_of_request {vehicle : Nat → Bool} {args edgeCreateArgs : Json} {n : Nat}
    (hinterval : (intValue args "interval_sec_" 10).isSome = true)
    (h : request args = some (n, edgeCreateArgs)) :
    launchEdge vehicle ok args edges =
      some (startAllEdges ok
        (gather Member.id (round vehicle edgeCreateArgs) n 0 edges)) := by
  obtain ⟨interval, hsome⟩ := Option.isSome_iff_exists.1 hinterval
  rw [launchEdge, hsome, h]
  dsimp only
  rw [launchLoop_eq]
  rfl

/-- **A launch** makes the edges of the places before the first one that fails or whose id is there,
it starts all edges, and the same launch again only starts them. -/
theorem launchEdge_exact {vehicle : Nat → Bool} {args edgeCreateArgs : Json} {n : Nat}
    (hinterval : (intValue args "interval_sec_" 10).isSome = true)
    (h : request args = some (n, edgeCreateArgs)) :
    ∃ k ≤ n, ∃ t, launchEdge vehicle ok args edges = some (startAllEdges ok t) ∧
      t = edges ++
        (List.range k).filterMap (fun i => (round vehicle edgeCreateArgs i).found) ∧
      (∀ i < k, round vehicle edgeCreateArgs i ≠ .stop) ∧
      (k < n → round vehicle edgeCreateArgs k = .stop ∨
        ∃ m, round vehicle edgeCreateArgs k = .put m ∧ m.id ∈ t.map Member.id) ∧
      ((edges.map Member.id).Nodup → (t.map Member.id).Nodup) ∧
      ∀ ok', launchEdge vehicle ok' args (startAllEdges ok t) =
        some (startAllEdges ok' (startAllEdges ok t)) := by
  obtain ⟨k, hk, heq, hall, hend⟩ :=
    @gather_eq _ _ _ Member.id (round vehicle edgeCreateArgs) n 0 edges
  have hplace : 0 + k = k := Nat.zero_add k
  rw [hplace] at hend
  refine ⟨k, hk, _, launchEdge_of_request hinterval h, ?_, fun i hi => hall i (Nat.zero_le i) ?_,
    hend, gather_nodup, fun ok' => ?_⟩
  · rw [heq, List.range_eq_range']
  · rwa [hplace]
  · have hthere : ∀ m ∈ gather Member.id (round vehicle edgeCreateArgs) n 0 edges,
        m.id ∈ (startAllEdges ok
          (gather Member.id (round vehicle edgeCreateArgs) n 0 edges)).map Member.id := by
      intro m hm
      rw [map_id_startAllEdges]
      exact List.mem_map_of_mem hm
    rw [launchEdge_of_request hinterval h, gather_again hthere]

/-- Two places with one name. -/
def namesakes : Json :=
  .object [("edge_number", .integer 2), ("edge_create_args", .array [
    .object [("edge_type", .string "UUV"), ("name", .string "a")],
    .object [("edge_type", .string "TUNA"), ("name", .string "a")]])]

/-- Of two places with one name one edge is launched. -/
theorem launchEdge_exact_namesakes : ∃ t,
    launchEdge (fun _ => true) (fun _ => true) namesakes [] =
      some (startAllEdges (fun _ => true) t) ∧ (t.map Member.id).Nodup := by
  obtain ⟨k, -, t, ht, -, -, -, hnodup, -⟩ :=
    @launchEdge_exact (fun _ => true) [] (fun _ => true) namesakes _ _ rfl rfl
  exact ⟨t, ht, hnodup List.nodup_nil⟩

end

/-! ## The edges over a run -/

/-- What becomes of an edge. It keeps what it has been made of; it runs if it came out ready. -/
structure Becomes (m m' : Member) : Prop where
  kind : m'.kind = m.kind
  cfg : m'.cfg = m.cfg
  id : m'.id = m.id
  runState : m'.runState = m.runState ∨ m'.runState = .stopped ∨
    m.runState = .ready ∧ m'.runState = .running

/-- The edge has been made at the place of a launch, of the arguments that are there. -/
def LaunchedBy (ls : List Label) (i : Nat) (args : Json) (m : Member) : Prop :=
  ∃ vehicle ok launchArgs edgeCreateArgs n, Label.launchEdge vehicle ok launchArgs ∈ ls ∧
    request launchArgs = some (n, edgeCreateArgs) ∧ i < n ∧
    singleEdgeArgs edgeCreateArgs i = some args ∧ round vehicle edgeCreateArgs i = .put m

/-- What holds of the edges after the labels. -/
structure Inv (ls : List Label) (edges : List Member) : Prop where
  nodup : (edges.map Member.id).Nodup
  made : ∀ m' ∈ edges, ∃ i args m, LaunchedBy ls i args m ∧ Becomes m m'

section
variable {ls ls' : List Label} {l : Label} {edges s t : List Member} {m m' : Member}
  {args : Json} {i : Nat} {ok : String → Bool}

/-- An edge that nothing happens to stays as it is. -/
theorem Becomes.rfl : Becomes m m := ⟨.refl _, .refl _, .refl _, .inl (.refl _)⟩

/-- An edge is started. -/
theorem Becomes.start (h : Becomes m m') : Becomes m (m'.start ok) := by
  refine ⟨start_kind.trans h.kind, start_cfg.trans h.cfg, start_id.trans h.id, ?_⟩
  rcases @start_runState ok m' with hsame | ⟨hready, hrunning⟩
  · rw [hsame]
    exact h.runState
  · rcases h.runState with hm | hstopped | ⟨-, hrun⟩
    · exact .inr (.inr ⟨hm.symm.trans hready, hrunning⟩)
    · rw [hstopped] at hready
      cases hready
    · rw [hrun] at hready
      cases hready

/-- An edge is shut down. -/
theorem Becomes.shutdown (h : Becomes m m') : Becomes m m'.shutdown :=
  ⟨h.kind, h.cfg, h.id, .inr (.inl (.refl _))⟩

/-- An edge has been launched whatever comes after. -/
theorem LaunchedBy.append (h : LaunchedBy ls i args m) : LaunchedBy (ls ++ ls') i args m := by
  obtain ⟨vehicle, ok, launchArgs, edgeCreateArgs, n, hmem, hrest⟩ := h
  exact ⟨vehicle, ok, launchArgs, edgeCreateArgs, n, List.mem_append_left _ hmem, hrest⟩

/-- What comes after does not change where the edges are from. -/
theorem Inv.append (h : Inv ls edges) : Inv (ls ++ ls') edges := by
  refine ⟨h.nodup, fun m' hm' => ?_⟩
  obtain ⟨i, args, m, hm, hbecomes⟩ := h.made m' hm'
  exact ⟨i, args, m, hm.append, hbecomes⟩

/-- What is done to every edge, where it keeps the ids and what becomes of each. -/
theorem Inv.map {f : Member → Member} (h : Inv ls edges) (hid : ∀ m, (f m).id = m.id)
    (hf : ∀ m m', Becomes m m' → Becomes m (f m')) : Inv ls (edges.map f) := by
  have hids : (edges.map f).map Member.id = edges.map Member.id := by
    rw [List.map_map]
    exact List.map_congr_left fun m _ => hid m
  refine ⟨by rw [hids]; exact h.nodup, fun m' hm' => ?_⟩
  obtain ⟨m₁, hm₁, rfl⟩ := List.mem_map.1 hm'
  obtain ⟨i, args, m, hm, hbecomes⟩ := h.made m₁ hm₁
  exact ⟨i, args, m, hm, hf m m₁ hbecomes⟩

/-- Starting the edges keeps it. -/
theorem Inv.started (h : Inv ls edges) : Inv ls (startAllEdges ok edges) :=
  h.map (fun _ => start_id) fun _ _ => Becomes.start

/-- Stopping the edges keeps it. -/
theorem Inv.stopped (h : Inv ls edges) : Inv ls (stopAllEdges edges) :=
  h.map (fun _ => .refl _) fun _ _ => Becomes.shutdown

/-- What the loop adds has been made at its places. -/
theorem Inv.gathered {vehicle : Nat → Bool} {edgeCreateArgs : Json} {n : Nat}
    (h : Inv ls edges) (hl : Label.launchEdge vehicle ok args ∈ ls)
    (hrequest : request args = some (n, edgeCreateArgs)) :
    Inv ls (gather Member.id (round vehicle edgeCreateArgs) n 0 edges) := by
  refine ⟨gather_nodup h.nodup, fun m' hm' => ?_⟩
  rcases mem_gather hm' with hm' | ⟨i, -, hi, hput⟩
  · exact h.made m' hm'
  · obtain ⟨-, edgeArgs, -, hargs, -⟩ := round_put hput
    have hin : i < n := by omega
    exact ⟨i, edgeArgs, m', ⟨vehicle, ok, args, edgeCreateArgs, n, hl, hrequest, hin, hargs, hput⟩,
      .rfl⟩

/-- What a step does to the edges that are there: it goes on with them, in their order, and leaves
one that is stopped as it is. -/
structure GoesOn (s t : List Member) : Prop where
  ids : s.map Member.id <+: t.map Member.id
  stopped : ∀ m ∈ s, m.runState = .stopped → m ∈ t

/-- Edges that nothing happens to go on. -/
theorem GoesOn.rfl : GoesOn s s := ⟨List.prefix_rfl, fun _ hm _ => hm⟩

/-- What goes on over two steps goes on over both. -/
theorem GoesOn.trans {u : List Member} (h : GoesOn s t) (h' : GoesOn t u) : GoesOn s u :=
  ⟨h.ids.trans h'.ids, fun m hm hstopped => h'.stopped m (h.stopped m hm hstopped) hstopped⟩

/-- Started edges go on. -/
theorem goesOn_startAllEdges : GoesOn s (startAllEdges ok s) := by
  refine ⟨by rw [map_id_startAllEdges], fun m hm hstopped => ?_⟩
  exact List.mem_map.2 ⟨m, hm, start_of_stopped hstopped⟩

/-- Stopped edges go on. -/
theorem goesOn_stopAllEdges : GoesOn s (stopAllEdges s) := by
  refine ⟨by rw [map_id_stopAllEdges], fun m hm hstopped => List.mem_map.2 ⟨m, hm, ?_⟩⟩
  rw [Member.shutdown, ← hstopped]

/-- Edges that are added come behind those that are there. -/
theorem goesOn_longer (h : s <+: t) : GoesOn s t :=
  ⟨h.map Member.id, fun _ hm _ => h.subset hm⟩

/-- **A step** comes to its end, and it keeps what holds of the edges. -/
theorem step_fleet (h : Inv ls s) :
    ∃ t, step s l = some t ∧ Inv (ls ++ [l]) t ∧ GoesOn s t := by
  cases l with
  | startAllEdges ok =>
    exact ⟨_, .refl _, h.append.started, goesOn_startAllEdges⟩
  | stopAllEdges =>
    exact ⟨_, .refl _, h.append.stopped, goesOn_stopAllEdges⟩
  | launchEdge vehicle ok args =>
    cases hinterval : intValue args "interval_sec_" 10 with
    | none =>
      refine ⟨s, ?_, h.append, .rfl⟩
      rw [step, launchEdge, hinterval]
    | some interval =>
      cases hrequest : request args with
      | none =>
        refine ⟨startAllEdges ok s, ?_, h.append.started, goesOn_startAllEdges⟩
        rw [step, launchEdge, hinterval, hrequest]
      | some found =>
        obtain ⟨n, edgeCreateArgs⟩ := found
        have hl : Label.launchEdge vehicle ok args ∈ ls ++ [.launchEdge vehicle ok args] := by
          simp
        refine ⟨_, launchEdge_of_request (by rw [hinterval]; exact .refl _) hrequest,
          (h.append.gathered hl hrequest).started, ?_⟩
        exact (goesOn_longer prefix_gather).trans goesOn_startAllEdges

/-- **Every run keeps it**, and the edges go on. -/
theorem run_fleet (h : Inv ls s) :
    ∃ t, run step s ls' = some t ∧ Inv (ls ++ ls') t ∧ GoesOn s t := by
  induction ls' generalizing ls s with
  | nil => exact ⟨s, run_nil s, h.append, .rfl⟩
  | cons l ls' ih =>
    obtain ⟨m, hm, hinv, hgoes⟩ := @step_fleet _ l _ h
    obtain ⟨t, ht, hinv', hgoes'⟩ := ih hinv
    refine ⟨t, ?_, ?_, hgoes.trans hgoes'⟩
    · rw [run_cons, hm]
      exact ht
    · rwa [List.append_assoc] at hinv'

/-- An edge that runs came out ready. -/
theorem ready_of_running (hm : LaunchedBy ls i args m) (h : Becomes m m')
    (hrunning : m'.runState = .running) :
    Ready m'.kind m'.cfg ∧
      (hasDevices args = false →
        m'.kind ≠ .tuna ∧ (m'.kind = .uuv → nameOf i args ≠ some "")) := by
  obtain ⟨vehicle, ok, launchArgs, edgeCreateArgs, n, -, -, -, hargs, hput⟩ := hm
  obtain ⟨hfresh, args', type, hargs', -, -, hdevices⟩ := round_put hput
  rw [hargs] at hargs'
  obtain rfl := Option.some.inj hargs'
  have hready : m.runState = .ready := by
    rcases h.runState with hsame | hstopped | ⟨hready, -⟩
    · rw [hrunning] at hsame
      rcases hfresh.runState with hm | hm <;> rw [hm] at hsame <;> cases hsame
    · rw [hrunning] at hstopped
      cases hstopped
    · exact hready
  rw [h.kind, h.cfg]
  refine ⟨hfresh.ready.1 hready, fun hno => ?_⟩
  obtain ⟨name, hname, hiff⟩ := hdevices hno
  obtain ⟨htuna, huuv⟩ := hiff.1 hready
  refine ⟨htuna, fun hkind hempty => huuv hkind ?_⟩
  rw [hname] at hempty
  exact Option.some.inj hempty

/-- **Over a run**, whatever is launched, started and stopped, and however often: `Init` reads no
key that is not there, no id comes twice, no edge is lost, and one that is stopped stays so. Each
edge has been made at a place of a launch, and it runs only if it came out ready. So an edge that
has been given its device does not run if it is a `TUNAEdge` or a `UUVEdge` with an empty name. -/
theorem fleet_run (ls ls' : List Label) :
    ∃ s, run step [] ls = some s ∧ (s.map Member.id).Nodup ∧
      (∀ m' ∈ s, ∃ i args m, LaunchedBy ls i args m ∧ Becomes m m' ∧
        (m'.runState = .running → Ready m'.kind m'.cfg ∧
          (hasDevices args = false →
            m'.kind ≠ .tuna ∧ (m'.kind = .uuv → nameOf i args ≠ some "")))) ∧
      ∃ t, run step s ls' = some t ∧ s.map Member.id <+: t.map Member.id ∧
        ∀ m ∈ s, m.runState = .stopped → m ∈ t := by
  obtain ⟨s, hs, hinv, -⟩ := @run_fleet [] ls [] ⟨List.nodup_nil, fun _ h => by cases h⟩
  obtain ⟨t, ht, -, hgoes⟩ := @run_fleet _ ls' _ hinv
  refine ⟨s, hs, hinv.nodup, fun m' hm' => ?_, t, ht, hgoes.ids, hgoes.stopped⟩
  obtain ⟨i, args, m, hm, hbecomes⟩ := hinv.made m' hm'
  exact ⟨i, args, m, hm, hbecomes, ready_of_running hm hbecomes⟩

end

end Fleet

end MyEdge
