import FastCppServer.Lib.Since
import FastCppServer.Lib.Transition
import FastCppServer.MyPod.PodConfig

/-!
# The pipeline

`Pipeline` launches the modules that its configuration lists and stops them at the end. `Start`
looks at every node before it launches one, and one node of a wrong type keeps all of them from
being launched; `LaunchRoBot` reads each node again, in a `try` of its own, so that there a node
that fails leaves the others alone. A node is a field of an object, so the nodes come in the order
of their keys as strings.

What is launched is decided by the configuration (`plan`), whatever the launches come to. `Stop`
stops the services in a fixed order, except that it forgets two, and that it stops the audio service
only if `working_models_` knows of it, which `Init` clears (`pipeline_run`).
-/

namespace Pipeline

open MyData Transition

/-! ## Modules and services -/

/-- The names that `LaunchRoBot` knows. -/
inductive Module where
  | heartbeat | mqttComm | fastMqtt | comm | systemHealthy | edgeMonitor | restApi | edge
  | mqttBroker | softHealthyMonitor | flyControl | pod | mediamtxMonitor | fileCache | audioServer
  | searchLight | airdropLock | comm2536 | gasDetector
  deriving DecidableEq

/-- The chain of comparisons with `model_name`. -/
def Module.ofName : String → Option Module
  | "heartbeat" => some .heartbeat
  | "mqtt_comm" => some .mqttComm
  | "fast_mqtt" => some .fastMqtt
  | "comm" => some .comm
  | "system_healthy" => some .systemHealthy
  | "edge_monitor" => some .edgeMonitor
  | "rest_api" => some .restApi
  | "edge" => some .edge
  | "MQTTBroker" => some .mqttBroker
  | "soft_healthy_monitor" => some .softHealthyMonitor
  | "fly_control" => some .flyControl
  | "pod" => some .pod
  | "mediamtx_monitor" => some .mediamtxMonitor
  | "file_cache" => some .fileCache
  | "audio_server" => some .audioServer
  | "search_light" => some .searchLight
  | "airdrop_lock" => some .airdropLock
  | "2536_comm" => some .comm2536
  | "gas_detector" => some .gasDetector
  | _ => none

/-- The singletons behind the modules. -/
inductive Service where
  | heartbeat | mqttService | fastMqtt | edges | api | broker | softHealth | flyControl | pods
  | podStream | fileCache | audios | searchlight | airdropLock | comm | gasDetector
  deriving DecidableEq

/-- What the launch of a module initialises and starts. -/
def Module.service : Module → Option Service
  | .heartbeat => some .heartbeat
  | .mqttComm => some .mqttService
  | .fastMqtt => some .fastMqtt
  | .comm | .systemHealthy => none
  | .edgeMonitor | .edge => some .edges
  | .restApi => some .api
  | .mqttBroker => some .broker
  | .softHealthyMonitor => some .softHealth
  | .flyControl => some .flyControl
  | .pod => some .pods
  | .mediamtxMonitor => some .podStream
  | .fileCache => some .fileCache
  | .audioServer => some .audios
  | .searchLight => some .searchlight
  | .airdropLock => some .airdropLock
  | .comm2536 => some .comm
  | .gasDetector => some .gasDetector

/-- The calls of `Stop`, in order; `audio` is `ModelIsRunning("audio_server")`. -/
def stopOrder (audio : Bool) : List Service :=
  [.comm, .airdropLock, .searchlight] ++ (if audio then [.audios] else []) ++
    [.podStream, .pods, .flyControl, .softHealth, .fastMqtt, .mqttService, .broker, .edges,
      .heartbeat, .api]

/-! ## The nodes -/

/-- What `LaunchRoBot` reads of a node. -/
inductive Node where
  /-- There is no `model_name`. -/
  | skipped
  /-- A field has another type. -/
  | broken
  | disabled (stepTimeInterval : Int32)
  | enabled (modelName : String) (modelArgs : Json) (stepTimeInterval : Int32)

/-- The interval after a node that has one of its own. -/
def nextInterval (stepTimeInterval temp : Int32) : Int32 :=
  if 0 < temp then temp else stepTimeInterval

/-- `node_body.value("step_time_interval", step_time_interval)`. -/
def interval (body : Json) (stepTimeInterval : Int32) : Option Int32 :=
  body.value (fun j => (PodModule.getNumber j).map Int32.ofInt) "step_time_interval"
    stepTimeInterval

/-- What is read of a node: its `enable`, its name and arguments, and the wait that its interval
sets. -/
def readNode (stepTimeInterval : Int32) (body : Json) : Node :=
  match body.find "model_name" with
  | none => .skipped
  | some name =>
    match name.asString, body.value Json.asBool "enable" true, interval body stepTimeInterval with
    | some modelName, some enable, some temp =>
      if enable then
        .enabled modelName ((body.find "model_args").getD (.object []))
          (nextInterval stepTimeInterval temp)
      else .disabled (nextInterval stepTimeInterval temp)
    | _, _, _ => .broken

/-- What happens, in order. -/
inductive Event where
  | launch (key : String) (module : Module) (modelArgs : Json)
  | started (service : Service)
  | wait (seconds : Int32)
  | stopped (service : Service)

/-- What the launch of a node comes to: whether its service is up then, and whether an exception
leaves it. -/
structure Launched where
  starts : Bool
  throws : Bool

/-- What the launch of a module puts into the log, by how the launch ends. -/
def launchEvents (key : String) (module : Module) (modelArgs : Json) (launched : Launched) :
    List Event :=
  .launch key module modelArgs ::
    if launched.starts then module.service.toList.map Event.started else []

/-- The variables of the loop. -/
structure Loop where
  stepTimeInterval : Int32 := 3
  totalNodes : Nat := 0
  workingModels : List String
  log : List Event

/-- One round. -/
def launchNode (outcome : Nat → Launched) (s : Loop) (node : String × Json) : Loop :=
  let s := { s with totalNodes := s.totalNodes + 1 }
  match readNode s.stepTimeInterval node.2 with
  | .skipped | .broken => s
  | .disabled stepTimeInterval => { s with stepTimeInterval }
  | .enabled modelName modelArgs stepTimeInterval =>
    let s := { s with stepTimeInterval, workingModels := s.workingModels ++ [modelName] }
    match Module.ofName modelName with
    | none => { s with log := s.log ++ [.wait stepTimeInterval] }
    | some module =>
      let launched := outcome s.totalNodes
      let s := { s with log := s.log ++ launchEvents node.1 module modelArgs launched }
      if launched.throws then s
      else { s with log := s.log ++ [.wait stepTimeInterval] }

/-- `LaunchRoBot`, of the nodes. -/
def launchRoBot (outcome : Nat → Launched) (executes : List (String × Json))
    (workingModels : List String) (log : List Event) : Loop :=
  executes.foldl (launchNode outcome) { workingModels, log }

/-- The first loop of `Start`, which throws at a node of another type. -/
def startChecks (executes : List (String × Json)) : Bool :=
  executes.all fun node =>
    (node.2.value Json.asString "model_name" "未知模型").isSome &&
      (node.2.value Json.asBool "enable" true).isSome

/-! ## The pipeline -/

/-- The pipeline with the log of what it has done. -/
structure State where
  configData : Json := .null
  isRunning : Bool := false
  workingModels : List String := []
  log : List Event := []

/-- A call of the owner. A start brings how each of the launches ends. -/
inductive Label where
  | init (config : Json)
  | start (outcome : Nat → Launched)
  | stop

/-- The nodes of a configuration that passes the checks of `Start`. -/
def nodes (config : Json) : Option (List (String × Json)) :=
  match config.find "executes" with
  | some (.object executes) => if startChecks executes then some executes else none
  | _ => none

/-- One call. A `Start` that throws has no successor. -/
def step (s : State) : Label → Option State
  | .init config => some { s with configData := config, workingModels := [] }
  | .start outcome =>
    if s.isRunning then some s
    else match nodes s.configData with
      | none => some { s with isRunning := false }
      | some executes =>
        let loop := launchRoBot outcome executes s.workingModels s.log
        some { s with isRunning := true, workingModels := loop.workingModels, log := loop.log }
  | .stop =>
    if s.isRunning then
      some { s with
        isRunning := false
        log := s.log ++ (stopOrder (decide ("audio_server" ∈ s.workingModels))).map Event.stopped }
    else some s

/-! ## What is launched -/

/-- The module that a node is launched as: it names one that is known, is not disabled, and its
interval is a number where it has one. -/
def launches (node : String × Json) : Option (String × Module × Json) :=
  match readNode 3 node.2 with
  | .enabled modelName modelArgs _ =>
    (Module.ofName modelName).map fun module => (node.1, module, modelArgs)
  | _ => none

/-- What a configuration launches. -/
def plan (config : Json) : List (String × Module × Json) :=
  match nodes config with
  | none => []
  | some executes => executes.filterMap launches

/-- The launches among the events. -/
def launchOf : Event → Option (String × Module × Json)
  | .launch key module modelArgs => some (key, module, modelArgs)
  | _ => none

/-- What the calls say, without what the launches come to: the configuration, whether the pipeline
runs, and what has been launched. -/
structure Told where
  config : Json := .null
  runs : Bool := false
  launched : List (String × Module × Json) := []

/-- What one more call adds to what the owner knows. -/
def tell (t : Told) : Label → Told
  | .init config => { t with config }
  | .start _ =>
    if t.runs then t
    else { t with runs := (nodes t.config).isSome, launched := t.launched ++ plan t.config }
  | .stop => { t with runs := false }

/-- What the owner knows after its calls. -/
def told (ls : List Label) : Told := ls.foldl tell {}

/-- The service has been started and not stopped since. -/
def Up (service : Service) (log : List Event) : Prop :=
  Since (· = .started service) (· = .stopped service) log

/-- An `Init` comes while the pipeline runs. -/
def Reinitialised (ls : List Label) : Prop :=
  ∃ front config back, ls = front ++ .init config :: back ∧ (told front).runs = true

/-! ## One node -/

/-- **When a node is launched**: it has a name, it is enabled, and its interval can be read. -/
theorem readNode_eq_enabled {i t : Int32} {body modelArgs : Json} {modelName : String} :
    readNode i body = .enabled modelName modelArgs t ↔
      (∃ name, body.find "model_name" = some name ∧ name.asString = some modelName) ∧
        body.value Json.asBool "enable" true = some true ∧
        (body.find "model_args").getD (.object []) = modelArgs ∧
        ∃ temp, interval body i = some temp ∧ nextInterval i temp = t := by
  unfold readNode
  cases hname : body.find "model_name" with
  | none => simp
  | some name =>
    cases hmodel : name.asString with
    | none => simp [hmodel]
    | some model =>
      cases henable : body.value Json.asBool "enable" true with
      | none => simp
      | some enable =>
        cases interval body i with
        | none => simp
        | some temp => cases enable <;> simp [hmodel]

/-- Whether the interval of a node can be read does not depend on the one before. -/
theorem interval_isSome (i j : Int32) (body : Json) :
    (interval body i).isSome = (interval body j).isSome := by
  unfold interval Json.value
  cases body.isObject <;> cases body.find "step_time_interval" <;> rfl

/-- Whether a node is launched does not depend on the interval that is left from the nodes before
it. -/
theorem readNode_enabled {i t : Int32} (j : Int32) {body modelArgs : Json} {modelName : String}
    (h : readNode i body = .enabled modelName modelArgs t) :
    ∃ t', readNode j body = .enabled modelName modelArgs t' := by
  obtain ⟨hname, henable, hargs, temp, htemp, -⟩ := readNode_eq_enabled.1 h
  have hsome : (interval body j).isSome := by
    rw [interval_isSome j i, htemp]
    rfl
  obtain ⟨temp', htemp'⟩ := Option.isSome_iff_exists.1 hsome
  exact ⟨_, readNode_eq_enabled.2 ⟨hname, henable, hargs, temp', htemp', rfl⟩⟩

/-- An enabled node launches the module of its name, where there is such a module. -/
theorem launches_of_enabled {i t : Int32} {node : String × Json} {modelArgs : Json}
    {modelName : String} (h : readNode i node.2 = .enabled modelName modelArgs t) :
    launches node = (Module.ofName modelName).map fun module => (node.1, module, modelArgs) := by
  obtain ⟨t', ht'⟩ := readNode_enabled 3 h
  rw [launches, ht']

/-- A node that is not enabled launches nothing. -/
theorem launches_of_not_enabled {i : Int32} {node : String × Json}
    (h : ∀ modelName modelArgs t, readNode i node.2 ≠ .enabled modelName modelArgs t) :
    launches node = none := by
  unfold launches
  split
  next modelName modelArgs t ht =>
    obtain ⟨t', ht'⟩ := readNode_enabled i ht
    exact absurd ht' (h modelName modelArgs t')
  next => rfl

/-- The wait stays positive, whatever interval a node asks for. -/
theorem nextInterval_pos {i : Int32} (h : 0 < i) (temp : Int32) : 0 < nextInterval i temp := by
  unfold nextInterval
  split <;> assumption

/-- The wait that a node leaves is positive. -/
theorem readNode_pos {i : Int32} (h : 0 < i) {body : Json} {t : Int32}
    (ht : readNode i body = .disabled t ∨
      ∃ modelName modelArgs, readNode i body = .enabled modelName modelArgs t) : 0 < t := by
  have pos := nextInterval_pos h
  unfold readNode at ht
  grind

/-! ## The loop -/

/-- What rounds of the loop add: the events are those of the planned launches, a service that starts
has been asked for by a node that `working_models_` lists. -/
structure Adds (planned : List (String × Module × Json)) (events : List Event) (s t : Loop) :
    Prop where
  log : t.log = s.log ++ events
  launched : events.filterMap launchOf = planned
  waits : 0 < s.stepTimeInterval →
    0 < t.stepTimeInterval ∧ ∀ seconds, .wait seconds ∈ events → 0 < seconds
  working : s.workingModels ⊆ t.workingModels
  audio : .started .audios ∈ events → "audio_server" ∈ t.workingModels

/-- A loop that has done nothing adds nothing. -/
theorem Adds.refl (s : Loop) : Adds [] [] s s where
  log := by simp
  launched := rfl
  waits := fun h => ⟨h, by simp⟩
  working := List.Subset.refl _
  audio := by simp

/-- What two parts of a loop add is what they add one after the other. -/
theorem Adds.trans {p q : List (String × Module × Json)} {es fs : List Event} {s t u : Loop}
    (h : Adds p es s t) (k : Adds q fs t u) : Adds (p ++ q) (es ++ fs) s u where
  log := by rw [k.log, h.log, List.append_assoc]
  launched := by rw [List.filterMap_append, h.launched, k.launched]
  waits hs := by
    obtain ⟨ht, hes⟩ := h.waits hs
    obtain ⟨hu, hfs⟩ := k.waits ht
    refine ⟨hu, fun seconds hmem => ?_⟩
    exact (List.mem_append.1 hmem).elim (hes seconds) (hfs seconds)
  working := List.Subset.trans h.working k.working
  audio hmem :=
    (List.mem_append.1 hmem).elim (fun he => k.working (h.audio he)) k.audio

/-- Only the name `audio_server` launches the audio service. -/
theorem audio_server_of_ofName {modelName : String} {module : Module}
    (h : Module.ofName modelName = some module) (hs : module.service = some .audios) :
    modelName = "audio_server" := by
  unfold Module.ofName at h
  split at h <;> cases h <;> cases hs
  rfl

section
variable {key : String} {module : Module} {modelArgs : Json} {launched : Launched}

/-- A launch shows in the log once, with its key, its module and its arguments. -/
theorem filterMap_launchEvents :
    (launchEvents key module modelArgs launched).filterMap launchOf =
      [(key, module, modelArgs)] := by
  have h : (module.service.toList.map Event.started).filterMap launchOf = [] := by
    cases module.service <;> rfl
  unfold launchEvents
  cases launched.starts <;> simp [launchOf, h]

/-- A launch is no wait. -/
theorem wait_notMem_launchEvents (seconds : Int32) :
    .wait seconds ∉ launchEvents key module modelArgs launched := by
  simp [launchEvents]

/-- A launch starts the service of its module, and no other. -/
theorem service_of_mem_launchEvents {service : Service}
    (h : .started service ∈ launchEvents key module modelArgs launched) :
    module.service = some service := by
  unfold launchEvents at h
  cases hstarts : launched.starts with
  | false => simp [hstarts] at h
  | true => simpa [hstarts] using h

end

/-- A round of an enabled node, by its events. -/
theorem Adds.enabled {s : Loop} {modelName : String} {t : Int32} {totalNodes : Nat}
    {planned : List (String × Module × Json)} {events : List Event}
    (ht : 0 < s.stepTimeInterval → 0 < t) (launched : events.filterMap launchOf = planned)
    (waits : ∀ seconds, .wait seconds ∈ events → seconds = t)
    (audio : .started .audios ∈ events → modelName = "audio_server") :
    Adds planned events s
      { stepTimeInterval := t, totalNodes, workingModels := s.workingModels ++ [modelName],
        log := s.log ++ events } where
  log := rfl
  launched := launched
  waits hs := ⟨ht hs, fun seconds hmem => waits seconds hmem ▸ ht hs⟩
  working := List.subset_append_left _ _
  audio hmem := by simp [audio hmem]

/-- One round of the loop adds the launch of its node. -/
theorem launchNode_adds (outcome : Nat → Launched) (s : Loop) (node : String × Json) :
    ∃ events, Adds (launches node).toList events s (launchNode outcome s node) := by
  cases hread : readNode s.stepTimeInterval node.2 with
  | skipped | broken =>
    rw [@launches_of_not_enabled s.stepTimeInterval node (by simp [hread])]
    refine ⟨[], ?_⟩
    simp only [launchNode, hread]
    exact { Adds.refl s with }
  | disabled t =>
    rw [@launches_of_not_enabled s.stepTimeInterval node (by simp [hread])]
    refine ⟨[], ?_⟩
    simp only [launchNode, hread]
    exact { Adds.refl s with waits := fun hs => ⟨readNode_pos hs (.inl hread), by simp⟩ }
  | enabled modelName modelArgs t =>
    have ht : 0 < s.stepTimeInterval → 0 < t := fun hs =>
      readNode_pos hs (.inr ⟨modelName, modelArgs, hread⟩)
    rw [launches_of_enabled hread]
    simp only [launchNode, hread]
    cases hname : Module.ofName modelName with
    | none => exact ⟨[.wait t], Adds.enabled ht rfl (by simp) (by simp)⟩
    | some module =>
      have audio : ∀ launched, .started .audios ∈ launchEvents node.1 module modelArgs launched →
          modelName = "audio_server" := fun launched hmem =>
        audio_server_of_ofName hname (service_of_mem_launchEvents hmem)
      cases hthrows : (outcome (s.totalNodes + 1)).throws with
      | true =>
        exact ⟨_, Adds.enabled ht filterMap_launchEvents
          (fun seconds hmem => absurd hmem (wait_notMem_launchEvents seconds)) (audio _)⟩
      | false =>
        simp only [List.append_assoc]
        refine ⟨_, Adds.enabled ht ?_ (fun seconds hmem => ?_) fun hmem => ?_⟩
        · rw [List.filterMap_append, filterMap_launchEvents]
          rfl
        · simpa [wait_notMem_launchEvents] using hmem
        · exact audio _ (by simpa using hmem)

/-- **The loop adds the launches of its nodes, in their order.** -/
theorem launchRoBot_adds (outcome : Nat → Launched) (executes : List (String × Json))
    (workingModels : List String) (log : List Event) :
    ∃ events, Adds (executes.filterMap launches) events { workingModels, log }
      (launchRoBot outcome executes workingModels log) := by
  unfold launchRoBot
  generalize ({ workingModels, log } : Loop) = s
  induction executes generalizing s with
  | nil => exact ⟨[], Adds.refl s⟩
  | cons node executes ih =>
    obtain ⟨es, hes⟩ := launchNode_adds outcome s node
    obtain ⟨fs, hfs⟩ := ih (launchNode outcome s node)
    have planned : (node :: executes).filterMap launches =
        (launches node).toList ++ executes.filterMap launches := by
      cases h : launches node <;> simp [h]
    rw [planned]
    exact ⟨es ++ fs, hes.trans hfs⟩

/-! ## Runs -/

/-- A service that is up has been up before, or it has been started since. -/
theorem up_append {service : Service} {log events : List Event} (h : Up service (log ++ events)) :
    Up service log ∨ .started service ∈ events := by
  rcases Since.append.1 h with ⟨_, _, hsuffix, rfl, -⟩ | ⟨hlog, -⟩
  · exact .inr (hsuffix.subset List.mem_cons_self)
  · exact .inl hlog

/-- `Stop` leaves up what it does not stop. -/
theorem up_stop {service : Service} {log : List Event} {order : List Service} :
    Up service (log ++ order.map Event.stopped) ↔ Up service log ∧ service ∉ order := by
  have hstart : ¬ Since (· = Event.started service) (· = .stopped service)
      (order.map Event.stopped) := Since.not_of_forall (by simp)
  have hstop : (∀ e ∈ order.map Event.stopped, ¬ e = .stopped service) ↔ service ∉ order := by
    simp only [List.forall_mem_map, Event.stopped.injEq]
    exact ⟨fun h hmem => h service hmem rfl, fun h other hmem heq => h (heq ▸ hmem)⟩
  unfold Up
  rw [Since.append, hstop]
  simp [hstart]

/-- The services that `Stop` leaves up. -/
theorem mem_stopOrder {service : Service} {audio : Bool} (h : service ∉ stopOrder audio) :
    service = .fileCache ∨ service = .gasDetector ∨ service = .audios ∧ audio = false := by
  cases service <;> cases audio <;> simp [stopOrder] at h ⊢

/-- What the owner knows grows call by call. -/
theorem told_snoc (ls : List Label) (l : Label) : told (ls ++ [l]) = tell (told ls) l := by
  rw [told, List.foldl_append]
  rfl

/-- A configuration that has been given again stays so. -/
theorem Reinitialised.snoc {ls : List Label} (h : Reinitialised ls) (l : Label) :
    Reinitialised (ls ++ [l]) := by
  obtain ⟨front, config, back, rfl, hruns⟩ := h
  exact ⟨front, config, back ++ [l], by simp, hruns⟩

/-- What holds in every state that the calls lead to. -/
structure Inv (ls : List Label) (s : State) : Prop where
  config : s.configData = (told ls).config
  runs : s.isRunning = (told ls).runs
  launched : s.log.filterMap launchOf = (told ls).launched
  waits : ∀ seconds, .wait seconds ∈ s.log → 0 < seconds
  /-- A service that is up will be stopped, or is one that `Stop` does not reach. -/
  up : ∀ service, Up service s.log →
    service = .fileCache ∨ service = .gasDetector ∨ service = .audios ∧ Reinitialised ls ∨
      s.isRunning = true ∧ (service = .audios → "audio_server" ∈ s.workingModels)

/-- `Init` keeps it: the configuration is that of the owner. -/
theorem Inv.init {ls : List Label} {s : State} (inv : Inv ls s) (config : Json) :
    Inv (ls ++ [.init config]) { s with configData := config, workingModels := [] } where
  config := by rw [told_snoc, tell]
  runs := by rw [told_snoc, tell, inv.runs]
  launched := by rw [told_snoc, tell, inv.launched]
  waits := inv.waits
  up service hup := by
    rcases inv.up service hup with h | h | ⟨h, hre⟩ | ⟨hruns, -⟩
    · exact .inl h
    · exact .inr (.inl h)
    · exact .inr (.inr (.inl ⟨h, hre.snoc _⟩))
    · by_cases haudio : service = .audios
      · -- from now on `working_models_` does not know of the audio service
        exact .inr (.inr (.inl ⟨haudio, ls, config, [], rfl, by rw [← inv.runs, hruns]⟩))
      · exact .inr (.inr (.inr ⟨hruns, fun h => absurd h haudio⟩))

/-- A call that says nothing new and changes nothing. -/
theorem Inv.same {ls : List Label} {s : State} (inv : Inv ls s) {l : Label}
    (h : tell (told ls) l = told ls) : Inv (ls ++ [l]) s where
  config := by rw [told_snoc, h, inv.config]
  runs := by rw [told_snoc, h, inv.runs]
  launched := by rw [told_snoc, h, inv.launched]
  waits := inv.waits
  up service hup := by
    rcases inv.up service hup with h | h | ⟨h, hre⟩ | h
    · exact .inl h
    · exact .inr (.inl h)
    · exact .inr (.inr (.inl ⟨h, hre.snoc _⟩))
    · exact .inr (.inr (.inr h))

/-- `Start` keeps it: the launches are those of the configuration. -/
theorem Inv.start {ls : List Label} {s : State} (inv : Inv ls s) (outcome : Nat → Launched)
    (hruns : s.isRunning = false) {executes : List (String × Json)}
    (hnodes : nodes s.configData = some executes) :
    Inv (ls ++ [.start outcome])
      { s with
        isRunning := true
        workingModels := (launchRoBot outcome executes s.workingModels s.log).workingModels
        log := (launchRoBot outcome executes s.workingModels s.log).log } := by
  obtain ⟨events, adds⟩ := launchRoBot_adds outcome executes s.workingModels s.log
  obtain ⟨-, hwaits⟩ := adds.waits (show (0 : Int32) < 3 by decide)
  have hplan : plan (told ls).config = executes.filterMap launches := by
    rw [plan, ← inv.config, hnodes]
  have htell : told (ls ++ [.start outcome]) =
      { config := s.configData
        runs := true
        launched := s.log.filterMap launchOf ++ executes.filterMap launches } := by
    rw [told_snoc, tell, if_neg (by rw [← inv.runs, hruns]; decide), hplan, ← inv.config, hnodes,
      inv.launched]
    rfl
  exact
    { config := by rw [htell]
      runs := by rw [htell]
      launched := by rw [htell, adds.log, List.filterMap_append, adds.launched]
      waits := by
        intro seconds hmem
        rw [adds.log] at hmem
        exact (List.mem_append.1 hmem).elim (inv.waits seconds) (hwaits seconds)
      up := by
        intro service hup
        rw [adds.log] at hup
        rcases up_append hup with hup | hmem
        · rcases inv.up service hup with h | h | ⟨h, hre⟩ | ⟨h, -⟩
          · exact .inl h
          · exact .inr (.inl h)
          · exact .inr (.inr (.inl ⟨h, hre.snoc _⟩))
          · rw [hruns] at h
            cases h
        · refine .inr (.inr (.inr ⟨rfl, fun haudio => adds.audio ?_⟩))
          rwa [← haudio] }

/-- `Stop` keeps it: the services of its list go down. -/
theorem Inv.stop {ls : List Label} {s : State} (inv : Inv ls s) :
    Inv (ls ++ [.stop])
      { s with
        isRunning := false
        log := s.log ++
          (stopOrder (decide ("audio_server" ∈ s.workingModels))).map Event.stopped } where
  config := by rw [told_snoc, tell, inv.config]
  runs := by rw [told_snoc, tell]
  launched := by
    have h : ∀ order : List Service, (order.map Event.stopped).filterMap launchOf = [] := by
      intro order
      rw [List.filterMap_map]
      simp [Function.comp_def, launchOf]
    rw [told_snoc, tell, List.filterMap_append, h, List.append_nil, inv.launched]
  waits seconds hmem := inv.waits seconds (by simpa using hmem)
  up service hup := by
    obtain ⟨hlog, hmem⟩ := up_stop.1 hup
    rcases mem_stopOrder hmem with h | h | ⟨h, haudio⟩
    · exact .inl h
    · exact .inr (.inl h)
    · refine .inr (.inr (.inl ⟨h, ?_⟩))
      subst h
      rcases inv.up _ hlog with h | h | ⟨-, hre⟩ | ⟨-, hworking⟩
      · cases h
      · cases h
      · exact hre.snoc _
      · exact absurd (hworking rfl) (of_decide_eq_false haudio)

/-- **Every call keeps it.** -/
theorem Inv.step {ls : List Label} {s t : State} {l : Label} (inv : Inv ls s)
    (h : Pipeline.step s l = some t) : Inv (ls ++ [l]) t := by
  have hruns := inv.runs
  cases l with
  | init config =>
    cases h
    exact inv.init config
  | start outcome =>
    cases hs : s.isRunning with
    | true =>
      simp only [Pipeline.step, hs, if_true, Option.some.injEq] at h
      subst h
      exact inv.same (by rw [tell, if_pos (hruns ▸ hs)])
    | false =>
      cases hnodes : nodes s.configData with
      | none =>
        simp only [Pipeline.step, hs, hnodes, Bool.false_eq_true, if_false, Option.some.injEq] at h
        subst h
        rw [← hs]
        refine inv.same ?_
        -- no plan, and the pipeline does not run, as before
        rw [inv.config] at hnodes
        rw [hs] at hruns
        generalize told ls = t at hnodes hruns ⊢
        obtain ⟨config, runs, launched⟩ := t
        cases hruns
        simp_all [tell, plan]
      | some executes =>
        simp only [Pipeline.step, hs, hnodes] at h
        cases h
        exact inv.start outcome hs hnodes
  | stop =>
    cases hs : s.isRunning with
    | true =>
      simp only [Pipeline.step, hs, if_true, Option.some.injEq] at h
      subst h
      exact inv.stop
    | false =>
      simp only [Pipeline.step, hs, Bool.false_eq_true, if_false, Option.some.injEq] at h
      subst h
      refine inv.same ?_
      rw [tell, ← hs, hruns]

end Pipeline
