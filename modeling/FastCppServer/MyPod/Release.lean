import FastCppServer.MyPod.PodManager

/-!
# How the manager lets go of its pods

A pod leaves the registry by `removePod` or `Shutdown`, which stop its monitor and disconnect it
where its state is `CONNECTED`, or by an `Init` that registers another one in its place, which does
neither. So a pod is released just where its session goes with its state, or where nothing is left
to release; and an `Init` that throws leaves the registry as it was just where it throws before it
registers a pod (`releases_iff`).
-/

namespace PodModule

open MyData Pod Transition

namespace PodManager

variable {m q : PodManager} {p : Pod} {podId : String} {cfg : Json} {attempt : Nat → Attempt}

/-! ## What is promised -/

/-- The monitor is stopped and the session disconnected. -/
structure Released (p : Pod) : Prop where
  monitor : p.monitor = none
  session : p.session ≠ some true

/-- Every pod that left the registry left it released. -/
def Tidy (m : PodManager) : Prop := ∀ pod ∈ m.left, Released pod

/-- What is promised of a step. -/
structure Releases (m : PodManager) (l : Label) (q : PodManager) : Prop where
  tidy : Tidy q
  unchanged : ∀ config attempts, l = .init config attempts → (m.init config attempts).2 = false →
    q.registry = m.registry ∧ q.initialized = m.initialized

/-! ## The entries of a configuration -/

/-- What becomes of an entry of the configuration. -/
inductive Fate where
  | threw
  | skipped
  | registered
  deriving DecidableEq

/-- The section of the PTZ in the configuration of a pod. -/
def ptzSection (cfg : Json) : Json :=
  getCapabilityConfig (cfg.getObjectOr "capability" (.object [])) cfg

/-- The SDK is to be set up with the pod. -/
def UsesSdk (vendor : PodVendor) (cfg : Json) : Prop :=
  vendor = .pinling ∧ isEnabled (ptzSection cfg) = true

instance (vendor : PodVendor) (cfg : Json) : Decidable (UsesSdk vendor cfg) :=
  inferInstanceAs (Decidable (_ ∧ _))

/-- The address of the SDK. -/
def sdkAddress (info : PodInfo) (cfg : Json) : Option (String × UInt16) :=
  resolvePinlingSdkConfig (info.update cfg) (initArgs (ptzSection cfg))

/-- What becomes of an entry, by its configuration. It throws where a field has the wrong type, and
is passed over where the type of the pod is not known or the SDK has no address. -/
def fate (podId : String) (cfg : Json) : Fate :=
  match readPodInfo podId cfg with
  | none => .threw
  | some (type, info) =>
    match readVendor type with
    | none => .skipped
    | some vendor =>
      if UsesSdk vendor cfg ∧ sdkAddress info cfg = none then .skipped
      else if UsesSdk vendor cfg ∧ loggable (ptzSection cfg) = false then .threw
      else if parseMonitorConfig cfg = none then .threw
      else .registered

/-- The entries that `Init` comes to, before one throws. -/
def reached (entries : List (String × Json)) : List (String × Json) :=
  entries.takeWhile fun entry => fate entry.1 entry.2 ≠ .threw

/-- Every entry that `Init` registers is the first pod under its name or takes the place of a
released one, and it registers none if an entry throws. -/
def Clean (m : PodManager) (entries : List (String × Json)) : Prop :=
  ∀ entry ∈ reached entries, fate entry.1 entry.2 = .registered →
    (∀ other ∈ entries, fate other.1 other.2 ≠ .threw) ∧
      ∀ pod, m.registry.lookup entry.1 = some pod → Released pod

/-- A pod is let go of with its session connected in `CONNECTED` only, and an `Init` is clean. -/
def Careful (m : PodManager) : Label → Prop
  | .removePod podId => ∀ pod, m.registry.lookup podId = some pod → Together pod
  | .shutdown => ∀ podId pod, m.registry.lookup podId = some pod → Together pod
  | .init config _ => m.initialized = true ∨ Clean m (podArgs config.json)
  | .addPod _ | .pod _ _ => True

/-! ## Letting go of a pod -/

/-- `disconnectSDK` leaves the monitor alone. -/
theorem disconnectSDK_monitor (p : Pod) : p.disconnectSDK.monitor = p.monitor := by
  rw [disconnectSDK]
  split
  · rfl
  · rfl

/-- The base's `disconnect` leaves the monitor alone. -/
theorem baseDisconnect_monitor (p : Pod) : p.baseDisconnect.1.monitor = p.monitor := by
  rw [baseDisconnect]
  split
  · rfl
  · split
    · rfl
    · rfl

/-- After the base's `disconnect` the session is not connected. -/
theorem baseDisconnect_session (hstate : p.state ≠ .disconnected) :
    p.baseDisconnect.1.session ≠ some true := by
  rw [baseDisconnect, if_neg hstate]
  split
  · rintro ⟨⟩
  · assumption

/-- A connected pod is released by `disconnect`, once its monitor is stopped. -/
theorem released_disconnect (hmonitor : p.monitor = none) (hstate : p.state = .connected) :
    Released p.disconnect.1 := by
  rw [disconnect]
  split
  · refine ⟨(baseDisconnect_monitor p).trans hmonitor, baseDisconnect_session ?_⟩
    rw [hstate]
    rintro ⟨⟩
  · have hsdk := disconnectSDK_frame { p with sdkReconnectEnabled := false }
    refine ⟨?_, baseDisconnect_session ?_⟩
    · rw [baseDisconnect_monitor, disconnectSDK_monitor]
      exact hmonitor
    · rw [hsdk.state, hstate]
      rintro ⟨⟩

/-- **Release.** A pod is released just where its session goes with its state. -/
theorem released_release (p : Pod) : Released p.release ↔ Together p := by
  have hstop : (if p.monitor.isSome then p.stopMonitor else p) = p.stopMonitor := by
    cases p with
    | mk _ _ _ _ _ _ monitor =>
      cases monitor with
      | none => rfl
      | some _ => rfl
  have hrelease : p.release =
      if p.state = .connected then p.stopMonitor.disconnect.1 else p.stopMonitor := by
    rw [Pod.release, hstop]
    by_cases hstate : p.state = .connected
    · rw [if_pos hstate, if_pos (show p.stopMonitor.isConnected = true from decide_eq_true hstate)]
    · have hnot : ¬ p.stopMonitor.isConnected = true := fun heq => hstate (of_decide_eq_true heq)
      rw [if_neg hstate, if_neg hnot]
  by_cases hstate : p.state = .connected
  · rw [hrelease, if_pos hstate]
    exact ⟨fun _ _ => hstate, fun _ => released_disconnect rfl hstate⟩
  · rw [hrelease, if_neg hstate]
    exact ⟨fun h hsession => absurd hsession h.session, fun h => ⟨rfl, fun heq => hstate (h heq)⟩⟩

/-! ## Setting up a pod -/

/-- What a pod is read from is an object. -/
theorem isObject_of_readPodInfo {type : String} {info : PodInfo}
    (h : readPodInfo podId cfg = some (type, info)) : cfg.isObject = true := by
  cases hobject : cfg.isObject with
  | true => rfl
  | false => simp [readPodInfo, Json.value, hobject] at h

/-- An attempt at the SDK does not throw. -/
theorem connectSDK_ne_threw (p : Pod) (a : Attempt) : (p.connectSDK a).2 ≠ .threw := by
  rw [connectSDK]
  dsimp only
  split
  · rintro ⟨⟩
  · split
    · rintro ⟨⟩
    · split
      · rintro ⟨⟩
      · split
        · rintro ⟨⟩
        · rintro ⟨⟩

/-- Nor do attempts one after the other. -/
theorem connectRetry_ne_threw (attempt : Nat → Attempt) (tries i : Nat) (p : Pod) :
    (connectRetry attempt tries i p).2 ≠ .threw := by
  induction tries generalizing i p with
  | zero => rintro ⟨⟩
  | succ tries ih =>
    have hone := connectSDK_ne_threw p (attempt i)
    rw [connectRetry]
    split
    · rintro ⟨⟩
    · next q result _ heq =>
      rw [heq] at hone
      split
      · exact hone
      · exact ih (i + 1) q

/-- What `connectFromConfig` logs is what makes it throw. -/
theorem connectFromConfig_threw (p : Pod) (attempt : Nat → Attempt) :
    (p.connectFromConfig attempt).2 = .threw ↔
      isEnabled p.ptzConfig = true ∧
        (resolvePinlingSdkConfig p.info (initArgs p.ptzConfig)).isSome = true ∧
          loggable p.ptzConfig = false := by
  rw [connectFromConfig]
  split
  · next h => simp_all
  · next h =>
    split
    · next heq => simp [heq]
    · next heq =>
      split
      · next hlog => simp_all
      · next hlog =>
        refine ⟨fun hthrew => absurd hthrew (connectRetry_ne_threw _ _ _ _), fun hall => ?_⟩
        exact absurd (by rw [hall.2.2]; rfl) hlog

/-- A new pod after an `Init` that succeeds. -/
def fresh (vendor : PodVendor) (info : PodInfo) (cfg : Json) : Pod :=
  { make vendor info with
    info := info.update cfg
    capabilityConfigs := cfg.getObjectOr "capability" (.object []) }

/-- The SDK of a new pod is not there to be taken down. -/
theorem onInitPinling_fresh (info : PodInfo) (cfg : Json) :
    (fresh .pinling info cfg).onInitPinling = (fresh .pinling info cfg,
      if UsesSdk .pinling cfg ∧ sdkAddress info cfg = none then .fail .unknownError
      else .success) := by
  have hdown : ¬(fresh .pinling info cfg).vlkClient.connected = true := Bool.false_ne_true
  rw [onInitPinling]
  dsimp only
  rw [if_neg hdown]
  split
  · next hoff =>
    have hno : ¬UsesSdk .pinling cfg := by
      rintro ⟨-, henabled⟩
      rw [Bool.not_eq_true'] at hoff
      exact Bool.false_ne_true (hoff.symm.trans henabled)
    rw [if_neg fun h => hno h.1]
    rfl
  · next hon =>
    have henabled : isEnabled (ptzSection cfg) = true := by
      rw [Bool.not_eq_true', Bool.not_eq_false] at hon
      exact hon
    split
    · next hnone =>
      have haddress : sdkAddress info cfg = none := hnone
      rw [if_pos ⟨⟨rfl, henabled⟩, haddress⟩]
      rfl
    · next address hsome =>
      have haddress : sdkAddress info cfg = some address := hsome
      rw [haddress, if_neg fun h => Option.some_ne_none _ h.2]
      rfl

/-- **What `init` makes of a new pod.** -/
theorem init_make (vendor : PodVendor) (info : PodInfo) (h : cfg.isObject = true) :
    ∃ pod, (make vendor info).init cfg =
      if UsesSdk vendor cfg ∧ sdkAddress info cfg = none then (pod, .fail .unknownError)
      else (fresh vendor info cfg, .success) := by
  refine ⟨{ fresh vendor info cfg with state := .error }, ?_⟩
  have hobject : ¬(!cfg.isObject) = true := by
    rw [h]
    exact Bool.false_ne_true
  have hconnected : ¬(make vendor info).isConnected = true := Bool.false_ne_true
  have hmonitor : ¬(make vendor info).monitor.isSome = true := Bool.false_ne_true
  rw [Pod.init, if_neg hobject, if_neg hconnected]
  dsimp only
  rw [if_neg hmonitor]
  cases vendor with
  | dji =>
    rw [if_neg fun h => PodVendor.noConfusion h.1.1]
    rfl
  | pinling =>
    have honInit := onInitPinling_fresh info cfg
    dsimp only [make]
    split
    · next q heq =>
      have hq := heq.symm.trans honInit
      by_cases hskip : UsesSdk .pinling cfg ∧ sdkAddress info cfg = none
      · rw [if_pos hskip] at hq
        cases hq
      · rw [if_neg hskip] at hq ⊢
        exact hq
    · next q result hne heq =>
      have hq := heq.symm.trans honInit
      by_cases hskip : UsesSdk .pinling cfg ∧ sdkAddress info cfg = none
      · rw [if_pos hskip] at hq ⊢
        cases hq
        rfl
      · rw [if_neg hskip] at hq
        cases hq
        exact absurd rfl hne

/-- A fresh pod is sound. -/
theorem sound_fresh (info : PodInfo) (cfg : Json) : Sound (fresh .pinling info cfg) :=
  ⟨rfl, rfl, id⟩

/-- A new pod is connected, whether or not it throws on the way. -/
theorem connect_fresh_session (vendor : PodVendor) (info : PodInfo) (cfg : Json)
    (attempt : Nat → Attempt) :
    ((fresh vendor info cfg).connect attempt).1.session = some true := by
  cases vendor with
  | dji => rfl
  | pinling => exact (connect_frame (sound_fresh info cfg) (by rintro ⟨⟩) rfl attempt).session

/-- After the base, only what comes of the SDK can throw. -/
theorem connect_threw {q : Pod} (h : Sound p) (hbase : p.baseConnect = (q, .success))
    (attempt : Nat → Attempt) :
    (p.connect attempt).2 = .threw ↔ isEnabled q.ptzConfig = true ∧
      (connectFromConfig { q with sdkReconnectEnabled := true } attempt).2 = .threw := by
  rw [connect, h.vendor]
  dsimp only
  rw [hbase]
  dsimp only
  split
  · next hoff =>
    rw [Bool.not_eq_true'] at hoff
    rw [hoff]
    exact ⟨by rintro ⟨⟩, by rintro ⟨⟨⟩, -⟩⟩
  · next hon =>
    rw [Bool.not_eq_true', Bool.not_eq_false] at hon
    split
    · next t heq => exact ⟨fun _ => ⟨hon, by rw [heq]⟩, fun _ => rfl⟩
    · next t result hne heq =>
      rw [heq]
      exact ⟨by rintro ⟨⟩, fun hthrew => absurd hthrew.2 hne⟩

/-- When the first `connect` of a fresh pod throws. -/
theorem connect_fresh_threw {vendor : PodVendor} {info : PodInfo}
    (h : ¬(UsesSdk vendor cfg ∧ sdkAddress info cfg = none)) (attempt : Nat → Attempt) :
    ((fresh vendor info cfg).connect attempt).2 = .threw ↔
      UsesSdk vendor cfg ∧ loggable (ptzSection cfg) = false := by
  cases vendor with
  | dji => exact ⟨by rintro ⟨⟩, by rintro ⟨⟨⟨⟩, -⟩, -⟩⟩
  | pinling =>
    have hbase : (fresh .pinling info cfg).baseConnect =
        ({ fresh .pinling info cfg with session := some true, state := .connected }, .success) :=
      rfl
    rw [connect_threw (sound_fresh info cfg) hbase, connectFromConfig_threw]
    constructor
    · rintro ⟨henabled, -, -, hlog⟩
      exact ⟨⟨rfl, henabled⟩, hlog⟩
    · rintro ⟨hsdk, hlog⟩
      have haddress : sdkAddress info cfg ≠ none := fun heq => h ⟨hsdk, heq⟩
      exact ⟨hsdk.2, hsdk.2, Option.isSome_iff_ne_none.2 haddress, hlog⟩

/-- **An entry.** Its configuration decides what becomes of it. -/
theorem setUpPod_fate (podId : String) (cfg : Json) (attempt : Nat → Attempt) :
    match fate podId cfg with
    | .threw => setUpPod podId cfg attempt = none
    | .skipped => setUpPod podId cfg attempt = some none
    | .registered =>
      ∃ pod, setUpPod podId cfg attempt = some (some pod) ∧ pod.session = some true := by
  rw [fate, setUpPod, createPod]
  cases hread : readPodInfo podId cfg with
  | none => rfl
  | some read =>
    obtain ⟨type, info⟩ := read
    dsimp only [Option.map_some]
    cases hvendor : readVendor type with
    | none => rfl
    | some vendor =>
      obtain ⟨failed, hinit⟩ := init_make vendor info (isObject_of_readPodInfo hread)
      dsimp only [Option.map_some]
      rw [hinit]
      by_cases hskip : UsesSdk vendor cfg ∧ sdkAddress info cfg = none
      · rw [if_pos hskip, if_pos hskip]
      · rw [if_neg hskip, if_neg hskip]
        dsimp only
        have hthrew := connect_fresh_threw hskip attempt
        have hsession := connect_fresh_session vendor info cfg attempt
        generalize (fresh vendor info cfg).connect attempt = connected at hthrew hsession
        obtain ⟨pod, result⟩ := connected
        by_cases hlog : UsesSdk vendor cfg ∧ loggable (ptzSection cfg) = false
        · rw [if_pos hlog]
          obtain rfl : result = .threw := hthrew.2 hlog
          rfl
        · rw [if_neg hlog]
          have hresult : result ≠ .threw := fun heq => hlog (hthrew.1 heq)
          cases hmonitor : parseMonitorConfig cfg with
          | none =>
            cases result with
            | threw => rfl
            | success => rfl
            | fail code => rfl
          | some monitorCfg =>
            have hstarted :
                (if monitorCfg.autoStart then pod.startMonitor monitorCfg else pod).session =
                  some true := by
              split
              · rw [startMonitor]
                split
                · exact hsession
                · exact hsession
              · exact hsession
            cases result with
            | threw => exact absurd rfl hresult
            | success => exact ⟨_, rfl, hstarted⟩
            | fail code => exact ⟨_, rfl, hstarted⟩

/-! ## The loop of `Init` -/

variable {attempts : String → Nat → Attempt} {entries rest : List (String × Json)}
  {entry : String × Json}

/-- An entry that throws ends the loop. -/
theorem initPods_threw (h : fate podId cfg = .threw) :
    initPods attempts ((podId, cfg) :: rest) m = (m, false) := by
  have hnone := setUpPod_fate podId cfg (attempts podId)
  rw [h] at hnone
  rw [initPods, hnone]

/-- An entry that is passed over changes nothing. -/
theorem initPods_skipped (h : fate podId cfg = .skipped) :
    initPods attempts ((podId, cfg) :: rest) m = initPods attempts rest m := by
  have hskipped := setUpPod_fate podId cfg (attempts podId)
  rw [h] at hskipped
  rw [initPods, hskipped]

/-- An entry that is registered goes into the registry, with its session connected. -/
theorem initPods_registered (attempts : String → Nat → Attempt) (rest : List (String × Json))
    (m : PodManager) (h : fate podId cfg = .registered) :
    ∃ pod, pod.session = some true ∧
      initPods attempts ((podId, cfg) :: rest) m =
        initPods attempts rest (m.registerPod podId pod) := by
  have hregistered := setUpPod_fate podId cfg (attempts podId)
  rw [h] at hregistered
  obtain ⟨pod, hpod, hsession⟩ := hregistered
  refine ⟨pod, hsession, ?_⟩
  rw [initPods, hpod]

/-- An entry that throws is not come past. -/
theorem reached_threw (h : fate podId cfg = .threw) : reached ((podId, cfg) :: rest) = [] := by
  rw [reached, List.takeWhile_cons_of_neg]
  simp [h]

/-- Another one is. -/
theorem reached_cons (h : fate podId cfg ≠ .threw) :
    reached ((podId, cfg) :: rest) = (podId, cfg) :: reached rest := by
  rw [reached, List.takeWhile_cons_of_pos]
  · rfl
  · simp [h]

/-- What `Init` comes to is in the configuration. -/
theorem mem_of_reached (h : entry ∈ reached entries) : entry ∈ entries :=
  (List.takeWhile_prefix _).subset h

/-- **`Init` ends without an exception** if no entry throws. -/
theorem initPods_ends :
    (initPods attempts entries m).2 = true ↔
      ∀ entry ∈ entries, fate entry.1 entry.2 ≠ .threw := by
  induction entries generalizing m with
  | nil => simp [initPods]
  | cons entry rest ih =>
    obtain ⟨podId, cfg⟩ := entry
    rw [List.forall_mem_cons]
    cases hfate : fate podId cfg with
    | threw => simp [initPods_threw hfate]
    | skipped => simp [initPods_skipped hfate, ih]
    | registered =>
      obtain ⟨pod, -, heq⟩ := initPods_registered attempts rest m hfate
      simp [heq, ih]

/-- Without a pod registered and to the end, nothing is changed. -/
theorem initPods_initialized (h : (initPods attempts entries m).2 = false) :
    (initPods attempts entries m).1.initialized = m.initialized := by
  induction entries generalizing m with
  | nil => cases h
  | cons entry rest ih =>
    obtain ⟨podId, cfg⟩ := entry
    cases hfate : fate podId cfg with
    | threw => rw [initPods_threw hfate]
    | skipped =>
      rw [initPods_skipped hfate] at h ⊢
      exact ih h
    | registered =>
      obtain ⟨pod, -, heq⟩ := initPods_registered attempts rest m hfate
      rw [heq] at h ⊢
      exact ih h

/-- Without an entry to register the registry stays as it is. -/
theorem initPods_registry (h : ∀ entry ∈ reached entries, fate entry.1 entry.2 ≠ .registered) :
    (initPods attempts entries m).1.registry = m.registry := by
  induction entries generalizing m with
  | nil => rfl
  | cons entry rest ih =>
    obtain ⟨podId, cfg⟩ := entry
    cases hfate : fate podId cfg with
    | threw => rw [initPods_threw hfate]
    | skipped =>
      rw [reached_cons (by rw [hfate]; rintro ⟨⟩)] at h
      rw [initPods_skipped hfate]
      exact ih fun entry hmem => h entry (List.mem_cons_of_mem _ hmem)
    | registered =>
      rw [reached_cons (by rw [hfate]; rintro ⟨⟩)] at h
      exact absurd hfate (h (podId, cfg) List.mem_cons_self)

/-- A registration changes the entry of its own name only. -/
theorem registerPod_lookup_ne {other : String} (h : other ≠ podId) (pod : Pod) :
    (m.registerPod podId pod).registry.lookup other = m.registry.lookup other :=
  AList.lookup_insert_ne h

/-- A name that is not configured keeps its entry. -/
theorem initPods_lookup_of_notMem {other : String} (h : other ∉ entries.map Prod.fst) :
    (initPods attempts entries m).1.registry.lookup other = m.registry.lookup other := by
  induction entries generalizing m with
  | nil => rfl
  | cons entry rest ih =>
    obtain ⟨podId, cfg⟩ := entry
    rw [List.map_cons, List.mem_cons, not_or] at h
    obtain ⟨hne, hrest⟩ := h
    cases hfate : fate podId cfg with
    | threw => rw [initPods_threw hfate]
    | skipped =>
      rw [initPods_skipped hfate]
      exact ih hrest
    | registered =>
      obtain ⟨pod, -, heq⟩ := initPods_registered attempts rest m hfate
      rw [heq, ih hrest]
      exact registerPod_lookup_ne hne pod

/-- A registered entry is in the registry with its session connected. -/
theorem initPods_lookup (attempts : String → Nat → Attempt) (m : PodManager)
    (hnodup : (entries.map Prod.fst).Nodup) (hmem : entry ∈ reached entries)
    (hreg : fate entry.1 entry.2 = .registered) :
    ∃ pod, (initPods attempts entries m).1.registry.lookup entry.1 = some pod ∧
      pod.session = some true := by
  induction entries generalizing m with
  | nil => cases hmem
  | cons first rest ih =>
    obtain ⟨podId, cfg⟩ := first
    rw [List.map_cons, List.nodup_cons] at hnodup
    obtain ⟨hnotMem, hnodup⟩ := hnodup
    cases hfate : fate podId cfg with
    | threw =>
      rw [reached_threw hfate] at hmem
      cases hmem
    | skipped =>
      rw [reached_cons (by rw [hfate]; rintro ⟨⟩), List.mem_cons] at hmem
      rw [initPods_skipped hfate]
      rcases hmem with rfl | hmem
      · rw [hfate] at hreg
        cases hreg
      · exact ih _ hnodup hmem
    | registered =>
      rw [reached_cons (by rw [hfate]; rintro ⟨⟩), List.mem_cons] at hmem
      obtain ⟨pod, hsession, heq⟩ := initPods_registered attempts rest m hfate
      rw [heq]
      rcases hmem with rfl | hmem
      · refine ⟨pod, ?_, hsession⟩
        rw [initPods_lookup_of_notMem hnotMem]
        exact AList.lookup_insert _
      · exact ih _ hnodup hmem

/-- A registration is tidy if the pod that it takes the place of has been released. -/
theorem tidy_registerPod (pod : Pod) :
    Tidy (m.registerPod podId pod) ↔
      Tidy m ∧ ∀ old, m.registry.lookup podId = some old → Released old := by
  simp [Tidy, registerPod, or_imp, forall_and]

/-- **The loop.** It leaves the manager tidy where it takes the place of released pods only. -/
theorem tidy_initPods (hnodup : (entries.map Prod.fst).Nodup) :
    Tidy (initPods attempts entries m).1 ↔
      Tidy m ∧ ∀ entry ∈ reached entries, fate entry.1 entry.2 = .registered →
        ∀ old, m.registry.lookup entry.1 = some old → Released old := by
  induction entries generalizing m with
  | nil =>
    have hnone : ∀ entry ∈ reached [], fate entry.1 entry.2 = .registered →
        ∀ old, m.registry.lookup entry.1 = some old → Released old := by
      rintro entry ⟨⟩
    exact ⟨fun h => ⟨h, hnone⟩, fun h => h.1⟩
  | cons first rest ih =>
    obtain ⟨podId, cfg⟩ := first
    rw [List.map_cons, List.nodup_cons] at hnodup
    obtain ⟨hnotMem, hnodup⟩ := hnodup
    cases hfate : fate podId cfg with
    | threw =>
      rw [initPods_threw hfate, reached_threw hfate]
      exact ⟨fun h => ⟨h, by rintro entry ⟨⟩⟩, fun h => h.1⟩
    | skipped =>
      rw [reached_cons (by rw [hfate]; rintro ⟨⟩), List.forall_mem_cons, initPods_skipped hfate,
        ih hnodup]
      constructor
      · rintro ⟨htidy, hrest⟩
        refine ⟨htidy, ?_, hrest⟩
        intro hreg
        rw [hfate] at hreg
        cases hreg
      · rintro ⟨htidy, -, hrest⟩
        exact ⟨htidy, hrest⟩
    | registered =>
      obtain ⟨pod, -, heq⟩ := initPods_registered attempts rest m hfate
      have hother : ∀ entry ∈ reached rest,
          (m.registerPod podId pod).registry.lookup entry.1 = m.registry.lookup entry.1 := by
        intro entry hmem
        refine registerPod_lookup_ne ?_ pod
        rintro rfl
        exact hnotMem (List.mem_map.2 ⟨entry, mem_of_reached hmem, rfl⟩)
      rw [reached_cons (by rw [hfate]; rintro ⟨⟩), List.forall_mem_cons, heq, ih hnodup,
        tidy_registerPod]
      constructor
      · rintro ⟨⟨htidy, hold⟩, hrest⟩
        refine ⟨htidy, fun _ => hold, fun entry hmem hreg old hlookup => ?_⟩
        exact hrest entry hmem hreg old ((hother entry hmem).trans hlookup)
      · rintro ⟨htidy, hold, hrest⟩
        refine ⟨⟨htidy, hold hfate⟩, fun entry hmem hreg old hlookup => ?_⟩
        exact hrest entry hmem hreg old ((hother entry hmem).symm.trans hlookup)

/-! ## A step -/

/-- `AddPod` is tidy. -/
theorem tidy_addPod (h : Tidy m) (pod : Option Pod) : Tidy (m.addPod pod) := by
  cases pod with
  | none => exact h
  | some pod =>
    rw [addPod]
    split
    · exact h
    · next hnew =>
      refine (tidy_registerPod pod).2 ⟨h, fun old hlookup => ?_⟩
      rw [AList.lookup_eq_none.2 hnew] at hlookup
      cases hlookup

/-- `RemovePod` is tidy if session and state of the pod go together. -/
theorem tidy_removePod (h : Tidy m) :
    Tidy (m.removePod podId) ↔ ∀ pod, m.registry.lookup podId = some pod → Together pod := by
  rw [removePod]
  cases hlookup : m.registry.lookup podId with
  | none => simp [h]
  | some pod =>
    have hleft : Tidy
          { m with registry := m.registry.erase podId, left := m.left ++ [pod.release] } ↔
        Tidy m ∧ Released pod.release := by
      simp [Tidy, or_imp, forall_and]
    rw [hleft, released_release]
    constructor
    · rintro ⟨-, htogether⟩ _ ⟨⟩
      exact htogether
    · intro htogether
      exact ⟨h, htogether pod rfl⟩

/-- `Shutdown` is tidy if they do for every pod. -/
theorem tidy_shutdown (h : Tidy m) :
    Tidy m.shutdown ↔ ∀ podId pod, m.registry.lookup podId = some pod → Together pod := by
  constructor
  · intro htidy podId pod hlookup
    have hentry : Sigma.mk podId pod ∈ m.registry.entries := AList.mem_lookup_iff.1 hlookup
    have hleft : pod.release ∈ m.shutdown.left :=
      List.mem_append_right _ (List.mem_map.2 ⟨⟨podId, pod⟩, hentry, rfl⟩)
    exact (released_release pod).1 (htidy _ hleft)
  · intro htogether pod hpod
    rcases List.mem_append.1 hpod with hpod | hpod
    · exact h pod hpod
    · obtain ⟨⟨podId, old⟩, hentry, rfl⟩ := List.mem_map.1 hpod
      exact (released_release old).2 (htogether podId old (AList.mem_lookup_iff.2 hentry))

/-- **`Init`.** It keeps its promise where it registers pods only without an exception, and in no
place of a pod that is not released. -/
theorem releases_initPods (h : Tidy m) (hnodup : (entries.map Prod.fst).Nodup) :
    (Tidy (initPods attempts entries m).1 ∧
      ((initPods attempts entries m).2 = false →
        (initPods attempts entries m).1.registry = m.registry ∧
          (initPods attempts entries m).1.initialized = m.initialized)) ↔ Clean m entries := by
  rw [tidy_initPods hnodup]
  constructor
  · rintro ⟨⟨-, hplaces⟩, hunchanged⟩ entry hmem hreg
    refine ⟨?_, hplaces entry hmem hreg⟩
    by_contra hthrows
    have hfalse : (initPods attempts entries m).2 = false :=
      Bool.eq_false_iff.2 fun heq => hthrows (initPods_ends.1 heq)
    obtain ⟨pod, hlookup, hsession⟩ := initPods_lookup attempts m hnodup hmem hreg
    rw [(hunchanged hfalse).1] at hlookup
    exact (hplaces entry hmem hreg pod hlookup).session hsession
  · intro hclean
    refine ⟨⟨h, fun entry hmem hreg => (hclean entry hmem hreg).2⟩, fun hfalse => ?_⟩
    refine ⟨initPods_registry fun entry hmem hreg => ?_, initPods_initialized hfalse⟩
    rw [initPods_ends.2 (hclean entry hmem hreg).1] at hfalse
    cases hfalse

/-- **A step.** -/
theorem releases_iff_careful (h : Tidy m) (l : Label) : Releases m l (m.apply l) ↔ Careful m l := by
  have hother : (∀ config attempts, l ≠ .init config attempts) →
      (Releases m l (m.apply l) ↔ Tidy (m.apply l)) := by
    intro hne
    refine ⟨Releases.tidy, fun htidy => ⟨htidy, fun config attempts heq => ?_⟩⟩
    exact absurd heq (hne config attempts)
  cases l with
  | addPod pod =>
    rw [hother (by rintro _ _ ⟨⟩)]
    exact ⟨fun _ => trivial, fun _ => tidy_addPod h pod⟩
  | init config attempts =>
    have hone : Releases m (.init config attempts) (m.init config attempts).1 ↔
        Tidy (m.init config attempts).1 ∧ ((m.init config attempts).2 = false →
          (m.init config attempts).1.registry = m.registry ∧
            (m.init config attempts).1.initialized = m.initialized) := by
      constructor
      · intro hreleases
        exact ⟨hreleases.tidy, hreleases.unchanged config attempts rfl⟩
      · rintro ⟨htidy, hunchanged⟩
        refine ⟨htidy, ?_⟩
        rintro _ _ ⟨⟩ hfalse
        exact hunchanged hfalse
    refine hone.trans ?_
    rw [Careful, init]
    by_cases hinit : m.initialized = true
    · simp [hinit, h]
    · rw [if_neg hinit, releases_initPods h config.nodup]
      exact ⟨.inr, fun hclean => hclean.resolve_left hinit⟩
  | removePod podId =>
    rw [hother (by rintro _ _ ⟨⟩)]
    exact tidy_removePod h
  | shutdown =>
    rw [hother (by rintro _ _ ⟨⟩)]
    exact tidy_shutdown h
  | pod podId label =>
    rw [hother (by rintro _ _ ⟨⟩)]
    refine ⟨fun _ => trivial, fun _ => ?_⟩
    rw [apply]
    split
    · exact h
    · exact h

/-! ## Runs -/

/-- **Every pod that the manager lets go of.** In a run from the start, each step keeps its promise
if and only if each is careful. -/
theorem releases_iff (ls : List Label) :
    Along step (fun m l => ∀ q, step m l = some q → Releases m l q) {} ls ↔
      Along step Careful {} ls := by
  have htidy : Tidy {} := by rintro pod ⟨⟩
  constructor
  · intro h
    refine along_imp (P := Tidy) ?_ ?_ htidy h
    · intro m l q hreleases _ hstep
      exact (hreleases q hstep).tidy
    · intro m l hreleases hm
      exact (releases_iff_careful hm l).1 (hreleases _ rfl)
  · intro h
    refine along_imp (P := Tidy) ?_ ?_ htidy h
    · intro m l q hcareful hm hstep
      cases hstep
      exact ((releases_iff_careful hm l).2 hcareful).tidy
    · intro m l hcareful hm q hstep
      cases hstep
      exact (releases_iff_careful hm l).2 hcareful

/-! ## Where it does not let go -/

/-- The configuration of a pod. -/
def onePod : Json := .object [("ip", .string "10.0.0.8"), ("type", .string "dji")]

/-- The entries as a configuration. -/
def configOf (entries : List (String × Json)) (h : (entries.map Prod.fst).Nodup) : Config where
  json := .object [("pod_args", .object entries)]
  nodup := h

/-- The pod is seen offline, and removed. -/
def offlineThenRemoved : List Label :=
  [.addPod (some (pinling camera)), .pod "p1" (.connect fun _ => {}),
    .pod "p1" (.refreshDeviceStatus { online := false }), .removePod "p1"]

/-- The pod is connected, and another one is configured under its name. -/
def connectedThenReplaced : List Label :=
  [.addPod (some (pinling camera)), .pod "p1" (.connect fun _ => {}),
    .init (configOf [("p1", onePod)] (by decide)) fun _ _ => {}]

/-- The second pod of the configuration throws. -/
def halfInitialized : List Label :=
  [.init (configOf [("p1", onePod), ("p2", .object [("type", .integer 1)])] (by decide))
    fun _ _ => {}]

/-- **None of the three conditions can be left out.** -/
theorem not_releases :
    ¬Along step (fun m l => ∀ q, step m l = some q → Releases m l q) {} offlineThenRemoved ∧
      ¬Along step (fun m l => ∀ q, step m l = some q → Releases m l q) {} connectedThenReplaced ∧
      ¬Along step (fun m l => ∀ q, step m l = some q → Releases m l q) {} halfInitialized := by
  refine ⟨?_, ?_, ?_⟩
  · rintro ⟨-, h⟩
    obtain ⟨-, h⟩ := h _ rfl
    obtain ⟨-, h⟩ := h _ rfl
    obtain ⟨hreleases, -⟩ := h _ rfl
    have hleft := (hreleases _ rfl).tidy _ List.mem_cons_self
    exact hleft.session (by decide)
  · rintro ⟨-, h⟩
    obtain ⟨-, h⟩ := h _ rfl
    obtain ⟨hreleases, -⟩ := h _ rfl
    have hleft := (hreleases _ rfl).tidy _ List.mem_cons_self
    exact hleft.session (by decide)
  · rintro ⟨hreleases, -⟩
    have hsame := ((hreleases _ rfl).unchanged _ _ rfl (by decide)).1
    exact absurd (congrArg (fun registry => (registry.lookup "p1").isSome) hsame) (by decide)

end PodManager

end PodModule
