import FastCppServer.FastMqtt.Publish

/-!
# The lifecycle

`Initialize`, `Start`, `Stop` and `Destroy`, called from any number of threads and from the module's
own four, which run business callbacks. All four take `lifecycle_mutex_`, `Destroy` twice: once in
its `Stop`, and once more for the teardown.

The teardown does not look at `state_`. It is safe where the module is not started, which is what
the `Stop` before it is for (`Careful`); a `Start` in the gap between the two, or a `Stop` that has
failed because a thread cannot join itself, leaves it with threads that run.
-/

namespace FastMqtt

namespace Lifecycle

open Function Transition

/-- The four background threads. -/
inductive Worker where
  | connectionManager
  | receiver
  | dispatcher
  | sender
  deriving DecidableEq

/-- In the order in which they are created and joined. -/
def workers : List Worker := [.connectionManager, .receiver, .dispatcher, .sender]

/-- What a `std::thread` member holds. -/
inductive Thread where
  | none
  | running
  | exited
  deriving DecidableEq

/-- `joinable()`. -/
def Thread.joinable (t : Thread) : Prop := t ≠ .none

instance (t : Thread) : Decidable t.joinable := inferInstanceAs (Decidable (t ≠ .none))

/-- Who calls: a thread of the program, or one of the module's own. -/
inductive Caller (ι : Type) where
  | client (i : ι)
  | worker (w : Worker)
  deriving DecidableEq

/-- The fields of the configuration that the lifecycle reads. -/
structure Config where
  enable : Bool := true
  host : String := "127.0.0.1"
  autoReconnect : Bool := true
  deriving DecidableEq

/-- Where a caller stands. It holds the mutex in `assigning`, with the thread members that are still
to be assigned, in `joining`, with those still to be joined, and in `resetting`; `stopping` and
`joining` know whether this `Stop` is the one in `Destroy`. -/
inductive Phase where
  | returned (result : Option Bool)
  | initializing (config : Option Config) (created : Bool)
  | starting
  | assigning (ws : List Worker)
  | stopping (destroy : Bool)
  | joining (ws : List Worker) (destroy : Bool)
  | destroying
  | resetting
  deriving DecidableEq

/-- The module with its mutex, its threads and its callers, and the counts of the library. -/
structure System (ι : Type) where
  state : LifecycleState := .uninitialized
  config : Config := {}
  running : Bool := false
  /-- `mosq_` is a handle. -/
  mosq : Bool := false
  /-- `send_queue_` and `recv_queue_` are there. -/
  queues : Bool := false
  /-- `g_lib_ref`. -/
  libRef : Int := 0
  libInits : Nat := 0
  libCleanups : Nat := 0
  thread : Worker → Thread := fun _ => .none
  lifecycleMutex : Option (Caller ι) := none
  phase : Caller ι → Phase := fun _ => .returned none

variable {ι : Type}

/-- The library is initialised with the first reference. -/
def System.acquireLib (s : System ι) : System ι :=
  { s with
    libRef := s.libRef + 1, libInits := if s.libRef = 0 then s.libInits + 1 else s.libInits }

/-- The library is cleaned up with the last reference. -/
def System.releaseLib (s : System ι) : System ι :=
  { s with
    libRef := s.libRef - 1
    libCleanups := if s.libRef = 1 then s.libCleanups + 1 else s.libCleanups }

/-- The body of `FastMQTT::Initialize`. There is no config where `FromJson` throws; `created` is
whether `mosquitto_new` gives a handle. -/
def System.initializeWith (s : System ι) (config : Option Config) (created : Bool) :
    System ι × Bool :=
  if s.state ≠ .uninitialized then (s, false)
  else match config with
  | none => (s, false)
  | some config =>
    let s := { s with config }
    if ¬ config.enable then ({ s with state := .initialized }, true)
    else if config.host = "" then (s, false)
    else
      let s := s.acquireLib
      if created then ({ s with mosq := true, queues := true, state := .initialized }, true)
      else (s.releaseLib, false)

/-- The first half of the teardown in `FastMQTT::Destroy`. -/
def System.destroyHandle (s : System ι) : System ι :=
  if s.mosq then { s with mosq := false }.releaseLib else s

/-- What a `Destroy` goes on to when its `Stop` has returned. -/
def afterStop (destroy : Bool) : Phase := if destroy then .destroying else .returned none

variable [DecidableEq ι]

/-- One step of a caller. It waits for the mutex, and for a thread to exit that it joins; `created`
is whether a thread can be created. -/
def act (s : System ι) (c : Caller ι) (created : Bool) : Phase → Option (System ι × Phase)
  | .returned _ => none
  | .initializing config handle =>
    if s.lifecycleMutex.isSome then none
    else
      let (s', result) := s.initializeWith config handle
      some (s', .returned (some result))
  | .starting =>
    if s.lifecycleMutex.isSome then none
    else if s.state ≠ .initialized then some (s, .returned (some false))
    else if ¬ s.config.enable then some (s, .returned (some false))
    else
      some
        ({ s with state := .starting, running := true, lifecycleMutex := some c },
          .assigning workers)
  | .assigning [] =>
    some ({ s with state := .running, lifecycleMutex := none }, .returned (some true))
  | .assigning (w :: ws) =>
    -- a thread that cannot be created throws, and the guard unlocks on the way out
    if ¬ created then some ({ s with lifecycleMutex := none }, .returned none)
    -- `std::terminate`: the program has no next state
    else if (s.thread w).joinable then none
    else some ({ s with thread := update s.thread w .running }, .assigning ws)
  | .stopping destroy =>
    if s.lifecycleMutex.isSome then none
    else if s.state ≠ .running ∧ s.state ≠ .starting then some (s, afterStop destroy)
    else
      some
        ({ s with state := .stopping, running := false, lifecycleMutex := some c },
          .joining workers destroy)
  | .joining [] destroy =>
    some ({ s with state := .stopped, lifecycleMutex := none }, afterStop destroy)
  | .joining (w :: ws) destroy =>
    match s.thread w with
    | .none => some (s, .joining ws destroy)
    | .exited => some ({ s with thread := update s.thread w .none }, .joining ws destroy)
    | .running =>
      -- a thread that joins itself throws out of `Stop`, and of the `Destroy` around it
      if c = .worker w then some ({ s with lifecycleMutex := none }, .returned none) else none
  | .destroying =>
    if s.lifecycleMutex.isSome then none
    else some ({ s.destroyHandle with lifecycleMutex := some c }, .resetting)
  | .resetting =>
    some
      ({ s with queues := false, state := .uninitialized, lifecycleMutex := none }, .returned none)

/-- A call, the next step of a caller, or the end of a thread's loop. -/
inductive Label (ι : Type) where
  | callInitialize (c : Caller ι) (config : Option Config) (created : Bool)
  | callStart (c : Caller ι)
  | callStop (c : Caller ι)
  | callDestroy (c : Caller ι)
  | act (c : Caller ι) (created : Bool)
  | exit (w : Worker)

/-- A caller calls when its last call has returned; a thread of the module, when it runs. -/
def call (s : System ι) (c : Caller ι) (phase : Phase) : Option (System ι) :=
  match s.phase c, c with
  | .returned _, .client _ => some { s with phase := update s.phase c phase }
  | .returned _, .worker w =>
    if s.thread w = .running then some { s with phase := update s.phase c phase } else none
  | _, _ => none

/-- A loop ends when `running_` is false; the receiver's also where it must not reconnect. -/
def Ends (s : System ι) (w : Worker) : Prop :=
  s.running = false ∨ w = .receiver ∧ s.config.autoReconnect = false

instance (s : System ι) (w : Worker) : Decidable (Ends s w) :=
  inferInstanceAs (Decidable (_ ∨ _))

/-- One step. A caller that waits has no successor. -/
def step (s : System ι) : Label ι → Option (System ι)
  | .callInitialize c config created => call s c (.initializing config created)
  | .callStart c => call s c .starting
  | .callStop c => call s c (.stopping false)
  | .callDestroy c => call s c (.stopping true)
  | .act c created =>
    (act s c created (s.phase c)).map fun (s', phase) => { s' with phase := update s.phase c phase }
  | .exit w =>
    match s.phase (.worker w) with
    | .returned _ =>
      if s.thread w = .running ∧ Ends s w then
        some { s with thread := update s.thread w .exited }
      else none
    | _ => none

/-- The states in which the module has no threads. -/
def Quiet (state : LifecycleState) : Prop :=
  state = .uninitialized ∨ state = .initialized ∨ state = .stopped

/-- A teardown finds the module not started, or stopped again. -/
def Careful (s : System ι) : Label ι → Prop
  | .act c _ => s.phase c = .destroying → Quiet s.state
  | _ => True

instance (state : LifecycleState) : Decidable (Quiet state) := inferInstanceAs (Decidable (_ ∨ _))

instance (s : System ι) : ∀ l, Decidable (Careful s l)
  | .act c _ => inferInstanceAs (Decidable (s.phase c = .destroying → Quiet s.state))
  | .callInitialize .. | .callStart _ | .callStop _ | .callDestroy _ | .exit _ => isTrue trivial

/-- What the lifecycle promises. -/
structure Safe (s : System ι) : Prop where
  unthreaded : s.mosq = false ∨ s.queues = false → ∀ w, s.thread w ≠ .running
  unassigned : ∀ c w ws, s.phase c = .assigning (w :: ws) → ¬ (s.thread w).joinable
  libRef : s.libRef = 1 ↔ s.mosq = true
  balanced : s.libInits = s.libCleanups + s.libRef

/-! ## What is kept -/

/-- What a caller relies on: who holds the mutex knows `state_`, and which threads there are. -/
def Phase.Ok (s : System ι) (c : Caller ι) : Phase → Prop
  | .assigning ws =>
    s.lifecycleMutex = some c ∧ s.state = .starting ∧ ws.Nodup ∧ ∀ w ∈ ws, s.thread w = .none
  | .joining ws _ =>
    s.lifecycleMutex = some c ∧ s.state = .stopping ∧ ∀ w, w ∉ ws → s.thread w = .none
  | .resetting => s.lifecycleMutex = some c ∧ Quiet s.state ∧ s.mosq = false
  | _ => s.lifecycleMutex ≠ some c

/-- **What careful steps keep**: the threads and the handle go with the state, and the references to
the library are counted. -/
structure Kept (s : System ι) : Prop where
  phase : ∀ c, (s.phase c).Ok s c
  quiet : Quiet s.state → ∀ w, s.thread w = .none
  clean : s.state = .uninitialized → s.mosq = false
  started : ¬ Quiet s.state → s.mosq = true ∧ s.queues = true
  ready : s.lifecycleMutex = none → s.state = .initialized → s.config.enable = true →
    s.mosq = true ∧ s.queues = true
  libRef : s.libRef = if s.mosq then 1 else 0
  balanced : s.libInits = s.libCleanups + s.libRef

section
variable {s s' : System ι} {c : Caller ι} {p : Phase}

omit [DecidableEq ι] in
/-- A caller that does not hold the mutex relies on nothing. -/
theorem Phase.Ok.other {d : Caller ι} (h : p.Ok s d) (hold : s.lifecycleMutex ≠ some d)
    (hnew : s'.lifecycleMutex ≠ some d) : p.Ok s' d := by
  cases p with
  | assigning ws => exact absurd h.1 hold
  | joining ws destroy => exact absurd h.1 hold
  | resetting => exact absurd h.1 hold
  | returned | initializing | starting | stopping | destroying => exact hnew

/-- A step of a caller, as long as nobody else holds the mutex. -/
theorem ok_update (h : ∀ d, (s.phase d).Ok s d) (hphase : s'.phase = update s.phase c p)
    (hold : ∀ d, d ≠ c → s.lifecycleMutex ≠ some d)
    (hnew : ∀ d, d ≠ c → s'.lifecycleMutex ≠ some d) (hp : p.Ok s' c) :
    ∀ d, (s'.phase d).Ok s' d := by
  rw [hphase]
  refine (forall_update_iff s.phase fun d q => q.Ok s' d).2 ⟨hp, fun d hd => ?_⟩
  exact (h d).other (hold d hd) (hnew d hd)

/-- A step of a caller while the mutex is free, from a quiet state to a quiet state. -/
theorem Kept.quietly (h : Kept s) (hm : s.lifecycleMutex = none) (hs : Quiet s.state)
    (hphase : s'.phase = update s.phase c p) (hp : p.Ok s' c)
    (hm' : ∀ d, d ≠ c → s'.lifecycleMutex ≠ some d) (hthread : s'.thread = s.thread)
    (hs' : Quiet s'.state) (hclean : s'.state = .uninitialized → s'.mosq = false)
    (hready : s'.lifecycleMutex = none → s'.state = .initialized → s'.config.enable = true →
      s'.mosq = true ∧ s'.queues = true)
    (hlib : s'.libRef = if s'.mosq then 1 else 0)
    (hbalanced : s'.libInits = s'.libCleanups + s'.libRef) : Kept s' where
  phase := ok_update h.phase hphase (by simp [hm]) hm' hp
  quiet _ := hthread ▸ h.quiet hs
  clean := hclean
  started hq := absurd hs' hq
  ready := hready
  libRef := hlib
  balanced := hbalanced

omit [DecidableEq ι] in
/-- What a caller relies on is not a matter of the other callers' places. -/
theorem ok_phase {phase : Caller ι → Phase} : p.Ok { s with phase } c ↔ p.Ok s c := by
  cases p <;> rfl

/-- A step of a caller that changes its phase alone. -/
theorem Kept.stay (h : Kept s) (hp : p.Ok s c) :
    Kept { s with phase := update s.phase c p } where
  phase := by
    refine (forall_update_iff s.phase fun d q => q.Ok { s with phase := _ } d).2 ⟨?_, fun d _ => ?_⟩
    · exact ok_phase.2 hp
    · exact ok_phase.2 (h.phase d)
  quiet := h.quiet
  clean := h.clean
  started := h.started
  ready := h.ready
  libRef := h.libRef
  balanced := h.balanced

/-- `Initialize` gets a reference for its handle, and gives it back if there is none. -/
theorem Kept.initializeWith (h : Kept s) (hm : s.lifecycleMutex = none)
    (config : Option Config) (created : Bool) (r : Option Bool) :
    Kept { (s.initializeWith config created).1 with
      phase := update s.phase c (.returned r) } := by
  have hstay : Kept { s with phase := update s.phase c (.returned r) } :=
    h.stay (by simp [Phase.Ok, hm])
  unfold System.initializeWith
  split
  · exact hstay
  next hs =>
  rw [not_not] at hs
  have hmosq := h.clean hs
  have hlib : s.libRef = 0 := by simpa [hmosq] using h.libRef
  have hbal : (s.libInits : Int) = s.libCleanups := by simpa [hlib] using h.balanced
  cases config with
  | none => exact hstay
  | some config =>
    dsimp only
    split
    next henable =>
      refine h.quietly hm (.inl hs) rfl ?_ ?_ rfl (.inr (.inl rfl)) nofun ?_ h.libRef h.balanced
      · simp [Phase.Ok, hm]
      · simp [hm]
      · exact fun _ _ he => absurd he henable
    next =>
    split
    · refine h.quietly hm (.inl hs) rfl ?_ ?_ rfl (.inl hs) (fun _ => hmosq) ?_ h.libRef h.balanced
      · simp [Phase.Ok, hm]
      · simp [hm]
      · intro _ hi
        cases hs.symm.trans hi
    next =>
    split
    · refine h.quietly hm (.inl hs) rfl ?_ ?_ rfl (.inr (.inl rfl)) nofun ?_ ?_ ?_
      · simp [Phase.Ok, System.acquireLib, hm]
      · simp [System.acquireLib, hm]
      · exact fun _ _ _ => ⟨rfl, rfl⟩
      · simp [System.acquireLib, hlib]
      · simp [System.acquireLib, hlib, hbal]
    · refine h.quietly hm (.inl hs) rfl ?_ ?_ rfl (.inl hs) (fun _ => hmosq) ?_ ?_ ?_
      · simp [Phase.Ok, System.acquireLib, System.releaseLib, hm]
      · simp [System.acquireLib, System.releaseLib, hm]
      · intro _ hi
        cases hs.symm.trans hi
      · simp [System.acquireLib, System.releaseLib, hlib, hmosq]
      · simp [System.acquireLib, System.releaseLib, hlib, hbal]

/-- A module that starts may have threads. -/
theorem not_quiet_starting : ¬ Quiet .starting := by simp [Quiet]

/-- A module that runs may have threads. -/
theorem not_quiet_running : ¬ Quiet .running := by simp [Quiet]

/-- A module that stops may have threads. -/
theorem not_quiet_stopping : ¬ Quiet .stopping := by simp [Quiet]

/-- Steps of the caller that holds the mutex, in a module that has been started: the handle and the
queues are there, and stay. -/
theorem Kept.holding (h : Kept s) (hm : s.lifecycleMutex = some c) (hs : ¬ Quiet s.state)
    (hphase : s'.phase = update s.phase c p) (hp : p.Ok s' c)
    (hm' : s'.lifecycleMutex = none ∨ s'.lifecycleMutex = some c)
    (hquiet : Quiet s'.state → ∀ w, s'.thread w = .none) (hclean : s'.state ≠ .uninitialized)
    (hkept : s'.mosq = s.mosq ∧ s'.queues = s.queues) (hlib : s'.libRef = s.libRef)
    (hbal : s'.libInits = s.libInits ∧ s'.libCleanups = s.libCleanups) : Kept s' := by
  obtain ⟨hmosq, hqueues⟩ := hkept
  have hold : ∀ d, d ≠ c → s.lifecycleMutex ≠ some d := by
    intro d hd hsome
    exact hd (Option.some.inj (hsome.symm.trans hm))
  have hnew : ∀ d, d ≠ c → s'.lifecycleMutex ≠ some d := by
    intro d hd hsome
    rcases hm' with hm' | hm' <;> rw [hm'] at hsome
    · cases hsome
    · exact hd (Option.some.inj hsome).symm
  have hthere : s'.mosq = true ∧ s'.queues = true := by
    rw [hmosq, hqueues]
    exact h.started hs
  exact {
    phase := ok_update h.phase hphase hold hnew hp
    quiet := hquiet
    clean := fun hu => absurd hu hclean
    started := fun _ => hthere
    ready := fun _ _ _ => hthere
    libRef := by rw [hlib, hmosq]; exact h.libRef
    balanced := by rw [hlib, hbal.1, hbal.2]; exact h.balanced }

/-- `Start` goes on with the four threads. -/
theorem Kept.start (h : Kept s) (hm : s.lifecycleMutex = none) (hs : s.state = .initialized)
    (henable : s.config.enable = true) :
    Kept { s with
      state := .starting, running := true, lifecycleMutex := some c
      phase := update s.phase c (.assigning workers) } where
  phase := ok_update h.phase rfl (by simp [hm]) (fun d hd hsome => hd (Option.some.inj hsome).symm)
    ⟨rfl, rfl, by decide, fun w _ => h.quiet (.inr (.inl hs)) w⟩
  quiet hq := absurd hq not_quiet_starting
  clean := nofun
  started _ := h.ready hm hs henable
  ready := nofun
  libRef := h.libRef
  balanced := h.balanced

/-- `Stop` goes on with the four threads. -/
theorem Kept.stop (h : Kept s) (hm : s.lifecycleMutex = none) (hs : ¬ Quiet s.state)
    (destroy : Bool) :
    Kept { s with
      state := .stopping, running := false, lifecycleMutex := some c
      phase := update s.phase c (.joining workers destroy) } where
  phase := ok_update h.phase rfl (by simp [hm]) (fun d hd hsome => hd (Option.some.inj hsome).symm)
    ⟨rfl, rfl, fun w hw => absurd (by cases w <;> decide) hw⟩
  quiet hq := absurd hq not_quiet_stopping
  clean := nofun
  started _ := h.started hs
  ready := nofun
  libRef := h.libRef
  balanced := h.balanced

/-- The handle goes, of a module that has no threads. -/
theorem Kept.destroy (h : Kept s) (hm : s.lifecycleMutex = none) (hs : Quiet s.state) :
    Kept { s.destroyHandle with
      lifecycleMutex := some c, phase := update s.phase c .resetting } := by
  have hm' : ∀ d, d ≠ c → some c ≠ some d := fun d hd hsome => hd (Option.some.inj hsome).symm
  have hb := h.balanced
  have hr := h.libRef
  unfold System.destroyHandle System.releaseLib
  split
  next hmosq =>
    rw [if_pos hmosq] at hr
    refine h.quietly hm hs rfl ⟨rfl, hs, rfl⟩ hm' rfl hs (fun _ => rfl) nofun ?_ ?_
    · simp [hr]
    · simp only [hr, if_pos]
      omega
  next hmosq =>
    have hnone : s.mosq = false := Bool.eq_false_iff.2 hmosq
    exact h.quietly hm hs rfl ⟨rfl, hs, hnone⟩ hm' rfl hs h.clean nofun hr hb

/-- The queues go, and the module is as before `Initialize`. -/
theorem Kept.reset (h : Kept s) (hm : s.lifecycleMutex = some c) (hs : Quiet s.state)
    (hmosq : s.mosq = false) :
    Kept { s with
      queues := false, state := .uninitialized, lifecycleMutex := none
      phase := update s.phase c (.returned none) } where
  phase := ok_update h.phase rfl (by simpa [hm] using fun d hd => Ne.symm hd) nofun nofun
  quiet _ := h.quiet hs
  clean _ := hmosq
  started hq := absurd (.inl rfl) hq
  ready := nofun
  libRef := h.libRef
  balanced := h.balanced

/-! ## One step -/

/-- The begin of `Start` keeps it. -/
theorem starting_kept (h : Kept s) {created : Bool}
    (hs : act s c created .starting = some (s', p)) :
    Kept { s' with phase := update s.phase c p } := by
  simp only [act] at hs
  split at hs
  · cases hs
  next hm =>
  rw [Option.not_isSome_iff_eq_none] at hm
  have hreturned : Kept { s with phase := update s.phase c (.returned (some false)) } :=
    h.stay (by simp [Phase.Ok, hm])
  split at hs
  · cases hs
    exact hreturned
  next hstate =>
  split at hs
  · cases hs
    exact hreturned
  next henable =>
  cases hs
  exact h.start hm (not_not.1 hstate) (by simpa using henable)

/-- The creation of the threads keeps it. -/
theorem assigning_kept (h : Kept s) {ws : List Worker} (hok : Phase.Ok s c (.assigning ws))
    {created : Bool} (hs : act s c created (.assigning ws) = some (s', p)) :
    Kept { s' with phase := update s.phase c p } := by
  obtain ⟨hm, hstate, hnodup, hthread⟩ := hok
  have hq : ¬ Quiet s.state := hstate ▸ not_quiet_starting
  cases ws with
  | nil =>
    cases hs
    exact h.holding hm hq rfl nofun (.inl rfl) (fun hr => absurd hr not_quiet_running) nofun
      ⟨rfl, rfl⟩ rfl ⟨rfl, rfl⟩
  | cons w ws =>
    simp only [act] at hs
    split at hs
    · cases hs
      exact h.holding hm hq rfl nofun (.inl rfl) h.quiet (by simp [hstate]) ⟨rfl, rfl⟩ rfl
        ⟨rfl, rfl⟩
    split at hs
    · cases hs
    cases hs
    obtain ⟨hw, hnodup⟩ := List.nodup_cons.1 hnodup
    refine h.holding hm hq rfl ⟨hm, hstate, hnodup, ?_⟩ (.inr hm) (fun hr => absurd hr hq)
      (by simp [hstate]) ⟨rfl, rfl⟩ rfl ⟨rfl, rfl⟩
    intro v hv
    have hne : v ≠ w := fun he => hw (he ▸ hv)
    simpa only [update_of_ne hne] using hthread v (List.mem_cons_of_mem w hv)

/-- The begin of `Stop` keeps it. -/
theorem stopping_kept (h : Kept s) {destroy created : Bool}
    (hs : act s c created (.stopping destroy) = some (s', p)) :
    Kept { s' with phase := update s.phase c p } := by
  simp only [act] at hs
  split at hs
  · cases hs
  next hm =>
  rw [Option.not_isSome_iff_eq_none] at hm
  split at hs
  · cases hs
    refine h.stay ?_
    cases destroy <;> simp [afterStop, Phase.Ok, hm]
  next hstate =>
  cases hs
  refine h.stop hm ?_ destroy
  intro hq
  refine hstate ⟨?_, ?_⟩
  · exact fun hr => not_quiet_running (hr ▸ hq)
  · exact fun hr => not_quiet_starting (hr ▸ hq)

/-- The joining of the threads keeps it. -/
theorem joining_kept (h : Kept s) {ws : List Worker} {destroy created : Bool}
    (hok : Phase.Ok s c (.joining ws destroy))
    (hs : act s c created (.joining ws destroy) = some (s', p)) :
    Kept { s' with phase := update s.phase c p } := by
  obtain ⟨hm, hstate, hthread⟩ := hok
  have hq : ¬ Quiet s.state := hstate ▸ not_quiet_stopping
  cases ws with
  | nil =>
    cases hs
    refine h.holding hm hq rfl ?_ (.inl rfl) (fun _ w => hthread w (List.not_mem_nil)) nofun
      ⟨rfl, rfl⟩ rfl ⟨rfl, rfl⟩
    cases destroy <;> simp [afterStop, Phase.Ok]
  | cons w ws =>
    simp only [act] at hs
    split at hs
    next hw =>
      cases hs
      refine h.stay ?_
      refine ⟨hm, hstate, fun v hv => ?_⟩
      rcases eq_or_ne v w with rfl | hne
      · exact hw
      · exact hthread v (by simp [hne, hv])
    next hw =>
      cases hs
      refine h.holding hm hq rfl ⟨hm, hstate, fun v hv => ?_⟩ (.inr hm)
        (fun hr => absurd hr hq) (by simp [hstate]) ⟨rfl, rfl⟩ rfl ⟨rfl, rfl⟩
      rcases eq_or_ne v w with rfl | hne
      · exact update_self ..
      · simpa only [update_of_ne hne] using hthread v (by simp [hne, hv])
    next hw =>
      split at hs
      · cases hs
        exact h.holding hm hq rfl nofun (.inl rfl) h.quiet (by simp [hstate]) ⟨rfl, rfl⟩ rfl
          ⟨rfl, rfl⟩
      · cases hs

/-- The teardown keeps it, where the module has no threads. -/
theorem destroying_kept (h : Kept s) {created : Bool} (hq : Quiet s.state)
    (hs : act s c created .destroying = some (s', p)) :
    Kept { s' with phase := update s.phase c p } := by
  simp only [act] at hs
  split at hs
  · cases hs
  next hm =>
  cases hs
  exact h.destroy (Option.not_isSome_iff_eq_none.1 hm) hq

/-- **A step of a caller**, by what it is at. -/
theorem act_kept (h : Kept s) {created : Bool} (hc : Careful s (.act c created))
    (hs : act s c created (s.phase c) = some (s', p)) :
    Kept { s' with phase := update s.phase c p } := by
  have hok := h.phase c
  cases hphase : s.phase c with
  | returned result =>
    rw [hphase] at hs
    cases hs
  | initializing config handle =>
    rw [hphase] at hs
    simp only [act] at hs
    split at hs
    · cases hs
    next hm =>
    cases hs
    exact h.initializeWith (Option.not_isSome_iff_eq_none.1 hm) config handle _
  | starting =>
    rw [hphase] at hs
    exact starting_kept h hs
  | assigning ws =>
    rw [hphase] at hs hok
    exact assigning_kept h hok hs
  | stopping destroy =>
    rw [hphase] at hs
    exact stopping_kept h hs
  | joining ws destroy =>
    rw [hphase] at hs hok
    exact joining_kept h hok hs
  | destroying =>
    rw [hphase] at hs
    exact destroying_kept h (hc hphase) hs
  | resetting =>
    rw [hphase] at hs hok
    cases hs
    exact h.reset hok.1 hok.2.1 hok.2.2

/-- A caller between two calls does not hold the mutex, and waits for it in the next. -/
theorem call_kept (h : Kept s) (hp : s.lifecycleMutex ≠ some c → p.Ok s c)
    (hs : call s c p = some s') : Kept s' := by
  have hok := h.phase c
  unfold call at hs
  split at hs
  next hphase =>
    rw [hphase] at hok
    cases hs
    exact h.stay (hp hok)
  next hphase =>
    rw [hphase] at hok
    split at hs
    · cases hs
      exact h.stay (hp hok)
    · cases hs
  next => cases hs

omit [DecidableEq ι] in
/-- A thread of the module runs only in a module that has been started. -/
theorem exit_kept (h : Kept s) {w : Worker} (hw : s.thread w = .running) :
    Kept { s with thread := update s.thread w .exited } := by
  have hq : ¬ Quiet s.state := fun hq => by simp [h.quiet hq w] at hw
  have hnone : ∀ v, s.thread v = .none → update s.thread w .exited v = .none := by
    intro v hv
    have hne : v ≠ w := by
      rintro rfl
      simp [hw] at hv
    rwa [update_of_ne hne]
  refine ⟨fun c => ?_, fun hr => absurd hr hq, h.clean, h.started, h.ready, h.libRef, h.balanced⟩
  have hok := h.phase c
  dsimp only
  cases hphase : s.phase c with
  | assigning ws =>
    rw [hphase] at hok
    exact ⟨hok.1, hok.2.1, hok.2.2.1, fun v hv => hnone v (hok.2.2.2 v hv)⟩
  | joining ws destroy =>
    rw [hphase] at hok
    exact ⟨hok.1, hok.2.1, fun v hv => hnone v (hok.2.2 v hv)⟩
  | resetting =>
    rw [hphase] at hok
    exact hok
  | returned | initializing | starting | stopping | destroying =>
    rw [hphase] at hok
    exact hok

/-- **Every careful step keeps it.** -/
theorem step_kept (h : Kept s) {l : Label ι} (hc : Careful s l) (hs : step s l = some s') :
    Kept s' := by
  cases l with
  | callInitialize c config created => exact call_kept h id hs
  | callStart c => exact call_kept h id hs
  | callStop c => exact call_kept h id hs
  | callDestroy c => exact call_kept h id hs
  | act c created =>
    obtain ⟨⟨t, p⟩, hact, rfl⟩ := Option.map_eq_some_iff.1 hs
    exact act_kept h hc hact
  | exit w =>
    simp only [step] at hs
    split at hs
    next =>
      split at hs
      next hw =>
        cases hs
        exact exit_kept h hw.1
      next => cases hs
    next => cases hs

omit [DecidableEq ι] in
/-- **What is kept is safe.** -/
theorem Kept.safe (h : Kept s) : Safe s where
  unthreaded hgone w hw := by
    have hq : ¬ Quiet s.state := fun hq => by simp [h.quiet hq w] at hw
    obtain ⟨hmosq, hqueues⟩ := h.started hq
    simp [hmosq, hqueues] at hgone
  unassigned c w ws hphase hjoin := by
    have hok := h.phase c
    rw [hphase] at hok
    exact hjoin (hok.2.2.2 w List.mem_cons_self)
  libRef := by
    rw [h.libRef]
    cases s.mosq <;> simp
  balanced := h.balanced

end

/-! ## Runs -/

omit [DecidableEq ι] in
/-- At first nobody has called. -/
theorem kept_initial : Kept ({} : System ι) where
  phase _ := nofun
  quiet _ _ := rfl
  clean _ := rfl
  started hq := absurd (.inl rfl) hq
  ready _ := nofun
  libRef := rfl
  balanced := rfl

/-- **The lifecycle is safe** in every interleaving of the four calls in which no teardown finds the
module started. -/
theorem lifecycle_safe {ls : List (Label ι)} {s : System ι}
    (hc : Along step Careful {} ls) (h : run step {} ls = some s) : Safe s :=
  (run_along (fun _ _ _ hc h hs => step_kept h hc hs) kept_initial hc h).safe

/-- A client starts the module, and another one destroys it. -/
theorem lifecycle_safe_destroyed :
    let start := List.replicate 6 (Label.act (.client 0) true)
    let exits := workers.map Label.exit
    let destroy := List.replicate 7 (Label.act (.client 1) true)
    let ls := [.callInitialize (.client 0) (some {}) true, .act (.client 0) true,
      .callStart (.client 0)] ++ start ++ [.callDestroy (.client 1), .act (.client 1) true] ++
      exits ++ destroy
    (run step ({} : System Nat) ls).map (·.libCleanups) = some 1 ∧
      ∀ s, run step ({} : System Nat) ls = some s → Safe s :=
  ⟨by decide, fun _ h => lifecycle_safe (by decide) h⟩

/-- `Start` begins behind the `Stop` of a `Destroy`. -/
def destroyOvertaken : List (Label Nat) :=
  [.callInitialize (.client 0) (some {}) true, .act (.client 0) true, .callDestroy (.client 1),
    .act (.client 1) true, .callStart (.client 0)]

/-- Between the `Stop` of a `Destroy`, which finds nothing to stop, and its teardown, the module is
started: the threads run on without the handle. -/
theorem destroyed_under_threads :
    ¬ ∀ (ls : List (Label Nat)) (s : System Nat), run step {} ls = some s → Safe s := by
  intro h
  have hs := h (destroyOvertaken ++ (List.replicate 6 (.act (.client 0) true) ++
    [.act (.client 1) true])) _ rfl
  exact hs.unthreaded (.inl rfl) .receiver rfl

end Lifecycle

end FastMqtt
