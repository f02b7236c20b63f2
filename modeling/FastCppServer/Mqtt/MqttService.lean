import FastCppServer.Lib.Transition

/-!
# Stopping the MQTT service

`MqttService::Stop` against the network thread of mosquitto, which runs `OnConnect`, `OnDisconnect`
and `OnMessage`. `Stop` joins that thread in `mosquitto_loop_stop` while it holds `mtx_`, and the
thread takes `mtx_` on a successful connect, for each message, and wherever a handler calls back
into the service. Handlers are arbitrary: what one does next is a label. (One that stops the service
from within the network thread is left out, as the thread would join itself.)

`mosquitto_loop_stop` with `force` cancels the thread before it joins it, which ends it wherever it
does not wait for the mutex.
-/

namespace MyMqtt

open Transition

/-! ## Topics -/

/-- The loop of `splitTopic`: `std::getline` has no item after the last delimiter. -/
def splitTopicFrom (item : List Char) : List Char → List (List Char)
  | [] => if item = [] then [] else [item.reverse]
  | c :: cs =>
    if c = '/' then item.reverse :: splitTopicFrom [] cs else splitTopicFrom (c :: item) cs

/-- `splitTopic`. -/
def splitTopic (s : List Char) : List (List Char) := splitTopicFrom [] s

/-- The loop of `matchTopicFilter`. -/
def matchLevels : List (List Char) → List (List Char) → Bool
  | [], t => t.isEmpty
  | fp :: f, t =>
    if fp = ['#'] then true
    else match t with
    | [] => false
    | tp :: t => if fp = ['+'] then matchLevels f t else if fp ≠ tp then false else matchLevels f t

/-- `matchTopicFilter`. -/
def matchTopicFilter (filter topic : List Char) : Bool :=
  matchLevels (splitTopic filter) (splitTopic topic)

/-! ## The service -/

/-- A route; its handler is known by a name. -/
structure Route where
  filter : List Char
  handler : Nat
  qos : Int := 0
  deriving DecidableEq

/-- What locks `mtx_` in a handler. -/
inductive Api where
  | addRoute (r : Route)
  | getPublisher
  | getConfig
  | getRoutes
  | start
  deriving DecidableEq

/-- The thread that initialises, starts and stops the service. -/
inductive Control where
  | idle
  | starting
  | stopping
  | joining
  deriving DecidableEq

/-- The network thread: there is none; it is in mosquitto's loop; or in a callback, on the way to
`mtx_` or past it, with the routes that are still to be subscribed or to be tried for the topic. -/
inductive Network where
  | none
  | loop
  | connecting
  | subscribing (routes : List Route)
  | dispatching (topic : List Char)
  | routing (topic : List Char) (routes : List Route)
  | handling (topic : List Char) (routes : List Route)
  | calling (api : Api) (topic : List Char) (routes : List Route)
  deriving DecidableEq

/-- A route is tried for a topic. -/
def Network.tryRoute (topic : List Char) (r : Route) (routes : List Route) : Network :=
  if matchTopicFilter r.filter topic then .handling topic routes else .routing topic routes

/-- It waits for `mtx_`. -/
def Network.Waits : Network → Prop
  | .connecting | .dispatching _ | .calling .. => True
  | _ => False

instance : DecidablePred Network.Waits
  | .connecting | .dispatching _ | .calling .. => isTrue trivial
  | .none | .loop | .subscribing _ | .routing .. | .handling .. => isFalse id

/-- The service with its mutex, the thread that controls it, and the network thread. -/
structure System where
  inited : Bool := false
  running : Bool := false
  connected : Bool := false
  mosq : Bool := false
  routes : List Route := []
  publisher : Bool := false
  /-- `mtx_` is locked, by `Stop`: nobody else keeps it over a step. -/
  mtx : Bool := false
  control : Control := .idle
  network : Network := .none
  deriving DecidableEq

/-- A call, news of the broker, or the next step of a thread. -/
inductive Label where
  | init (created : Bool)
  | addRoute (r : Route)
  | callStart
  | callStop
  | control (started : Bool)
  | onConnect (rc : Int)
  | onDisconnect (rc : Int)
  | onMessage (topic : Option (List Char))
  | network
  | handlerCalls (api : Api)
  | handlerReturns
  | exit
  | cancelled

/-- `MqttService::Init`; `created` is whether `mosquitto_new` and what follows it succeed. -/
def System.init (s : System) (created : Bool) : System :=
  if s.inited then s
  else if created then { s with mosq := true, publisher := true, inited := true } else s

/-- `MqttService::Start`; `started` is whether `mosquitto_connect_async` and `mosquitto_loop_start`
succeed. -/
def System.start (s : System) (started : Bool) : System :=
  if ¬ s.inited ∨ ¬ s.mosq then s
  else if s.running then s
  else if started then { s with running := true, network := .loop } else { s with running := false }

/-- What `Stop` does up to `mosquitto_loop_stop`. -/
def System.disconnect (s : System) : System :=
  { s with running := false, connected := false, mtx := true }

/-- What `Stop` does after it. -/
def System.destroy (s : System) : System :=
  { s with mosq := false, routes := [], publisher := false, inited := false, mtx := false }

/-- One step of `Start` or `Stop`. -/
def controlAct (s : System) (started : Bool) : Option System :=
  match s.control with
  | .idle => none
  | .starting => if s.mtx then none else some { s.start started with control := .idle }
  | .stopping =>
    if s.mtx then none
    else if ¬ s.inited then some { s with control := .idle }
    else if s.mosq then some { s.disconnect with control := .joining }
    else some { s.disconnect.destroy with control := .idle }
  | .joining =>
    if s.network = .none then some { s.destroy with control := .idle } else none

/-- What a handler's call does when it has `mtx_`. The network thread is running, so `Start` has
nothing to do. -/
def System.serve (s : System) : Api → System
  | .addRoute r => { s with routes := s.routes ++ [r] }
  | .getPublisher | .getConfig | .getRoutes | .start => s

/-- A step of the network thread within a callback. -/
def networkAct (s : System) : Option System :=
  match s.network with
  | .connecting => if s.mtx then none else some { s with network := .subscribing s.routes }
  | .subscribing [] => some { s with network := .loop }
  | .subscribing (_ :: routes) =>
    some { s with network := if s.mosq then .subscribing routes else .loop }
  | .dispatching topic =>
    if s.mtx then none
    else if ¬ s.running then some { s with network := .loop }
    else some { s with network := .routing topic s.routes }
  | .routing _ [] => some { s with network := .loop }
  | .routing topic (r :: routes) => some { s with network := .tryRoute topic r routes }
  | .calling api topic routes =>
    if s.mtx then none else some { s.serve api with network := .handling topic routes }
  | .none | .loop | .handling .. => none

/-- One step. A thread that waits has no successor. -/
def step (s : System) : Label → Option System
  | .init created => if s.control = .idle ∧ ¬ s.mtx then some (s.init created) else none
  | .addRoute r =>
    if s.control = .idle ∧ ¬ s.mtx then some { s with routes := s.routes ++ [r] } else none
  | .callStart => if s.control = .idle then some { s with control := .starting } else none
  | .callStop => if s.control = .idle then some { s with control := .stopping } else none
  | .control started => controlAct s started
  | .onConnect rc =>
    if s.network = .loop then
      some { s with connected := rc = 0, network := if rc = 0 then .connecting else .loop }
    else none
  | .onDisconnect _ => if s.network = .loop then some { s with connected := false } else none
  | .onMessage topic =>
    if s.network = .loop then
      some { s with network := match topic with | none => .loop | some topic => .dispatching topic }
    else none
  | .network => networkAct s
  | .handlerCalls api =>
    match s.network with
    | .handling topic routes => some { s with network := .calling api topic routes }
    | _ => none
  | .handlerReturns =>
    match s.network with
    | .handling topic routes => some { s with network := .routing topic routes }
    | _ => none
  -- the connection is closed
  | .exit =>
    if s.control = .joining ∧ s.network = .loop then some { s with network := .none } else none
  -- `pthread_cancel`, which the wait for a mutex does not notice
  | .cancelled =>
    if s.control = .joining ∧ ¬ s.network.Waits then some { s with network := .none } else none

/-! ## A message and its handlers -/

/-- `MqttService::DispatchRoutes`: the routes whose handlers it calls, in their order. -/
def System.dispatchRoutes (s : System) (topic : List Char) : List Route :=
  if ¬ s.running then [] else s.routes.filter fun r => matchTopicFilter r.filter topic

/-- The route whose handler a step calls. -/
def called (s : System) (l : Label) (_ : System) : List Route :=
  match l, s.network with
  | .network, .routing topic (r :: _) => if matchTopicFilter r.filter topic then [r] else []
  | _, _ => []

/-- The routes whose handlers are still to be called. -/
def Network.pending : Network → List Route
  | .routing topic routes | .handling topic routes | .calling _ topic routes =>
    routes.filter fun r => matchTopicFilter r.filter topic
  | .none | .loop | .connecting | .subscribing _ | .dispatching _ => []

/-- The thread is in `DispatchRoutes`, with `mtx_` behind it. -/
def Network.Routes : Network → Prop
  | .routing .. | .handling .. | .calling .. => True
  | .none | .loop | .connecting | .subscribing _ | .dispatching _ => False

instance : DecidablePred Network.Routes
  | .routing .. | .handling .. | .calling .. => isTrue trivial
  | .none | .loop | .connecting | .subscribing _ | .dispatching _ => isFalse id

/-- There is a network thread only while the service runs, or while `Stop` joins it. -/
structure Live (s : System) : Prop where
  inited : s.network ≠ .none → s.inited = true ∧ s.mosq = true
  running : s.network ≠ .none → s.running = true ∨ s.control = .joining

section
variable {s s' : System}

/-- Without a thread there is nothing to keep. -/
theorem Live.of_none (h : s.network = .none) : Live s :=
    ⟨fun hn => absurd h hn, fun hn => absurd h hn⟩

/-- A step within the network thread. -/
theorem Live.network (h : Live s) (hn : s.network ≠ .none) (hinited : s'.inited = s.inited)
    (hmosq : s'.mosq = s.mosq) (hrunning : s'.running = s.running)
    (hcontrol : s'.control = s.control) : Live s' := by
  refine ⟨fun _ => ?_, fun _ => ?_⟩
  · rw [hinited, hmosq]
    exact h.inited hn
  · rw [hrunning, hcontrol]
    exact h.running hn

/-- `Start` and `Stop` leave the thread alone, but for the `Start` that makes it. -/
theorem controlAct_live {started : Bool} (h : Live s) (hs : controlAct s started = some s') :
    Live s' ∧ (s.network ≠ .none → s'.network = s.network) := by
  unfold controlAct at hs
  cases hcontrol : s.control with
  | idle => simp [hcontrol] at hs
  | starting =>
    simp only [hcontrol] at hs
    split at hs
    · cases hs
    obtain rfl := Option.some.inj hs
    have hrun : s.network ≠ .none → s.running = true := fun hn =>
      (h.running hn).resolve_right (by simp [hcontrol])
    by_cases hn : s.network = .none
    · refine ⟨?_, fun hn' => absurd hn hn'⟩
      unfold System.start
      split
      · exact .of_none hn
      next hinited =>
      split
      · exact .of_none hn
      split
      · rw [not_or, not_not, not_not] at hinited
        exact ⟨fun _ => hinited, fun _ => .inl rfl⟩
      · exact .of_none hn
    · have hsame : s.start started = s := by
        unfold System.start
        rw [if_pos (hrun hn), ite_self]
      rw [hsame]
      exact ⟨⟨h.inited, fun hn => .inl (hrun hn)⟩, fun _ => rfl⟩
  | stopping =>
    simp only [hcontrol] at hs
    split at hs
    · cases hs
    split at hs
    next hinited =>
      obtain rfl := Option.some.inj hs
      refine ⟨.of_none ?_, fun _ => rfl⟩
      by_contra hn
      exact hinited (h.inited hn).1
    split at hs
    next hmosq =>
      obtain rfl := Option.some.inj hs
      exact ⟨⟨h.inited, fun _ => .inr rfl⟩, fun _ => rfl⟩
    next hmosq =>
      obtain rfl := Option.some.inj hs
      refine ⟨.of_none ?_, fun _ => rfl⟩
      by_contra hn
      exact hmosq (h.inited hn).2
  | joining =>
    simp only [hcontrol] at hs
    split at hs
    next hn =>
      obtain rfl := Option.some.inj hs
      exact ⟨.of_none hn, fun hn' => absurd hn hn'⟩
    · cases hs

/-- A step within a callback leaves the network thread where it may be. -/
theorem networkAct_live (h : Live s) (hs : networkAct s = some s') : Live s' := by
  have hn : s.network ≠ .none := by
    intro hn
    simp [networkAct, hn] at hs
  unfold networkAct at hs
  split at hs
  case h_7 api topic routes heq =>
    split at hs
    · cases hs
    obtain rfl := Option.some.inj hs
    refine h.network hn ?_ ?_ ?_ ?_
    all_goals cases api <;> rfl
  all_goals
    repeat' split at hs
    all_goals first
      | cases hs; done
      | obtain rfl := Option.some.inj hs
        exact h.network hn rfl rfl rfl rfl

/-- A step keeps it, and only the network thread's own steps take it on. -/
theorem step_live (h : Live s) {l : Label} (hs : step s l = some s') : Live s' := by
  cases l with
  | init created =>
    simp only [step] at hs
    split at hs
    · obtain rfl := Option.some.inj hs
      unfold System.init
      split
      · exact h
      next hinited =>
      have hn : s.network = .none := by
        by_contra hn
        exact hinited (h.inited hn).1
      split
      · exact .of_none hn
      · exact .of_none hn
    · cases hs
  | control started => exact (controlAct_live h hs).1
  | network => exact networkAct_live h hs
  | callStart | callStop =>
    simp only [step] at hs
    split at hs
    next hidle =>
      obtain rfl := Option.some.inj hs
      exact ⟨h.inited, fun hn => .inl ((h.running hn).resolve_right (by simp [hidle]))⟩
    next => cases hs
  | addRoute r =>
    simp only [step] at hs
    split at hs
    · obtain rfl := Option.some.inj hs
      exact ⟨h.inited, h.running⟩
    · cases hs
  | onConnect | onDisconnect | onMessage | handlerCalls | handlerReturns =>
    simp only [step] at hs
    split at hs
    next hn =>
      obtain rfl := Option.some.inj hs
      exact h.network (by simp [hn]) rfl rfl rfl rfl
    next => cases hs
  | exit | cancelled =>
    simp only [step] at hs
    split at hs
    · obtain rfl := Option.some.inj hs
      exact .of_none rfl
    · cases hs

/-- **One step of the loop of `DispatchRoutes`**, or of others meanwhile: a handler is called, or
the ones that are to be called stay as they are. -/
theorem step_pending (h : Live s) (hin : s.network.Routes) {l : Label} (hs : step s l = some s')
    (hback : s'.network ≠ .none) :
    s.network.pending = called s l s' ++ s'.network.pending := by
  cases l with
  | init created =>
    simp only [step] at hs
    split at hs
    · obtain rfl := Option.some.inj hs
      unfold System.init
      repeat' split
      all_goals rfl
    · cases hs
  | control started =>
    have hn : s.network ≠ .none := by
      intro hn
      rw [hn] at hin
      exact hin
    rw [(controlAct_live h hs).2 hn]
    rfl
  | addRoute | callStart | callStop =>
    simp only [step] at hs
    split at hs
    · obtain rfl := Option.some.inj hs
      rfl
    · cases hs
  | onConnect | onDisconnect | onMessage =>
    simp only [step] at hs
    split at hs
    next hn =>
      rw [hn] at hin
      exact absurd hin id
    next => cases hs
  | handlerCalls | handlerReturns =>
    simp only [step] at hs
    split at hs
    next hn =>
      obtain rfl := Option.some.inj hs
      rw [hn]
      rfl
    next => cases hs
  | exit | cancelled =>
    simp only [step] at hs
    split at hs
    · obtain rfl := Option.some.inj hs
      exact absurd rfl hback
    · cases hs
  | network =>
    rw [step, networkAct] at hs
    cases hn : s.network with
    | none | loop | connecting | subscribing | dispatching =>
      rw [hn] at hin
      exact absurd hin id
    | handling => simp [hn] at hs
    | calling api topic routes =>
      simp only [hn] at hs
      split at hs
      · cases hs
      obtain rfl := Option.some.inj hs
      simp [called, hn, Network.pending]
    | routing topic routes =>
      cases routes with
      | nil =>
        simp only [hn] at hs
        obtain rfl := Option.some.inj hs
        simp [called, hn, Network.pending]
      | cons r routes =>
        simp only [hn] at hs
        obtain rfl := Option.some.inj hs
        simp only [called, hn, Network.tryRoute]
        by_cases hr : matchTopicFilter r.filter topic = true
        · simp [hr, Network.pending]
        · simp [hr, Network.pending]

/-- **The handlers that are called** are those of the routes that were pending. -/
theorem run_pending {ls : List Label} (h : Live s) (hrun : run step s ls = some s')
    (hin : Along step (fun s _ => s.network.Routes) s ls) (hback : s'.network = .loop) :
    s.network.pending = outputs step called s ls := by
  induction ls generalizing s with
  | nil =>
    cases hrun
    rw [hback]
    rfl
  | cons l ls ih =>
    rw [run_cons] at hrun
    obtain ⟨m, hm, hrun⟩ := Option.bind_eq_some_iff.1 hrun
    obtain ⟨hnow, hrest⟩ := (along_cons hm).1 hin
    have hnone : m.network ≠ .none := by
      cases ls with
      | nil =>
        cases hrun
        simp [hback]
      | cons l' ls =>
        intro hnone
        have hroutes : m.network.Routes := hrest.1
        rw [hnone] at hroutes
        exact hroutes
    rw [step_pending h hnow hm hnone, ih (step_live h hm) hrun hrest, outputs, hm]

/-- One message, from the step that takes `mtx_` for it, to `m`, until the thread is back in its
loop, among the steps of the others and of the handlers that are called. -/
structure Dispatch (topic : List Char) (s : System) (ls : List Label) (t : System) : Prop where
  reached : ∃ pre, run step {} pre = some s
  message : s.network = .dispatching topic
  run : run step s (.network :: ls) = some t
  inside : ∀ m, step s .network = some m → Along step (fun s _ => s.network.Routes) m ls
  back : t.network = .loop

/-- **A message is handed to the handlers of `DispatchRoutes`**, each once and in their order,
whatever the others and the handlers do meanwhile. -/
theorem Dispatch.called {topic : List Char} {ls : List Label} (h : Dispatch topic s ls s') :
    outputs step called s (.network :: ls) = s.dispatchRoutes topic := by
  obtain ⟨pre, hpre⟩ := h.reached
  have hlive : Live s := run_invariant (fun _ _ _ h hs => step_live h hs) (.of_none rfl) hpre
  have hrun := h.run
  rw [run_cons] at hrun
  obtain ⟨m, hm, hrun⟩ := Option.bind_eq_some_iff.1 hrun
  have hlater := run_pending (step_live hlive hm) hrun (h.inside m hm) h.back
  have hcalled : MyMqtt.called s .network m = [] := by simp [MyMqtt.called, h.message]
  rw [outputs, hm]
  dsimp only
  rw [hcalled, List.nil_append, ← hlater]
  rw [step, networkAct, h.message] at hm
  dsimp only at hm
  split at hm
  · cases hm
  split at hm
  next hstopped =>
    obtain rfl := Option.some.inj hm
    rw [System.dispatchRoutes, if_pos hstopped]
    rfl
  next hrunning =>
    obtain rfl := Option.some.inj hm
    rw [System.dispatchRoutes, if_neg hrunning]
    rfl

end

/-! ## Stopping -/

/-- `Stop` waits for the network thread, which waits for the mutex that `Stop` holds. -/
def Deadlocked (s : System) : Prop := s.control = .joining ∧ s.mtx = true ∧ s.network.Waits

/-- While `Stop` joins, there is no message, no successful connect and no call from a handler; and
`Stop` does not get `mtx_` before a callback that waits for it. -/
def Careful (s : System) : Label → Prop
  | .control _ => s.control = .stopping → s.inited = true → s.mosq = true → ¬ s.network.Waits
  | .onConnect rc => rc = 0 → s.control ≠ .joining
  | .onMessage topic => topic.isSome → s.control ≠ .joining
  | .handlerCalls _ => s.control ≠ .joining
  | _ => True

instance (s : System) : ∀ l, Decidable (Careful s l)
  | .control _ => inferInstanceAs (Decidable (_ → _))
  | .onConnect _ => inferInstanceAs (Decidable (_ → _))
  | .onMessage _ => inferInstanceAs (Decidable (_ → _))
  | .handlerCalls _ => inferInstanceAs (Decidable (_ ≠ _))
  | .init _ | .addRoute _ | .callStart | .callStop | .onDisconnect _ | .network | .handlerReturns
  | .exit | .cancelled => isTrue trivial

/-- What careful steps keep: while `Stop` joins no callback waits for the mutex. -/
structure Kept (s : System) : Prop where
  mtx : s.mtx = true ↔ s.control = .joining
  free : s.control = .joining → ¬ s.network.Waits

section
variable {s s' : System}

/-- A step that does not bring the control thread to its join. -/
theorem Kept.of_ne (hmtx : s'.mtx = false) (hcontrol : s'.control ≠ .joining) : Kept s' :=
  ⟨iff_of_false (by simp [hmtx]) hcontrol, fun hj => absurd hj hcontrol⟩

/-- Nobody has the mutex while `Stop` does not join. -/
theorem Kept.mtx_false (h : Kept s) (hcontrol : s.control ≠ .joining) : s.mtx = false :=
  Bool.eq_false_iff.2 fun hm => hcontrol (h.mtx.1 hm)

/-- A careful step of `Start` or `Stop` keeps it. -/
theorem controlAct_kept {started : Bool} (hc : Careful s (.control started))
    (hs : controlAct s started = some s') : Kept s' := by
  unfold controlAct at hs
  cases hcontrol : s.control with
  | idle => simp [hcontrol] at hs
  | starting =>
    simp only [hcontrol] at hs
    split at hs
    · cases hs
    next hm =>
    obtain rfl := Option.some.inj hs
    refine Kept.of_ne ?_ nofun
    have hstart : (s.start started).mtx = s.mtx := by
      unfold System.start
      repeat' split
      all_goals rfl
    simpa [hstart] using hm
  | stopping =>
    simp only [hcontrol] at hs
    split at hs
    · cases hs
    next hm =>
    split at hs
    · obtain rfl := Option.some.inj hs
      exact Kept.of_ne (by simpa using hm) nofun
    next hinit =>
    split at hs
    next hmosq =>
      obtain rfl := Option.some.inj hs
      exact ⟨iff_of_true rfl rfl, fun _ => hc hcontrol (by simpa using hinit) hmosq⟩
    next =>
      obtain rfl := Option.some.inj hs
      exact Kept.of_ne rfl nofun
  | joining =>
    simp only [hcontrol] at hs
    split at hs
    · obtain rfl := Option.some.inj hs
      exact Kept.of_ne rfl nofun
    · cases hs

/-- A step of the network thread keeps what the control thread knows. -/
theorem Kept.network (h : Kept s) (hmtx : s'.mtx = s.mtx) (hcontrol : s'.control = s.control)
    (hfree : s.control = .joining → ¬ s'.network.Waits) : Kept s' :=
  ⟨by rw [hmtx, hcontrol]; exact h.mtx, fun hj => hfree (hcontrol ▸ hj)⟩

/-- A step within a callback keeps it. -/
theorem networkAct_kept (h : Kept s) (hs : networkAct s = some s') : Kept s' := by
  unfold networkAct at hs
  cases hn : s.network with
  | none | loop | handling => simp [hn] at hs
  | connecting =>
    simp only [hn] at hs
    split at hs
    · cases hs
    next hm =>
      obtain rfl := Option.some.inj hs
      exact h.network rfl rfl fun _ => id
  | dispatching topic =>
    simp only [hn] at hs
    split at hs
    · cases hs
    split at hs
    all_goals
      obtain rfl := Option.some.inj hs
      exact h.network rfl rfl fun _ => id
  | calling api topic routes =>
    simp only [hn] at hs
    split at hs
    · cases hs
    next hm =>
      obtain rfl := Option.some.inj hs
      refine h.network ?_ ?_ fun _ => id
      all_goals cases api <;> rfl
  | subscribing routes =>
    cases routes with
    | nil =>
      simp only [hn] at hs
      obtain rfl := Option.some.inj hs
      exact h.network rfl rfl fun _ => id
    | cons r routes =>
      simp only [hn] at hs
      obtain rfl := Option.some.inj hs
      refine h.network rfl rfl fun _ => ?_
      dsimp only
      split <;> exact id
  | routing topic routes =>
    cases routes with
    | nil =>
      simp only [hn] at hs
      obtain rfl := Option.some.inj hs
      exact h.network rfl rfl fun _ => id
    | cons r routes =>
      simp only [hn] at hs
      obtain rfl := Option.some.inj hs
      refine h.network rfl rfl fun _ => ?_
      dsimp only
      unfold Network.tryRoute
      split <;> exact id

/-- **Every careful step keeps it.** -/
theorem step_kept (h : Kept s) {l : Label} (hc : Careful s l) (hs : step s l = some s') :
    Kept s' := by
  cases l with
  | init created =>
    simp only [step] at hs
    split at hs
    next hi =>
      obtain rfl := Option.some.inj hs
      have hinit : (s.init created).mtx = s.mtx ∧ (s.init created).control = s.control := by
        unfold System.init
        repeat' split
        all_goals exact ⟨rfl, rfl⟩
      exact Kept.of_ne (by simpa [hinit.1] using hi.2) (by simp [hinit.2, hi.1])
    next => cases hs
  | addRoute r =>
    simp only [step] at hs
    split at hs
    next hi =>
      obtain rfl := Option.some.inj hs
      exact Kept.of_ne (by simpa using hi.2) (by simp [hi.1])
    next => cases hs
  | callStart | callStop =>
    simp only [step] at hs
    split at hs
    next hi =>
      obtain rfl := Option.some.inj hs
      exact Kept.of_ne (h.mtx_false (by simp [hi])) nofun
    next => cases hs
  | control started => exact controlAct_kept hc hs
  | onConnect rc =>
    simp only [step] at hs
    split at hs
    next =>
      obtain rfl := Option.some.inj hs
      refine h.network rfl rfl fun hj => ?_
      dsimp only
      split
      next hrc => exact absurd hj (hc hrc)
      next => exact id
    next => cases hs
  | onDisconnect rc =>
    simp only [step] at hs
    split at hs
    next =>
      obtain rfl := Option.some.inj hs
      exact h.network rfl rfl h.free
    next => cases hs
  | onMessage topic =>
    simp only [step] at hs
    split at hs
    next =>
      obtain rfl := Option.some.inj hs
      refine h.network rfl rfl fun hj => ?_
      cases topic with
      | none => exact id
      | some topic => exact absurd hj (hc rfl)
    next => cases hs
  | network => exact networkAct_kept h hs
  | handlerCalls api =>
    simp only [step] at hs
    split at hs
    next =>
      obtain rfl := Option.some.inj hs
      exact h.network rfl rfl fun hj => absurd hj hc
    next => cases hs
  | handlerReturns =>
    simp only [step] at hs
    split at hs
    next =>
      obtain rfl := Option.some.inj hs
      exact h.network rfl rfl fun _ => id
    next => cases hs
  | exit | cancelled =>
    simp only [step] at hs
    split at hs
    next =>
      obtain rfl := Option.some.inj hs
      exact h.network rfl rfl fun _ => id
    next => cases hs

end

/-! ## Getting to the end -/

/-- `Stop` can return. -/
def Returns (s : System) : Prop := ∃ ls t, run step s ls = some t ∧ t.control = .idle

section
variable {s s' : System}

/-- If `Stop` can return after a step it can before it. -/
theorem Returns.step {l : Label} (hs : step s l = some s') (h : Returns s') : Returns s := by
  obtain ⟨ls, t, hrun, ht⟩ := h
  exact ⟨l :: ls, t, by rw [run_cons, hs, Option.bind_some, hrun], ht⟩

/-- `Stop` returns without a network thread. -/
theorem returns_none (hj : s.control = .joining) (hn : s.network = .none) : Returns s := by
  refine ⟨[.control true], { s.destroy with control := .idle }, ?_, rfl⟩
  rw [run_cons, MyMqtt.step, controlAct]
  simp [hj, hn]

/-- `Stop` returns when the network thread is in its loop. -/
theorem returns_loop (hj : s.control = .joining) (hn : s.network = .loop) : Returns s := by
  have hstep : MyMqtt.step s .exit = some { s with network := .none } := by
    simp [MyMqtt.step, hj, hn]
  exact .step hstep (returns_none hj rfl)

/-- `Stop` returns when the network thread subscribes. -/
theorem returns_subscribing {routes : List Route} (hj : s.control = .joining)
    (hn : s.network = .subscribing routes) : Returns s := by
  induction routes generalizing s with
  | nil =>
    have hstep : MyMqtt.step s .network = some { s with network := .loop } := by
      simp [MyMqtt.step, networkAct, hn]
    exact .step hstep (returns_loop hj rfl)
  | cons r routes ih =>
    have hstep : MyMqtt.step s .network =
        some { s with network := if s.mosq then .subscribing routes else .loop } := by
      simp [MyMqtt.step, networkAct, hn]
    refine .step hstep ?_
    cases s.mosq with
    | true => exact ih hj rfl
    | false => exact returns_loop hj rfl

/-- `Stop` returns when the network thread calls handlers. -/
theorem returns_routing {topic : List Char} {routes : List Route} (hj : s.control = .joining)
    (hn : s.network = .routing topic routes) : Returns s := by
  induction routes generalizing s with
  | nil =>
    have hstep : MyMqtt.step s .network = some { s with network := .loop } := by
      simp [MyMqtt.step, networkAct, hn]
    exact .step hstep (returns_loop hj rfl)
  | cons r routes ih =>
    have hstep : MyMqtt.step s .network = some { s with network := .tryRoute topic r routes } := by
      simp [MyMqtt.step, networkAct, hn]
    refine .step hstep ?_
    unfold Network.tryRoute
    split
    · have hreturn : MyMqtt.step { s with network := .handling topic routes } .handlerReturns =
          some { s with network := .routing topic routes } := rfl
      exact .step hreturn (ih hj rfl)
    · exact ih hj rfl

/-- Where the network thread does not wait for `mtx_`, it gets back to its loop, and out of it. -/
theorem returns_of_free (hj : s.control = .joining) (hfree : ¬ s.network.Waits) : Returns s := by
  cases hn : s.network with
  | none => exact returns_none hj hn
  | loop => exact returns_loop hj hn
  | subscribing routes => exact returns_subscribing hj hn
  | routing topic routes => exact returns_routing hj hn
  | handling topic routes =>
    have hreturn : MyMqtt.step s .handlerReturns =
        some { s with network := .routing topic routes } := by
      simp [MyMqtt.step, hn]
    exact .step hreturn (returns_routing hj rfl)
  | connecting | dispatching | calling =>
    rw [hn] at hfree
    exact absurd trivial hfree

end

/-! ## Runs -/

/-- **`Stop` gets through its join** in every run in which the network thread takes no new business
while it is joined: there is no deadlock, and `Stop` can return from wherever it joins. -/
theorem stop_returns {ls : List Label} {s : System} (hc : Along step Careful {} ls)
    (h : run step {} ls = some s) :
    ¬ Deadlocked s ∧ (s.control = .joining → Returns s) := by
  have hinitial : Kept {} := ⟨iff_of_false nofun nofun, nofun⟩
  have hkept := run_along (fun _ _ _ hc h hs => step_kept h hc hs) hinitial hc h
  exact ⟨fun ⟨hj, _, hw⟩ => hkept.free hj hw, fun hj => returns_of_free hj (hkept.free hj)⟩

/-- A message is dispatched, and the service is stopped when it is through. -/
theorem stop_returns_dispatched :
    let ls := [.init true, .addRoute ⟨['a'], 0, 1⟩, .callStart, .control true, .onConnect 0,
      .network, .network, .network, .onMessage (some ['a']), .network, .network, .callStop,
      .control true]
    (run step {} ls).map System.control = some .joining ∧
      ∀ s, run step {} ls = some s → ¬ Deadlocked s ∧ (s.control = .joining → Returns s) :=
  ⟨by decide, fun _ h => stop_returns (by decide) h⟩

/-- A message has come, and `Stop` is first at `mtx_`. -/
theorem stop_deadlocks : ¬ ∀ (ls : List Label) (s : System), run step {} ls = some s →
    ¬ Deadlocked s := by
  intro h
  exact h [.init true, .callStart, .control true, .onMessage (some ['a']), .callStop,
    .control true] _ rfl ⟨rfl, rfl, trivial⟩

end MyMqtt
