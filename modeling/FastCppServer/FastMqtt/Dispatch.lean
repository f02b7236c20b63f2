import FastCppServer.FastMqtt.Callbacks
import FastCppServer.FastMqtt.Publish
import FastCppServer.Lib.Numbering

/-!
# Dispatching

Any number of clients in `FastMQTT::HandleMessage` and `FastMQTT::RegisterCallback`, and the
dispatcher thread (`DispatcherLoop`, `DispatchToCallbacks`). A step is one access to what they
share; `UnregisterCallback`, `ClearCallback` and `ClearAllCallbacks` change the table in one step,
as they hold `cb_mutex_`. A callback that is being run may take steps of these as anyone may.

What the receive queue has taken is with the dispatcher in the same order (`Account`), and a
dispatch goes through the callbacks that matched when the table was copied, whether they throw or
not (`Dispatch.Exact`). A message that has been counted is in flight until the queue takes it or
until, refused, it is counted as dropped.
-/

namespace FastMqtt

namespace Dispatch

open Fifo Function Numbering Parties Transition
open Publish (Ticketed)

/-- `mosquitto_message`. -/
structure MosquittoMessage where
  topic : Option String
  payload : Option (List UInt8)
  payloadlen : Int
  qos : Int := 0
  retain : Bool := false

/-- The counters of the receiving side. -/
structure Statistics where
  recvCount : Nat := 0
  lastRecvTime : Int := 0
  recvDropped : Nat := 0
  callbackFailed : Nat := 0

/-- Where a client stands. It has the handle of its callback, which is not in the table; it is about
to count its message, to store the time, to push; its message has been refused. -/
inductive Client (κ : Type) where
  | idle
  | registering (e : CallbackEntry κ)
  | counting (m : Ticketed)
  | stamping (m : Ticketed)
  | pushing (m : Ticketed)
  | dropping

/-- A message with the table that is copied for it, for the record, and the callbacks that have been
run, with whether they threw. -/
structure Run (κ : Type) where
  msg : Ticketed
  mqtt : FastMQTT κ
  invoked : List (CallbackEntry κ × Bool) := []

/-- Where the dispatcher stands: it has a message; it is about to run the rest of the callbacks; one
has thrown. -/
inductive Dispatcher (κ : Type) where
  | notStarted
  | testing
  | popping
  | popped (m : Ticketed)
  | calling (d : Run κ) (rest : List (CallbackEntry κ))
  | failing (d : Run κ) (rest : List (CallbackEntry κ))
  | exited

/-- The whole of it: the client library's object, the flag, the queue and the counters, the threads
that come from outside and the dispatcher, and what has happened so far. -/
structure System (ι κ : Type) where
  mqtt : FastMQTT κ := {}
  running : Bool := false
  recvQueue : Option (BlockingQueue Ticketed)
  stats : Statistics := {}
  client : ι → Client κ := fun _ => .idle
  dispatcher : Dispatcher κ := .notStarted
  /-- The next ticket. -/
  tickets : Nat := 0
  /-- What has happened to the receive queue. -/
  log : List (Event Ticketed) := []
  /-- What has been dispatched. -/
  dispatched : List (Run κ) := []

variable {ι κ : Type}

/-- The module after `Initialize`: with a queue, unless it is disabled. -/
def initialised (enable : Bool) (recvQueueSize : Nat) : System ι κ where
  recvQueue := if enable then some { maxSize := recvQueueSize } else none

/-- What `HandleMessage` makes of a message; nothing, where it returns at once. -/
def message (s : System ι κ) (msg : Option MosquittoMessage) (now : Int) : Option Message :=
  match msg with
  | none => none
  | some msg =>
    match msg.topic, s.recvQueue with
    | some topic, some _ =>
      some
        { topic
          payload := match msg.payload with
            | some payload => if msg.payloadlen > 0 then payload.take msg.payloadlen.toNat else []
            | none => []
          qos := msg.qos
          retain := msg.retain
          timestamp := now }
    | _, _ => none

/-- One step of `HandleMessage` or `RegisterCallback`. -/
def clientAct (s : System ι κ) : Client κ → Option (System ι κ × Client κ)
  | .idle => none
  | .registering e => some ({ s with mqtt := { s.mqtt with table := s.mqtt.table.add e } }, .idle)
  | .counting m =>
    some ({ s with stats := { s.stats with recvCount := s.stats.recvCount + 1 } }, .stamping m)
  | .stamping m =>
    some ({ s with stats := { s.stats with lastRecvTime := m.msg.timestamp } }, .pushing m)
  | .pushing m =>
    match s.recvQueue with
    | none => none
    | some q =>
      match q.push m with
      | (q, true) => some ({ s with recvQueue := some q, log := s.log ++ [.push m] }, .idle)
      | (_, false) => some (s, .dropping)
  | .dropping =>
    some ({ s with stats := { s.stats with recvDropped := s.stats.recvDropped + 1 } }, .idle)

/-- What is decided for the dispatcher: whether the time of its `Pop` is over, and whether a
callback throws. -/
structure Choice where
  expired : Bool := false
  throws : Bool := false

variable (topicMatch : String → String → Bool)

/-- One step of `DispatcherLoop`. -/
def dispatch (s : System ι κ) (c : Choice) : Dispatcher κ → Option (System ι κ × Dispatcher κ)
  | .notStarted => none
  | .testing => some (s, if s.running then .popping else .exited)
  | .popping =>
    match s.recvQueue with
    | none => none
    | some q =>
      match q.pop c.expired with
      | .popped m q => some ({ s with recvQueue := some q, log := s.log ++ [.pop m] }, .popped m)
      | .refused => some (s, .testing)
      | .waiting => some (s, .popping)
  -- the table is copied under `cb_mutex_`
  | .popped m =>
    some (s, .calling { msg := m, mqtt := s.mqtt } (s.mqtt.matched topicMatch m.msg.topic))
  | .calling d [] => some ({ s with dispatched := s.dispatched ++ [d] }, .testing)
  | .calling d (e :: rest) =>
    let d := { d with invoked := d.invoked ++ [(e, c.throws)] }
    some (s, if c.throws then .failing d rest else .calling d rest)
  | .failing d rest =>
    some ({ s with stats := { s.stats with callbackFailed := s.stats.callbackFailed + 1 } },
      .calling d rest)
  | .exited => none

/-- The calls, the steps, and what `Start` and `Stop` do to the dispatcher. -/
inductive Label (ι κ : Type) where
  | handleMessage (i : ι) (msg : Option MosquittoMessage) (now : Int)
  | register (i : ι) (topic : String) (callback : Option κ) (qos : Int)
  | client (i : ι)
  | unregister (handle : Nat)
  | clear (topic : String)
  | clearAll
  | dispatcher (c : Choice)
  | start
  | lower
  | close

variable [DecidableEq ι]

/-- A client calls when its last call has returned. -/
def call (s : System ι κ) (i : ι) (p : Client κ) : Option (System ι κ) :=
  match s.client i with
  | .idle => some { s with client := update s.client i p }
  | _ => none

/-- One step. A message takes its ticket when the network thread hands it over, a registration its
handle when it is made. -/
def step (s : System ι κ) : Label ι κ → Option (System ι κ)
  | .handleMessage i msg now =>
    match message s msg now with
    | none => some s
    | some msg => call { s with tickets := s.tickets + 1 } i (.counting ⟨s.tickets, msg⟩)
  | .register _ _ none _ => some s
  | .register i filter (some callback) qos =>
    call { s with mqtt := { s.mqtt with nextHandle := s.mqtt.nextHandle + 1 } } i
      (.registering { handle := s.mqtt.nextHandle, filter, callback, qos })
  | .client i =>
    (clientAct s (s.client i)).map fun (s', p) => { s' with client := update s.client i p }
  | .unregister handle => some { s with mqtt := (s.mqtt.unregisterCallback handle).2 }
  | .clear topic => some { s with mqtt := s.mqtt.clearCallback topic }
  | .clearAll => some { s with mqtt := s.mqtt.clearAllCallbacks }
  | .dispatcher c =>
    (dispatch topicMatch s c s.dispatcher).map fun (s', p) => { s' with dispatcher := p }
  | .start =>
    match s.dispatcher with
    | .notStarted => some { s with running := true, dispatcher := .testing }
    | _ => none
  | .lower => some { s with running := false }
  | .close => some { s with recvQueue := s.recvQueue.map BlockingQueue.close }

/-! ## What is kept -/

/-- What is in the receive queue. -/
def System.items (s : System ι κ) : List Ticketed :=
  match s.recvQueue with
  | none => []
  | some q => q.items

/-- The message that the dispatcher has. -/
def Dispatcher.msgs : Dispatcher κ → List Ticketed
  | .popped m => [m]
  | .calling d _ | .failing d _ => [d.msg]
  | .notStarted | .testing | .popping | .exited => []

/-- The dispatch that is going on, once the table has been copied. -/
def Dispatcher.runs : Dispatcher κ → List (Run κ)
  | .calling d _ | .failing d _ => [d]
  | .notStarted | .testing | .popping | .popped _ | .exited => []

/-- A callback has thrown, and has not been counted. -/
def Dispatcher.uncounted : Dispatcher κ → Nat
  | .failing _ _ => 1
  | _ => 0

/-- The dispatches, the one that is going on included. -/
def System.runs (s : System ι κ) : List (Run κ) := s.dispatched ++ s.dispatcher.runs

/-- The message has been counted, and the queue has not taken it. -/
def Client.counted : Client κ → Bool
  | .stamping _ | .pushing _ | .dropping => true
  | _ => false

/-- The message of this thread has been counted as received. -/
abbrev Counted (c : Client κ) : Prop := c.counted = true

/-- The handle a thread is about to store. -/
def Client.handle? : Client κ → Option Nat
  | .registering e => some e.handle
  | _ => none

/-- The ticket of a message that the queue has neither taken nor refused. -/
def Client.ticket? : Client κ → Option Nat
  | .counting m | .stamping m | .pushing m => some m.ticket
  | _ => none

section
variable [Fintype ι] {topicMatch} {s s' : System ι κ} {i : ι}

/-- The history of the receive queue, and the counters. -/
structure Account (s : System ι κ) : Prop where
  legal : Legal s.log s.items
  kept : .clear ∉ s.log
  passed : popped s.log = s.dispatched.map Run.msg ++ s.dispatcher.msgs
  received : s.stats.recvCount =
    (pushed s.log).length + s.stats.recvDropped + count Counted s.client

/-- A dispatch has gone through the callbacks that matched, but for the rest. -/
def Run.Through (topicMatch : String → String → Bool) (d : Run κ)
    (rest : List (CallbackEntry κ)) : Prop :=
  d.invoked.map Prod.fst ++ rest = d.mqtt.matched topicMatch d.msg.msg.topic

/-- The dispatches, and the callbacks that have thrown. -/
structure Dispatched (topicMatch : String → String → Bool) (s : System ι κ) : Prop where
  through : ∀ d ∈ s.dispatched, d.Through topicMatch []
  going : ∀ d rest, s.dispatcher = .calling d rest ∨ s.dispatcher = .failing d rest →
    d.Through topicMatch rest
  failed : s.stats.callbackFailed + s.dispatcher.uncounted =
    (s.runs.flatMap Run.invoked).countP (·.2)

/-- Each callback has a handle of its own, also before it comes into the table. -/
structure Registered (s : System ι κ) : Prop where
  good : s.mqtt.Good
  fresh : Fresh s.mqtt.nextHandle s.mqtt.alive (Client.handle? ∘ s.client)
  pos : ∀ i k, (s.client i).handle? = some k → 0 < k
  copies : ∀ d ∈ s.runs, d.mqtt.Good

/-- Each message has a ticket of its own. -/
structure Tickets (s : System ι κ) : Prop where
  fresh : Fresh s.tickets {k | k ∈ (pushed s.log).map Ticketed.ticket} (Client.ticket? ∘ s.client)
  nodup : ((pushed s.log).map Ticketed.ticket).Nodup

/-- The invariant of the dispatch. -/
structure Inv (topicMatch : String → String → Bool) (s : System ι κ) : Prop where
  account : Account s
  dispatched : Dispatched topicMatch s
  registered : Registered s
  tickets : Tickets s

/-! ## A client's step -/

omit [DecidableEq ι] [Fintype ι] in
/-- `Push`: the queue refuses the message, or takes it. -/
theorem clientAct_pushing {m : Ticketed} {r : System ι κ × Client κ}
    (h : clientAct s (.pushing m) = some r) :
    r = (s, .dropping) ∨ ∃ q, q.items = s.items ++ [m] ∧
      r = ({ s with recvQueue := some q, log := s.log ++ [.push m] }, .idle) := by
  cases hq : s.recvQueue with
  | none => simp [clientAct, hq] at h
  | some q =>
    rcases hpush : q.push m with ⟨q', taken⟩
    cases taken with
    | false =>
      simp only [clientAct, hq, hpush, Option.some.injEq] at h
      exact .inl h.symm
    | true =>
      simp only [clientAct, hq, hpush, Option.some.injEq] at h
      refine .inr ⟨q', ?_, h.symm⟩
      rw [System.items, hq]
      exact BlockingQueue.push_true hpush

/-- A client goes from its phase to one that does not count otherwise. -/
theorem Account.client (h : Account s) {p : Client κ} (hp : Counted p ↔ Counted (s.client i)) :
    Account { s with client := update s.client i p } where
  legal := h.legal
  kept := h.kept
  passed := h.passed
  received := by
    dsimp only
    rw [count_stay hp.symm]
    exact h.received

/-- A thread from outside keeps the accounts. -/
theorem account_client {r : System ι κ × Client κ} (h : Account s)
    (hr : clientAct s (s.client i) = some r) :
    Account { r.1 with client := update s.client i r.2 } := by
  cases hi : s.client i with
  | idle =>
    rw [hi] at hr
    cases hr
  | registering e =>
    rw [hi] at hr
    cases hr
    have hclient := h.client (i := i) (p := .idle) (by rw [hi]; exact Iff.rfl)
    exact ⟨hclient.legal, hclient.kept, hclient.passed, hclient.received⟩
  | counting m =>
    rw [hi] at hr
    cases hr
    refine ⟨h.legal, h.kept, h.passed, ?_⟩
    have henter := count_enter (P := Counted) (c := s.client) (a := i) (p := .stamping m)
      (by rw [hi]; exact Bool.false_ne_true) rfl
    dsimp only
    rw [henter, h.received]
    rfl
  | stamping m =>
    rw [hi] at hr
    cases hr
    have hclient := h.client (i := i) (p := .pushing m) (by rw [hi]; exact Iff.rfl)
    exact ⟨hclient.legal, hclient.kept, hclient.passed, hclient.received⟩
  | pushing m =>
    rw [hi] at hr
    rcases clientAct_pushing hr with rfl | ⟨q, hitems, rfl⟩
    · exact h.client (by rw [hi]; exact Iff.rfl)
    · have hleave := count_leave (P := Counted) (c := s.client) (a := i) (p := .idle)
        (by rw [hi]; rfl) Bool.false_ne_true
      refine ⟨?_, by simpa using h.kept, by simpa using h.passed, ?_⟩
      · rw [System.items]
        dsimp only
        rw [hitems]
        exact h.legal.push m
      · have hreceived := h.received
        dsimp only
        rw [pushed_append, pushed_push, List.length_append, List.length_singleton]
        omega
  | dropping =>
    rw [hi] at hr
    cases hr
    have hleave := count_leave (P := Counted) (c := s.client) (a := i) (p := .idle)
      (by rw [hi]; rfl) Bool.false_ne_true
    have hreceived := h.received
    refine ⟨h.legal, h.kept, h.passed, ?_⟩
    dsimp only
    omega

omit [Fintype ι] [DecidableEq ι] in
/-- A client leaves the dispatcher alone, and what it counts. -/
theorem dispatched_client {p : Client κ} {r : System ι κ × Client κ} (c : ι → Client κ)
    (h : Dispatched topicMatch s) (hr : clientAct s p = some r) :
    Dispatched topicMatch { r.1 with client := c } := by
  cases p with
  | idle => cases hr
  | registering e | counting m | stamping m | dropping =>
    cases hr
    exact ⟨h.through, h.going, h.failed⟩
  | pushing m =>
    rcases clientAct_pushing hr with rfl | ⟨q, -, rfl⟩
    · exact ⟨h.through, h.going, h.failed⟩
    · exact ⟨h.through, h.going, h.failed⟩

omit [Fintype ι] in
/-- A client that has no handle after the step, where the table stays. -/
theorem Registered.client (h : Registered s) {p : Client κ} (hp : p.handle? = none) :
    Registered { s with client := update s.client i p } where
  good := h.good
  fresh := by
    dsimp only
    rw [comp_update, hp]
    exact h.fresh.keep fun k hk => absurd hk (Option.some_ne_none k).symm
  pos j k hj := by
    rcases eq_or_ne j i with rfl | hne
    · dsimp only at hj
      rw [update_self, hp] at hj
      cases hj
    · dsimp only at hj
      rw [update_of_ne hne] at hj
      exact h.pos j k hj
  copies := h.copies

omit [Fintype ι] in
/-- It keeps the handles apart. -/
theorem registered_client {r : System ι κ × Client κ} (h : Registered s)
    (hr : clientAct s (s.client i) = some r) :
    Registered { r.1 with client := update s.client i r.2 } := by
  cases hi : s.client i with
  | idle =>
    rw [hi] at hr
    cases hr
  | registering e =>
    rw [hi] at hr
    cases hr
    have hheld : (Client.handle? ∘ s.client) i = some e.handle := by
      rw [comp_apply, hi]
      rfl
    have hidle := h.client (i := i) (p := .idle) rfl
    refine ⟨?_, ?_, hidle.pos, h.copies⟩
    · refine h.good.add (h.pos i e.handle (by rw [hi]; rfl)) (h.fresh.held_lt i _ hheld) ?_
      intro f e' he' heq
      exact h.fresh.apart i _ hheld ⟨f, e', he', heq⟩
    · have huse := h.fresh.use hheld
      rw [← FastMQTT.alive_add] at huse
      dsimp only
      rw [comp_update]
      exact huse
  | counting m =>
    rw [hi] at hr
    cases hr
    have hclient := h.client (i := i) (p := .stamping m) rfl
    exact ⟨hclient.good, hclient.fresh, hclient.pos, hclient.copies⟩
  | stamping m =>
    rw [hi] at hr
    cases hr
    have hclient := h.client (i := i) (p := .pushing m) rfl
    exact ⟨hclient.good, hclient.fresh, hclient.pos, hclient.copies⟩
  | dropping =>
    rw [hi] at hr
    cases hr
    have hclient := h.client (i := i) (p := .idle) rfl
    exact ⟨hclient.good, hclient.fresh, hclient.pos, hclient.copies⟩
  | pushing m =>
    rw [hi] at hr
    rcases clientAct_pushing hr with rfl | ⟨q, -, rfl⟩
    · exact h.client rfl
    · have hclient := h.client (i := i) (p := .idle) rfl
      exact ⟨hclient.good, hclient.fresh, hclient.pos, hclient.copies⟩

omit [Fintype ι] in
/-- A client that keeps its ticket, or has none after the step. -/
theorem Tickets.client (h : Tickets s) {p : Client κ}
    (hp : ∀ k, p.ticket? = some k → (s.client i).ticket? = some k) :
    Tickets { s with client := update s.client i p } where
  fresh := by
    dsimp only
    rw [comp_update]
    exact h.fresh.keep hp
  nodup := h.nodup

omit [Fintype ι] in
/-- It keeps the tickets apart. -/
theorem tickets_client {r : System ι κ × Client κ} (h : Tickets s)
    (hr : clientAct s (s.client i) = some r) :
    Tickets { r.1 with client := update s.client i r.2 } := by
  cases hi : s.client i with
  | idle =>
    rw [hi] at hr
    cases hr
  | registering e | dropping =>
    rw [hi] at hr
    cases hr
    have hclient := h.client (i := i) (p := .idle) (by rintro k ⟨⟩)
    exact ⟨hclient.fresh, hclient.nodup⟩
  | counting m =>
    rw [hi] at hr
    cases hr
    have hclient := h.client (i := i) (p := .stamping m) (by rw [hi]; exact fun _ hk => hk)
    exact ⟨hclient.fresh, hclient.nodup⟩
  | stamping m =>
    rw [hi] at hr
    cases hr
    have hclient := h.client (i := i) (p := .pushing m) (by rw [hi]; exact fun _ hk => hk)
    exact ⟨hclient.fresh, hclient.nodup⟩
  | pushing m =>
    rw [hi] at hr
    rcases clientAct_pushing hr with rfl | ⟨q, -, rfl⟩
    · exact h.client (by rintro k ⟨⟩)
    · have hheld : (Client.ticket? ∘ s.client) i = some m.ticket := by
        rw [comp_apply, hi]
        rfl
      have hset : {k | k ∈ (pushed (s.log ++ [Event.push m])).map Ticketed.ticket} =
          insert m.ticket {k | k ∈ (pushed s.log).map Ticketed.ticket} := by
        ext k
        simp [or_comm]
      constructor
      · have huse := h.fresh.use hheld
        dsimp only
        rw [hset, comp_update]
        exact huse
      · dsimp only
        rw [pushed_append, pushed_push, List.map_append, List.map_singleton,
          List.nodup_append]
        refine ⟨h.nodup, List.pairwise_singleton .., ?_⟩
        rintro k hk l hl rfl
        rw [List.mem_singleton] at hl
        exact h.fresh.apart i m.ticket hheld (hl ▸ hk)

/-! ## The dispatcher's step -/

omit [DecidableEq ι] [Fintype ι] in
/-- `Pop`: the dispatcher waits on, or goes back to its loop, or has a message. -/
theorem dispatch_popping {c : Choice} {r : System ι κ × Dispatcher κ}
    (h : dispatch topicMatch s c .popping = some r) :
    r = (s, .popping) ∨ r = (s, .testing) ∨ ∃ m q, s.items = m :: q.items ∧
      r = ({ s with recvQueue := some q, log := s.log ++ [.pop m] }, .popped m) := by
  cases hq : s.recvQueue with
  | none => simp [dispatch, hq] at h
  | some q =>
    cases hpop : q.pop c.expired with
    | refused =>
      simp only [dispatch, hq, hpop, Option.some.injEq] at h
      exact .inr (.inl h.symm)
    | waiting =>
      simp only [dispatch, hq, hpop, Option.some.injEq] at h
      exact .inl h.symm
    | popped m q' =>
      simp only [dispatch, hq, hpop, Option.some.injEq] at h
      refine .inr (.inr ⟨m, q', ?_, h.symm⟩)
      rw [System.items, hq]
      exact BlockingQueue.pop_popped hpop

omit [DecidableEq ι] in
/-- The dispatcher keeps its message, or has none. -/
theorem Account.dispatcher (h : Account s) {p : Dispatcher κ} (hp : p.msgs = s.dispatcher.msgs) :
    Account { s with dispatcher := p } where
  legal := h.legal
  kept := h.kept
  passed := by
    dsimp only
    rw [hp]
    exact h.passed
  received := h.received

omit [DecidableEq ι] in
/-- The dispatcher keeps the accounts. -/
theorem account_dispatch {c : Choice} {r : System ι κ × Dispatcher κ} (h : Account s)
    (hr : dispatch topicMatch s c s.dispatcher = some r) :
    Account { r.1 with dispatcher := r.2 } := by
  cases hd : s.dispatcher with
  | notStarted | exited =>
    rw [hd] at hr
    cases hr
  | testing =>
    rw [hd] at hr
    cases hr
    refine h.dispatcher ?_
    rw [hd]
    cases s.running <;> rfl
  | popping =>
    rw [hd] at hr
    rcases dispatch_popping hr with rfl | rfl | ⟨m, q, hitems, rfl⟩
    · exact h.dispatcher (by rw [hd])
    · exact h.dispatcher (by rw [hd]; rfl)
    · have hlegal := h.legal
      have hpassed := h.passed
      rw [hitems] at hlegal
      rw [hd] at hpassed
      refine ⟨hlegal.pop, by simpa using h.kept, ?_, ?_⟩
      · dsimp only
        rw [popped_append, hpassed]
        simp [Dispatcher.msgs]
      · have hreceived := h.received
        simpa using hreceived
  | popped m =>
    rw [hd] at hr
    cases hr
    exact h.dispatcher (by rw [hd]; rfl)
  | calling d rest =>
    rw [hd] at hr
    cases rest with
    | nil =>
      cases hr
      refine ⟨h.legal, h.kept, ?_, h.received⟩
      have hpassed := h.passed
      rw [hd] at hpassed
      dsimp only
      rw [hpassed]
      simp [Dispatcher.msgs]
    | cons e rest =>
      cases hr
      refine h.dispatcher ?_
      rw [hd]
      cases c.throws <;> rfl
  | failing d rest =>
    rw [hd] at hr
    cases hr
    have hdispatcher := h.dispatcher (p := .calling d rest) (by rw [hd]; rfl)
    exact ⟨hdispatcher.legal, hdispatcher.kept, hdispatcher.passed, hdispatcher.received⟩

omit [DecidableEq ι] [Fintype ι] in
/-- Where the dispatcher has no dispatch going on, before and after. -/
theorem Dispatched.rest (h : Dispatched topicMatch s) {p : Dispatcher κ}
    (hold : s.dispatcher.runs = [] ∧ s.dispatcher.uncounted = 0)
    (hp : p.runs = [] ∧ p.uncounted = 0) : Dispatched topicMatch { s with dispatcher := p } where
  through := h.through
  going d rest hd := by
    have hruns := hp.1
    dsimp only at hd
    rcases hd with rfl | rfl <;> cases hruns
  failed := by
    have hfailed := h.failed
    rw [System.runs, hold.1, hold.2] at hfailed
    rw [System.runs]
    dsimp only
    rw [hp.1, hp.2]
    exact hfailed

omit [DecidableEq ι] [Fintype ι] in
/-- A callback is run, and what it throws is counted next. -/
theorem Dispatched.run {d : Run κ} {e : CallbackEntry κ} {rest : List (CallbackEntry κ)}
    (h : Dispatched topicMatch s) (hd : s.dispatcher = .calling d (e :: rest)) (throws : Bool) :
    Dispatched topicMatch { s with
      dispatcher :=
        if throws then .failing { d with invoked := d.invoked ++ [(e, throws)] } rest
        else .calling { d with invoked := d.invoked ++ [(e, throws)] } rest } := by
  have hfailed := h.failed
  rw [System.runs, hd] at hfailed
  have hnext : Run.Through topicMatch { d with invoked := d.invoked ++ [(e, throws)] } rest := by
    have hgoing := h.going d (e :: rest) (.inl hd)
    rw [Run.Through] at hgoing ⊢
    rw [← hgoing]
    simp
  cases throws with
  | false =>
    refine ⟨h.through, ?_, ?_⟩
    · rintro d' rest' (hcall | hcall)
      · cases hcall
        exact hnext
      · cases hcall
    · rw [System.runs]
      simpa [Dispatcher.runs, Dispatcher.uncounted] using hfailed
  | true =>
    refine ⟨h.through, ?_, ?_⟩
    · rintro d' rest' (hcall | hcall)
      · cases hcall
      · cases hcall
        exact hnext
    · rw [System.runs]
      simp only [Dispatcher.runs, Dispatcher.uncounted, List.flatMap_append,
        List.countP_append, List.flatMap_singleton] at hfailed ⊢
      simp
      omega

omit [DecidableEq ι] [Fintype ι] in
/-- **A dispatch goes on**: the next callback is run, and counted if it throws. -/
theorem dispatched_dispatch {c : Choice} {r : System ι κ × Dispatcher κ}
    (h : Dispatched topicMatch s) (hr : dispatch topicMatch s c s.dispatcher = some r) :
    Dispatched topicMatch { r.1 with dispatcher := r.2 } := by
  have hfailed := h.failed
  cases hd : s.dispatcher with
  | notStarted | exited =>
    rw [hd] at hr
    cases hr
  | testing =>
    rw [hd] at hr
    cases hr
    refine h.rest (by rw [hd]; exact ⟨rfl, rfl⟩) ?_
    cases s.running <;> exact ⟨rfl, rfl⟩
  | popping =>
    have hold : s.dispatcher.runs = [] ∧ s.dispatcher.uncounted = 0 := by
      rw [hd]
      exact ⟨rfl, rfl⟩
    rw [hd] at hr
    rcases dispatch_popping hr with rfl | rfl | ⟨m, q, -, rfl⟩
    · exact h.rest hold ⟨rfl, rfl⟩
    · exact h.rest hold ⟨rfl, rfl⟩
    · have hrest := h.rest (p := .popped m) hold ⟨rfl, rfl⟩
      exact ⟨hrest.through, hrest.going, hrest.failed⟩
  | popped m =>
    rw [hd] at hr
    cases hr
    rw [System.runs, hd] at hfailed
    refine ⟨h.through, ?_, ?_⟩
    · rintro d rest (hcall | hcall)
      · cases hcall
        rfl
      · cases hcall
    · rw [System.runs]
      simpa [Dispatcher.runs, Dispatcher.uncounted] using hfailed
  | calling d rest =>
    have hgoing := h.going d rest (.inl hd)
    rw [hd] at hr
    rw [System.runs, hd] at hfailed
    cases rest with
    | nil =>
      cases hr
      refine ⟨?_, by rintro d rest (⟨⟨⟩⟩ | ⟨⟨⟩⟩), ?_⟩
      · intro d' hd'
        rcases List.mem_append.1 hd' with hd' | hd'
        · exact h.through d' hd'
        · rw [List.mem_singleton.1 hd']
          exact hgoing
      · rw [System.runs]
        simpa [Dispatcher.runs, Dispatcher.uncounted] using hfailed
    | cons e rest =>
      cases hr
      exact h.run hd c.throws
  | failing d rest =>
    have hgoing := h.going d rest (.inr hd)
    rw [hd] at hr
    cases hr
    rw [System.runs, hd] at hfailed
    refine ⟨h.through, ?_, ?_⟩
    · rintro d' rest' (hcall | hcall)
      · cases hcall
        exact hgoing
      · cases hcall
    · rw [System.runs]
      simpa [Dispatcher.runs, Dispatcher.uncounted, Nat.add_right_comm] using hfailed

omit [DecidableEq ι] [Fintype ι] in
/-- The copy is one of a table that is good. -/
theorem registered_dispatch {c : Choice} {r : System ι κ × Dispatcher κ} (h : Registered s)
    (hr : dispatch topicMatch s c s.dispatcher = some r) :
    Registered { r.1 with dispatcher := r.2 } := by
  have hcopies := h.copies
  cases hd : s.dispatcher with
  | notStarted | exited =>
    rw [hd] at hr
    cases hr
  | testing =>
    rw [hd] at hr
    cases hr
    refine ⟨h.good, h.fresh, h.pos, fun d hmem => hcopies d ?_⟩
    rw [System.runs] at hmem ⊢
    rw [hd]
    revert hmem
    cases s.running <;> exact id
  | popping =>
    rw [hd] at hr
    rw [System.runs, hd] at hcopies
    rcases dispatch_popping hr with rfl | rfl | ⟨m, q, -, rfl⟩
    · exact ⟨h.good, h.fresh, h.pos, hcopies⟩
    · exact ⟨h.good, h.fresh, h.pos, hcopies⟩
    · exact ⟨h.good, h.fresh, h.pos, hcopies⟩
  | popped m =>
    rw [hd] at hr
    cases hr
    rw [System.runs, hd] at hcopies
    refine ⟨h.good, h.fresh, h.pos, fun d hmem => ?_⟩
    rcases List.mem_append.1 hmem with hmem | hmem
    · exact hcopies d (List.mem_append_left _ hmem)
    · rw [List.mem_singleton.1 hmem]
      exact h.good
  | calling d rest =>
    have hgood : d.mqtt.Good := hcopies d (by rw [System.runs, hd]; simp [Dispatcher.runs])
    rw [hd] at hr
    cases rest with
    | nil =>
      cases hr
      refine ⟨h.good, h.fresh, h.pos, fun d' hmem => ?_⟩
      rw [System.runs, hd] at hcopies
      exact hcopies d' (by simpa [System.runs, Dispatcher.runs] using hmem)
    | cons e rest =>
      cases hr
      refine ⟨h.good, h.fresh, h.pos, fun d' hmem => ?_⟩
      rcases List.mem_append.1 hmem with hmem | hmem
      · exact hcopies d' (List.mem_append_left _ hmem)
      · dsimp only at hmem
        cases hthrows : c.throws with
        | false | true =>
          rw [hthrows] at hmem
          rw [List.mem_singleton.1 hmem]
          exact hgood
  | failing d rest =>
    rw [hd] at hr
    cases hr
    rw [System.runs, hd] at hcopies
    exact ⟨h.good, h.fresh, h.pos, hcopies⟩

omit [DecidableEq ι] in
/-- The dispatcher keeps the invariant. -/
theorem inv_dispatch {c : Choice} {r : System ι κ × Dispatcher κ} (h : Inv topicMatch s)
    (hr : dispatch topicMatch s c s.dispatcher = some r) :
    Inv topicMatch { r.1 with dispatcher := r.2 } where
  account := account_dispatch h.account hr
  dispatched := dispatched_dispatch h.dispatched hr
  registered := registered_dispatch h.registered hr
  tickets := by
    have htickets := h.tickets
    cases hd : s.dispatcher with
    | notStarted | exited =>
      rw [hd] at hr
      cases hr
    | testing | popped m | failing d rest =>
      rw [hd] at hr
      cases hr
      exact ⟨htickets.fresh, htickets.nodup⟩
    | popping =>
      rw [hd] at hr
      rcases dispatch_popping hr with rfl | rfl | ⟨m, q, -, rfl⟩
      · exact ⟨htickets.fresh, htickets.nodup⟩
      · exact ⟨htickets.fresh, htickets.nodup⟩
      · exact ⟨by simpa using htickets.fresh, by simpa using htickets.nodup⟩
    | calling d rest =>
      rw [hd] at hr
      cases rest with
      | nil | cons e rest =>
        cases hr
        exact ⟨htickets.fresh, htickets.nodup⟩

/-! ## A step -/

omit [Fintype ι] in
/-- A client that calls has been idle. -/
theorem call_cases {p : Client κ} (h : call s i p = some s') :
    s.client i = .idle ∧ s' = { s with client := update s.client i p } := by
  unfold call at h
  split at h
  next hi => exact ⟨hi, (Option.some.inj h).symm⟩
  next => cases h

/-- Someone calls `HandleMessage`. -/
theorem inv_handleMessage {msg : Message} (h : Inv topicMatch s)
    (hs : call { s with tickets := s.tickets + 1 } i (.counting ⟨s.tickets, msg⟩) = some s') :
    Inv topicMatch s' := by
  obtain ⟨hi, rfl⟩ := call_cases hs
  dsimp only at hi
  have haccount := h.account.client (i := i) (p := .counting ⟨s.tickets, msg⟩)
    (by rw [hi]; exact Iff.rfl)
  have hregistered := h.registered.client (i := i) (p := .counting ⟨s.tickets, msg⟩) rfl
  refine ⟨⟨haccount.legal, haccount.kept, haccount.passed, haccount.received⟩,
    ⟨h.dispatched.through, h.dispatched.going, h.dispatched.failed⟩,
    ⟨hregistered.good, hregistered.fresh, hregistered.pos, hregistered.copies⟩, ?_,
    h.tickets.nodup⟩
  have hdraw := h.tickets.fresh.draw i
  dsimp only
  rw [comp_update]
  exact hdraw

/-- Someone calls `RegisterCallback`, and has its handle. -/
theorem inv_register {e : CallbackEntry κ} (h : Inv topicMatch s)
    (he : e.handle = s.mqtt.nextHandle)
    (hs : call { s with mqtt := { s.mqtt with nextHandle := s.mqtt.nextHandle + 1 } } i
      (.registering e) = some s') : Inv topicMatch s' := by
  obtain ⟨hi, rfl⟩ := call_cases hs
  dsimp only at hi
  have haccount := h.account.client (i := i) (p := .registering e) (by rw [hi]; exact Iff.rfl)
  have htickets := h.tickets.client (i := i) (p := .registering e) (by rintro k ⟨⟩)
  refine ⟨⟨haccount.legal, haccount.kept, haccount.passed, haccount.received⟩,
    ⟨h.dispatched.through, h.dispatched.going, h.dispatched.failed⟩,
    ⟨h.registered.good.next, ?_, fun j k hj => ?_, h.registered.copies⟩,
    ⟨htickets.fresh, htickets.nodup⟩⟩
  · have hdraw := h.registered.fresh.draw i
    dsimp only
    rw [comp_update, Client.handle?, he]
    exact hdraw
  · dsimp only at hj
    rcases eq_or_ne j i with rfl | hne
    · rw [update_self] at hj
      cases hj
      exact he ▸ h.registered.good.next_pos
    · rw [update_of_ne hne] at hj
      exact h.registered.pos j k hj

omit [DecidableEq ι] in
/-- The table shrinks. -/
theorem inv_shrink {m : FastMQTT κ} (h : Inv topicMatch s) (hgood : m.Good)
    (hsub : m.alive ⊆ s.mqtt.alive) (hnext : m.nextHandle = s.mqtt.nextHandle) :
    Inv topicMatch { s with mqtt := m } := by
  obtain ⟨haccount, hdispatched, hregistered, htickets⟩ := h
  refine ⟨⟨haccount.legal, haccount.kept, haccount.passed, haccount.received⟩,
    ⟨hdispatched.through, hdispatched.going, hdispatched.failed⟩,
    ⟨hgood, ?_, hregistered.pos, hregistered.copies⟩, ⟨htickets.fresh, htickets.nodup⟩⟩
  dsimp only
  rw [hnext]
  exact hregistered.fresh.shrink hsub

/-- **Every step keeps the account**, whoever takes it. -/
theorem step_inv {l : Label ι κ} (h : Inv topicMatch s) (hs : step topicMatch s l = some s') :
    Inv topicMatch s' := by
  cases l with
  | handleMessage i msg now =>
    simp only [step] at hs
    split at hs
    · cases hs
      exact h
    · exact inv_handleMessage h hs
  | register i topic callback qos =>
    cases callback with
    | none =>
      cases hs
      exact h
    | some callback => exact inv_register h rfl hs
  | client i =>
    obtain ⟨r, hr, rfl⟩ := Option.map_eq_some_iff.1 hs
    exact ⟨account_client h.account hr, dispatched_client _ h.dispatched hr,
      registered_client h.registered hr, tickets_client h.tickets hr⟩
  | unregister handle =>
    cases hs
    have hgood := h.registered.good
    refine inv_shrink h (hgood.unregister handle) ?_ (FastMQTT.unregister_nextHandle handle)
    rw [FastMQTT.alive_unregister hgood]
    exact Set.sdiff_subset
  | clear topic =>
    cases hs
    exact inv_shrink h (h.registered.good.clear topic)
      (FastMQTT.alive_subset (FastMQTT.clearCallback_sublist topic))
      (FastMQTT.clearCallback_nextHandle topic)
  | clearAll =>
    cases hs
    exact inv_shrink h h.registered.good.clearAll
      (FastMQTT.alive_subset FastMQTT.clearAllCallbacks_sublist) rfl
  | dispatcher c =>
    obtain ⟨r, hr, rfl⟩ := Option.map_eq_some_iff.1 hs
    exact inv_dispatch h hr
  | start =>
    simp only [step] at hs
    split at hs
    next hd =>
      cases hs
      have haccount := h.account.dispatcher (p := .testing) (by rw [hd]; rfl)
      have hdispatched := h.dispatched.rest (p := .testing) (by rw [hd]; exact ⟨rfl, rfl⟩)
        ⟨rfl, rfl⟩
      have hcopies := h.registered.copies
      rw [System.runs, hd] at hcopies
      exact ⟨⟨haccount.legal, haccount.kept, haccount.passed, haccount.received⟩,
        ⟨hdispatched.through, hdispatched.going, hdispatched.failed⟩,
        ⟨h.registered.good, h.registered.fresh, h.registered.pos, hcopies⟩,
        ⟨h.tickets.fresh, h.tickets.nodup⟩⟩
    next => cases hs
  | lower =>
    cases hs
    obtain ⟨haccount, hdispatched, hregistered, htickets⟩ := h
    exact ⟨⟨haccount.legal, haccount.kept, haccount.passed, haccount.received⟩,
      ⟨hdispatched.through, hdispatched.going, hdispatched.failed⟩,
      ⟨hregistered.good, hregistered.fresh, hregistered.pos, hregistered.copies⟩,
      ⟨htickets.fresh, htickets.nodup⟩⟩
  | close =>
    cases hs
    obtain ⟨haccount, hdispatched, hregistered, htickets⟩ := h
    refine ⟨⟨?_, haccount.kept, haccount.passed, haccount.received⟩,
      ⟨hdispatched.through, hdispatched.going, hdispatched.failed⟩,
      ⟨hregistered.good, hregistered.fresh, hregistered.pos, hregistered.copies⟩,
      ⟨htickets.fresh, htickets.nodup⟩⟩
    have hlegal := haccount.legal
    rw [System.items] at hlegal ⊢
    dsimp only
    cases hq : s.recvQueue with
    | none | some q =>
      rw [hq] at hlegal
      exact hlegal

omit [DecidableEq ι] in
/-- The invariant holds after every initialisation. -/
theorem inv_initialised (enable : Bool) (recvQueueSize : Nat) :
    Inv topicMatch (initialised enable recvQueueSize : System ι κ) where
  account := by
    refine ⟨?_, List.not_mem_nil, rfl, ?_⟩
    · cases enable <;> exact .nil
    · have hzero : count Counted (fun _ : ι => (Client.idle : Client κ)) = 0 :=
        count_eq_zero.2 fun _ => Bool.false_ne_true
      rw [initialised, hzero]
      rfl
  dispatched := by
    refine ⟨fun d hd => absurd hd List.not_mem_nil, ?_, rfl⟩
    rintro d rest (⟨⟨⟩⟩ | ⟨⟨⟩⟩)
  registered := by
    have halive : ({} : FastMQTT κ).alive = ∅ := by
      ext handle
      simp [FastMQTT.alive]
    refine ⟨FastMQTT.good_empty, ?_, by rintro i k ⟨⟩, fun d hd => absurd hd List.not_mem_nil⟩
    rw [initialised, halive]
    exact fresh_init
  tickets := by
    have hnone : {k | k ∈ (pushed ([] : List (Event Ticketed))).map Ticketed.ticket} = ∅ := by
      ext k
      simp
    refine ⟨?_, List.nodup_nil⟩
    rw [initialised, hnone]
    exact fresh_init

/-! ## When the table is copied -/

omit [Fintype ι] [DecidableEq ι] in
/-- A thread from outside dispatches nothing. -/
theorem clientAct_runs {p : Client κ} {r : System ι κ × Client κ} (h : clientAct s p = some r) :
    r.1.runs = s.runs := by
  cases p with
  | idle => cases h
  | registering e | counting m | stamping m | dropping =>
    cases h
    rfl
  | pushing m =>
    rcases clientAct_pushing h with rfl | ⟨q, -, rfl⟩
    · rfl
    · rfl

omit [Fintype ι] [DecidableEq ι] in
/-- The dispatcher begins a dispatch with the table that there is, or goes on with it. -/
theorem dispatch_runs {c : Choice} {r : System ι κ × Dispatcher κ}
    (hr : dispatch topicMatch s c s.dispatcher = some r) :
    ∀ d ∈ r.1.dispatched ++ r.2.runs, (∃ d' ∈ s.runs, d'.msg = d.msg ∧ d'.mqtt = d.mqtt) ∨
      s.dispatcher = .popped d.msg ∧ s.mqtt = d.mqtt := by
  intro d hmem
  rw [System.runs]
  cases hd : s.dispatcher with
  | notStarted | exited =>
    rw [hd] at hr
    cases hr
  | testing =>
    rw [hd] at hr
    cases hr
    refine .inl ⟨d, ?_, rfl, rfl⟩
    revert hmem
    cases s.running <;> exact id
  | popping =>
    rw [hd] at hr
    rcases dispatch_popping hr with rfl | rfl | ⟨m, q, -, rfl⟩ <;> exact .inl ⟨d, hmem, rfl, rfl⟩
  | popped m =>
    rw [hd] at hr
    cases hr
    rcases List.mem_append.1 hmem with hmem | hmem
    · exact .inl ⟨d, List.mem_append_left _ hmem, rfl, rfl⟩
    · rw [List.mem_singleton.1 hmem]
      exact .inr ⟨rfl, rfl⟩
  | calling d₀ rest =>
    rw [hd] at hr
    cases rest with
    | nil =>
      cases hr
      exact .inl ⟨d, by simpa [Dispatcher.runs] using hmem, rfl, rfl⟩
    | cons e rest =>
      cases hr
      rcases List.mem_append.1 hmem with hmem | hmem
      · exact .inl ⟨d, List.mem_append_left _ hmem, rfl, rfl⟩
      · refine .inl ⟨d₀, List.mem_append_right _ List.mem_cons_self, ?_⟩
        dsimp only at hmem
        cases hthrows : c.throws with
        | false | true =>
          rw [hthrows] at hmem
          rw [List.mem_singleton.1 hmem]
          exact ⟨rfl, rfl⟩
  | failing d₀ rest =>
    rw [hd] at hr
    cases hr
    exact .inl ⟨d, hmem, rfl, rfl⟩

omit [Fintype ι] in
/-- Whatever is being run or has been run was there before, or is the message that the dispatcher
has just copied the callbacks for. -/
theorem step_runs {l : Label ι κ} (hs : step topicMatch s l = some s') :
    ∀ d ∈ s'.runs, (∃ d' ∈ s.runs, d'.msg = d.msg ∧ d'.mqtt = d.mqtt) ∨
      (∃ c, l = .dispatcher c) ∧ s.dispatcher = .popped d.msg ∧ s.mqtt = d.mqtt := by
  intro d hmem
  cases l with
  | handleMessage i msg now =>
    simp only [step] at hs
    split at hs
    · cases hs
      exact .inl ⟨d, hmem, rfl, rfl⟩
    · obtain ⟨-, rfl⟩ := call_cases hs
      exact .inl ⟨d, hmem, rfl, rfl⟩
  | register i topic callback qos =>
    cases callback with
    | none =>
      cases hs
      exact .inl ⟨d, hmem, rfl, rfl⟩
    | some callback =>
      obtain ⟨-, rfl⟩ := call_cases hs
      exact .inl ⟨d, hmem, rfl, rfl⟩
  | client i =>
    obtain ⟨r, hr, rfl⟩ := Option.map_eq_some_iff.1 hs
    refine .inl ⟨d, ?_, rfl, rfl⟩
    rw [← clientAct_runs hr]
    exact hmem
  | dispatcher c =>
    obtain ⟨r, hr, rfl⟩ := Option.map_eq_some_iff.1 hs
    exact (dispatch_runs hr d hmem).imp id fun h => ⟨⟨c, rfl⟩, h⟩
  | start =>
    simp only [step] at hs
    split at hs
    next hd =>
      cases hs
      refine .inl ⟨d, ?_, rfl, rfl⟩
      rw [System.runs, hd]
      exact hmem
    next => cases hs
  | unregister | clear | clearAll | lower | close =>
    cases hs
    exact .inl ⟨d, hmem, rfl, rfl⟩

/-- The table of a dispatch is the one that there is at some moment of the run, when the dispatcher
has the message and copies the table next. -/
def Copied (topicMatch : String → String → Bool) (s₀ : System ι κ) (ls : List (Label ι κ))
    (d : Run κ) : Prop :=
  ∃ pre c post m, ls = pre ++ .dispatcher c :: post ∧ run (step topicMatch) s₀ pre = some m ∧
    m.dispatcher = .popped d.msg ∧ m.mqtt = d.mqtt

omit [Fintype ι] in
/-- So each run of callbacks uses the registrations of the moment at which it was copied. -/
theorem copied_of_run {s₀ : System ι κ} {ls : List (Label ι κ)} (h₀ : s₀.runs = [])
    (h : run (step topicMatch) s₀ ls = some s) : ∀ d ∈ s.runs, Copied topicMatch s₀ ls d := by
  refine run_induction (P := fun ls s => ∀ d ∈ s.runs, Copied topicMatch s₀ ls d) ?_ ?_ h
  · rw [h₀]
    exact fun d hd => absurd hd List.not_mem_nil
  · intro ls m l t hrun ih hl d hd
    rcases step_runs hl d hd with ⟨d', hd', hmsg, hmqtt⟩ | ⟨⟨c, rfl⟩, hpopped, hmqtt⟩
    · obtain ⟨pre, c, post, m', rfl, hpre, hpopped, hcopy⟩ := ih d' hd'
      refine ⟨pre, c, post ++ [l], m', by simp, hpre, hmsg ▸ hpopped, hcopy.trans hmqtt⟩
    · exact ⟨ls, c, [], m, rfl, hrun, hpopped, hmqtt⟩

/-! ## Runs -/

/-- **Every message to every matching callback, once.** In every run, what the receive queue has
taken is what has been dispatched, then what the dispatcher has, then what is in the queue, in this
order, and none twice. A dispatch runs exactly the callbacks that are registered under a matching
filter when the table is copied, each once, whether others throw or not, and each one that throws is
counted. A message that has been counted has been dispatched, or dropped, is in the queue, or is in
flight: with the dispatcher, or before the queue takes it or its refusal is counted. -/
theorem dispatch_exact {enable : Bool} {recvQueueSize : Nat} {ls : List (Label ι κ)}
    (h : run (step topicMatch) (initialised enable recvQueueSize) ls = some s) :
    (pushed s.log = s.dispatched.map Run.msg ++ s.dispatcher.msgs ++ s.items ∧
      ((pushed s.log).map Ticketed.ticket).Nodup) ∧
    (∀ d ∈ s.dispatched, Copied topicMatch (initialised enable recvQueueSize) ls d ∧
      (∀ e, e ∈ d.invoked.map Prod.fst ↔
        ∃ f, topicMatch f d.msg.msg.topic = true ∧ e ∈ d.mqtt.table.callbacks f) ∧
      (d.invoked.map fun p => p.1.handle).Nodup) ∧
    s.stats.callbackFailed + s.dispatcher.uncounted =
      (s.runs.flatMap Run.invoked).countP (·.2) ∧
    s.stats.recvCount = s.dispatched.length + s.stats.recvDropped + s.items.length +
      (count Counted s.client + s.dispatcher.msgs.length) := by
  have hinv : Inv topicMatch s := run_invariant (P := Inv topicMatch)
    (fun _ _ _ hi hl => step_inv hi hl) (inv_initialised enable recvQueueSize) h
  have hpushed := hinv.account.legal.pushed_eq hinv.account.kept
  rw [hinv.account.passed] at hpushed
  refine ⟨⟨hpushed, hinv.tickets.nodup⟩, fun d hd => ⟨?_, fun e => ?_, ?_⟩, hinv.dispatched.failed,
    ?_⟩
  · exact copied_of_run rfl h d (List.mem_append_left _ hd)
  · have hthrough := hinv.dispatched.through d hd
    rw [Run.Through, List.append_nil] at hthrough
    rw [hthrough]
    exact FastMQTT.mem_matched
  · have hthrough := hinv.dispatched.through d hd
    have hgood := hinv.registered.copies d (List.mem_append_left _ hd)
    rw [Run.Through, List.append_nil] at hthrough
    have hnodup := FastMQTT.matched_nodup hgood topicMatch d.msg.msg.topic
    rw [← hthrough, List.map_map] at hnodup
    exact hnodup
  · have hreceived := hinv.account.received
    have hlength := congrArg List.length hpushed
    rw [List.length_append, List.length_append, List.length_map] at hlength
    omega

end

/-- Two callbacks, the first of which throws. -/
theorem dispatch_exact_throwing :
    ∃ (ls : List (Label (Fin 1) Unit)) (s : System (Fin 1) Unit),
      run (step fun filter topic => filter == topic) (initialised true 0) ls = some s ∧
        s.dispatched.map (·.invoked.map (·.2)) = [[true, false]] ∧
        s.stats.callbackFailed + s.dispatcher.uncounted =
          (s.runs.flatMap Run.invoked).countP (·.2) := by
  have h : run (step fun filter topic => filter == topic)
      (initialised true 0 : System (Fin 1) Unit)
      [.register 0 "a" (some ()) 0, .client 0, .register 0 "a" (some ()) 0, .client 0,
        .handleMessage 0 (some { topic := some "a", payload := none, payloadlen := 0 }) 5,
        .client 0, .client 0, .client 0, .start, .dispatcher {}, .dispatcher {}, .dispatcher {},
        .dispatcher { throws := true }, .dispatcher {}, .dispatcher {}, .dispatcher {}] =
      some _ := rfl
  exact ⟨_, _, h, by decide, (dispatch_exact h).2.2.1⟩

/-- A message that is between the counter and the push. -/
def Client.between : Client κ → Bool
  | .stamping _ | .pushing _ => true
  | _ => false

/-- A message that has been refused is not counted as dropped at once. -/
theorem refused_not_counted :
    ¬ ∀ (ls : List (Label (Fin 1) Unit)) (s : System (Fin 1) Unit),
      run (step fun filter topic => filter == topic) (initialised true 0) ls = some s →
        s.stats.recvCount = s.dispatched.length + s.stats.recvDropped + s.items.length +
          (count (fun c => c.between = true) s.client + s.dispatcher.msgs.length) := by
  intro h
  have hcount := h [.close,
    .handleMessage 0 (some { topic := some "a", payload := none, payloadlen := 0 }) 5,
    .client 0, .client 0, .client 0] _ rfl
  revert hcount
  decide

end Dispatch

end FastMqtt
