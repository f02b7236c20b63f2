import FastCppServer.FastMqtt.BlockingQueue
import FastCppServer.Lib.Numbering
import FastCppServer.Lib.Parties
import FastCppServer.Lib.Transition

/-!
# Publishing

Any number of clients in `FastMQTT::Publish`, the sender thread (`SenderLoop`, `DoPublish`), and a
thread that calls `Start` and `Stop`. A step is one access to what they share.

The account (`Account`) relates the counters of the sender and of the clients to the history of the
send queue: what the queue has taken has been counted, is in the queue, or is with the sender
between its `Pop` and its counter. Each call has a ticket, for the record, so that a message can be
told from another with the same content.
-/

namespace FastMqtt

open Fifo Function Numbering Parties Transition

/-- `LifecycleState`. -/
inductive LifecycleState where
  | uninitialized
  | initialized
  | starting
  | running
  | stopping
  | stopped
  deriving DecidableEq

/-- A message to be sent. -/
structure Message where
  topic : String
  payload : List UInt8
  qos : Int := 0
  retain : Bool := false
  timestamp : Int := 0
  deriving DecidableEq

/-- The counters of the sender. -/
structure Statistics where
  sendSuccess : Nat := 0
  sendFailed : Nat := 0
  sendDropped : Nat := 0
  lastSendTime : Int := 0

namespace Publish

/-- A message with the ticket of the call that brings it. -/
structure Ticketed where
  ticket : Nat
  msg : Message
  deriving DecidableEq

/-- Where a client stands in `Publish`. The last three have only to return: `true`, `false` with the
message counted as dropped, and `false` because the module is not running. -/
inductive Publishing where
  | idle
  | checking (m : Ticketed)
  | pushing (m : Ticketed)
  | dropping (ticket : Nat)
  | accepted
  | dropped
  | rejected
  deriving DecidableEq

/-- Where the sender stands in `SenderLoop`. -/
inductive Sending where
  | notStarted
  | testing
  | popping
  | popped (m : Ticketed)
  | publishing (m : Ticketed)
  | calling (m : Ticketed)
  | counting (success : Bool)
  | stamping
  | exited

/-- Where the thread that starts and stops the module stands. -/
inductive Control where
  | idle
  | start
  | raising
  | spawning
  | started
  | stop
  | lowering
  | closing
  | joining
  | clearing
  | stopped

/-- The module with its clients, its sender and the thread that starts and stops it. -/
structure System (ι : Type) where
  state : LifecycleState
  enable : Bool
  running : Bool := false
  mosq : Bool
  brokerConnected : Bool := false
  sendQueue : Option (BlockingQueue Ticketed)
  stats : Statistics := {}
  client : ι → Publishing
  sender : Sending := .notStarted
  control : Control := .idle
  /-- The next ticket. -/
  tickets : Nat := 0
  /-- What has happened to the send queue. -/
  log : List (Event Ticketed) := []
  /-- What has been passed to `DoPublish`. -/
  passed : List Ticketed := []
  /-- The tickets of the calls that have been refused. -/
  refused : List Nat := []
  returnedTrue : Nat := 0
  /-- How many calls have returned `false` that found the module running. -/
  returnedDropped : Nat := 0

variable {ι : Type}

/-- The module after `Initialize`: with a handle and a queue, unless it is disabled. -/
def initialised (enable : Bool) (maxSize : Nat) : System ι where
  state := .initialized
  enable
  mosq := enable
  sendQueue := if enable then some { maxSize } else none
  client _ := .idle

/-- One step of `Publish`. -/
def publish (s : System ι) (now : Int) : Publishing → System ι × Publishing
  | .idle => (s, .idle)
  | .checking m =>
    if s.state ≠ .running ∨ s.sendQueue.isNone then
      ({ s with refused := m.ticket :: s.refused }, .rejected)
    else (s, .pushing { m with msg := { m.msg with timestamp := now } })
  | .pushing m =>
    match s.sendQueue with
    | none => (s, .pushing m)
    | some q =>
      match q.push m with
      | (q, true) => ({ s with sendQueue := some q, log := s.log ++ [.push m] }, .accepted)
      | (_, false) => ({ s with refused := m.ticket :: s.refused }, .dropping m.ticket)
  | .dropping _ =>
    ({ s with stats := { s.stats with sendDropped := s.stats.sendDropped + 1 } }, .dropped)
  | .accepted => ({ s with returnedTrue := s.returnedTrue + 1 }, .idle)
  | .dropped => ({ s with returnedDropped := s.returnedDropped + 1 }, .idle)
  | .rejected => (s, .idle)

/-- What the environment decides for the sender: whether the time of its `Pop` is over, whether
`mosquitto_publish` succeeds, and the clock. -/
structure SendChoice where
  expired : Bool := false
  success : Bool := true
  now : Int := 0

/-- One step of `SenderLoop`. -/
def send (s : System ι) (d : SendChoice) : Sending → System ι × Sending
  | .notStarted => (s, .notStarted)
  | .testing => (s, if s.running then .popping else .exited)
  | .popping =>
    match s.sendQueue with
    | none => (s, .popping)
    | some q =>
      match q.pop d.expired with
      | .popped m q => ({ s with sendQueue := some q, log := s.log ++ [.pop m] }, .popped m)
      | .refused => (s, .testing)
      | .waiting => (s, .popping)
  -- here `DoPublish` is called
  | .popped m => ({ s with passed := s.passed ++ [m] }, .publishing m)
  | .publishing m =>
    (s, if ¬ s.mosq ∨ ¬ s.brokerConnected then .counting false else .calling m)
  | .calling _ => (s, .counting d.success)
  | .counting true =>
    ({ s with stats := { s.stats with sendSuccess := s.stats.sendSuccess + 1 } }, .stamping)
  | .counting false =>
    ({ s with stats := { s.stats with sendFailed := s.stats.sendFailed + 1 } }, .testing)
  | .stamping => ({ s with stats := { s.stats with lastSendTime := d.now } }, .testing)
  | .exited => (s, .exited)

/-- One step of `Start` or `Stop`. -/
def controlAct (s : System ι) : Control → System ι × Control
  | .idle => (s, .idle)
  | .start =>
    if s.state ≠ .initialized then (s, .idle)
    else if ¬ s.enable then (s, .idle)
    else ({ s with state := .starting }, .raising)
  | .raising => ({ s with running := true }, .spawning)
  | .spawning => ({ s with sender := .testing }, .started)
  | .started => ({ s with state := .running }, .idle)
  | .stop =>
    if s.state ≠ .running ∧ s.state ≠ .starting then (s, .idle)
    else ({ s with state := .stopping }, .lowering)
  | .lowering => ({ s with running := false }, .closing)
  | .closing => ({ s with sendQueue := s.sendQueue.map BlockingQueue.close }, .joining)
  | .joining =>
    match s.sender with
    | .notStarted | .exited => (s, .clearing)
    | _ => (s, .joining)
  | .clearing => ({ s with brokerConnected := false }, .stopped)
  | .stopped => ({ s with state := .stopped }, .idle)

/-- A call or a step of a client, a step of a thread, or news of the connection. -/
inductive Label (ι : Type) where
  | publish (i : ι) (topic : String) (payload : List UInt8) (qos : Int) (retain : Bool)
  | client (i : ι) (now : Int)
  | sender (d : SendChoice)
  | start
  | stop
  | control
  | connected (b : Bool)

variable [DecidableEq ι]

/-- A step of the system; a call begins where the last one has returned. -/
def step (s : System ι) : Label ι → Option (System ι)
  | .publish i topic payload qos retain =>
    match s.client i with
    | .idle =>
      let m : Ticketed := { ticket := s.tickets, msg := { topic, payload, qos, retain } }
      some { s with tickets := s.tickets + 1, client := update s.client i (.checking m) }
    | _ => none
  | .client i now =>
    let (s', phase) := publish s now (s.client i)
    some { s' with client := update s.client i phase }
  | .sender d =>
    let (s', phase) := send s d s.sender
    some { s' with sender := phase }
  | .start => match s.control with
    | .idle => some { s with control := .start }
    | _ => none
  | .stop => match s.control with
    | .idle => some { s with control := .stop }
    | _ => none
  | .control =>
    let (s', control) := controlAct s s.control
    some { s' with control }
  | .connected b => some { s with brokerConnected := b }

/-- What a step of a client leads to. -/
theorem step_client (s : System ι) (i : ι) (now : Int) :
    step s (.client i now) = some { (publish s now (s.client i)).1 with
      client := update s.client i (publish s now (s.client i)).2 } := rfl

/-- What a step of the sender leads to. -/
theorem step_sender (s : System ι) (d : SendChoice) :
    step s (.sender d) = some { (send s d s.sender).1 with sender := (send s d s.sender).2 } := rfl

/-- What a step of `Start` or `Stop` leads to. -/
theorem step_control (s : System ι) :
    step s .control = some { (controlAct s s.control).1 with
      control := (controlAct s s.control).2 } := rfl

/-! ## The account -/

/-- What is in the send queue. -/
def System.items (s : System ι) : List Ticketed :=
  match s.sendQueue with
  | none => []
  | some q => q.items

/-- The message that the sender has popped and not passed to `DoPublish`. -/
def Sending.unpassed : Sending → List Ticketed
  | .popped m => [m]
  | _ => []

/-- The sender has passed a message to `DoPublish` and not counted it. -/
def Sending.uncounted : Sending → Nat
  | .publishing _ | .calling _ | .counting _ => 1
  | _ => 0

/-- The sender is between its `Pop` and its counter. -/
def Sending.between : Sending → Nat
  | .popped _ | .publishing _ | .calling _ | .counting _ => 1
  | _ => 0

/-- Between its `Pop` and its counter the sender has one message. -/
theorem Sending.between_eq (p : Sending) : p.between = p.unpassed.length + p.uncounted := by
  cases p <;> rfl

section
variable [Fintype ι] {s s' : System ι}

/-- The counters and the history of the send queue. -/
structure Account (s : System ι) : Prop where
  legal : Legal s.log s.items
  kept : .clear ∉ s.log
  passed : popped s.log = s.passed ++ s.sender.unpassed
  counted : s.passed.length = s.stats.sendSuccess + s.stats.sendFailed + s.sender.uncounted
  accepted : (pushed s.log).length = s.returnedTrue + count (· = .accepted) s.client
  dropped : s.stats.sendDropped = s.returnedDropped + count (· = .dropped) s.client

omit [DecidableEq ι] in
/-- At first nothing has been sent and nothing counted. -/
theorem account_initialised (enable : Bool) (maxSize : Nat) :
    Account (initialised enable maxSize : System ι) where
  legal := by
    cases enable <;> exact .nil
  kept := List.not_mem_nil
  passed := rfl
  counted := rfl
  accepted := by
    have h : count (· = Publishing.accepted) (fun _ : ι => Publishing.idle) = 0 :=
      count_eq_zero.2 fun _ => by simp
    exact ((Nat.zero_add _).trans h).symm
  dropped := by
    have h : count (· = Publishing.dropped) (fun _ : ι => Publishing.idle) = 0 :=
      count_eq_zero.2 fun _ => by simp
    exact ((Nat.zero_add _).trans h).symm

omit [DecidableEq ι] [Fintype ι] in
/-- `Push`: there is no queue, or it refuses the message, or it takes it. -/
theorem publish_pushing (s : System ι) (now : Int) (m : Ticketed) :
    publish s now (.pushing m) = (s, .pushing m) ∨
    publish s now (.pushing m) = ({ s with refused := m.ticket :: s.refused }, .dropping m.ticket) ∨
    ∃ q q', s.sendQueue = some q ∧ q'.items = s.items ++ [m] ∧
      publish s now (.pushing m) =
        ({ s with sendQueue := some q', log := s.log ++ [.push m] }, .accepted) := by
  cases hq : s.sendQueue with
  | none => exact .inl (by simp [publish, hq])
  | some q =>
    rcases hpush : q.push m with ⟨q', taken⟩
    cases taken with
    | false => exact .inr (.inl (by simp [publish, hq, hpush]))
    | true =>
      refine .inr (.inr ⟨q, q', rfl, ?_, by simp [publish, hq, hpush]⟩)
      rw [System.items, hq]
      exact BlockingQueue.push_true hpush

omit [DecidableEq ι] [Fintype ι] in
/-- `Pop`: the sender waits on, or goes back to its loop, or has a message. -/
theorem send_popping (s : System ι) (d : SendChoice) :
    send s d .popping = (s, .popping) ∨ send s d .popping = (s, .testing) ∨
    ∃ m q', s.items = m :: q'.items ∧
      send s d .popping =
        ({ s with sendQueue := some q', log := s.log ++ [.pop m] }, .popped m) := by
  cases hq : s.sendQueue with
  | none => exact .inl (by simp [send, hq])
  | some q =>
    cases hpop : q.pop d.expired with
    | refused => exact .inr (.inl (by simp [send, hq, hpop]))
    | waiting => exact .inl (by simp [send, hq, hpop])
    | popped m q' =>
      refine .inr (.inr ⟨m, q', ?_, by simp [send, hq, hpop]⟩)
      rw [System.items, hq]
      exact BlockingQueue.pop_popped hpop

/-- A phase in which a call is neither accepted nor dropped. -/
def Publishing.Plain (p : Publishing) : Prop := p ≠ .accepted ∧ p ≠ .dropped

/-- A client that is neither accepted nor dropped changes no account. -/
theorem Account.client (h : Account s) {i : ι} {p : Publishing} (hold : (s.client i).Plain)
    (hp : p.Plain) : Account { s with client := update s.client i p } where
  legal := h.legal
  kept := h.kept
  passed := h.passed
  counted := h.counted
  accepted := by
    have hc := count_stay (P := (· = Publishing.accepted)) (c := s.client) (a := i) (p := p)
      (iff_of_false hold.1 hp.1)
    rw [hc]
    exact h.accepted
  dropped := by
    have hc := count_stay (P := (· = Publishing.dropped)) (c := s.client) (a := i) (p := p)
      (iff_of_false hold.2 hp.2)
    rw [hc]
    exact h.dropped

omit [DecidableEq ι] in
/-- A message that is refused is not in the account. -/
theorem Account.refuse (h : Account s) (k : Nat) : Account { s with refused := k :: s.refused } :=
  ⟨h.legal, h.kept, h.passed, h.counted, h.accepted, h.dropped⟩

/-- **The account of a client's step.** -/
theorem account_publish (h : Account s) (i : ι) (now : Int) :
    Account { (publish s now (s.client i)).1 with
      client := update s.client i (publish s now (s.client i)).2 } := by
  cases hp : s.client i with
  | idle | rejected =>
    exact h.client (by simp [hp, Publishing.Plain]) (by simp [publish, Publishing.Plain])
  | checking m =>
    rw [publish]
    split
    · exact (h.refuse m.ticket).client (by simp [hp, Publishing.Plain])
        (by simp [Publishing.Plain])
    · exact h.client (by simp [hp, Publishing.Plain]) (by simp [Publishing.Plain])
  | pushing m =>
    rcases publish_pushing s now m with hpub | hpub | ⟨q, q', hq, hitems, hpub⟩
    · rw [hpub]
      exact h.client (by simp [hp, Publishing.Plain]) (by simp [Publishing.Plain])
    · rw [hpub]
      exact (h.refuse m.ticket).client (i := i) (p := .dropping m.ticket)
        (by simp [hp, Publishing.Plain]) (by simp [Publishing.Plain])
    · rw [hpub]
      refine ⟨?_, by simpa using h.kept, by simpa using h.passed, h.counted, ?_, ?_⟩
      · rw [System.items]
        dsimp only
        rw [hitems]
        exact h.legal.push m
      · have hc := count_enter (P := (· = Publishing.accepted)) (c := s.client) (a := i)
          (p := .accepted) (by simp [hp]) rfl
        rw [hc, pushed_append, List.length_append, h.accepted]
        rfl
      · have hc := count_stay (P := (· = Publishing.dropped)) (c := s.client) (a := i)
          (p := .accepted) (by simp [hp])
        rw [hc]
        exact h.dropped
  | dropping k =>
    refine ⟨h.legal, h.kept, h.passed, h.counted, ?_, ?_⟩
    · have hc := count_stay (P := (· = Publishing.accepted)) (c := s.client) (a := i)
        (p := .dropped) (by simp [hp])
      rw [publish, hc]
      exact h.accepted
    · have hc := count_enter (P := (· = Publishing.dropped)) (c := s.client) (a := i)
        (p := .dropped) (by simp [hp]) rfl
      rw [publish, hc, h.dropped]
      exact Nat.add_assoc _ _ _
  | accepted =>
    refine ⟨h.legal, h.kept, h.passed, h.counted, ?_, ?_⟩
    · have hc := count_leave (P := (· = Publishing.accepted)) (c := s.client) (a := i)
        (p := .idle) hp (by simp)
      rw [publish, h.accepted, ← hc]
      dsimp only
      omega
    · have hc := count_stay (P := (· = Publishing.dropped)) (c := s.client) (a := i)
        (p := .idle) (by simp [hp])
      rw [publish, hc]
      exact h.dropped
  | dropped =>
    refine ⟨h.legal, h.kept, h.passed, h.counted, ?_, ?_⟩
    · have hc := count_stay (P := (· = Publishing.accepted)) (c := s.client) (a := i)
        (p := .idle) (by simp [hp])
      rw [publish, hc]
      exact h.accepted
    · have hc := count_leave (P := (· = Publishing.dropped)) (c := s.client) (a := i)
        (p := .idle) hp (by simp)
      rw [publish, h.dropped, ← hc]
      dsimp only
      omega

omit [DecidableEq ι] in
/-- A step of the sender that stays away from what is counted. -/
theorem Account.sender (h : Account s) {p : Sending} (hun : p.unpassed = s.sender.unpassed)
    (hcount : p.uncounted = s.sender.uncounted) : Account { s with sender := p } :=
  ⟨h.legal, h.kept, by rw [hun]; exact h.passed, by rw [hcount]; exact h.counted, h.accepted,
    h.dropped⟩

omit [DecidableEq ι] in
/-- **The account of the sender's step.** -/
theorem account_send (h : Account s) (d : SendChoice) :
    Account { (send s d s.sender).1 with sender := (send s d s.sender).2 } := by
  have hpassed := h.passed
  have hcounted := h.counted
  cases hp : s.sender with
  | notStarted | exited => exact h.sender (by rw [hp]; rfl) (by rw [hp]; rfl)
  | stamping =>
    have h' : Account { s with stats := { s.stats with lastSendTime := d.now } } :=
      ⟨h.legal, h.kept, h.passed, h.counted, h.accepted, h.dropped⟩
    exact h'.sender (by simp [send, hp, Sending.unpassed]) (by simp [send, hp, Sending.uncounted])
  | testing =>
    rw [send]
    cases s.running <;> exact h.sender (by rw [hp]; rfl) (by rw [hp]; rfl)
  | popping =>
    rcases send_popping s d with hsend | hsend | ⟨m, q', hitems, hsend⟩
    · rw [hsend]
      exact h.sender (by rw [hp]) (by rw [hp])
    · rw [hsend]
      exact h.sender (by rw [hp]; rfl) (by rw [hp]; rfl)
    · have hlegal := h.legal
      rw [hitems] at hlegal
      rw [hp] at hpassed hcounted
      rw [hsend]
      refine ⟨hlegal.pop, by simpa using h.kept, ?_, hcounted, by simpa using h.accepted, h.dropped⟩
      dsimp only
      rw [popped_append, hpassed]
      simp [Sending.unpassed]
  | popped m =>
    rw [hp] at hpassed hcounted
    refine ⟨h.legal, h.kept, ?_, ?_, h.accepted, h.dropped⟩
    · rw [send, hpassed]
      simp [Sending.unpassed]
    · rw [send]
      dsimp only
      rw [List.length_append, hcounted]
      rfl
  | publishing m =>
    rw [send]
    split <;> exact h.sender (by rw [hp]; rfl) (by rw [hp]; rfl)
  | calling m => exact h.sender (by rw [hp]; rfl) (by rw [hp]; rfl)
  | counting b =>
    rw [hp] at hpassed hcounted
    cases b with
    | true =>
      refine ⟨h.legal, h.kept, hpassed, ?_, h.accepted, h.dropped⟩
      simp only [send, Sending.uncounted] at hcounted ⊢
      omega
    | false =>
      refine ⟨h.legal, h.kept, hpassed, ?_, h.accepted, h.dropped⟩
      simp only [send, Sending.uncounted] at hcounted ⊢
      omega

omit [DecidableEq ι] in
/-- Starting and stopping change no account. -/
theorem Account.controls (h : Account s) (state : LifecycleState) (running connected : Bool)
    (control : Control) : Account { s with
      state, running, brokerConnected := connected, control } :=
  ⟨h.legal, h.kept, h.passed, h.counted, h.accepted, h.dropped⟩

omit [DecidableEq ι] in
/-- The steps of `Start` and `Stop` leave the account alone. -/
theorem account_control (h : Account s) (hspawn : s.control = .spawning → s.sender = .notStarted) :
    Account { (controlAct s s.control).1 with control := (controlAct s s.control).2 } := by
  cases hc : s.control with
  | idle | raising | started | lowering | clearing | stopped => exact h.controls _ _ _ _
  | start =>
    rw [controlAct]
    split
    · exact h.controls _ _ _ _
    · split <;> exact h.controls _ _ _ _
  | stop =>
    rw [controlAct]
    split <;> exact h.controls _ _ _ _
  | spawning =>
    have h' : Account { s with sender := .testing } :=
      h.sender (by rw [hspawn hc]; rfl) (by rw [hspawn hc]; rfl)
    exact h'.controls _ _ _ _
  | closing =>
    refine ⟨?_, h.kept, h.passed, h.counted, h.accepted, h.dropped⟩
    have hitems :
        System.items { s with sendQueue := s.sendQueue.map BlockingQueue.close } = s.items := by
      rw [System.items, System.items]
      cases s.sendQueue <;> rfl
    have hlegal := h.legal
    rw [← hitems] at hlegal
    exact hlegal
  | joining =>
    rw [controlAct]
    split <;> exact h.controls _ _ _ _

end

/-- Until the module is started there is no sender, and it is started once. -/
structure Unstarted (s : System ι) : Prop where
  sender : s.state = .initialized ∨ s.control = .raising ∨ s.control = .spawning →
    s.sender = .notStarted
  state : s.control = .raising ∨ s.control = .spawning → s.state = .starting

omit [DecidableEq ι] in
/-- `Publish` leaves the threads of the module alone. -/
theorem publish_frame (s : System ι) (now : Int) (p : Publishing) :
    (publish s now p).1.state = s.state ∧ (publish s now p).1.control = s.control ∧
      (publish s now p).1.sender = s.sender := by
  cases p with
  | idle | dropping | accepted | dropped | rejected => exact ⟨rfl, rfl, rfl⟩
  | checking m =>
    rw [publish]
    split <;> exact ⟨rfl, rfl, rfl⟩
  | pushing m => rcases publish_pushing s now m with h | h | ⟨_, _, _, _, h⟩ <;> simp [h]

omit [DecidableEq ι] in
/-- The sender leaves the clients alone. -/
theorem send_frame (s : System ι) (d : SendChoice) (p : Sending) :
    (send s d p).1.state = s.state ∧ (send s d p).1.control = s.control ∧
      (send s d p).1.client = s.client := by
  cases p with
  | notStarted | exited | stamping | testing | popped | publishing | calling =>
    exact ⟨rfl, rfl, rfl⟩
  | counting b => cases b <;> exact ⟨rfl, rfl, rfl⟩
  | popping => rcases send_popping s d with h | h | ⟨_, _, _, h⟩ <;> simp [h]

omit [DecidableEq ι] in
/-- The thread that starts the module starts its sender once. -/
theorem unstarted_control {s : System ι} (h : Unstarted s) :
    Unstarted { (controlAct s s.control).1 with control := (controlAct s s.control).2 } := by
  have hsender := h.sender
  have hstate := h.state
  cases hc : s.control with
  | idle | started | lowering | closing | clearing | stopped =>
    constructor <;> simp_all [controlAct]
  | spawning => constructor <;> simp_all [controlAct]
  | raising => constructor <;> simp_all [controlAct]
  | start =>
    rw [controlAct]
    split
    · constructor <;> simp_all
    · split <;> constructor <;> simp_all
  | stop | joining =>
    rw [controlAct]
    split <;> constructor <;> simp_all

/-- **Every step keeps it.** -/
theorem unstarted_step {s s' : System ι} {l : Label ι} (h : Unstarted s) (hs : step s l = some s') :
    Unstarted s' := by
  cases l with
  | publish i topic payload qos retain =>
    rw [step] at hs
    split at hs
    next =>
      cases hs
      exact ⟨h.sender, h.state⟩
    next => cases hs
  | client i now =>
    obtain rfl := Option.some.inj ((step_client s i now).symm.trans hs)
    obtain ⟨hstate, hcontrol, hsender⟩ := publish_frame s now (s.client i)
    exact ⟨by simpa only [hstate, hcontrol, hsender] using h.sender,
      by simpa only [hstate, hcontrol] using h.state⟩
  | sender d =>
    obtain rfl := Option.some.inj ((step_sender s d).symm.trans hs)
    obtain ⟨hstate, hcontrol, -⟩ := send_frame s d s.sender
    refine ⟨fun hc => ?_, by simpa only [hstate, hcontrol] using h.state⟩
    simp only [hstate, hcontrol] at hc
    rw [h.sender hc]
    rfl
  | start | stop =>
    rw [step] at hs
    split at hs
    next =>
      cases hs
      exact ⟨fun hs => h.sender (.inl (by simpa using hs)), by simp⟩
    next => cases hs
  | control =>
    obtain rfl := Option.some.inj ((step_control s).symm.trans hs)
    exact unstarted_control h
  | connected b =>
    cases hs
    exact ⟨h.sender, h.state⟩

section
variable [Fintype ι] {s s' : System ι}

/-- **Every step keeps the account.** -/
theorem account_step {l : Label ι} (h : Account s) (hu : Unstarted s) (hs : step s l = some s') :
    Account s' := by
  cases l with
  | publish i topic payload qos retain =>
    rw [step] at hs
    split at hs
    next hp =>
      cases hs
      have h' : Account { s with tickets := s.tickets + 1 } :=
        ⟨h.legal, h.kept, h.passed, h.counted, h.accepted, h.dropped⟩
      exact h'.client (by simp [hp, Publishing.Plain]) (by simp [Publishing.Plain])
    next => cases hs
  | client i now =>
    cases hs
    exact account_publish h i now
  | sender d =>
    cases hs
    exact account_send h d
  | start | stop =>
    rw [step] at hs
    split at hs
    · cases hs
      exact h.controls _ _ _ _
    · cases hs
  | control =>
    cases hs
    exact account_control h fun hc => hu.sender (.inr (.inr hc))
  | connected b =>
    cases hs
    exact h.controls _ _ _ _

end

/-! ## The tickets -/

/-- The ticket of a call whose message is neither taken nor refused. -/
def Publishing.ticket? : Publishing → Option Nat
  | .checking m | .pushing m => some m.ticket
  | _ => none

/-- The tickets of the messages that the queue has taken, and of those that have been refused. -/
def System.settled (s : System ι) : List Nat := (pushed s.log).map Ticketed.ticket ++ s.refused

/-- Every call has a ticket of its own, and is settled once. -/
structure Tickets (s : System ι) : Prop where
  next : ∀ k ∈ s.settled, k < s.tickets
  nodup : s.settled.Nodup
  held : ∀ i k, (s.client i).ticket? = some k → k < s.tickets ∧ k ∉ s.settled
  inj : ∀ i j k, (s.client i).ticket? = some k → (s.client j).ticket? = some k → i = j

section
variable {s s' : System ι}

omit [DecidableEq ι] in
/-- The tickets are numbers given out once, put to use when they are settled. -/
theorem tickets_iff : Tickets s ↔
    Fresh s.tickets {k | k ∈ s.settled} (Publishing.ticket? ∘ s.client) ∧ s.settled.Nodup := by
  constructor
  · intro h
    exact ⟨⟨h.next, fun i k hk => (h.held i k hk).1, fun i k hk => (h.held i k hk).2, h.inj⟩,
      h.nodup⟩
  · rintro ⟨h, hnodup⟩
    exact ⟨h.used_lt, hnodup, fun i k hk => ⟨h.held_lt i k hk, h.apart i k hk⟩, h.inj⟩

/-- A step of a client that keeps its ticket or has none. -/
theorem Tickets.client (h : Tickets s) {i : ι} {p : Publishing}
    (hp : ∀ k, p.ticket? = some k → (s.client i).ticket? = some k)
    (hclient : s'.client = update s.client i p) (htickets : s'.tickets = s.tickets)
    (hsettled : s'.settled = s.settled) : Tickets s' := by
  obtain ⟨hfresh, hnodup⟩ := tickets_iff.1 h
  rw [tickets_iff, hclient, htickets, hsettled, comp_update]
  exact ⟨hfresh.keep hp, hnodup⟩

omit [DecidableEq ι] in
/-- A step that the tickets do not notice. -/
theorem Tickets.keep (h : Tickets s) (hclient : s'.client = s.client)
    (htickets : s'.tickets = s.tickets) (hsettled : s'.settled = s.settled) : Tickets s' := by
  rw [tickets_iff, hclient, htickets, hsettled]
  exact tickets_iff.1 h

/-- The ticket of a client is settled. -/
theorem Tickets.settle (h : Tickets s) {i : ι} {k : Nat} {p : Publishing}
    (hk : (s.client i).ticket? = some k) (hp : p.ticket? = none)
    (hclient : s'.client = update s.client i p) (htickets : s'.tickets = s.tickets)
    (hsettled : List.Perm s'.settled (k :: s.settled)) : Tickets s' := by
  obtain ⟨hfresh, hnodup⟩ := tickets_iff.1 h
  have hused : {l | l ∈ s'.settled} = insert k {l | l ∈ s.settled} := by
    ext l
    exact hsettled.mem_iff.trans List.mem_cons
  rw [tickets_iff, hclient, htickets, hused, comp_update, hp, hsettled.nodup_iff, List.nodup_cons]
  exact ⟨hfresh.use hk, hfresh.apart i k hk, hnodup⟩

/-- A step of `Publish` keeps the tickets. -/
theorem tickets_publish (h : Tickets s) (i : ι) (now : Int) :
    Tickets { (publish s now (s.client i)).1 with
      client := update s.client i (publish s now (s.client i)).2 } := by
  cases hp : s.client i with
  | idle | rejected | dropping | accepted | dropped =>
    exact h.client (by simp [publish, Publishing.ticket?]) rfl rfl rfl
  | checking m =>
    have hk : (s.client i).ticket? = some m.ticket := by rw [hp]; rfl
    rw [publish]
    split
    · exact h.settle hk rfl rfl rfl List.perm_middle
    · exact h.client (by simp [hp, Publishing.ticket?]) rfl rfl rfl
  | pushing m =>
    have hk : (s.client i).ticket? = some m.ticket := by rw [hp]; rfl
    rcases publish_pushing s now m with hpub | hpub | ⟨_, _, _, _, hpub⟩
    · rw [hpub]
      exact h.client (by simp [hp]) rfl rfl rfl
    · rw [hpub]
      exact h.settle hk rfl rfl rfl List.perm_middle
    · rw [hpub]
      refine h.settle hk rfl rfl rfl ?_
      rw [System.settled, System.settled, pushed_append, List.map_append, List.append_assoc]
      exact List.perm_middle

/-- A call begins, with the next ticket. -/
theorem tickets_begin (h : Tickets s) (i : ι) (m : Message) :
    Tickets { s with
      tickets := s.tickets + 1, client := update s.client i (.checking ⟨s.tickets, m⟩) } := by
  obtain ⟨hfresh, hnodup⟩ := tickets_iff.1 h
  refine tickets_iff.2 ⟨?_, hnodup⟩
  rw [comp_update]
  exact hfresh.draw i

omit [DecidableEq ι] in
/-- The sender settles no ticket: it sends what has been settled. -/
theorem send_settled (s : System ι) (d : SendChoice) (p : Sending) :
    (send s d p).1.settled = s.settled ∧ (send s d p).1.tickets = s.tickets := by
  cases p with
  | notStarted | exited | stamping | testing | popped | publishing | calling => exact ⟨rfl, rfl⟩
  | counting b => cases b <;> exact ⟨rfl, rfl⟩
  | popping => rcases send_popping s d with h | h | ⟨_, _, _, h⟩ <;> simp [h, System.settled]

omit [DecidableEq ι] in
/-- Starting and stopping settle no ticket. -/
theorem control_frame (s : System ι) (p : Control) :
    (controlAct s p).1.client = s.client ∧ (controlAct s p).1.tickets = s.tickets ∧
      (controlAct s p).1.settled = s.settled := by
  cases p with
  | idle | raising | spawning | started | lowering | closing | clearing | stopped =>
    exact ⟨rfl, rfl, rfl⟩
  | start =>
    rw [controlAct]
    split
    · exact ⟨rfl, rfl, rfl⟩
    · split <;> exact ⟨rfl, rfl, rfl⟩
  | stop | joining =>
    rw [controlAct]
    split <;> exact ⟨rfl, rfl, rfl⟩

/-- **Every step keeps the tickets.** -/
theorem tickets_step {l : Label ι} (h : Tickets s) (hs : step s l = some s') : Tickets s' := by
  cases l with
  | publish i topic payload qos retain =>
    rw [step] at hs
    split at hs
    next =>
      cases hs
      exact tickets_begin h i _
    next => cases hs
  | client i now =>
    obtain rfl := Option.some.inj ((step_client s i now).symm.trans hs)
    exact tickets_publish h i now
  | sender d =>
    obtain rfl := Option.some.inj ((step_sender s d).symm.trans hs)
    exact h.keep (send_frame s d s.sender).2.2 (send_settled s d s.sender).2
      (send_settled s d s.sender).1
  | start | stop =>
    rw [step] at hs
    split at hs
    · cases hs
      exact h.keep rfl rfl rfl
    · cases hs
  | control =>
    obtain rfl := Option.some.inj ((step_control s).symm.trans hs)
    obtain ⟨hclient, htickets, hsettled⟩ := control_frame s s.control
    exact h.keep hclient htickets hsettled
  | connected b =>
    cases hs
    exact h.keep rfl rfl rfl

end

/-- What holds in every state of a run. -/
structure Inv [Fintype ι] (s : System ι) : Prop where
  account : Account s
  tickets : Tickets s
  unstarted : Unstarted s

omit [DecidableEq ι] in
/-- At first there is no call. -/
theorem inv_initialised [Fintype ι] (enable : Bool) (maxSize : Nat) :
    Inv (initialised enable maxSize : System ι) where
  account := account_initialised enable maxSize
  tickets :=
    { next := fun k hk => absurd hk List.not_mem_nil
      nodup := List.nodup_nil
      held := fun _ _ hk => nomatch hk
      inj := fun _ _ _ hk => nomatch hk }
  unstarted := ⟨fun _ => rfl, fun h => by simp [initialised] at h⟩

/-- It holds along every run. -/
theorem inv_run [Fintype ι] {enable : Bool} {maxSize : Nat} {ls : List (Label ι)} {s : System ι}
    (h : run step (initialised enable maxSize) ls = some s) : Inv s := by
  refine run_invariant (P := Inv) (fun s l s' hinv hs => ?_) (inv_initialised enable maxSize) h
  exact ⟨account_step hinv.account hinv.unstarted hs, tickets_step hinv.tickets hs,
    unstarted_step hinv.unstarted hs⟩

/-- **The account of every run.** Whatever any number of clients, the sender and `Start` and `Stop`
do, in every state: the calls whose message the queue has taken, those that have returned `true` and
those that are about to, are as many as are counted, wait in the queue, or are with the sender
between its `Pop` and its counter; what has been passed to `DoPublish` is a prefix of what the queue
has taken, each message once, and none of it has been refused; and the calls that a running module
has refused and counted, returned or about to, are as many as `send_dropped` says. -/
theorem publish_accounting [Fintype ι] {enable : Bool} {maxSize : Nat} {ls : List (Label ι)}
    {s : System ι} (h : run step (initialised enable maxSize) ls = some s) :
    s.returnedTrue + count (· = .accepted) s.client =
        s.stats.sendSuccess + s.stats.sendFailed + s.items.length + s.sender.between ∧
      s.passed <+: pushed s.log ∧ ((pushed s.log).map Ticketed.ticket).Nodup ∧
      (∀ m ∈ s.passed, m.ticket ∉ s.refused) ∧
      s.returnedDropped + count (· = .dropped) s.client = s.stats.sendDropped := by
  obtain ⟨haccount, htickets, -⟩ := inv_run h
  have hpushed := haccount.legal.pushed_eq haccount.kept
  have hpassed := haccount.passed
  have hpre : s.passed <+: pushed s.log := by
    rw [hpushed, hpassed, List.append_assoc]
    exact List.prefix_append _ _
  obtain ⟨hdistinct, -, hapart⟩ := List.nodup_append.1 htickets.nodup
  refine ⟨?_, hpre, hdistinct, fun m hm hrefused => ?_, haccount.dropped.symm⟩
  · have hlength := congrArg List.length hpushed
    rw [hpassed, List.length_append, List.length_append, haccount.counted, haccount.accepted]
      at hlength
    rw [hlength, Sending.between_eq]
    omega
  · exact hapart _ (List.mem_map_of_mem (hpre.subset hm)) _ hrefused rfl

/-- The module is started and connected, and a client publishes; the sender takes the message to the
end of its `DoPublish`. -/
def sentAtOnce : List (Label Unit) :=
  [.start, .control, .control, .control, .control, .connected true,
    .publish () "status" [1] 0 false, .client () 0, .client () 0] ++ List.replicate 6 (.sender {})

/-- A message that is accepted and sent is counted on both sides. -/
theorem publish_accounting_sentAtOnce : ∃ s : System Unit,
    run step (initialised true 1) sentAtOnce = some s ∧ s.stats.sendSuccess = 1 ∧
      s.returnedTrue + count (· = .accepted) s.client =
        s.stats.sendSuccess + s.stats.sendFailed + s.items.length + s.sender.between := by
  have hrun : (run step (initialised true 1) sentAtOnce).map (fun s => s.stats.sendSuccess) =
      some 1 := by decide
  obtain ⟨s, hs, hsent⟩ := Option.map_eq_some_iff.1 hrun
  exact ⟨s, hs, hsent, (publish_accounting hs).1⟩

/-- A message can have been sent and counted before the call that brought it has returned. -/
theorem sent_before_return :
    ¬ ∀ (ls : List (Label Unit)) (s : System Unit), run step (initialised true 1) ls = some s →
      s.returnedTrue =
        s.stats.sendSuccess + s.stats.sendFailed + s.items.length + s.sender.between := by
  intro h
  have hrun : (run step (initialised true 1) sentAtOnce).map
      (fun s => (s.returnedTrue, s.stats.sendSuccess)) = some (0, 1) := by decide
  obtain ⟨s, hs, he⟩ := Option.map_eq_some_iff.1 hrun
  obtain ⟨hreturned, hsent⟩ := Prod.mk.inj he
  have := h sentAtOnce s hs
  omega

end Publish

end FastMqtt
