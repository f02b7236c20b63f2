import FastCppServer.Lib.Execution
import FastCppServer.MyMqttBrokerManager.BrokerManager

/-!
# What the broker manager knows of its broker

The manager thread stores the pid of a new broker after the `fork`, and `broker_running_` after
that. A `Stop` that reads `broker_pid_` before does nothing but wait for the manager thread, and
that thread then goes on as long as the broker is not reaped, that is for ever (`Lost`). Every other
`Stop` comes to its end, with no broker left (`Settled`).

A broker that has exited answers `kill(pid, 0)`, so no health check finds it out. One that ends, as
where `fork` has failed, leaves a thread that is to be joined, and every `Start` is refused until a
`Stop` has joined it.
-/

namespace MyMqttBrokerManager

open Process Transition BrokerManager

variable {s t : BrokerManager} {l : Label}

/-! ## What is promised -/

/-- A step of the manager thread. -/
def isManager (l : Label) : Prop := ∃ r, l = .manager r

/-- The manager thread does not run, so that a `join` returns. -/
def Ended (s : BrokerManager) : Prop := ∀ p, s.brokerManagerThread ≠ .running p

/-- Wherever it goes from here, a manager thread that goes on comes to its end. -/
def Passes (s : BrokerManager) : Prop :=
  ∀ e : Execution step, e.state 0 = s → e.Fair isManager Ended → ∃ i, Ended (e.state i)

/-- A health check finds out that the broker has exited. -/
def Notices (s : BrokerManager) (l : Label) : Prop :=
  ∀ t, step s l = some t → ∀ r pid, l = .manager r →
    s.brokerManagerThread = .running (.probing (some pid)) → s.children.waitpid pid = .exited →
    t.brokerManagerThread = .running .lowering

/-- `Start` launches a broker where no health check goes on, as when it has ended. -/
def Relaunches (s : BrokerManager) (l : Label) : Prop :=
  ∀ t, step s l = some t → l = .start → s.configInitialized = true → Ended s →
    t.brokerManagerThread = .running .fork

/-- **The manager keeps track of its broker** all along a run. -/
structure Tracks (ls : List Label) : Prop where
  passes : ∀ pre post s, ls = pre ++ post → run step {} pre = some s → s.client = .joining →
    Passes s
  stopped : ∀ pre post s, ls = pre ++ post → run step {} pre = some s → s.client = .stopped →
    ∀ p, s.children p = none
  notices : Along step Notices {} ls
  relaunches : Along step Relaunches {} ls

/-- A broker can still be launched, or has been and its pid is not stored. -/
def Launching (s : BrokerManager) : Prop :=
  s.brokerManagerThread = .running .fork ∨
    ∃ pid, s.brokerManagerThread = .running (.forked (some pid))

/-- No `Stop` reads `broker_pid_` too early, no health check comes to a broker that has exited, and
no `Start` to a manager thread that has ended and has not been joined. -/
structure Careful (s : BrokerManager) (l : Label) : Prop where
  read : l = .client → s.client = .reading → ¬ Launching s
  live : ∀ r pid, l = .manager r → s.brokerManagerThread = .running (.probing (some pid)) →
    s.children.waitpid pid ≠ .exited
  joined : l = .start → s.configInitialized = true → s.brokerManagerThread ≠ .exited

/-! ## What the code knows -/

/-- There is no broker, nor will there be one. -/
def Settled (s : BrokerManager) : Prop := s.brokerPid = none ∧ ¬ Launching s

/-- The manager thread watches the broker, or is about to. -/
def Phase.Watches (s : BrokerManager) (pid : Nat) : Phase → Prop
  | .forked q => q = some pid
  | .stored => s.brokerPid = some pid
  | .head | .loading | .sleeping => s.brokerPid = some pid ∧ s.brokerRunning = true
  | .probing q => s.brokerPid = some pid ∧ s.brokerRunning = true ∧ q = some pid
  | .fork | .lowering | .clearing => False

/-- The manager thread watches a broker that nobody stops. -/
def Lost (s : BrokerManager) : Prop :=
  ∃ pid p, (s.children pid).isSome = true ∧ s.brokerManagerThread = .running p ∧ p.Watches s pid

/-- The pid of the broker has been stored, if there is one. -/
def Phase.launched : Phase → Bool
  | .fork | .forked _ => false
  | _ => true

/-- What is known of the broker where the manager thread stands. -/
def Phase.Knows (s : BrokerManager) : Phase → Prop
  | .fork => s.brokerPid = none ∧ s.children.Within none
  | .forked pid => s.brokerPid = none ∧ s.children.Within pid ∧
      ∀ p, pid = some p → (s.children p).isSome = true
  | .probing pid => s.children.Within pid
  | .lowering | .clearing => s.children.Within none
  | .stored | .head | .loading | .sleeping => True

/-- What `Stop` goes by. -/
def Client.Knows (s : BrokerManager) : Client → Prop
  | .idle | .started _ | .lowering | .reading => True
  | .stopped => s.brokerManagerThread = .none
  | .term pid | .poll pid _ | .check pid | .kill pid | .wait pid =>
    s.children.Within (some pid) ∧ ¬ Launching s
  | .clear => s.children.Within none ∧ ¬ Launching s
  | .joining => Settled s ∨ s.brokerManagerThread = .running .fork ∨ Lost s

/-- **What every step keeps**: there is no broker but the one whose pid is stored, or is about to
be. -/
structure Tidy (s : BrokerManager) : Prop where
  stored : ¬ Launching s → s.children.Within s.brokerPid
  unborn : s.brokerManagerThread = .none → s.brokerPid = none
  phase : ∀ p, s.brokerManagerThread = .running p → p.Knows s
  client : s.client.Knows s

/-- At first there is no broker. -/
theorem Tidy.initial : Tidy {} where
  stored _ := by
    intro p hp
    cases hp
  unborn _ := rfl
  phase p hp := by cases hp
  client := trivial

/-- Where the manager thread stands while it launches a broker. -/
theorem launching_iff {p : Phase} (h : s.brokerManagerThread = .running p) :
    Launching s ↔ p = .fork ∨ ∃ pid, p = .forked (some pid) := by
  unfold Launching
  rw [h]
  simp only [Thread.running.injEq]

/-- Only a manager thread that runs launches a broker. -/
theorem not_launching_of_not_running (h : Ended s) : ¬ Launching s := by
  rintro (hp | ⟨pid, hp⟩)
  · exact h _ hp
  · exact h _ hp

/-! ## The manager thread -/

/-- A launch begins where there is none with the `fork`. -/
theorem launching_managerStep {r : Option Nat} {p : Phase} (hstep : s.managerStep r p = some t)
    (ht : Launching t) : p = .fork := by
  unfold managerStep at hstep
  cases p with
  | fork => rfl
  | head =>
    cases hstep
    split at ht
    · rcases ht with ht | ⟨pid, ht⟩ <;> cases ht
    · rcases ht with ht | ⟨pid, ht⟩ <;> cases ht
  | probing q =>
    cases hstep
    split at ht
    · rcases ht with ht | ⟨pid, ht⟩ <;> cases ht
    · rcases ht with ht | ⟨pid, ht⟩ <;> cases ht
  | _ =>
    cases hstep
    rcases ht with ht | ⟨pid, ht⟩ <;> cases ht

/-- The manager thread leaves its client alone. -/
theorem client_managerStep {r : Option Nat} {p : Phase} (hstep : s.managerStep r p = some t) :
    t.client = s.client := by
  unfold managerStep at hstep
  cases p with
  | fork =>
    dsimp only at hstep
    repeat' split at hstep
    all_goals cases hstep <;> rfl
  | head => cases hstep; split <;> rfl
  | _ => cases hstep; rfl

/-- What the manager thread changes where it launches nothing. -/
theorem managerStep_frame {r : Option Nat} {p : Phase} (hp : p ≠ .fork)
    (hstep : s.managerStep r p = some t) :
    t.children = s.children ∧
      (t.brokerPid = s.brokerPid ∨ t.brokerPid = none ∨ p = .forked t.brokerPid) := by
  unfold managerStep at hstep
  cases p with
  | fork => exact absurd rfl hp
  | forked pid => cases hstep; exact ⟨rfl, .inr (.inr rfl)⟩
  | head => cases hstep; split <;> exact ⟨rfl, .inl rfl⟩
  | clearing => cases hstep; exact ⟨rfl, .inr (.inl rfl)⟩
  | _ => cases hstep; exact ⟨rfl, .inl rfl⟩

/-- A step of the manager thread brings no broker where there will be none. -/
theorem Settled.manager_step (h : Settled s) {r : Option Nat} {p : Phase}
    (hp : s.brokerManagerThread = .running p) (hstep : s.managerStep r p = some t) : Settled t := by
  obtain ⟨hpid, hnot⟩ := h
  rw [launching_iff hp, not_or] at hnot
  refine ⟨?_, fun ht => hnot.1 (launching_managerStep hstep ht)⟩
  obtain ⟨-, hsame | hnone | hforked⟩ := managerStep_frame hnot.1 hstep
  · rw [hsame, hpid]
  · exact hnone
  · cases hpid' : t.brokerPid with
    | none => rfl
    | some pid =>
      rw [hpid'] at hforked
      exact absurd ⟨pid, hforked⟩ hnot.2

/-- The manager thread goes on watching a broker that nobody stops. -/
theorem Lost.manager_step (h : Lost s) {r : Option Nat} {p : Phase}
    (hp : s.brokerManagerThread = .running p) (hstep : s.managerStep r p = some t) : Lost t := by
  obtain ⟨pid, q, hsome, hq, hwatches⟩ := h
  obtain rfl := Thread.running.inj (hp.symm.trans hq)
  unfold managerStep at hstep
  cases p with
  | fork | lowering | clearing => cases hwatches
  | forked q =>
    cases hstep
    exact ⟨pid, .stored, hsome, rfl, hwatches⟩
  | stored =>
    cases hstep
    exact ⟨pid, .head, hsome, rfl, hwatches, rfl⟩
  | head =>
    dsimp only at hstep
    rw [if_pos hwatches.2] at hstep
    cases hstep
    exact ⟨pid, .loading, hsome, rfl, hwatches⟩
  | loading =>
    cases hstep
    exact ⟨pid, .probing s.brokerPid, hsome, rfl, hwatches.1, hwatches.2, hwatches.1⟩
  | probing q =>
    -- the broker is there, be it one that has exited
    have halive : q.any s.children.exists? = true := by
      rw [hwatches.2.2]
      exact hsome
    dsimp only at hstep
    rw [if_pos halive] at hstep
    cases hstep
    exact ⟨pid, .sleeping, hsome, rfl, hwatches.1, hwatches.2.1⟩
  | sleeping =>
    cases hstep
    exact ⟨pid, .head, hsome, rfl, hwatches⟩

/-- What `fork` can lead to. -/
theorem fork_manager_step {r : Option Nat} (hpid : s.brokerPid = none)
    (hstep : s.managerStep r .fork = some t) : Settled t ∨ Lost t := by
  unfold managerStep at hstep
  cases r with
  | none =>
    cases hstep
    refine .inl ⟨hpid, ?_⟩
    rintro (h | ⟨pid, h⟩) <;> cases h
  | some pid =>
    dsimp only at hstep
    split at hstep
    · cases hstep
    · cases hstep
      exact .inr ⟨pid, .forked (some pid), Table.isSome_fork, rfl, rfl⟩

/-- `Stop` goes by the same when the manager thread goes on. -/
theorem Client.Knows.manager_step (hk : s.client.Knows s) {r : Option Nat} {p : Phase}
    (hp : s.brokerManagerThread = .running p) (hphase : p.Knows s)
    (hstep : s.managerStep r p = some t) : t.client.Knows t := by
  have hwithin : ∀ {q : Option Nat}, s.children.Within q ∧ ¬ Launching s →
      t.children.Within q ∧ ¬ Launching t := by
    rintro q ⟨hwithin, hnot⟩
    have hne : p ≠ .fork := by
      rintro rfl
      exact hnot (.inl hp)
    rw [(managerStep_frame hne hstep).1]
    exact ⟨hwithin, fun ht => hne (launching_managerStep hstep ht)⟩
  rw [client_managerStep hstep]
  cases hc : s.client <;> rw [hc] at hk
  case stopped => cases hp.symm.trans hk
  case joining =>
    rcases hk with hsettled | hfork | hlost
    · exact .inl (hsettled.manager_step hp hstep)
    · obtain rfl := Thread.running.inj (hp.symm.trans hfork)
      exact (fork_manager_step hphase.1 hstep).imp_right .inr
    · exact .inr (.inr (hlost.manager_step hp hstep))
  case idle => trivial
  case started ok => trivial
  case lowering => trivial
  case reading => trivial
  all_goals exact hwithin hk

/-- What has to hold where the manager thread runs. -/
theorem tidy_of_running {q : Phase} (hq : t.brokerManagerThread = .running q)
    (hstored : ¬ Launching t → t.children.Within t.brokerPid) (hk : q.Knows t)
    (hclient : t.client.Knows t) : Tidy t where
  stored := hstored
  unborn hnone := by cases hq.symm.trans hnone
  phase p hp := by
    obtain rfl := Thread.running.inj (hq.symm.trans hp)
    exact hk
  client := hclient

/-- What has to hold when it has ended. -/
theorem tidy_of_exited (hexited : t.brokerManagerThread = .exited)
    (hstored : t.children.Within t.brokerPid) (hclient : t.client.Knows t) : Tidy t where
  stored _ := hstored
  unborn hnone := by cases hexited.symm.trans hnone
  phase p hp := by cases hexited.symm.trans hp
  client := hclient

/-- **A step of the manager thread keeps it.** -/
theorem Tidy.manager_step (h : Tidy s) {r : Option Nat} {p : Phase}
    (hp : s.brokerManagerThread = .running p) (hstep : s.managerStep r p = some t) : Tidy t := by
  have hk := h.phase p hp
  have hclient := h.client.manager_step hp hk hstep
  have hstored : ¬ (p = .fork ∨ ∃ pid, p = .forked (some pid)) →
      s.children.Within s.brokerPid := fun hnot => h.stored fun hl => hnot ((launching_iff hp).1 hl)
  unfold managerStep at hstep
  cases p with
  | fork =>
    cases r with
    | none =>
      cases hstep
      exact tidy_of_running rfl (fun _ => hk.2.of_none) ⟨hk.1, hk.2, by rintro p ⟨⟩⟩ hclient
    | some pid =>
      dsimp only at hstep
      split at hstep
      · cases hstep
      · cases hstep
        exact tidy_of_running rfl (fun hnot => absurd (.inr ⟨pid, rfl⟩) hnot)
          ⟨hk.1, hk.2.fork, by rintro p ⟨⟩; exact Table.isSome_fork⟩ hclient
  | forked pid =>
    cases hstep
    exact tidy_of_running rfl (fun _ => hk.2.1) trivial hclient
  | stored =>
    cases hstep
    exact tidy_of_running rfl (fun _ => hstored (by rintro (h | ⟨pid, h⟩) <;> cases h)) trivial
      hclient
  | head =>
    have hwithin := hstored (by rintro (h | ⟨pid, h⟩) <;> cases h)
    dsimp only at hstep
    split at hstep <;> cases hstep
    · exact tidy_of_running rfl (fun _ => hwithin) trivial hclient
    · exact tidy_of_exited rfl hwithin hclient
  | loading =>
    have hwithin := hstored (by rintro (h | ⟨pid, h⟩) <;> cases h)
    cases hstep
    exact tidy_of_running rfl (fun _ => hwithin) hwithin hclient
  | probing q =>
    have hwithin := hstored (by rintro (h | ⟨pid, h⟩) <;> cases h)
    dsimp only at hstep
    split at hstep <;> cases hstep
    · exact tidy_of_running rfl (fun _ => hwithin) trivial hclient
    · next hdead =>
      refine tidy_of_running rfl (fun _ => hwithin) ?_ hclient
      cases q with
      | none => exact hk
      | some pid => exact Table.Within.of_not_exists hk hdead
  | sleeping =>
    have hwithin := hstored (by rintro (h | ⟨pid, h⟩) <;> cases h)
    cases hstep
    exact tidy_of_running rfl (fun _ => hwithin) trivial hclient
  | lowering =>
    have hwithin := hstored (by rintro (h | ⟨pid, h⟩) <;> cases h)
    cases hstep
    exact tidy_of_running rfl (fun _ => hwithin) hk hclient
  | clearing =>
    cases hstep
    exact tidy_of_exited rfl hk hclient

/-! ## The controlling thread, and the broker -/

/-- `Launching` is about the manager thread alone. -/
theorem launching_congr (h : t.brokerManagerThread = s.brokerManagerThread) :
    Launching t ↔ Launching s := by
  unfold Launching
  rw [h]

/-- The manager thread stays where it is. -/
theorem Tidy.stay (h : Tidy s) (hthread : t.brokerManagerThread = s.brokerManagerThread)
    (hpid : t.brokerPid = s.brokerPid ∨ t.brokerPid = none)
    (hfew : ∀ q, s.children.Within q → t.children.Within q)
    (hsome : Launching s → ∀ pid, (s.children pid).isSome = true → (t.children pid).isSome = true)
    (hstored : ¬ Launching s → t.children.Within t.brokerPid) (hclient : t.client.Knows t) :
    Tidy t := by
  have hnone : s.brokerPid = none → t.brokerPid = none := by
    intro h
    rcases hpid with hpid | hpid
    · rw [hpid, h]
    · exact hpid
  refine ⟨fun hnot => hstored ((launching_congr hthread).not.1 hnot),
    fun hunborn => hnone (h.unborn (hthread.symm.trans hunborn)), fun p hp => ?_, hclient⟩
  have hp' := hthread.symm.trans hp
  have hk := h.phase p hp'
  cases p with
  | fork => exact ⟨hnone hk.1, hfew _ hk.2⟩
  | forked pid =>
    refine ⟨hnone hk.1, hfew _ hk.2.1, ?_⟩
    rintro p rfl
    exact hsome (.inr ⟨p, hp'⟩) p (hk.2.2 p rfl)
  | probing pid => exact hfew _ hk
  | lowering | clearing => exact hfew _ hk
  | _ => trivial

/-- A step in a `Stop` that changes no broker. -/
theorem Tidy.client_goto (h : Tidy s) {c : Client} {b : Bool}
    (hk : c.Knows { s with brokerRunning := b, client := c }) :
    Tidy { s with brokerRunning := b, client := c } :=
  h.stay rfl (.inl rfl) (fun _ h => h) (fun _ _ h => h) h.stored hk

/-- While a broker is launched no pid is stored. -/
theorem Tidy.pid_of_launching (h : Tidy s) (hl : Launching s) : s.brokerPid = none := by
  rcases hl with hp | ⟨pid, hp⟩
  · exact (h.phase _ hp).1
  · exact (h.phase _ hp).1

/-- A `Stop` that reads no pid. -/
theorem Tidy.read_none (h : Tidy s) (hpid : s.brokerPid = none) :
    Settled s ∨ s.brokerManagerThread = .running .fork ∨ Lost s := by
  by_cases hl : Launching s
  · rcases hl with hp | ⟨pid, hp⟩
    · exact .inr (.inl hp)
    · exact .inr (.inr ⟨pid, _, (h.phase _ hp).2.2 pid rfl, hp, rfl⟩)
  · exact .inl ⟨hpid, hl⟩

/-- A manager thread that has ended has left no pid to a `Stop` that joins it. -/
theorem Tidy.pid_of_joining (h : Tidy s) (hc : s.client = .joining) (hended : Ended s) :
    s.brokerPid = none := by
  have hk := h.client
  rw [hc] at hk
  rcases hk with hsettled | hp | ⟨pid, p, -, hp, -⟩
  · exact hsettled.1
  · exact absurd hp (hended _)
  · exact absurd hp (hended p)

/-- **A step of the client keeps it.** -/
theorem Tidy.client_step (h : Tidy s) (hstep : s.clientStep s.client = some t) : Tidy t := by
  have hk := h.client
  unfold clientStep at hstep
  cases hc : s.client <;> rw [hc] at hk hstep <;> dsimp only at hstep
  case idle => cases hstep
  case started ok => cases hstep
  case stopped => cases hstep
  case lowering =>
    cases hstep
    exact h.client_goto trivial
  case reading =>
    cases hstep
    have hread : ∀ (o : Option Nat) (c : Client), s.brokerPid = o → c = o.elim .joining .term →
        c.Knows { s with client := c } := by
      rintro (_ | pid) c hpid rfl
      · exact h.read_none hpid
      · have hnot : ¬ Launching s := by
          intro hl
          cases hpid.symm.trans (h.pid_of_launching hl)
        exact ⟨hpid ▸ h.stored hnot, hnot⟩
    exact h.client_goto (b := s.brokerRunning) (hread _ _ rfl rfl)
  case term pid =>
    cases hstep
    refine h.stay rfl (.inl rfl) (fun _ h => h.signal) ?_ (fun hnot => (h.stored hnot).signal)
      ⟨hk.1.signal, hk.2⟩
    intro _ p hp
    rw [Table.isSome_signal]
    exact hp
  case poll pid waited =>
    split at hstep <;> cases hstep
    · exact h.client_goto (b := s.brokerRunning) hk
    · exact h.client_goto (b := s.brokerRunning) hk
  case check pid =>
    split at hstep <;> cases hstep
    · exact h.client_goto (b := s.brokerRunning) hk
    · exact h.client_goto (b := s.brokerRunning) hk
  case kill pid =>
    cases hstep
    refine h.stay rfl (.inl rfl) (fun _ h => h.signal) ?_ (fun hnot => (h.stored hnot).signal)
      ⟨hk.1.signal, hk.2⟩
    intro _ p hp
    rw [Table.isSome_signal]
    exact hp
  case wait pid =>
    split at hstep
    · cases hstep
    · cases hstep
      exact h.stay rfl (.inl rfl) (fun _ h => h.free) (fun hl => absurd hl hk.2)
        (fun hnot => (h.stored hnot).free) ⟨hk.1.free_self, hk.2⟩
    · next herror =>
      cases hstep
      refine h.client_goto (b := s.brokerRunning) ?_
      exact ⟨hk.1.absent (Table.waitpid_error_iff.1 herror), hk.2⟩
  case clear =>
    cases hstep
    exact h.stay rfl (.inr rfl) (fun _ h => h) (fun _ _ h => h) (fun _ => hk.1) (.inl ⟨rfl, hk.2⟩)
  case joining =>
    split at hstep
    · cases hstep
    · next hended =>
      cases hstep
      have hpid := h.pid_of_joining hc hended
      refine ⟨fun _ => h.stored (not_launching_of_not_running hended), fun _ => hpid, ?_, rfl⟩
      rintro p ⟨⟩

/-- What `Stop` goes by still holds when a process exits. -/
theorem Client.Knows.exit {c : Client} (hk : c.Knows s) (pid : Nat) :
    c.Knows { s with children := s.children.exit pid } := by
  cases c with
  | term p | check p | kill p | wait p => exact ⟨hk.1.exit, hk.2⟩
  | poll p waited => exact ⟨hk.1.exit, hk.2⟩
  | clear => exact ⟨hk.1.exit, hk.2⟩
  | joining =>
    rcases hk with hsettled | hp | ⟨p, q, hsome, hq, hwatches⟩
    · exact .inl hsettled
    · exact .inr (.inl hp)
    · refine .inr (.inr ⟨p, q, ?_, hq, ?_⟩)
      · rw [Table.isSome_exit]
        exact hsome
      · cases q <;> exact hwatches
  | stopped => exact hk
  | _ => trivial

/-- `Start` keeps it. -/
theorem Tidy.start (h : Tidy s) : Tidy s.start := by
  rw [BrokerManager.start]
  split
  · exact h.client_goto (b := s.brokerRunning) (c := .started false) trivial
  · split
    · next hnone =>
      have hpid := h.unborn hnone
      have hwithin : s.children.Within s.brokerPid := by
        refine h.stored (not_launching_of_not_running fun p hp => ?_)
        cases hnone.symm.trans hp
      exact tidy_of_running rfl (fun _ => hwithin) ⟨hpid, hpid ▸ hwithin⟩ trivial
    · exact h.client_goto (b := s.brokerRunning) (c := .started false) trivial

/-- **Every step keeps it.** -/
theorem Tidy.step (h : Tidy s) (hstep : step s l = some t) : Tidy t := by
  cases l with
  | init ok =>
    rw [MyMqttBrokerManager.step] at hstep
    split at hstep <;> cases hstep
    exact ⟨h.stored, h.unborn, h.phase, h.client⟩
  | start =>
    rw [MyMqttBrokerManager.step] at hstep
    split at hstep <;> cases hstep
    exact h.start
  | stop =>
    rw [MyMqttBrokerManager.step] at hstep
    split at hstep <;> cases hstep
    exact h.client_goto (b := s.brokerRunning) (c := .lowering) trivial
  | client => exact h.client_step hstep
  | manager r =>
    rw [MyMqttBrokerManager.step] at hstep
    split at hstep
    · next p hp => exact h.manager_step hp hstep
    · cases hstep
  | childExit pid =>
    cases hstep
    refine h.stay rfl (.inl rfl) (fun _ h => h.exit) ?_ (fun hnot => (h.stored hnot).exit)
      (h.client.exit pid)
    intro _ p hp
    rw [Table.isSome_exit]
    exact hp

/-! ## Whether a `Stop` comes past its join -/

/-- Each step of a manager thread with no broker brings it nearer to its end. -/
def Phase.rank : Phase → Nat
  | .fork => 0
  | .forked _ => 9
  | .stored => 8
  | .sleeping => 7
  | .head => 6
  | .loading => 5
  | .probing _ => 4
  | .lowering => 3
  | .clearing => 2

/-- How far the manager thread is from its end. -/
def threadRank : Thread Phase → Nat
  | .running p => p.rank
  | .exited => 1
  | .none => 0

/-- **With no broker each step of the manager thread brings it nearer to its end.** -/
theorem Settled.rank (h : Settled s) (hs : Tidy s) {r : Option Nat} {p : Phase}
    (hp : s.brokerManagerThread = .running p) (hstep : s.managerStep r p = some t) :
    threadRank t.brokerManagerThread < p.rank := by
  obtain ⟨hpid, hnot⟩ := h
  unfold managerStep at hstep
  cases p with
  | fork => exact absurd (.inl hp) hnot
  | head =>
    dsimp only at hstep
    split at hstep <;> cases hstep <;> simp [goto, threadRank, Phase.rank]
  | probing q =>
    have hnone := hs.stored hnot
    rw [hpid] at hnone
    have hdead : ¬ q.any s.children.exists? = true := by
      cases q with
      | none => exact Bool.false_ne_true
      | some pid =>
        intro hexists
        cases hnone pid hexists
    dsimp only at hstep
    rw [if_neg hdead] at hstep
    cases hstep
    simp [goto, threadRank, Phase.rank]
  | _ => cases hstep; simp [goto, threadRank, Phase.rank]

/-- A `Stop` that joins a manager thread with no broker. -/
structure Joins (s : BrokerManager) : Prop where
  tidy : Tidy s
  settled : Settled s
  client : s.client = .joining

/-- A manager thread that has not ended runs. -/
theorem running_of_not_ended (h : ¬ Ended s) : ∃ p, s.brokerManagerThread = .running p := by
  by_contra hnot
  rw [not_exists] at hnot
  exact h hnot

/-- **One step** of the two, of which only the manager thread can take one. -/
theorem Joins.step (h : Joins s) (hrunning : ¬ Ended s) (hstep : step s l = some t) :
    Joins t ∧ threadRank t.brokerManagerThread ≤ threadRank s.brokerManagerThread ∧
      (isManager l → threadRank t.brokerManagerThread < threadRank s.brokerManagerThread) := by
  obtain ⟨p, hp⟩ := running_of_not_ended hrunning
  have htidy := h.tidy.step hstep
  have hout : s.client.out = false := by
    rw [h.client]
    rfl
  cases l with
  | init ok =>
    rw [MyMqttBrokerManager.step, if_neg (by rw [hout]; exact Bool.false_ne_true)] at hstep
    cases hstep
  | start =>
    rw [MyMqttBrokerManager.step, if_neg (by rw [hout]; exact Bool.false_ne_true)] at hstep
    cases hstep
  | stop =>
    rw [MyMqttBrokerManager.step, if_neg (by rw [hout]; exact Bool.false_ne_true)] at hstep
    cases hstep
  | client =>
    rw [MyMqttBrokerManager.step, h.client, clientStep, hp] at hstep
    cases hstep
  | manager r =>
    rw [MyMqttBrokerManager.step, hp] at hstep
    have hlt := h.settled.rank h.tidy hp hstep
    rw [hp]
    exact ⟨⟨htidy, h.settled.manager_step hp hstep, (client_managerStep hstep).trans h.client⟩,
      Nat.le_of_lt hlt, fun _ => hlt⟩
  | childExit pid =>
    cases hstep
    refine ⟨⟨htidy, h.settled, h.client⟩, Nat.le_refl _, ?_⟩
    rintro ⟨r, hr⟩
    cases hr

/-- A `Stop` that joins a manager thread with no broker passes. -/
theorem passes_of_joins (h : Joins s) : Passes s := by
  intro e h0 hfair
  by_contra hnever
  rw [not_exists] at hnever
  have hjoins : ∀ i, Joins (e.state i) := by
    intro i
    induction i with
    | zero => exact h0.symm ▸ h
    | succ i ih => exact (ih.step (hnever i) (e.next i)).1
  have hstep := fun i => (hjoins i).step (hnever i) (e.next i)
  obtain ⟨i, hi⟩ := Execution.eventually
    (fun i => threadRank (e.state i).brokerManagerThread) (fun i _ => (hstep i).2.1)
    (fun i _ hmine => (hstep i).2.2 hmine) hfair
  exact hnever i hi

/-- A `Stop` that joins a manager thread which watches a broker, or may come to. -/
def Stuck (s : BrokerManager) : Prop :=
  (s.brokerManagerThread = .running .fork ∧ s.children 0 = none) ∨ Lost s

/-- The launch succeeds, and then the manager thread goes on. -/
def stuckLabel (s : BrokerManager) : Label :=
  if s.brokerManagerThread = .running .fork then .manager (some 0) else .manager none

/-- The manager thread can go on wherever it stands, but at a `fork` that has no answer. -/
theorem managerStep_isSome {r : Option Nat} {p : Phase} (hp : p ≠ .fork) :
    ∃ t, s.managerStep r p = some t := by
  cases p with
  | fork => exact absurd rfl hp
  | _ => exact ⟨_, rfl⟩

/-- A `Stop` that is stuck stays so over a next step. -/
theorem Stuck.next (h : Stuck s) : ∃ t, step s (stuckLabel s) = some t ∧ Stuck t := by
  rcases h with ⟨hp, hfree⟩ | hlost
  · have hexists : ¬ s.children.exists? 0 = true := by
      rw [Table.exists?, hfree]
      exact Bool.false_ne_true
    have hstep : s.managerStep (some 0) .fork =
        some { s.goto (.forked (some 0)) with children := s.children.fork 0 } := if_neg hexists
    refine ⟨{ s.goto (.forked (some 0)) with children := s.children.fork 0 }, ?_,
      .inr ⟨0, .forked (some 0), ?_, rfl, rfl⟩⟩
    · rw [stuckLabel, if_pos hp, MyMqttBrokerManager.step, hp]
      exact hstep
    · have hborn : (s.children.fork 0 0).isSome = true := Table.isSome_fork
      exact hborn
  · obtain ⟨pid, p, hsome, hp, hwatches⟩ := hlost
    have hne : p ≠ .fork := by
      rintro rfl
      exact hwatches
    obtain ⟨t, hstep⟩ := managerStep_isSome (s := s) (r := none) hne
    refine ⟨t, ?_, .inr (Lost.manager_step ⟨pid, p, hsome, hp, hwatches⟩ hp hstep)⟩
    have hne' : s.brokerManagerThread ≠ .running .fork := by
      rw [hp]
      exact fun heq => hne (Thread.running.inj heq)
    rw [stuckLabel, if_neg hne', MyMqttBrokerManager.step, hp]
    exact hstep

/-- The manager thread that it joins has not ended. -/
theorem Stuck.not_ended (h : Stuck s) : ¬ Ended s := by
  intro hended
  rcases h with ⟨hp, -⟩ | ⟨pid, p, -, hp, -⟩
  · exact hended _ hp
  · exact hended p hp

/-- **A `Stop` that does not come past its join**: the manager thread goes on for ever. -/
theorem not_passes_of_stuck (h : Stuck s) : ¬ Passes s := by
  intro hpasses
  have hnext : ∀ s, Stuck s → step s (stuckLabel s) = some ((step s (stuckLabel s)).getD s) ∧
      Stuck ((step s (stuckLabel s)).getD s) := by
    intro s h
    obtain ⟨t, hstep, ht⟩ := h.next
    rw [hstep]
    exact ⟨rfl, ht⟩
  obtain ⟨i, hi⟩ := hpasses (Execution.iterate hnext h) rfl fun i => by
    refine ⟨i, Nat.le_refl i, .inl ?_⟩
    change isManager (stuckLabel _)
    rw [stuckLabel]
    split
    · exact ⟨some 0, rfl⟩
    · exact ⟨none, rfl⟩
  exact (Execution.rec_inv hnext h i).not_ended hi

/-! ## The promises -/

/-- A careful run does not lead a `Stop` to a manager thread that watches a broker. -/
def Timely (s : BrokerManager) : Prop := s.client = .joining → Settled s

/-- **Every step keeps it**, where no `Stop` reads too early. -/
theorem Timely.step (hs : Tidy s) (h : Timely s) (hread : l = .client → s.client = .reading →
    ¬ Launching s) (hstep : MyMqttBrokerManager.step s l = some t) : Timely t := by
  intro hjoining
  cases l with
  | init ok =>
    rw [MyMqttBrokerManager.step] at hstep
    split at hstep <;> cases hstep
    exact h hjoining
  | start =>
    rw [MyMqttBrokerManager.step] at hstep
    split at hstep <;> cases hstep
    rw [BrokerManager.start] at hjoining
    repeat' split at hjoining
    all_goals cases hjoining
  | stop =>
    rw [MyMqttBrokerManager.step] at hstep
    split at hstep <;> cases hstep
    cases hjoining
  | client =>
    rw [MyMqttBrokerManager.step] at hstep
    have hk := hs.client
    unfold clientStep at hstep
    cases hc : s.client <;> rw [hc] at hk hstep <;> dsimp only at hstep
    case reading =>
      cases hpid : s.brokerPid <;> rw [hpid] at hstep <;> cases hstep
      · exact ⟨rfl, hread rfl hc⟩
      · cases hjoining
    case clear =>
      cases hstep
      exact ⟨rfl, hk.2⟩
    all_goals
      repeat' split at hstep
      all_goals cases hstep
      all_goals cases hjoining
  | manager r =>
    rw [MyMqttBrokerManager.step] at hstep
    split at hstep
    · next p hp =>
      rw [client_managerStep hstep] at hjoining
      exact (h hjoining).manager_step hp hstep
    · cases hstep
  | childExit pid =>
    cases hstep
    exact h hjoining

/-- A health check that finds an exited broker goes back to sleep. -/
theorem not_notices {r : Option Nat} {pid : Nat}
    (hp : s.brokerManagerThread = .running (.probing (some pid)))
    (hexited : s.children.waitpid pid = .exited) (hstep : step s (.manager r) = some t) :
    t.brokerManagerThread = .running .sleeping := by
  obtain ⟨c, hc, -⟩ := Table.waitpid_exited_iff.1 hexited
  have hexists : s.children.exists? pid = true := by
    rw [Table.exists?, hc]
    rfl
  rw [MyMqttBrokerManager.step, hp] at hstep
  dsimp only [managerStep, Option.any] at hstep
  rw [if_pos hexists] at hstep
  cases hstep
  rfl

/-- `Start` launches a broker where the manager thread is none. -/
theorem relaunches (hconfig : s.configInitialized = true) (hended : Ended s)
    (hjoined : s.brokerManagerThread ≠ .exited) (hstep : step s .start = some t) :
    t.brokerManagerThread = .running .fork := by
  rw [MyMqttBrokerManager.step] at hstep
  split at hstep <;> cases hstep
  rw [BrokerManager.start, if_neg (not_not.2 hconfig)]
  cases hthread : s.brokerManagerThread with
  | none => rfl
  | running p => exact absurd hthread (hended p)
  | exited => exact absurd hthread hjoined

/-- `Start` launches nothing where the manager thread has not been joined. -/
theorem not_relaunches (hexited : s.brokerManagerThread = .exited)
    (hstep : step s .start = some t) : t.brokerManagerThread = .exited := by
  rw [MyMqttBrokerManager.step] at hstep
  split at hstep <;> cases hstep
  rw [BrokerManager.start, hexited]
  split <;> rfl

/-- A `Stop` that has read `broker_pid_` too early does not come past its join. -/
theorem not_passes_of_read (hs : Tidy s) (hread : s.client = .reading) (hl : Launching s)
    (hstep : step s .client = some t) : t.client = .joining ∧ ¬ Passes t := by
  have hpid := hs.pid_of_launching hl
  rw [MyMqttBrokerManager.step, hread, clientStep, hpid] at hstep
  cases hstep
  refine ⟨rfl, not_passes_of_stuck ?_⟩
  rcases hl with hp | ⟨pid, hp⟩
  · exact .inl ⟨hp, Table.within_none_iff.1 (hs.phase _ hp).2 0⟩
  · exact .inr ⟨pid, _, (hs.phase _ hp).2.2 pid rfl, hp, rfl⟩

/-- Every run is tidy. -/
theorem tidy_of_run {ls : List Label} (hrun : run step {} ls = some s) : Tidy s :=
  run_invariant (fun _ _ _ h hstep => h.step hstep) Tidy.initial hrun

/-- **The manager keeps track of its broker, exactly** in the runs whose steps are all careful. -/
theorem tracks_iff {ls : List Label} (hrun : run step {} ls = some s) :
    Tracks ls ↔ Along step Careful {} ls := by
  constructor
  · rintro ⟨hpasses, -, hnotices, hrelaunches⟩
    rw [along_iff] at hnotices hrelaunches ⊢
    intro pre l post hls m hm
    obtain ⟨t, hstep, -⟩ := step_of_run hrun hls hm
    refine ⟨?_, ?_, ?_⟩
    · rintro rfl hread hl
      obtain ⟨hjoining, hnot⟩ := not_passes_of_read (tidy_of_run hm) hread hl hstep
      refine hnot (hpasses (pre ++ [.client]) post t ?_ (run_concat.2 ⟨m, hm, hstep⟩) hjoining)
      rw [hls, List.append_assoc, List.singleton_append]
    · rintro r pid rfl hp hexited
      have hnotice := hnotices pre _ post hls m hm t hstep r pid rfl hp hexited
      cases (not_notices hp hexited hstep).symm.trans hnotice
    · rintro rfl hconfig hexited
      have hended : Ended m := by
        intro p hp
        cases hexited.symm.trans hp
      have hrelaunch := hrelaunches pre _ post hls m hm t hstep rfl hconfig hended
      cases (not_relaunches hexited hstep).symm.trans hrelaunch
  · intro hcareful
    refine ⟨?_, ?_, ?_, ?_⟩
    · intro pre post m hls hm hjoining
      have hpre : Along step Careful {} pre := along_append_left (hls ▸ hcareful)
      have htimely : Tidy m ∧ Timely m := run_along (P := fun s => Tidy s ∧ Timely s)
        (fun _ _ _ hC hP hstep => ⟨hP.1.step hstep, hP.2.step hP.1 hC.read hstep⟩)
        ⟨Tidy.initial, by rintro ⟨⟩⟩ hpre hm
      exact passes_of_joins ⟨htimely.1, htimely.2 hjoining, hjoining⟩
    · intro pre post m hls hm hstopped
      have htidy := tidy_of_run hm
      have hnone := htidy.client
      rw [hstopped] at hnone
      have hwithin := htidy.stored (not_launching_of_not_running fun p hp => by
        cases hp.symm.trans hnone)
      rw [htidy.unborn hnone] at hwithin
      exact Table.within_none_iff.1 hwithin
    · refine along_imp (P := fun _ => True) (fun _ _ _ _ _ _ => trivial) ?_ trivial hcareful
      rintro m l hC - t hstep r pid hl hp hexited
      exact absurd hexited (hC.live r pid hl hp)
    · refine along_imp (P := fun _ => True) (fun _ _ _ _ _ _ => trivial) ?_ trivial hcareful
      rintro m l hC - t hstep rfl hconfig hended
      exact relaunches hconfig hended (hC.joined rfl hconfig) hstep

/-! ## Runs -/

/-- `Careful`, computed. -/
def isCareful (s : BrokerManager) : Label → Bool
  | .client =>
    match s.brokerManagerThread with
    | .running .fork | .running (.forked (some _)) => s.client ≠ .reading
    | _ => true
  | .manager _ =>
    match s.brokerManagerThread with
    | .running (.probing (some pid)) => s.children.waitpid pid ≠ .exited
    | _ => true
  | .start => !s.configInitialized || s.brokerManagerThread ≠ .exited
  | .init _ | .stop | .childExit _ => true

/-- What is computed is enough. -/
theorem careful_of_isCareful (h : isCareful s l = true) : Careful s l where
  read := by
    rintro rfl hread (hp | ⟨pid, hp⟩)
    · rw [isCareful, hp] at h
      exact of_decide_eq_true h hread
    · rw [isCareful, hp] at h
      exact of_decide_eq_true h hread
  live := by
    rintro r pid rfl hp
    rw [isCareful, hp] at h
    exact of_decide_eq_true h
  joined := by
    rintro rfl hconfig
    rw [isCareful, hconfig] at h
    exact of_decide_eq_true h

/-- A broker is launched, found alive, and stopped. -/
def launchedAndStopped : List Label :=
  [.init true, .start, .manager (some 7), .manager none, .manager none, .manager none,
    .manager none, .manager none, .stop, .client, .client, .client, .childExit 7, .client, .client,
    .client, .client, .client, .client, .client, .client, .client, .client, .manager none,
    .manager none, .client]

/-- A broker that is launched, found alive and stopped has been kept track of. -/
theorem tracks_launchedAndStopped :
    ∃ s, run step {} launchedAndStopped = some s ∧ s.client = .stopped ∧
      Tracks launchedAndStopped := by
  have hend : (run step {} launchedAndStopped).map (fun s => s.client) = some .stopped := by decide
  obtain ⟨s, hs, hstopped⟩ := Option.map_eq_some_iff.1 hend
  refine ⟨s, hs, hstopped, (tracks_iff hs).2 ?_⟩
  exact along_imp (C := fun s l => isCareful s l = true) (P := fun _ => True)
    (fun _ _ _ _ _ _ => trivial) (fun _ _ hC _ => careful_of_isCareful hC) trivial (by decide)

/-- `Stop` comes between the `fork` and the store. -/
def earlyStop : List Label :=
  [.init true, .start, .manager (some 7), .stop, .client, .client]

/-- The broker exits, and the next health check finds it alive. -/
def unnoticed : List Label :=
  [.init true, .start, .manager (some 7), .manager none, .manager none, .childExit 7,
    .manager none, .manager none, .manager none]

/-- The `fork` fails, the health check ends, and `Start` is refused. -/
def refused : List Label :=
  [.init true, .start, .manager none, .manager none, .manager none, .manager none, .manager none,
    .manager none, .manager none, .manager none, .start]

/-- **Three runs** in which the manager has lost track: of a `Stop` that does not come past its
join, of a broker that has exited, and of a health check that has ended. -/
theorem not_tracks :
    (∃ s, run step {} earlyStop = some s ∧ s.client = .joining ∧ ¬ Passes s) ∧
    (∃ s, run step {} unnoticed = some s ∧ s.brokerManagerThread = .running .sleeping ∧
      s.children.waitpid 7 = .exited) ∧
    (∃ s, run step {} refused = some s ∧ s.client = .started false ∧
      s.brokerManagerThread = .exited ∧ s.configInitialized = true) ∧
    ¬ ∀ ls, Tracks ls := by
  have hearly : (run step {} earlyStop).map (fun s =>
      (s.client, s.brokerManagerThread, (s.children 7).isSome)) =
        some (.joining, .running (.forked (some 7)), true) := by decide
  have hunnoticed : (run step {} unnoticed).map (fun s =>
      (s.brokerManagerThread, s.children.waitpid 7)) = some (.running .sleeping, .exited) := by
    decide
  have hrefused : (run step {} refused).map (fun s =>
      (s.client, s.brokerManagerThread, s.configInitialized)) =
        some (.started false, .exited, true) := by decide
  obtain ⟨s, hs, hstuck⟩ := Option.map_eq_some_iff.1 hearly
  obtain ⟨m, hm, hnotice⟩ := Option.map_eq_some_iff.1 hunnoticed
  obtain ⟨u, hu, hrefuse⟩ := Option.map_eq_some_iff.1 hrefused
  rw [Prod.mk.injEq, Prod.mk.injEq] at hstuck hrefuse
  rw [Prod.mk.injEq] at hnotice
  have hnot : ¬ Passes s :=
    not_passes_of_stuck (.inr ⟨7, .forked (some 7), hstuck.2.2, hstuck.2.1, rfl⟩)
  refine ⟨⟨s, hs, hstuck.1, hnot⟩, ⟨m, hm, hnotice⟩, ⟨u, hu, hrefuse⟩, fun hall => hnot ?_⟩
  exact (hall earlyStop).passes earlyStop [] s (List.append_nil _).symm hs hstuck.1

end MyMqttBrokerManager
