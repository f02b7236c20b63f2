import FastCppServer.PodStream.PodStreamManager

/-!
# The child of the pod stream manager

The child is managed by the worker thread while there is one, and by `Stop` after it has been
joined. Between `fork` and the store of its pid, and between the `waitpid` that reaps it and the
store of `-1`, `mediamtx_pid_` lags behind the process table; at every other point the two agree
(`Owns`). What a function does to them is one lemma for each, and the same for both threads.

`StopMediaMtx` always sends `SIGKILL` before it polls, since a child that has exited and has not
been reaped still counts as alive. So the polling reaps it, if a killed child has exited before the
last poll (`Posix`).
-/

namespace PodStream

open Function Manager Process Transition

/-! ## What is promised -/

/-- The store to `mediamtx_pid_` that a thread has still to make. -/
inductive Pending where
  | settled
  | forked (pid : Nat)
  | reaped
  deriving DecidableEq

/-- The store that `ReapChildIfNeeded` has still to make: it clears the pid. -/
def Reap.pending : Reap → Pending
  | .wait => .settled
  | .clear => .reaped

/-- The store that `StartMediaMtx` has still to make: the pid that `fork` gave. -/
def Launch.pending : Launch → Pending
  | .forked pid => .forked pid
  | .reap r => r.pending
  | .enter | .settling => .settled

/-- The store that `StopMediaMtx` has still to make: it clears the pid. -/
def Halt.pending : Halt → Pending
  | .clear => .reaped
  | .reap r => r.pending
  | .enter _ | .signal _ | .grace _ | .poll _ => .settled

/-- The store that the worker has still to make. -/
def Worker.pending : Worker → Pending
  | .reaping r | .finishing r => r.pending
  | .starting l => l.pending
  | .disconnecting h => h.pending
  | .loop | .switch _ | .backingOff _ | .preparing | .sleeping => .settled

/-- The store that `Stop` has still to make. -/
def Client.pending : Client → Pending
  | .halting h | .killing h => h.pending
  | .reaping r => r.pending
  | .returned _ | .joiningMonitor | .joiningWorker | .checking | .checkingAgain
  | .finishing => .settled

namespace Manager

/-- That of the worker while it runs, and then that of `Stop`. -/
def pending (s : Manager) : Pending :=
  match s.workerTh with
  | .running p => p.pending
  | _ => s.client.pending

/-- The child that has not been reaped is the one whose pid is stored, up to the store that is
pending. -/
def Owns (s : Manager) : Pending → Prop
  | .settled => ∀ p, s.mediamtxPid = some p ↔ (s.children p).isSome = true
  | .forked pid => s.mediamtxPid = none ∧ ∀ p, (s.children p).isSome = true ↔ p = pid
  | .reaped => ∀ p, s.children p = none

/-- There is at most one child, it is known by its pid, and there is none when `Stop` has
returned. -/
structure OwnsChild (s : Manager) : Prop where
  one : ∀ p q, s.children.runs p = true → s.children.runs q = true → p = q
  owns : s.Owns s.pending
  stopped : s.client = .returned true → ∀ p, s.children p = none

/-- If the child whose pid is stored has been sent `SIGKILL`, it has exited. -/
def killedIsDead (s : Manager) : Bool :=
  (s.mediamtxPid.bind s.children).all fun c => !c.killed || c.exited

end Manager

/-- The next `waitpid` of `StopMediaMtx` is the last, if it is not yet over. -/
def Halt.lastPoll : Halt → Bool
  | .poll attempts => 29 ≤ attempts
  | _ => false

/-- Where the worker is in `StopMediaMtx`. -/
def Worker.halt : Worker → Option Halt
  | .disconnecting h => some h
  | _ => none

/-- Where `Stop` is in `StopMediaMtx`. -/
def Client.halt : Client → Option Halt
  | .halting h | .killing h => some h
  | _ => none

/-- `StopMediaMtx` is at its last poll in the worker. -/
def Manager.workerLastPoll (s : Manager) : Bool :=
  match s.workerTh with
  | .running p => p.halt.any Halt.lastPoll
  | _ => false

/-- What POSIX promises: an exited child waits to be reaped, and one that has been sent `SIGKILL`
has exited when the last poll comes. -/
def Posix (s : Manager) : Label → Prop
  | .childVanish _ => False
  | .worker _ => s.workerLastPoll = true → s.killedIsDead = true
  | .client => s.client.halt.any Halt.lastPoll = true → s.killedIsDead = true
  | _ => True

instance (s : Manager) : ∀ l, Decidable (Posix s l)
  | .childVanish _ => isFalse id
  | .worker _ | .client => inferInstanceAs (Decidable (_ → _))
  | .init .. | .start | .stop | .monitor _ | .childExit _ | .tick _ => isTrue trivial

/-! ## The functions -/

variable {s t : Manager}

/-- There is one child at most. -/
theorem Manager.Owns.unique {d : Pending} (h : s.Owns d) {p q : Nat}
    (hp : (s.children p).isSome = true) (hq : (s.children q).isSome = true) : p = q := by
  cases d with
  | settled => exact Option.some.inj (((h p).2 hp).symm.trans ((h q).2 hq))
  | forked pid => exact ((h.2 p).1 hp).trans ((h.2 q).1 hq).symm
  | reaped =>
    rw [h p] at hp
    cases hp

/-- Without a child the stored pid is to be empty. -/
theorem owns_of_none (hpid : s.mediamtxPid = none) (hnone : ∀ p, s.children p = none) :
    s.Owns .settled := by
  intro p
  simp [hpid, hnone]

/-- Without a stored pid there is no child, once all is stored. -/
theorem children_of_settled (h : s.Owns .settled) (hpid : s.mediamtxPid = none) (p : Nat) :
    s.children p = none := by
  by_contra hne
  have hsome := (h p).2 (Option.isSome_iff_ne_none.2 hne)
  rw [hpid] at hsome
  cases hsome

/-- Where pid and table agree, no stored pid means no child alive and the other way round. -/
theorem alive_iff (h : s.Owns .settled) : s.isMediaMtxAlive = true ↔ s.mediamtxPid ≠ none := by
  unfold isMediaMtxAlive
  cases hpid : s.mediamtxPid with
  | none => simp
  | some pid => simpa [Table.exists?] using (h pid).1 hpid

/-- After the child is reaped its pid is to be cleared. -/
theorem owns_free {pid : Nat} (h : s.Owns .settled) (hpid : s.mediamtxPid = some pid) :
    { s with children := s.children.free pid }.Owns .reaped := by
  intro p
  show update s.children pid none p = none
  rcases eq_or_ne p pid with rfl | hne
  · rw [update_self]
  · rw [update_of_ne hne]
    by_contra hsome
    have hp := (h p).2 (Option.isSome_iff_ne_none.2 hsome)
    rw [hpid] at hp
    exact hne (Option.some.inj hp).symm

/-- The store that is pending at the place that a routine goes to. A routine that returns has made
it. -/
def Manager.Flow.pending {α β : Type} (f : α → Pending) : Flow α β → Pending
  | .goto a => f a
  | .ret _ => .settled

/-- A step of `ReapChildIfNeeded` leaves the child known. -/
theorem reapStep_owns {r : Reap} (h : s.Owns r.pending) :
    (s.reapStep r).1.Owns ((s.reapStep r).2.pending Reap.pending) := by
  cases r with
  | wait =>
    simp only [reapStep]
    split
    · exact h
    · next pid hpid =>
      split
      · exact owns_free h hpid
      · exact h
  | clear => exact owns_of_none rfl h

/-- A step of `StartMediaMtx` leaves the child known. -/
theorem launchStep_owns {pid : Option Nat} {l : Launch} {f : Flow Launch Bool}
    (h : s.Owns l.pending) (hs : s.launchStep pid l = some (t, f)) :
    t.Owns (f.pending Launch.pending) := by
  cases l with
  | enter =>
    simp only [launchStep] at hs
    split at hs
    · cases hs
      exact h
    · next hdead =>
      have hpid : s.mediamtxPid = none := by
        by_contra hne
        exact hdead ((alive_iff h).2 hne)
      split at hs
      · cases hs
        exact h
      · next pid =>
        split at hs
        · cases hs
        · cases hs
          refine ⟨hpid, fun p => ?_⟩
          show (update s.children pid (some {}) p).isSome = true ↔ p = pid
          rcases eq_or_ne p pid with rfl | hne
          · simp
          · simp [children_of_settled h hpid, hne]
  | forked pid =>
    cases hs
    intro p
    show some pid = some p ↔ (s.children p).isSome = true
    rw [h.2 p, Option.some.injEq, eq_comm]
  | settling =>
    cases hs
    split <;> exact h
  | reap r =>
    have hr := reapStep_owns (r := r) h
    simp only [launchStep] at hs
    split at hs
    all_goals
      next heq =>
        cases hs
        rw [heq] at hr
        exact hr

/-- The child has been killed, if it has not exited before. -/
def Manager.Doomed (s : Manager) : Prop :=
  ∀ p c, s.children p = some c → c.exited = true ∨ c.killed = true

/-- A signal leaves the child known. -/
theorem kill_owns (h : s.Owns .settled) (sig : Signal) : (s.kill sig).Owns .settled := by
  intro p
  show s.mediamtxPid = some p ↔ _
  rw [h p]
  cases hpid : s.mediamtxPid with
  | none => simp [kill, hpid]
  | some pid => simp [kill, hpid]

/-- After `SIGKILL` the child is doomed. -/
theorem kill_doomed (h : s.Owns .settled) : (s.kill .kill).Doomed := by
  intro p c hc
  have hsome : ((s.kill .kill).children p).isSome = true := by rw [hc]; rfl
  have hpid : s.mediamtxPid = some p := (kill_owns h .kill p).2 hsome
  simp only [kill, hpid, Option.elim, Table.signal, update_self] at hc
  obtain ⟨c', hc', rfl⟩ := Option.map_eq_some_iff.1 hc
  unfold Child.signal
  split
  · next he => exact .inl he
  · exact .inr (by simp)

/-- What is known in `StopMediaMtx`: `ReapChildIfNeeded` is not called from it, and the polling
succeeds. -/
structure Halt.Known (s : Manager) (h : Halt) : Prop where
  owns : s.Owns h.pending
  reap : ∀ r, h ≠ .reap r
  poll : ∀ n, h = .poll n → n ≤ 29 ∧ s.Doomed

/-- At the places of `StopMediaMtx` before the polling nothing more needs to be known. -/
theorem Halt.Known.of_settled {h : Halt} (ho : s.Owns .settled) (hp : h.pending = .settled)
    (hr : ∀ r, h ≠ .reap r) (hn : ∀ n, h ≠ .poll n) : h.Known s :=
  ⟨hp ▸ ho, hr, fun n he => absurd he (hn n)⟩

/-- The polling begins after `SIGKILL`. -/
theorem known_of_kill (h : s.Owns .settled) : (Halt.poll 0).Known (s.kill .kill) :=
  ⟨kill_owns h .kill, nofun, fun n hn => by cases hn; exact ⟨by omega, kill_doomed h⟩⟩

/-- **`StopMediaMtx`.** It goes on, or it returns when the child is gone. -/
theorem haltStep_known {h : Halt} (hk : h.Known s)
    (hposix : h.lastPoll = true → s.killedIsDead = true) :
    (∃ h', (s.haltStep h).2 = .goto h' ∧ h'.Known (s.haltStep h).1) ∨
      (s.haltStep h).2 = .ret () ∧ (s.haltStep h).1.Owns .settled ∧
        (s.haltStep h).1.mediamtxPid = none := by
  cases h with
  | enter forceKill =>
    have ho : s.Owns .settled := hk.owns
    simp only [haltStep]
    split
    · next hpid => exact .inr ⟨rfl, ho, hpid⟩
    · next hpid =>
      rw [if_pos ((alive_iff ho).2 hpid)]
      exact .inl ⟨_, rfl, .of_settled ho rfl (by rintro _ ⟨⟩) (by rintro _ ⟨⟩)⟩
  | signal forceKill =>
    have ho : s.Owns .settled := hk.owns
    simp only [haltStep]
    split
    · exact .inl ⟨_, rfl, known_of_kill ho⟩
    · exact .inl ⟨_, rfl, .of_settled (kill_owns ho _) rfl (by rintro _ ⟨⟩) (by rintro _ ⟨⟩)⟩
  | grace startTime =>
    have ho : s.Owns .settled := hk.owns
    simp only [haltStep]
    split
    · split
      · exact .inl ⟨_, rfl, known_of_kill ho⟩
      · exact .inl ⟨_, rfl, hk⟩
    · next hdead =>
      have hpid : s.mediamtxPid = none := by
        by_contra hne
        exact hdead ((alive_iff ho).2 hne)
      refine .inl ⟨_, rfl, ho, by rintro _ ⟨⟩, fun n hn => ?_⟩
      cases hn
      refine ⟨by omega, fun p c hc => ?_⟩
      rw [children_of_settled ho hpid p] at hc
      cases hc
  | poll attempts =>
    have ho : s.Owns .settled := hk.owns
    obtain ⟨hle, hdoomed⟩ := hk.poll attempts rfl
    simp only [haltStep]
    split
    · next hpid =>
      exact .inl ⟨_, rfl, children_of_settled ho hpid, by rintro _ ⟨⟩, by rintro _ ⟨⟩⟩
    · next pid hpid =>
      rw [if_neg (by omega)]
      obtain ⟨c, hc⟩ := Option.isSome_iff_exists.1 ((ho pid).1 hpid)
      split
      · exact .inl ⟨_, rfl, owns_free ho hpid, by rintro _ ⟨⟩, by rintro _ ⟨⟩⟩
      · next hw =>
        rw [Table.waitpid_error_iff] at hw
        cases hw.symm.trans hc
      · next hw =>
        have hrunning : c.exited = false := by
          cases he : c.exited with
          | false => rfl
          | true => cases hw.symm.trans (Table.waitpid_exited_iff.2 ⟨c, hc, he⟩)
        have hkilled : c.killed = true := by simpa [hrunning] using hdoomed pid c hc
        have hlt : attempts < 29 := by
          by_contra hlast
          have hdead := hposix (by simpa [Halt.lastPoll] using hlast)
          simp [killedIsDead, hpid, hc, hkilled, hrunning] at hdead
        refine .inl ⟨_, rfl, ho, by rintro _ ⟨⟩, fun n hn => ?_⟩
        cases hn
        exact ⟨by omega, hdoomed⟩
  | clear => exact .inr ⟨rfl, owns_of_none rfl hk.owns, rfl⟩
  | reap r => exact absurd rfl (hk.reap r)

/-! ## The threads -/

/-- `Stop` has come past its `StopMediaMtx`. -/
def Client.halted : Client → Bool
  | .checkingAgain | .reaping _ | .finishing => true
  | _ => false

/-- **The child is known in every state**, to the thread that manages it and to the next one. -/
structure Keeps (s : Manager) : Prop where
  ordered : Ordered s
  owns : s.Owns s.pending
  worker : ∀ h, s.workerTh = .running (.disconnecting h) → h.Known s
  client : ∀ h, s.client = .halting h → h.Known s
  halted : s.client.halted = true → s.mediamtxPid = none
  killing : ∀ h, s.client ≠ .killing h
  quiet : s.client.isReturned = true → s.workerTh = .none → s.mediamtxPid = none
  stopped : s.client = .returned true → s.workerTh = .none

/-- What runs is in the table. -/
theorem runs_isSome {t : Table} {p : Nat} (h : t.runs p = true) : (t p).isSome = true := by
  unfold Table.runs at h
  cases hp : t p with
  | none => simp [hp] at h
  | some c => rfl

/-- **The promise.** -/
theorem Keeps.ownsChild (h : Keeps s) : s.OwnsChild where
  one _ _ hp hq := h.owns.unique (runs_isSome hp) (runs_isSome hq)
  owns := h.owns
  stopped hc := by
    have hw := h.stopped hc
    have hr : s.client.isReturned = true := by rw [hc]; rfl
    have ho := h.owns
    rw [pending, hw, hc] at ho
    exact children_of_settled ho (h.quiet hr hw)

/-- A thread that is not in one of the functions has nothing pending. -/
theorem Keeps.settled (h : Keeps s) (hp : s.pending = .settled) : s.Owns .settled := hp ▸ h.owns

/-- A step that touches neither the child nor the worker, between two calls or into a `Stop`. -/
theorem Keeps.call (h : Keeps s) (hr : s.client.isReturned = true) (ht : Ordered t)
    (hchildren : t.children = s.children) (hpid : t.mediamtxPid = s.mediamtxPid)
    (hworker : t.workerTh = s.workerTh)
    (hclient : t.client = .returned false ∨ t.client = .joiningMonitor ∨
      t.client = .returned true ∧ s.workerTh = .none) : Keeps t := by
  have howns (d : Pending) : t.Owns d ↔ s.Owns d := by
    cases d <;> simp only [Owns, hchildren, hpid]
  have hpending : t.pending = s.pending := by
    have hs : s.client.pending = .settled := by
      revert hr
      cases s.client <;> simp [Client.isReturned, Client.pending]
    have ht' : t.client.pending = .settled := by
      rcases hclient with hc | hc | ⟨hc, -⟩ <;> rw [hc] <;> rfl
    simp only [pending, hworker, hs, ht']
  refine ⟨ht, ?_, fun c hc => ?_, fun c hc => ?_, fun hc => ?_, fun c hc => ?_, fun _ hw => ?_,
    fun hc => ?_⟩
  · rw [hpending, howns]
    exact h.owns
  · rw [hworker] at hc
    have hk := h.worker c hc
    exact ⟨(howns _).2 hk.owns, hk.reap, fun n hn => ⟨(hk.poll n hn).1, by
      rw [Doomed, hchildren]
      exact (hk.poll n hn).2⟩⟩
  · rcases hclient with h' | h' | ⟨h', -⟩ <;> cases h'.symm.trans hc
  · rcases hclient with h' | h' | ⟨h', -⟩ <;> rw [h'] at hc <;> cases hc
  · rcases hclient with h' | h' | ⟨h', -⟩ <;> cases h'.symm.trans hc
  · rw [hpid]
    exact h.quiet hr (hworker ▸ hw)
  · rw [hworker]
    rcases hclient with h' | h' | ⟨-, hw⟩
    · cases h'.symm.trans hc
    · cases h'.symm.trans hc
    · exact hw

/-- `Init` stores no pid. -/
theorem Keeps.init (h : Keeps s) (hr : s.client.isReturned = true) (config : PodConfig)
    (executable writable : Bool)
    (ht : Ordered { s.init config executable writable with client := .returned false }) :
    Keeps { s.init config executable writable with client := .returned false } := by
  cases hi : s.inited with
  | true =>
    rw [init_of_inited hi] at ht ⊢
    exact h.call hr ht rfl rfl rfl (.inl rfl)
  | false =>
    obtain ⟨_, _, _, heq, -⟩ := init_eq hi config executable writable
    rw [heq] at ht ⊢
    exact h.call hr ht rfl rfl rfl (.inl rfl)

/-- `Start` begins with no child. -/
theorem Keeps.start (h : Keeps s) (hr : s.client.isReturned = true)
    (ht : Ordered { s.start with client := .returned false }) :
    Keeps { s.start with client := .returned false } := by
  rcases start_eq s with heq | ⟨⟨-, -, -, hnone⟩, heq⟩
  · rw [heq] at ht ⊢
    exact h.call hr ht rfl rfl rfl (.inl rfl)
  · -- nobody has managed a child before the first step of the worker
    have ho : s.Owns .settled := by
      refine h.settled ?_
      rw [pending, hnone]
      revert hr
      cases s.client <;> simp [Client.isReturned, Client.pending]
    rw [heq] at ht ⊢
    exact ⟨ht, ho, nofun, nofun, nofun, nofun, nofun, nofun⟩

/-! ### The worker -/

/-- The store that is pending in the worker, if it runs. -/
def workerPending : Thread Worker → Pending
  | .running p => p.pending
  | _ => .settled

/-- What the worker does to the child. -/
structure Handles (s : Manager) : Prop where
  live : s.workerTh ≠ .none
  owns : s.Owns (workerPending s.workerTh)
  halt : ∀ h, s.workerTh = .running (.disconnecting h) → h.Known s

/-- At a place where nothing is pending the child is known by its pid. -/
theorem Handles.of_settled {p : Worker} (ho : t.Owns .settled) (hp : t.workerTh = .running p)
    (hpending : p.pending = .settled) (hh : ∀ h, p = .disconnecting h → ∃ b, h = .enter b) :
    Handles t where
  live := by
    rw [hp]
    nofun
  owns := by
    rw [hp, workerPending, hpending]
    exact ho
  halt h hw := by
    obtain ⟨b, rfl⟩ := hh h (by cases hp.symm.trans hw; rfl)
    exact .of_settled ho rfl nofun nofun

/-- The choice of the next state leaves the child known. -/
theorem switchStep_handles (childExited : Bool) (ho : s.Owns .settled) :
    Handles (s.switchStep childExited) := by
  have hsame : (s.switchStep childExited).children = s.children ∧
      (s.switchStep childExited).mediamtxPid = s.mediamtxPid := by
    simp only [switchStep]
    repeat' split
    all_goals exact ⟨rfl, rfl⟩
  have ho' : (s.switchStep childExited).Owns .settled := by
    simp only [Owns, hsame]
    exact ho
  have hnext : ∃ p, (s.switchStep childExited).workerTh = .running p ∧ p.pending = .settled ∧
      ∀ h, p = .disconnecting h → ∃ b, h = .enter b := by
    simp only [switchStep]
    repeat' split
    all_goals
      refine ⟨_, rfl, rfl, ?_⟩
      intro h hh
      cases hh
    exact ⟨false, rfl⟩
  obtain ⟨p, hp, hpending, hh⟩ := hnext
  exact .of_settled ho' hp hpending hh

/-- **A step of the worker leaves the child known.** -/
theorem workerStep_handles {r : Option Nat} {p : Worker} (ho : s.Owns p.pending)
    (hk : ∀ h, p = .disconnecting h → h.Known s)
    (hposix : p.halt.any Halt.lastPoll = true → s.killedIsDead = true)
    (hs : s.workerStep r p = some t) : Handles t := by
  cases p with
  | loop =>
    cases hs
    cases hq : s.quit with
    | true => exact ⟨by simp, ho, by simp⟩
    | false => exact .of_settled (p := .reaping .wait) ho rfl rfl (by rintro _ ⟨⟩)
  | sleeping =>
    cases hs
    exact .of_settled ho rfl rfl (by rintro _ ⟨⟩)
  | reaping p | finishing p =>
    have hr := reapStep_owns (r := p) ho
    simp only [workerStep] at hs
    split at hs <;> next heq =>
      cases hs
      rw [heq] at hr
      exact ⟨by rintro ⟨⟩, hr, by rintro _ ⟨⟩⟩
  | switch childExited =>
    cases hs
    exact switchStep_handles childExited ho
  | backingOff until_ =>
    simp only [workerStep] at hs
    split at hs <;> cases hs
    refine .of_settled ho rfl ?_ ?_ <;> split <;> first | rfl | rintro _ ⟨⟩
  | preparing =>
    simp only [workerStep] at hs
    split at hs <;> cases hs <;> exact .of_settled ho rfl rfl (by rintro _ ⟨⟩)
  | starting l =>
    simp only [workerStep] at hs
    split at hs
    · cases hs
    all_goals
      next heq =>
        have hl := launchStep_owns ho heq
        cases hs
        exact ⟨by rintro ⟨⟩, hl, by rintro _ ⟨⟩⟩
  | disconnecting h =>
    have hh := haltStep_known (hk h rfl) hposix
    simp only [workerStep] at hs
    split at hs
    · next heq =>
      rw [heq] at hh
      cases hs
      obtain ⟨h', hgoto, hknown⟩ | ⟨hret, -⟩ := hh
      · cases hgoto
        exact ⟨by rintro ⟨⟩, hknown.owns, fun h hw => by cases hw; exact { hknown with }⟩
      · cases hret
    · next heq =>
      rw [heq] at hh
      cases hs
      obtain ⟨h', hgoto, -⟩ | ⟨-, ho, -⟩ := hh
      · cases hgoto
      · exact .of_settled ho rfl rfl (by rintro _ ⟨⟩)

/-- While there is a worker, `Stop` has not come to the child. -/
theorem Ordered.joined_of_worker (h : Ordered s) (hw : s.workerTh ≠ .none) :
    s.client.joined = false := by
  cases hj : s.client.joined with
  | false => rfl
  | true => exact absurd (h.joined hj) hw

/-- Until it has joined the worker `Stop` does nothing to the child. -/
theorem Client.settled_of_joined {c : Client} (h : c.joined = false) :
    c.pending = .settled ∧ c.halted = false ∧ (∀ h, c ≠ .halting h) ∧ ∀ h, c ≠ .killing h := by
  cases c with
  | returned stopped | joiningMonitor | joiningWorker => exact ⟨rfl, rfl, nofun, nofun⟩
  | checking | halting | checkingAgain | killing | reaping | finishing => cases h

/-- What the worker leaves known is known, while `Stop` has not joined it. -/
theorem Handles.keeps (h : Handles t) (ht : Ordered t)
    (hstopped : t.client = .returned true → t.workerTh = .none) : Keeps t := by
  obtain ⟨hpending, hhalted, hhalting, hkilling⟩ :=
    Client.settled_of_joined (ht.joined_of_worker h.live)
  refine ⟨ht, ?_, h.halt, fun c hc => absurd hc (hhalting c), fun hc => ?_, hkilling,
    fun _ hw => ?_, hstopped⟩
  · have ho := h.owns
    unfold pending
    unfold workerPending at ho
    split
    · next hp =>
      rw [hp] at ho
      exact ho
    · next hno =>
      rw [hpending]
      split at ho
      · next p hp => exact absurd hp (hno p)
      · exact ho
  · rw [hhalted] at hc
    cases hc
  · exact absurd hw h.live

/-- A step of the worker keeps it. -/
theorem Keeps.worker_step (h : Keeps s) {p : Worker} (hp : s.workerTh = .running p)
    {r : Option Nat} (hposix : Posix s (.worker r)) (hs : s.workerStep r p = some t)
    (ht : Ordered t) : Keeps t := by
  have ho : s.Owns p.pending := by
    have ho := h.owns
    rwa [pending, hp] at ho
  have hlast : p.halt.any Halt.lastPoll = true → s.killedIsDead = true := by
    intro hl
    refine hposix ?_
    rw [workerLastPoll, hp]
    exact hl
  have hh := workerStep_handles ho (fun c hc => h.worker c (by rw [hp, hc])) hlast hs
  refine hh.keeps ht fun hc => ?_
  rw [(workerStep_works hs).client] at hc
  have hnone := h.stopped hc
  rw [hp] at hnone
  cases hnone

/-! ### The rest of `Stop` -/

/-- `ReapChildIfNeeded` stores no pid. -/
theorem reapStep_none (hpid : s.mediamtxPid = none) (r : Reap) :
    (s.reapStep r).1.mediamtxPid = none := by
  cases r with
  | wait => simp [reapStep, hpid]
  | clear => rfl

/-- After the worker has been joined the child is a matter of `Stop` alone. -/
theorem keeps_of_joined (ht : Ordered t) (hw : t.workerTh = .none)
    (ho : t.Owns t.client.pending) (hhalting : ∀ h, t.client = .halting h → h.Known t)
    (hhalted : t.client.halted = true → t.mediamtxPid = none)
    (hkilling : ∀ h, t.client ≠ .killing h)
    (hquiet : t.client.isReturned = true → t.mediamtxPid = none) : Keeps t := by
  refine ⟨ht, ?_, fun h hp => ?_, hhalting, hhalted, hkilling, fun hr _ => hquiet hr,
    fun _ => hw⟩
  · rw [pending, hw]
    exact ho
  · cases hw.symm.trans hp

/-- Past its `StopMediaMtx` there is no child. -/
theorem keeps_of_gone (ht : Ordered t) (hw : t.workerTh = .none) (ho : t.Owns t.client.pending)
    (hhalt : t.client.halt = none) (hpid : t.mediamtxPid = none) : Keeps t := by
  refine keeps_of_joined ht hw ho (fun h hc => ?_) (fun _ => hpid) (fun h hc => ?_) fun _ => hpid
  · rw [hc] at hhalt
    cases hhalt
  · rw [hc] at hhalt
    cases hhalt

/-- In its `StopMediaMtx`. -/
theorem keeps_of_halting {c : Halt} (ht : Ordered t) (hw : t.workerTh = .none)
    (hc : t.client = .halting c) (hk : c.Known t) : Keeps t := by
  refine keeps_of_joined ht hw ?_ (fun h hh => ?_) ?_ ?_ ?_
  · rw [hc]
    exact hk.owns
  · cases hc.symm.trans hh
    exact hk
  all_goals
    rw [hc]
    simp [Client.halted, Client.isReturned]

/-- Once the worker is joined, what is pending is the caller's. -/
theorem Keeps.joined (h : Keeps s) {c : Client} (hc : s.client = c) (hw : s.workerTh = .none) :
    s.Owns c.pending := by
  have ho := h.owns
  rwa [pending, hw, hc] at ho

/-- `Stop` joins the monitor thread. -/
theorem Keeps.joiningMonitor (h : Keeps s) (hc : s.client = .joiningMonitor)
    (hs : s.clientStep .joiningMonitor = some t) (ht : Ordered t) : Keeps t := by
  have hpend := h.owns
  rw [pending, hc] at hpend
  simp only [clientStep] at hs
  split at hs <;> cases hs
  refine ⟨ht, ?_, fun c hc => ?_, by rintro _ ⟨⟩, by rintro ⟨⟩, by rintro _ ⟨⟩, by rintro ⟨⟩,
    by rintro ⟨⟩⟩
  · rw [pending]
    exact hpend
  · exact { h.worker c hc with }

/-- `Stop` joins the worker. -/
theorem Keeps.joiningWorker (h : Keeps s) (hc : s.client = .joiningWorker)
    (hs : s.clientStep .joiningWorker = some t) (ht : Ordered t) : Keeps t := by
  have hpend := h.owns
  rw [pending, hc] at hpend
  simp only [clientStep] at hs
  split at hs
  · cases hs
  · next hnot =>
    cases hs
    refine keeps_of_joined ht rfl ?_ (by rintro _ ⟨⟩) (by rintro ⟨⟩) (by rintro _ ⟨⟩)
      (by rintro ⟨⟩)
    split at hpend
    · next p hp => exact absurd hp (hnot p)
    · exact hpend

/-- `Stop` looks whether the child is alive: without a pid there is none. -/
theorem Keeps.checking (h : Keeps s) (hc : s.client = .checking) (hw : s.workerTh = .none)
    (hs : s.clientStep .checking = some t) (ht : Ordered t) : Keeps t := by
  have ho : s.Owns .settled := h.joined hc hw
  rcases Bool.eq_false_or_eq_true s.isMediaMtxAlive with ha | ha
  · simp only [clientStep, ha, if_true] at hs
    cases hs
    exact keeps_of_halting ht hw rfl
      (.of_settled ho rfl (by rintro _ ⟨⟩) (by rintro _ ⟨⟩))
  · have hpid : s.mediamtxPid = none := by
      by_contra hne
      cases ha.symm.trans ((alive_iff ho).2 hne)
    simp only [clientStep, ha, Bool.false_eq_true, if_false] at hs
    cases hs
    exact keeps_of_gone ht hw ho rfl hpid

/-- `Stop` asks the child to end, and waits for it. -/
theorem Keeps.halting (h : Keeps s) {c : Halt} (hc : s.client = .halting c)
    (hw : s.workerTh = .none) (hposix : c.lastPoll = true → s.killedIsDead = true)
    (hs : s.clientStep (.halting c) = some t) (ht : Ordered t) : Keeps t := by
  have hh := haltStep_known (h.client c hc) hposix
  simp only [clientStep] at hs
  split at hs
  · next heq =>
    rw [heq] at hh
    cases hs
    obtain ⟨h', hgoto, hknown⟩ | ⟨hret, -⟩ := hh
    · cases hgoto
      obtain ⟨_, _, hm⟩ := haltStep_manages (s := s) c
      rw [heq] at hm
      cases hm
      exact keeps_of_halting ht hw rfl { hknown with }
    · cases hret
  · next heq =>
    rw [heq] at hh
    cases hs
    obtain ⟨h', hgoto, -⟩ | ⟨-, ho, hpid⟩ := hh
    · cases hgoto
    · obtain ⟨_, _, hm⟩ := haltStep_manages (s := s) c
      rw [heq] at hm
      cases hm
      exact keeps_of_gone ht hw ho rfl hpid

/-- `Stop` reaps what is left. -/
theorem Keeps.reaping (h : Keeps s) {r : Reap} (hc : s.client = .reaping r)
    (hw : s.workerTh = .none) (hnone : s.mediamtxPid = none)
    (hs : s.clientStep (.reaping r) = some t) (ht : Ordered t) : Keeps t := by
  have hr := reapStep_owns (r := r) (h.joined hc hw)
  have hpid := reapStep_none hnone r
  obtain ⟨_, _, hm⟩ := reapStep_manages (s := s) r
  simp only [clientStep] at hs
  split at hs <;> next heq =>
    rw [heq] at hr hpid hm
    cases hm
    cases hs
    exact keeps_of_gone ht hw hr rfl hpid

/-- **The rest of `Stop` keeps it**, under POSIX. -/
theorem Keeps.client_step (h : Keeps s) (hposix : Posix s .client)
    (hs : s.clientStep s.client = some t) (ht : Ordered t) : Keeps t := by
  have hjoined := h.ordered.joined
  have hposix : s.client.halt.any Halt.lastPoll = true → s.killedIsDead = true := hposix
  have hnone := h.halted
  rcases hc : s.client with stopped | _ | _ | _ | c | _ | c | r | _
  all_goals
    rw [hc] at hs hjoined hposix hnone
  case returned => cases hs
  case joiningMonitor => exact h.joiningMonitor hc hs ht
  case joiningWorker => exact h.joiningWorker hc hs ht
  case checking => exact h.checking hc (hjoined rfl) hs ht
  case halting => exact h.halting hc (hjoined rfl) hposix hs ht
  case checkingAgain =>
    have hw := hjoined rfl
    have hpid := hnone rfl
    have hdead : s.isMediaMtxAlive = false := by simp [isMediaMtxAlive, hpid]
    simp only [clientStep, hdead, Bool.false_eq_true, if_false] at hs
    cases hs
    exact keeps_of_gone ht hw (h.joined hc hw) rfl hpid
  case killing => exact absurd hc (h.killing c)
  case reaping => exact h.reaping hc (hjoined rfl) (hnone rfl) hs ht
  case finishing =>
    have hw := hjoined rfl
    cases hs
    exact keeps_of_gone ht hw (h.joined hc hw) rfl (hnone rfl)

/-! ## The step -/

/-- A child that exits is still there to be reaped. -/
theorem exit_owns (pid : Nat) {d : Pending} :
    (s.childExit pid).Owns d ↔ s.Owns d := by
  have hsome (p : Nat) : ((s.children.exit pid) p).isSome = (s.children p).isSome :=
    Table.isSome_exit
  cases d with
  | settled | forked => simp only [Owns, childExit, hsome]
  | reaped => simp only [Owns, childExit, ← Option.isNone_iff_eq_none, ← Option.not_isSome, hsome]

/-- A doomed child stays so when some child exits. -/
theorem exit_doomed (h : s.Doomed) (pid : Nat) : (s.childExit pid).Doomed := by
  intro p c hc
  simp only [childExit, Table.exit] at hc
  rcases eq_or_ne p pid with rfl | hne
  · rw [update_self] at hc
    obtain ⟨c', -, rfl⟩ := Option.map_eq_some_iff.1 hc
    exact .inl rfl
  · rw [update_of_ne hne] at hc
    exact h p c hc

/-- A child that exits keeps it: it has still to be reaped. -/
theorem Keeps.exit (h : Keeps s) (pid : Nat) (ht : Ordered (s.childExit pid)) :
    Keeps (s.childExit pid) where
  ordered := ht
  owns := (exit_owns pid).2 h.owns
  worker c hc :=
    have hk := h.worker c hc
    ⟨(exit_owns pid).2 hk.owns, hk.reap, fun n hn =>
      ⟨(hk.poll n hn).1, exit_doomed (hk.poll n hn).2 pid⟩⟩
  client c hc :=
    have hk := h.client c hc
    ⟨(exit_owns pid).2 hk.owns, hk.reap, fun n hn =>
      ⟨(hk.poll n hn).1, exit_doomed (hk.poll n hn).2 pid⟩⟩
  halted := h.halted
  killing := h.killing
  quiet := h.quiet
  stopped := h.stopped

/-- **Every step keeps it**, under POSIX. -/
theorem Keeps.step {l : Label} (h : Keeps s) (hposix : Posix s l) (hs : step s l = some t) :
    Keeps t := by
  have ht := h.ordered.step hs
  cases l with
  | init config executable writable =>
    simp only [PodStream.step] at hs
    split at hs <;> cases hs
    next hc => exact h.init (by rw [hc]; rfl) config executable writable ht
  | start =>
    simp only [PodStream.step] at hs
    split at hs <;> cases hs
    next hc => exact h.start (by rw [hc]; rfl) ht
  | stop =>
    simp only [PodStream.step] at hs
    split at hs <;> cases hs
    next hc =>
    have hr : s.client.isReturned = true := by rw [hc]; rfl
    unfold Manager.stop at ht ⊢
    by_cases hi : s.inited = true
    · rw [if_neg (not_not.2 hi)] at ht ⊢
      exact h.call hr ht rfl rfl rfl (.inr (.inl rfl))
    · rw [if_pos hi] at ht ⊢
      have hnone := h.ordered.worker (Bool.eq_false_iff.2 hi)
      exact h.call hr ht rfl rfl rfl (.inr (.inr ⟨rfl, hnone⟩))
  | client => exact h.client_step hposix hs ht
  | monitor ok =>
    simp only [PodStream.step] at hs
    split at hs <;> cases hs
    next p hp =>
    cases p <;> cases ok <;> exact
      { ordered := ht, owns := h.owns, worker := fun c hc => { h.worker c hc with }
        client := fun c hc => { h.client c hc with }, halted := h.halted, killing := h.killing
        quiet := h.quiet, stopped := h.stopped }
  | worker r =>
    simp only [PodStream.step] at hs
    split at hs
    · next p hp => exact h.worker_step hp hposix hs ht
    · cases hs
  | childExit pid =>
    cases hs
    exact h.exit pid ht
  | childVanish pid => exact hposix.elim
  | tick ns =>
    cases hs
    exact
      { ordered := ht, owns := h.owns, worker := fun c hc => { h.worker c hc with }
        client := fun c hc => { h.client c hc with }, halted := h.halted, killing := h.killing
        quiet := h.quiet, stopped := h.stopped }

/-- A new manager has no child. -/
theorem Keeps.initial : Keeps {} where
  ordered := .initial
  owns p := by simp
  worker := nofun
  client := nofun
  halted := nofun
  killing := nofun
  quiet _ _ := rfl
  stopped := nofun

/-- **The manager owns at most one child**, in every state of every run. -/
theorem ownsChild_of_run {ls : List Label} (hposix : Along step Posix {} ls)
    (h : run step {} ls = some s) : s.OwnsChild :=
  (run_along (P := Keeps) (fun _ _ _ hc hs ht => hs.step hc ht) .initial hposix h).ownsChild

/-- Up to the `fork` of the first child. -/
def launch : List Label :=
  [.init quickConfig true true, .start, .monitor true, .monitor true, .tick 2000000000,
    .worker none, .worker none, .worker none, .worker (some 7), .worker (some 7)]

/-- `Stop` waits for the child, kills it and reaps it. -/
def stopKills : List Label :=
  [.worker none, .worker none, .stop, .monitor true, .worker none, .worker none, .client, .client,
    .client, .client, .client, .tick 3000000000, .client, .client, .childExit 7, .client, .client,
    .client, .client, .client]

/-- The child is started, ignores `SIGTERM`, and is killed and reaped by `Stop`. -/
theorem ownsChild_of_launch :
    ∃ ls s, run step {} (launch ++ ls) = some s ∧ s.client = .returned true ∧
      s.state = .idle ∧ s.OwnsChild := by
  have h : (run step {} (launch ++ stopKills)).map (fun s => (s.client, s.state)) =
      some (.returned true, .idle) := by
    decide +kernel
  obtain ⟨s, hrun, hs⟩ := Option.map_eq_some_iff.1 h
  obtain ⟨hclient, hstate⟩ := Prod.mk.inj hs
  exact ⟨stopKills, s, hrun, hclient, hstate, ownsChild_of_run (by decide) hrun⟩

/-- Right after `fork` the child runs and its pid has not been stored. -/
theorem not_owns_always :
    ¬ ∀ ls s, Along step Posix {} ls → run step {} ls = some s →
      (∀ p q, s.children.runs p = true → s.children.runs q = true → p = q) ∧
        (∀ p, s.mediamtxPid = some p ↔ (s.children p).isSome = true) ∧
        (s.client = .returned true → ∀ p, s.children p = none) := by
  intro h
  obtain ⟨-, hpid, -⟩ := h launch _ (by decide) rfl
  cases (hpid 7).2 rfl

end PodStream
