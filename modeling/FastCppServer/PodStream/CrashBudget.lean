import FastCppServer.Lib.Window
import Mathlib.Data.Int.Order.Basic
import FastCppServer.PodStream.PodStreamManager

/-!
# The crash budget

A crash is recorded by four branches of the worker, and the budget is asked about by one of them,
that of a child that has exited under a connected pod. So the worker can come back to `kReady` with
the budget exhausted, and a child that exits while the pod disconnects or while the manager stops is
not recorded at all. And once in `kError` the worker stays there (`error_stays`), since the record
is pruned only when a crash is added.

Where a run keeps away from these (`Careful`) the budget is kept. The record of the manager is
pruned, the history is not; both say the same of every later window, so the promise is about the
history.
-/

namespace PodStream

open Function Manager Process Transition Window

/-! ## What is promised -/

/-- The crash was that of a child. -/
def Cause.isExit : Cause → Bool
  | .launch | .exit | .vanished => true
  | .config | .fork => false

/-- `StartMediaMtx` has a child. -/
def Launch.launched : Launch → Bool
  | .enter => false
  | .forked _ | .settling | .reap _ => true

/-- The worker is in a `StartMediaMtx` that has a child. -/
def Worker.launched : Worker → Bool
  | .starting l => l.launched
  | _ => false

namespace Manager

/-- When the crashes have been recorded. -/
def times (s : Manager) : List Nat := s.crashes.map Crash.time

/-- How many crashes have been recorded within the last `crash_window_seconds`. -/
def inWindow (s : Manager) : Nat := (recent (Nat.cast : Nat → Int) s.windowStart s.times).length

/-- How many of the recorded crashes were those of a child. -/
def exitCrashes (s : Manager) : Nat := (s.crashes.filter fun c => c.cause.isExit).length

/-- The pid of the child that the worker is at. -/
def current (s : Manager) : Worker → Option Nat
  | .starting (.forked pid) => some pid
  | _ => s.mediamtxPid

/-- The worker has a child that runs no more, and has not come to record it. -/
def unnoticed (s : Manager) : Bool :=
  match s.workerTh with
  | .running p => (s.state = .running || p.launched) && !(s.current p).any s.children.runs
  | _ => false

/-- The budget is kept: `StartMediaMtx` is called only while crashes are left, and each exit that
the manager has not asked for is recorded once, as soon as the worker has come to it. -/
structure Budgeted (s : Manager) : Prop where
  start : s.workerTh = .running (.starting .enter) → (s.inWindow : Int) < s.config.maxCrashCount
  exits : s.exits = s.exitCrashes + s.unnoticed.toNat

/-- When the worker looks at `kError` it leaves it if crashes are left, and only then. -/
def Recovers (s : Manager) (l : Label) (t : Manager) : Prop :=
  ∀ childExited r, s.state = .error → s.workerTh = .running (.switch childExited) →
    l = .worker r → (t.state = .ready ↔ (s.inWindow : Int) < s.config.maxCrashCount)

/-- A crash can be recorded and leave the budget. -/
def affords (s : Manager) : Bool := (s.inWindow : Int) + 1 < s.config.maxCrashCount

/-- No crash is left in the window. -/
def exhausted (s : Manager) : Bool := s.config.maxCrashCount ≤ (s.inWindow : Int)

/-- The child runs, and has not been asked to end. -/
def spontaneous (s : Manager) (pid : Nat) : Bool :=
  (s.children pid).any fun c => !c.exited && !c.asked

/-- The worker is not in its loop, or is stopping the child. -/
def stopping (s : Manager) : Bool :=
  match s.workerTh with
  | .running _ => s.state = .stopping
  | _ => true

/-- The branch that the worker takes next does not go wrong. -/
def branch (s : Manager) (r : Option Nat) : Worker → Bool
  | .loop => s.quit → s.unnoticed = false
  | .switch childExited =>
    match s.state with
    | .running =>
      if ¬ s.isConnected then s.unnoticed = false
      else childExited || s.isMediaMtxAlive || s.affords
    | .error => s.exhausted
    | _ => true
  | .preparing => r.isSome || s.affords
  | .starting .enter => s.isMediaMtxAlive || r.isSome || s.affords
  | .starting (.reap _) => s.affords
  | _ => true

/-- With this configuration there are crashes left, and the manager still knows those of the
window. -/
def fresh (s : Manager) (config : PodConfig) : Bool :=
  let s := { s with config }
  (s.inWindow : Int) < config.maxCrashCount ∧
    recent (Nat.cast : Nat → Int) s.windowStart s.crashTimestamps =
      recent Nat.cast s.windowStart s.times

end Manager

/-- The budget is asked about where it must be, exits do not coincide with a disconnect or a stop,
and `kError` is not looked at any more once crashes are left. -/
def Careful (s : Manager) : Label → Bool
  | .init config executable writable =>
    (!s.inited && config.isOpen && config.isValid executable && writable) → s.fresh config
  | .worker r =>
    match s.workerTh with
    | .running p => s.branch r p
    | _ => true
  | .childExit pid | .childVanish pid => s.spontaneous pid → s.stopping = false
  | _ => true

/-- The limit of a configuration is positive. -/
def Label.Limits : Label → Prop
  | .init config _ _ => 1 ≤ config.maxCrashCount
  | _ => True

instance : ∀ l : Label, Decidable l.Limits
  | .init .. => inferInstanceAs (Decidable (_ ≤ _))
  | .start | .stop | .client | .monitor _ | .worker _ | .childExit _ | .childVanish _
  | .tick _ => isTrue trivial

/-! ## Where the states of the machine are -/

/-- The state that goes with a place of the worker. -/
def Worker.Fits (state : State) : Worker → Prop
  | .backingOff _ | .preparing | .starting _ => state = .ready
  | .disconnecting _ => state = .stopping
  | .finishing _ => False
  | .loop | .reaping _ | .switch _ | .sleeping => state ≠ .stopping

variable {s t : Manager}

/-- The state that the worker chooses goes with the place that it goes to. -/
theorem switchStep_fits (childExited : Bool) (h : s.state ≠ .stopping) :
    ∃ q, (s.switchStep childExited).workerTh = .running q ∧
      q.Fits (s.switchStep childExited).state := by
  unfold switchStep
  split
  · next hs => exact ⟨_, rfl, h⟩
  · next hs =>
    dsimp only
    split
    · exact ⟨_, rfl, h⟩
    · split
      · exact ⟨_, rfl, h⟩
      · split
        · exact ⟨_, rfl, hs⟩
        · exact ⟨_, rfl, hs⟩
  · next hs =>
    split
    · exact ⟨_, rfl, rfl⟩
    · dsimp only
      split
      · refine ⟨_, rfl, ?_⟩
        show ite _ _ _ ≠ State.stopping
        split <;> nofun
      · split
        · exact ⟨_, rfl, nofun⟩
        · exact ⟨_, rfl, h⟩
  · next hs => exact absurd hs h
  · next hs =>
    refine ⟨_, rfl, ?_⟩
    dsimp only
    split
    · exact nofun
    · exact h

/-- A step of the worker takes it to a place that goes with the state, or out of its loop. -/
theorem workerStep_fits {r : Option Nat} {p : Worker} (hp : p.Fits s.state)
    (h : s.workerStep r p = some t) :
    t.workerTh = .exited ∨ ∃ q, t.workerTh = .running q ∧ q.Fits t.state := by
  cases p with
  | loop =>
    cases h
    cases hq : s.quit with
    | true => exact .inl (by simp)
    | false => exact .inr ⟨.reaping .wait, by simp, hp⟩
  | sleeping =>
    cases h
    exact .inr ⟨_, rfl, hp⟩
  | reaping r =>
    obtain ⟨_, _, hm⟩ := reapStep_manages (s := s) r
    simp only [workerStep] at h
    split at h <;> next heq =>
      rw [heq] at hm
      cases hm
      cases h
      exact .inr ⟨_, rfl, hp⟩
  | switch childExited =>
    cases h
    exact .inr (switchStep_fits childExited hp)
  | backingOff until_ =>
    have hready : s.state = .ready := hp
    simp only [workerStep] at h
    split at h <;> cases h
    refine .inr ⟨_, rfl, ?_⟩
    split
    · show s.state ≠ .stopping
      rw [hready]
      rintro ⟨⟩
    · exact hready
  | preparing =>
    have hready : s.state = .ready := hp
    simp only [workerStep] at h
    split at h <;> cases h
    · exact .inr ⟨_, rfl, hready⟩
    · refine .inr ⟨_, rfl, ?_⟩
      show s.state ≠ .stopping
      rw [hready]
      rintro ⟨⟩
  | starting l =>
    have hready : s.state = .ready := hp
    simp only [workerStep] at h
    split at h
    · cases h
    · next heq =>
      obtain ⟨_, _, hm⟩ := launchStep_manages heq
      cases hm
      cases h
      exact .inr ⟨_, rfl, hready⟩
    · cases h
      exact .inr ⟨_, rfl, by rintro ⟨⟩⟩
    · next heq =>
      obtain ⟨_, _, hm⟩ := launchStep_manages heq
      cases hm
      cases h
      refine .inr ⟨_, rfl, ?_⟩
      show s.state ≠ .stopping
      rw [hready]
      rintro ⟨⟩
  | disconnecting c =>
    obtain ⟨_, _, hm⟩ := haltStep_manages (s := s) c
    simp only [workerStep] at h
    split at h <;> next heq =>
      rw [heq] at hm
      cases hm
      cases h
      first
        | exact .inr ⟨_, rfl, hp⟩
        | exact .inr ⟨_, rfl, by rintro ⟨⟩⟩
  | finishing r => exact hp.elim

/-- **The states.** -/
structure Placed (s : Manager) : Prop where
  ordered : Ordered s
  idle : s.inited = false → s.state = .idle
  worker : ∀ p, s.workerTh = .running p → p.Fits s.state
  returned : s.client.isReturned = true → s.workerTh = .none → s.state = .idle ∨ s.state = .ready

/-- Up to its end `Stop` leaves the state alone. -/
theorem clientStep_state {c : Client} (h : s.clientStep c = some t) :
    t.state = s.state ∧ t.inited = s.inited ∧ t.client.isReturned = false ∨
      c = .finishing ∧
        t = { s with state := .idle, inited := false, client := .returned true } := by
  cases c with
  | returned stopped => cases h
  | joiningMonitor | joiningWorker =>
    simp only [clientStep] at h
    split at h <;> cases h
    exact .inl ⟨rfl, rfl, rfl⟩
  | checking | checkingAgain =>
    cases h
    refine .inl ⟨rfl, rfl, ?_⟩
    dsimp only
    split <;> rfl
  | halting c | killing c =>
    obtain ⟨_, _, hm⟩ := haltStep_manages (s := s) c
    simp only [clientStep] at h
    split at h <;> next heq =>
      rw [heq] at hm
      cases hm
      cases h
      exact .inl ⟨rfl, rfl, rfl⟩
  | reaping r =>
    obtain ⟨_, _, hm⟩ := reapStep_manages (s := s) r
    simp only [clientStep] at h
    split at h <;> next heq =>
      rw [heq] at hm
      cases hm
      cases h
      exact .inl ⟨rfl, rfl, rfl⟩
  | finishing =>
    cases h
    exact .inr ⟨rfl, rfl⟩

/-- `Stop` moves no worker. -/
theorem clientStep_worker {c : Client} (h : s.clientStep c = some t) {p : Worker}
    (hp : t.workerTh = .running p) : s.workerTh = .running p := by
  rcases (clientStep_threads h).2 with hw | hw
  · rw [← hw, hp]
  · cases hw.symm.trans hp

/-- `Init` keeps the states. -/
theorem Placed.init (h : Placed s) (hr : s.client.isReturned = true) {config : PodConfig}
    {executable writable : Bool}
    (ht : Ordered { s.init config executable writable with client := .returned false }) :
    Placed { s.init config executable writable with client := .returned false } := by
  cases hi : s.inited with
  | true =>
    rw [init_of_inited hi] at ht ⊢
    exact ⟨ht, h.idle, h.worker, fun _ => h.returned hr⟩
  | false =>
    have hidle := h.idle hi
    have hw := h.ordered.worker hi
    obtain ⟨_, _, _, heq, hstate⟩ := init_eq hi config executable writable
    rw [heq] at ht ⊢
    refine ⟨ht, fun hn => ?_, fun p hp => ?_, fun _ _ => ?_⟩
    · rcases hstate with ⟨-, hst⟩ | ⟨-, hst⟩ | ⟨-, hyes, -⟩
      · exact hst.trans hidle
      · exact hst
      · cases hyes.symm.trans hn
    · cases hw.symm.trans hp
    · rcases hstate with ⟨-, hst⟩ | ⟨-, hst⟩ | ⟨-, -, hst⟩
      · exact .inl (hst.trans hidle)
      · exact .inl hst
      · exact .inr hst

/-- `Start` keeps them: a worker is started where there was none, and where nothing stops. -/
theorem Placed.start (h : Placed s) (hr : s.client.isReturned = true)
    (ht : Ordered { s.start with client := .returned false }) :
    Placed { s.start with client := .returned false } := by
  rcases start_eq s with heq | ⟨⟨-, -, -, hw⟩, heq⟩
  · rw [heq] at ht ⊢
    exact ⟨ht, h.idle, h.worker, fun _ => h.returned hr⟩
  · rw [heq] at ht ⊢
    refine ⟨ht, h.idle, fun p hp => ?_, by rintro _ ⟨⟩⟩
    cases hp
    show s.state ≠ .stopping
    rcases h.returned hr hw with hst | hst <;> rw [hst] <;> rintro ⟨⟩

/-- The rest of `Stop` keeps them. -/
theorem Placed.clientStep (h : Placed s) (ht : Ordered t)
    (hs : s.clientStep s.client = some t) : Placed t := by
  refine ⟨ht, fun hn => ?_, fun p hp => ?_, fun hr hw => ?_⟩
  · rcases clientStep_state hs with ⟨hst, hin, -⟩ | ⟨-, rfl⟩
    · rw [hst]
      exact h.idle (hin ▸ hn)
    · rfl
  · have hp' := clientStep_worker hs hp
    rcases clientStep_state hs with ⟨hst, -, -⟩ | ⟨-, rfl⟩
    · rw [hst]
      exact h.worker p hp'
    · exact absurd hp (by rw [ht.worker rfl]; rintro ⟨⟩)
  · rcases clientStep_state hs with ⟨-, -, hno⟩ | ⟨-, rfl⟩
    · cases hno.symm.trans hr
    · exact .inl rfl

/-- The worker keeps them: each of its places fits the state it leaves. -/
theorem Placed.workerStep (h : Placed s) {r : Option Nat} {p : Worker} (ht : Ordered t)
    (hp : s.workerTh = .running p) (hs : s.workerStep r p = some t) : Placed t := by
  have hw := workerStep_works hs
  have hfits := workerStep_fits (h.worker p hp) hs
  have hno : s.workerTh ≠ .none := by
    rw [hp]
    rintro ⟨⟩
  refine ⟨ht, fun hn => ?_, fun q hq => ?_, fun _ hnone => ?_⟩
  · rw [hw.inited] at hn
    exact absurd (h.ordered.worker hn) hno
  · rcases hfits with he | ⟨q', hq', hf⟩
    · cases he.symm.trans hq
    · cases hq'.symm.trans hq
      exact hf
  · rcases hfits with he | ⟨q', hq', -⟩
    · cases he.symm.trans hnone
    · cases hq'.symm.trans hnone

/-- **Every step keeps the states.** -/
theorem Placed.step {l : Label} (h : Placed s) (hs : step s l = some t) : Placed t := by
  have ht := h.ordered.step hs
  cases l with
  | init config executable writable =>
    simp only [PodStream.step] at hs
    split at hs <;> cases hs
    next hc => exact h.init (by rw [hc]; rfl) ht
  | start =>
    simp only [PodStream.step] at hs
    split at hs <;> cases hs
    next hc => exact h.start (by rw [hc]; rfl) ht
  | stop =>
    simp only [PodStream.step] at hs
    split at hs <;> cases hs
    next hc =>
    have hr : s.client.isReturned = true := by rw [hc]; rfl
    unfold Manager.stop at ht ⊢
    split
    · exact ⟨by simp_all, h.idle, h.worker, fun _ => h.returned hr⟩
    · exact ⟨by simp_all, h.idle, h.worker, by rintro ⟨⟩⟩
  | client => exact h.clientStep ht hs
  | monitor ok =>
    simp only [PodStream.step] at hs
    split at hs <;> cases hs
    next p hp =>
    cases p <;> cases ok <;> exact ⟨ht, h.idle, h.worker, h.returned⟩
  | worker r =>
    simp only [PodStream.step] at hs
    split at hs
    · next p hp => exact h.workerStep ht hp hs
    · cases hs
  | childExit pid | childVanish pid | tick ns =>
    cases hs
    exact ⟨ht, h.idle, h.worker, h.returned⟩

/-- A new manager has no worker. -/
theorem Placed.initial : Placed {} :=
  ⟨.initial, fun _ => rfl, nofun, fun _ _ => .inl rfl⟩

/-! ## The window -/

/-- The states in which a child is started or kept. -/
def State.active : State → Bool
  | .ready | .running | .stopping => true
  | .idle | .error => false

/-- The record and the history say the same of the window, and of every later one. -/
def Manager.Agrees (s : Manager) : Prop :=
  Agree (Nat.cast : Nat → Int) s.windowStart s.crashTimestamps s.times

/-- A crash that is recorded is the last of the history. -/
theorem times_recordCrash (s : Manager) (cause : Cause) :
    (s.recordCrash cause).times = s.times ++ [s.now] := by
  simp [times, recordCrash]

/-- The record is pruned by the window when a crash is added. -/
theorem crashTimestamps_recordCrash (s : Manager) (cause : Cause) :
    (s.recordCrash cause).crashTimestamps =
      recent (Nat.cast : Nat → Int) s.windowStart (s.crashTimestamps ++ [s.now]) := by
  simp only [recordCrash, recent, not_lt]

/-- Recording a crash keeps the record in agreement with the history. -/
theorem Manager.Agrees.recordCrash (h : s.Agrees) (cause : Cause) :
    (s.recordCrash cause).Agrees := by
  rw [Agrees, times_recordCrash, crashTimestamps_recordCrash]
  exact h.record s.now

/-- Recording a crash adds one to the window at most. -/
theorem inWindow_recordCrash_le (s : Manager) (cause : Cause) :
    (s.recordCrash cause).inWindow ≤ s.inWindow + 1 := by
  rw [inWindow, times_recordCrash]
  exact length_recent_concat ..

/-- A crash that does not exhaust the budget leaves it. -/
theorem inWindow_lt_of_not_tooOften (hmax : 1 ≤ s.config.maxCrashCount) (hagree : s.Agrees)
    (h : s.isCrashingTooOften = false) : (s.inWindow : Int) < s.config.maxCrashCount := by
  have hle : s.inWindow ≤ s.crashTimestamps.length := by
    rw [inWindow, ← hagree]
    exact length_recent_le ..
  unfold isCrashingTooOften at h
  rw [if_neg (by omega)] at h
  have := of_decide_eq_false h
  omega

/-- An exhausted budget shows in the record. -/
theorem tooOften_of_exhausted (hmax : 1 ≤ s.config.maxCrashCount) (hagree : s.Agrees)
    (h : s.exhausted = true) : s.isCrashingTooOften = true := by
  by_contra hno
  have hlt := inWindow_lt_of_not_tooOften hmax hagree (Bool.eq_false_iff.2 hno)
  have hle := of_decide_eq_true h
  omega

/-- What a step of the worker does to the record and to the state. -/
inductive Records (s t : Manager) (r : Option Nat) (p : Worker) : Prop where
  | same (crashes : t.crashes = s.crashes) (stamps : t.crashTimestamps = s.crashTimestamps)
      (state : t.state = s.state ∨ s.state.active = true ∧ t.state.active = true)
  | recover (crashes : t.crashes = s.crashes) (stamps : t.crashTimestamps = s.crashTimestamps)
      (error : s.state = .error) (rare : s.isCrashingTooOften = false) (state : t.state = .ready)
      (place : ∃ childExited, p = .switch childExited)
  | record (cause : Cause) (crashes : t.crashes = (s.recordCrash cause).crashes)
      (stamps : t.crashTimestamps = (s.recordCrash cause).crashTimestamps)
      (active : s.state.active = true) (state : t.state = .ready)
      (affords : s.branch r p = true → s.affords = true)
  | tested (crashes : t.crashes = (s.recordCrash .exit).crashes)
      (stamps : t.crashTimestamps = (s.recordCrash .exit).crashTimestamps)
      (active : s.state.active = true)
      (state : t.state = if (s.recordCrash .exit).isCrashingTooOften then .error else .ready)

/-- What touches the table and the stored pid records nothing. -/
theorem Manager.Manages.records (h : Manages s t) {r : Option Nat} {p : Worker} :
    Records s t r p := by
  obtain ⟨_, _, rfl⟩ := h
  exact .same rfl rfl (.inl rfl)

/-- What the choice of the next state does to the record. -/
theorem switchStep_records {r : Option Nat} (childExited : Bool) :
    Records s (s.switchStep childExited) r (.switch childExited) := by
  cases hs : s.state with
  | idle =>
    simp only [switchStep, hs]
    exact .same rfl rfl (.inl hs.symm)
  | ready =>
    simp only [switchStep, hs]
    repeat' split
    all_goals exact .same rfl rfl (.inl hs.symm)
  | running =>
    have hactive : s.state.active = true := by rw [hs]; rfl
    simp only [switchStep, hs]
    split
    · exact .same rfl rfl (.inr ⟨hactive, rfl⟩)
    · next hc =>
      split
      · exact .tested rfl rfl hactive rfl
      · next he =>
        split
        · next ha =>
          refine .record .vanished rfl rfl hactive rfl fun hb => ?_
          simp only [Bool.not_eq_true] at he ha
          simpa [branch, hs, hc, he, ha] using hb
        · exact .same rfl rfl (.inl hs.symm)
  | stopping =>
    simp only [switchStep, hs]
    split <;> exact .same rfl rfl (.inl hs.symm)
  | error =>
    simp only [switchStep, hs]
    split
    · next hrare =>
      exact .recover rfl rfl hs (Bool.eq_false_iff.2 hrare) rfl ⟨_, rfl⟩
    · exact .same rfl rfl (.inl rfl)

/-- Where `StartMediaMtx` fails the branch asks for the budget. -/
theorem affords_of_launch {pid : Option Nat} {l : Launch}
    (h : s.launchStep pid l = some (t, .ret false)) (hb : s.branch pid (.starting l) = true) :
    s.affords = true := by
  cases l with
  | enter =>
    simp only [launchStep] at h
    split at h
    · cases h
    · next ha =>
      cases pid with
      | none => simpa [branch, ha] using hb
      | some pid =>
        simp only at h
        split at h <;> cases h
  | forked pid => cases h
  | settling =>
    simp only [launchStep] at h
    split at h <;> cases h
  | reap r => exact hb

/-- **What a step of the worker does to the record.** -/
theorem workerStep_records {r : Option Nat} {p : Worker} (hp : p.Fits s.state)
    (h : s.workerStep r p = some t) : Records s t r p := by
  cases p with
  | loop | sleeping =>
    cases h
    exact .same rfl rfl (.inl rfl)
  | reaping c =>
    obtain ⟨_, _, hm⟩ := reapStep_manages (s := s) c
    simp only [workerStep] at h
    split at h <;> next heq =>
      rw [heq] at hm
      cases hm
      cases h
      exact .same rfl rfl (.inl rfl)
  | switch childExited =>
    cases h
    exact switchStep_records childExited
  | backingOff until_ =>
    simp only [workerStep] at h
    split at h <;> cases h
    exact .same rfl rfl (.inl rfl)
  | preparing =>
    have hready : s.state = .ready := hp
    have hactive : s.state.active = true := by rw [hready]; rfl
    simp only [workerStep] at h
    split at h <;> cases h
    · exact .same rfl rfl (.inl rfl)
    · next hr =>
      refine .record .config rfl rfl hactive hready fun hb => ?_
      simpa [branch, hr] using hb
  | starting l =>
    have hready : s.state = .ready := hp
    have hactive : s.state.active = true := by rw [hready]; rfl
    simp only [workerStep] at h
    split at h
    · cases h
    · next heq =>
      obtain ⟨_, _, hm⟩ := launchStep_manages heq
      cases hm
      cases h
      exact .same rfl rfl (.inl rfl)
    · next heq =>
      obtain ⟨_, _, hm⟩ := launchStep_manages heq
      cases hm
      cases h
      exact .same rfl rfl (.inr ⟨hactive, rfl⟩)
    · next heq =>
      have hb := affords_of_launch heq
      obtain ⟨_, _, hm⟩ := launchStep_manages heq
      cases hm
      cases h
      exact .record _ rfl rfl hactive hready hb
  | disconnecting c =>
    have hstopping : s.state = .stopping := hp
    obtain ⟨_, _, hm⟩ := haltStep_manages (s := s) c
    simp only [workerStep] at h
    split at h <;> next heq =>
      rw [heq] at hm
      cases hm
      cases h
      first
        | exact .same rfl rfl (.inl rfl)
        | exact .same rfl rfl (.inr ⟨by rw [hstopping]; rfl, rfl⟩)
  | finishing c => exact hp.elim

/-- **The window.** In a session the record is that of the history, and a state in which a child is
started or kept has crashes left. -/
structure InBudget (s : Manager) : Prop where
  limit : s.state ≠ .idle → 1 ≤ s.config.maxCrashCount
  agrees : s.state ≠ .idle → s.Agrees
  left : s.state.active = true → (s.inWindow : Int) < s.config.maxCrashCount

/-- `kIdle` is none of the states with a child. -/
theorem State.ne_idle {st : State} (h : st.active = true) : st ≠ .idle := by
  rintro rfl
  cases h

/-- A step that changes neither the record nor the clock nor the configuration. -/
theorem InBudget.congr (h : InBudget s) (hconfig : t.config = s.config) (hnow : t.now = s.now)
    (hcrashes : t.crashes = s.crashes) (hstamps : t.crashTimestamps = s.crashTimestamps)
    (hstate : t.state = .idle ∨ t.state = s.state ∨
      s.state.active = true ∧ t.state.active = true) : InBudget t := by
  have hidle : t.state ≠ .idle → s.state ≠ .idle := by
    intro ht
    rcases hstate with hst | hst | ⟨hs, -⟩
    · exact absurd hst ht
    · rwa [← hst]
    · exact State.ne_idle hs
  have hactive : t.state.active = true → s.state.active = true := by
    intro ht
    rcases hstate with hst | hst | ⟨hs, -⟩
    · rw [hst] at ht
      cases ht
    · rwa [← hst]
    · exact hs
  have hwindow : t.windowStart = s.windowStart := by simp only [windowStart, hconfig, hnow]
  have htimes : t.times = s.times := by simp only [times, hcrashes]
  refine ⟨fun ht => ?_, fun ht => ?_, fun ht => ?_⟩
  · rw [hconfig]
    exact h.limit (hidle ht)
  · rw [Agrees, hwindow, hstamps, htimes]
    exact h.agrees (hidle ht)
  · rw [inWindow, hwindow, htimes, hconfig]
    exact h.left (hactive ht)

/-- The clock goes on: crashes leave the window. -/
theorem InBudget.tick (h : InBudget s) (ns : Nat) : InBudget { s with now := s.now + ns } := by
  have hle : s.windowStart ≤ { s with now := s.now + ns }.windowStart := by
    simp only [windowStart]
    omega
  refine ⟨h.limit, fun ht => (h.agrees ht).mono hle, fun ht => ?_⟩
  have hcount : (recent (Nat.cast : Nat → Int) _ s.times).length ≤ (recent _ _ s.times).length :=
    length_recent_anti hle s.times
  exact lt_of_le_of_lt (Int.ofNat_le.2 hcount) (h.left ht)

/-- A step of the worker keeps the window, where its branch does not go wrong. -/
theorem InBudget.worker {r : Option Nat} {p : Worker} (h : InBudget s)
    (hcareful : s.branch r p = true) (hw : Works s t) (hrec : Records s t r p) : InBudget t := by
  have hrecorded (cause : Cause) (hcrashes : t.crashes = (s.recordCrash cause).crashes)
      (hstamps : t.crashTimestamps = (s.recordCrash cause).crashTimestamps)
      (hactive : s.state.active = true) :
      t.Agrees ∧ t.inWindow = (s.recordCrash cause).inWindow := by
    have hwindow : t.windowStart = (s.recordCrash cause).windowStart := by
      show t.windowStart = s.windowStart
      simp only [windowStart, hw.config, hw.now]
    have htimes : t.times = (s.recordCrash cause).times := by simp only [times, hcrashes]
    refine ⟨?_, by simp only [inWindow, hwindow, htimes]⟩
    rw [Agrees, hwindow, hstamps, htimes]
    exact (h.agrees (State.ne_idle hactive)).recordCrash cause
  cases hrec with
  | same crashes stamps state => exact h.congr hw.config hw.now crashes stamps (.inr state)
  | recover crashes stamps error rare state place =>
    -- the record is full where the history is
    obtain ⟨childExited, rfl⟩ := place
    have hexhausted : s.exhausted = true := by simpa [branch, error] using hcareful
    have hne : s.state ≠ .idle := by
      rw [error]
      nofun
    have hoften := tooOften_of_exhausted (h.limit hne) (h.agrees hne) hexhausted
    cases rare.symm.trans hoften
  | record cause crashes stamps active state affords =>
    obtain ⟨hagrees, hcount⟩ := hrecorded cause crashes stamps active
    have hlimit := h.limit (State.ne_idle active)
    refine ⟨fun _ => hw.config ▸ hlimit, fun _ => hagrees, fun _ => ?_⟩
    have hle := inWindow_recordCrash_le s cause
    have hlt := of_decide_eq_true (affords hcareful)
    rw [hcount, hw.config]
    omega
  | tested crashes stamps active state =>
    obtain ⟨hagrees, hcount⟩ := hrecorded .exit crashes stamps active
    have hlimit := h.limit (State.ne_idle active)
    refine ⟨fun _ => hw.config ▸ hlimit, fun _ => hagrees, fun ht => ?_⟩
    cases hoften : (s.recordCrash .exit).isCrashingTooOften with
    | true =>
      rw [state, hoften] at ht
      cases ht
    | false =>
      rw [hcount, hw.config]
      exact inWindow_lt_of_not_tooOften (s := s.recordCrash .exit) hlimit
        ((h.agrees (State.ne_idle active)).recordCrash .exit) hoften

/-- `Init` keeps the window, where the new configuration has crashes left. -/
theorem InBudget.init {config : PodConfig} {executable writable : Bool} (h : InBudget s)
    (hp : Placed s) (hlimit : 1 ≤ config.maxCrashCount)
    (hcareful : Careful s (.init config executable writable) = true) :
    InBudget { s.init config executable writable with client := .returned false } := by
  cases hi : s.inited with
  | true =>
    rw [init_of_inited hi]
    exact { h with }
  | false =>
    obtain ⟨inited, quit, state, heq, hstate⟩ := init_eq hi config executable writable
    rw [heq]
    have hidle (hst : state = .idle) :
        InBudget { s with config, inited, quit, state, client := .returned false } :=
      ⟨fun hne => absurd hst hne, fun hne => absurd hst hne, fun ha => by
        have ha : state.active = true := ha
        rw [hst] at ha
        cases ha⟩
    rcases hstate with ⟨-, hst⟩ | ⟨-, hst⟩ | ⟨hok, -, hst⟩
    · exact hidle (hst.trans (hp.idle hi))
    · exact hidle hst
    · have hfresh : s.fresh config = true := by
        simpa [Careful, hi, hok] using hcareful
      obtain ⟨hleft, hagree⟩ := of_decide_eq_true hfresh
      exact ⟨fun _ => hlimit, fun _ => hagree, fun _ => hleft⟩

/-- **Every careful step keeps the window.** -/
theorem InBudget.step {l : Label} (h : InBudget s) (hp : Placed s) (hlimit : l.Limits)
    (hcareful : Careful s l = true) (hs : step s l = some t) : InBudget t := by
  cases l with
  | init config executable writable =>
    simp only [PodStream.step] at hs
    split at hs <;> cases hs
    exact h.init hp hlimit hcareful
  | start =>
    simp only [PodStream.step] at hs
    split at hs <;> cases hs
    rcases start_eq s with heq | ⟨-, heq⟩ <;> rw [heq] <;> exact { h with }
  | stop =>
    simp only [PodStream.step] at hs
    split at hs <;> cases hs
    unfold Manager.stop
    split <;> exact { h with }
  | client =>
    have hst := clientStep_stops hs
    refine h.congr hst.config hst.now hst.crashes hst.crashTimestamps ?_
    rcases clientStep_state hs with ⟨hstate, -⟩ | ⟨-, rfl⟩
    · exact .inr (.inl hstate)
    · exact .inl rfl
  | monitor ok =>
    simp only [PodStream.step] at hs
    split at hs <;> cases hs
    next p hp => cases p <;> cases ok <;> exact { h with }
  | worker r =>
    simp only [PodStream.step] at hs
    split at hs
    · next p hw =>
      simp only [Careful, hw] at hcareful
      exact h.worker hcareful (workerStep_works hs) (workerStep_records (hp.worker p hw) hs)
    · cases hs
  | childExit pid | childVanish pid =>
    cases hs
    exact { h with }
  | tick ns =>
    cases hs
    exact h.tick ns

/-! ## The exits -/

/-- The worker is at a point where it has no child. -/
def Worker.childless (state : State) : Worker → Bool
  | .starting .enter | .starting (.reap _) => true
  | .starting _ => false
  | .disconnecting (.reap _) => true
  | .disconnecting _ => false
  | .reaping .clear | .switch true => true
  | _ => state ≠ .running

/-- `Stop` is at a point where there is no child. -/
def Client.childless : Client → Bool
  | .returned _ | .checkingAgain | .reaping _ | .finishing => true
  | .halting (.reap _) | .killing (.reap _) => true
  | _ => false

namespace Manager

/-- There is no child, as far as the one who manages it knows. -/
def childless (s : Manager) : Bool :=
  match s.workerTh with
  | .running p => p.childless s.state
  | .none => s.client.childless
  | .exited => false

/-- The child that may exit unasked, up to the first signal of `StopMediaMtx`. -/
def haltOwner (s : Manager) : Halt → Option Nat
  | .enter _ | .signal _ => s.mediamtxPid
  | _ => none

/-- As the worker knows it. -/
def workerOwner (s : Manager) : Worker → Option Nat
  | .starting .enter => none
  | .starting (.forked pid) => some pid
  | .starting _ => s.mediamtxPid
  | .disconnecting h => s.haltOwner h
  | _ => if s.state = .running then s.mediamtxPid else none

/-- And as `Stop` knows it. -/
def clientOwner (s : Manager) : Client → Option Nat
  | .joiningMonitor | .joiningWorker | .checking => s.mediamtxPid
  | .halting h => s.haltOwner h
  | _ => none

/-- The child that may exit unasked, as the one who manages it knows it. -/
def owner (s : Manager) : Option Nat :=
  match s.workerTh with
  | .running p => s.workerOwner p
  | .exited => s.mediamtxPid
  | .none => s.clientOwner s.client

end Manager

/-- **The ledger.** -/
structure Ledger (s : Manager) : Prop where
  exits : s.exits = s.exitCrashes + s.unnoticed.toNat
  owner : ∀ pid, s.spontaneous pid = true → s.owner = some pid
  unasked : ∀ p, s.workerTh = .running p → s.state = .running ∨ p.launched = true →
    ∀ pid c, s.current p = some pid → s.children pid = some c → c.asked = false
  childless : s.childless = true → s.isMediaMtxAlive = false

/-- A child runs by itself when it is in the table, has not exited and has not been asked to. -/
theorem spontaneous_iff {pid : Nat} :
    s.spontaneous pid = true ↔
      ∃ c, s.children pid = some c ∧ c.exited = false ∧ c.asked = false := by
  simp [spontaneous, Option.any_eq_true]

/-- A child runs when it is in the table and has not exited. -/
theorem runs_iff {pid : Nat} :
    s.children.runs pid = true ↔ ∃ c, s.children pid = some c ∧ c.exited = false := by
  simp [Table.runs, Option.any_eq_true]

/-- `IsMediaMtxAlive` is false when no process has the stored pid. -/
theorem not_alive_iff :
    s.isMediaMtxAlive = false ↔ ∀ pid, s.mediamtxPid = some pid → s.children pid = none := by
  cases h : s.mediamtxPid <;> simp [isMediaMtxAlive, h, Table.exists?]

/-- Who is not there does not run. -/
theorem not_runs_of_dead (h : s.isMediaMtxAlive = false) :
    s.mediamtxPid.any s.children.runs = false := by
  cases hp : s.mediamtxPid with
  | none => rfl
  | some pid => simp [Table.runs, not_alive_iff.1 h pid hp]

/-- The child of a pid that is not alive does not run by itself. -/
theorem not_spontaneous_of_dead (h : s.isMediaMtxAlive = false) {pid : Nat}
    (hpid : s.mediamtxPid = some pid) : s.spontaneous pid = false := by
  simp [spontaneous, not_alive_iff.1 h pid hpid]

/-- An exit that is not noticed, at a place of the worker. -/
theorem unnoticed_running {p : Worker} (h : s.workerTh = .running p) :
    s.unnoticed =
      ((s.state = .running || p.launched) && !(s.current p).any s.children.runs) := by
  simp [unnoticed, h]

/-- Without a worker there is no exit to be noticed. -/
theorem unnoticed_of_not_running (h : ∀ p, s.workerTh ≠ .running p) : s.unnoticed = false := by
  unfold unnoticed
  split
  · next p hp => exact absurd hp (h p)
  · rfl

/-- Recording a crash counts it, if it was that of a child. -/
theorem exitCrashes_recordCrash (s : Manager) (cause : Cause) :
    (s.recordCrash cause).exitCrashes = s.exitCrashes + cause.isExit.toNat := by
  cases hc : cause.isExit <;> simp [exitCrashes, recordCrash, hc]

/-! ### What the functions do to a child that runs -/

/-- No child comes to run by itself. -/
def Tame (s t : Manager) : Prop := ∀ pid, t.spontaneous pid = true → s.spontaneous pid = true

/-- Where nothing happens nothing comes to run. -/
theorem Tame.refl (s : Manager) : Tame s s := fun _ h => h

/-- A child that is reaped does not run. -/
theorem tame_free (s : Manager) (pid : Nat) :
    Tame s { s with children := s.children.free pid } := by
  intro p hp
  obtain ⟨c, hc, he, ha⟩ := spontaneous_iff.1 hp
  have hc : update s.children pid none p = some c := hc
  rcases eq_or_ne p pid with rfl | hne
  · rw [update_self] at hc
    cases hc
  · rw [update_of_ne hne] at hc
    exact spontaneous_iff.2 ⟨c, hc, he, ha⟩

/-- `ReapChildIfNeeded` makes nothing run. -/
theorem reapStep_tame (s : Manager) (r : Reap) : Tame s (s.reapStep r).1 := by
  cases r with
  | wait =>
    simp only [reapStep]
    split
    · exact .refl s
    · split
      · exact tame_free s _
      · exact .refl s
  | clear => exact .refl s

/-- What runs by itself after a signal ran before it, and is not the one that the signal went to. -/
theorem kill_spontaneous {sig : Signal} {pid : Nat} (h : (s.kill sig).spontaneous pid = true) :
    s.spontaneous pid = true ∧ s.mediamtxPid ≠ some pid := by
  obtain ⟨c, hc, he, ha⟩ := spontaneous_iff.1 h
  unfold kill at hc
  cases hpid : s.mediamtxPid with
  | none =>
    simp only [hpid, Option.elim] at hc
    exact ⟨spontaneous_iff.2 ⟨c, hc, he, ha⟩, nofun⟩
  | some q =>
    simp only [hpid, Option.elim, Table.signal] at hc
    rcases eq_or_ne pid q with rfl | hne
    · rw [update_self] at hc
      obtain ⟨c', -, rfl⟩ := Option.map_eq_some_iff.1 hc
      unfold Child.signal at he ha
      split at ha
      · next hex => simp [hex] at he
      · cases ha
    · rw [update_of_ne hne] at hc
      refine ⟨spontaneous_iff.2 ⟨c, hc, he, ha⟩, fun heq => hne (Option.some.inj heq).symm⟩

/-- `StopMediaMtx` makes nothing run. -/
theorem haltStep_tame (s : Manager) (h : Halt) : Tame s (s.haltStep h).1 := by
  cases h with
  | enter forceKill =>
    simp only [haltStep]
    split <;> exact .refl s
  | signal forceKill =>
    simp only [haltStep]
    split <;> exact fun _ hp => (kill_spontaneous hp).1
  | grace startTime =>
    simp only [haltStep]
    split
    · split
      · exact fun _ hp => (kill_spontaneous hp).1
      · exact .refl s
    · exact .refl s
  | poll attempts =>
    simp only [haltStep]
    split
    · exact .refl s
    · split
      · exact .refl s
      · split
        · exact tame_free s _
        · exact .refl s
        · exact .refl s
  | clear => exact .refl s
  | reap r =>
    have hr := reapStep_tame s r
    simp only [haltStep]
    split <;> next heq => simpa [heq] using hr

/-- There is nothing to reap where the stored pid is not alive. -/
theorem reapStep_wait_of_dead (h : s.isMediaMtxAlive = false) :
    s.reapStep .wait = (s, Flow.ret false) := by
  simp only [reapStep]
  split
  · rfl
  · next pid hpid =>
    rw [if_neg]
    rw [Table.waitpid_exited_iff]
    rintro ⟨c, hc, -⟩
    cases hc.symm.trans (not_alive_iff.1 h pid hpid)

/-- `ReapChildIfNeeded` brings nothing to life. -/
theorem reapStep_dead (r : Reap) (h : s.isMediaMtxAlive = false) :
    (s.reapStep r).1.isMediaMtxAlive = false := by
  cases r with
  | wait => rwa [reapStep_wait_of_dead h]
  | clear => rfl

/-- The child that has just been reaped is gone. -/
theorem reapStep_wait_dead {t : Manager} {r : Reap}
    (h : s.reapStep .wait = (t, Flow.goto r)) : r = .clear ∧ t.isMediaMtxAlive = false ∧
      s.mediamtxPid.any s.children.runs = false ∧ t.mediamtxPid = s.mediamtxPid := by
  simp only [reapStep] at h
  split at h
  · cases h
  · next pid hpid =>
    split at h
    · next hw =>
      cases h
      obtain ⟨c, hc, he⟩ := Table.waitpid_exited_iff.1 hw
      refine ⟨rfl, ?_, ?_, rfl⟩
      · refine not_alive_iff.2 fun q hq => ?_
        cases hpid.symm.trans hq
        exact update_self ..
      · simp [hpid, Table.runs, hc, he]
    · cases h

/-- `StopMediaMtx` returns without a child. -/
theorem haltStep_ret {h : Halt} {t : Manager} (hdead : ∀ r, h = .reap r → s.isMediaMtxAlive = false)
    (hs : s.haltStep h = (t, Flow.ret ())) : t.isMediaMtxAlive = false := by
  cases h with
  | enter forceKill =>
    simp only [haltStep] at hs
    split at hs
    · next hpid =>
      cases hs
      simp [isMediaMtxAlive, hpid]
    · cases hs
  | signal forceKill =>
    simp only [haltStep] at hs
    split at hs <;> cases hs
  | grace startTime =>
    simp only [haltStep] at hs
    split at hs
    · split at hs <;> cases hs
    · cases hs
  | poll attempts =>
    simp only [haltStep] at hs
    split at hs
    · cases hs
    · split at hs
      · cases hs
      · split at hs <;> cases hs
  | clear =>
    cases hs
    rfl
  | reap r =>
    have hr := reapStep_dead r (hdead r rfl)
    simp only [haltStep] at hs
    split at hs
    · cases hs
    · next heq =>
      cases hs
      rwa [heq] at hr

/-- It comes to `ReapChildIfNeeded` without one. -/
theorem haltStep_reap {h : Halt} {t : Manager} {r : Reap}
    (hdead : ∀ r, h = .reap r → s.isMediaMtxAlive = false)
    (hs : s.haltStep h = (t, Flow.goto (.reap r))) : t.isMediaMtxAlive = false := by
  cases h with
  | enter forceKill =>
    simp only [haltStep] at hs
    split at hs
    · cases hs
    · cases ha : s.isMediaMtxAlive with
      | true => simp [ha] at hs
      | false =>
        simp only [ha, Bool.false_eq_true, if_false] at hs
        cases hs
        exact ha
  | signal forceKill =>
    simp only [haltStep] at hs
    split at hs <;> cases hs
  | grace startTime =>
    simp only [haltStep] at hs
    split at hs
    · split at hs <;> cases hs
    · cases hs
  | poll attempts =>
    simp only [haltStep] at hs
    split at hs
    · cases hs
    · split at hs
      · cases hs
      · split at hs <;> cases hs
  | clear => cases hs
  | reap r =>
    have hr := reapStep_dead r (hdead r rfl)
    simp only [haltStep] at hs
    split at hs
    · next heq =>
      cases hs
      rwa [heq] at hr
    · cases hs

/-- After the first signal no child exits unasked. -/
theorem haltStep_owner {h : Halt} {t : Manager} {f : Flow Halt Unit}
    (howner : ∀ pid, s.spontaneous pid = true → s.haltOwner h = some pid)
    (hs : s.haltStep h = (t, f)) {pid : Nat} (hpid : t.spontaneous pid = true) :
    ∃ h', f = .goto h' ∧ t.haltOwner h' = some pid := by
  have htame := haltStep_tame s h
  rw [hs] at htame
  have hold := howner pid (htame pid hpid)
  cases h with
  | enter forceKill =>
    simp only [haltStep] at hs
    split at hs
    · next hnone => cases hnone.symm.trans hold
    · cases ha : s.isMediaMtxAlive with
      | true =>
        simp only [ha, if_true] at hs
        cases hs
        exact ⟨_, rfl, hold⟩
      | false =>
        have hno := not_spontaneous_of_dead ha hold
        cases hno.symm.trans (htame pid hpid)
  | signal forceKill =>
    simp only [haltStep] at hs
    split at hs <;> cases hs <;> exact absurd hold (kill_spontaneous hpid).2
  | grace | poll | clear | reap => cases hold

/-! ### The worker -/

/-- What the worker keeps of the ledger, at a place and in a state. -/
structure At (s : Manager) (p : Worker) : Prop where
  exits : s.exits = s.exitCrashes +
    ((s.state = .running || p.launched) && !(s.current p).any s.children.runs).toNat
  owner : ∀ pid, s.spontaneous pid = true → s.workerOwner p = some pid
  unasked : s.state = .running ∨ p.launched = true →
    ∀ pid c, s.current p = some pid → s.children pid = some c → c.asked = false
  childless : p.childless s.state = true → s.isMediaMtxAlive = false

/-- The ledger, as the worker keeps it where it stands. -/
theorem Ledger.at (h : Ledger s) {p : Worker} (hp : s.workerTh = .running p) : At s p where
  exits := by
    rw [← unnoticed_running hp]
    exact h.exits
  owner pid hpid := by
    have ho := h.owner pid hpid
    rwa [Manager.owner, hp] at ho
  unasked := h.unasked p hp
  childless hc := h.childless (by rw [Manager.childless, hp]; exact hc)

/-- What the worker keeps is all of the ledger while it runs. -/
theorem At.ledger {p : Worker} (h : At s p) (hp : s.workerTh = .running p) : Ledger s where
  exits := by
    rw [unnoticed_running hp]
    exact h.exits
  owner pid hpid := by
    rw [Manager.owner, hp]
    exact h.owner pid hpid
  unasked q hq := by
    cases hp.symm.trans hq
    exact h.unasked
  childless hc := by
    rw [Manager.childless, hp] at hc
    exact h.childless hc

/-- The places of the loop at which nothing is going on. -/
def Worker.plain : Worker → Bool
  | .loop | .reaping .wait | .switch false | .sleeping | .backingOff _ | .preparing => true
  | _ => false

/-- At a plain place the worker knows the child by its state alone. -/
theorem Worker.of_plain (s : Manager) {p : Worker} (hp : p.plain = true) :
    s.workerOwner p = (if s.state = .running then s.mediamtxPid else none) ∧
      s.current p = s.mediamtxPid ∧ p.launched = false := by
  cases p <;> first | exact ⟨rfl, rfl, rfl⟩ | cases hp

/-- The ledger at such a place. -/
structure Resting (s : Manager) : Prop where
  exits : s.exits = s.exitCrashes +
    (s.state = .running && !s.mediamtxPid.any s.children.runs).toNat
  owner : ∀ pid, s.spontaneous pid = true → s.state = .running ∧ s.mediamtxPid = some pid
  unasked : s.state = .running →
    ∀ pid c, s.mediamtxPid = some pid → s.children pid = some c → c.asked = false
  childless : s.state ≠ .running → s.isMediaMtxAlive = false

/-- At every plain place the ledger is the same. -/
theorem Resting.at (h : Resting s) {p : Worker} (hp : p.plain = true) : At s p := by
  obtain ⟨howner, hcurrent, hlaunched⟩ := Worker.of_plain s hp
  refine ⟨?_, fun pid hpid => ?_, fun hr => ?_, fun hc => ?_⟩
  · rw [hcurrent, hlaunched, Bool.or_false]
    exact h.exits
  · obtain ⟨hr, hm⟩ := h.owner pid hpid
    rw [howner, if_pos hr, hm]
  · rw [hlaunched] at hr
    rw [hcurrent]
    exact h.unasked (hr.resolve_right nofun)
  · refine h.childless ?_
    revert hp hc
    cases p with
    | reaping r => cases r <;> simp [Worker.plain, Worker.childless]
    | switch b => cases b <;> simp [Worker.plain, Worker.childless]
    | loop | sleeping | backingOff | preparing => simp [Worker.childless]
    | starting | disconnecting | finishing => simp [Worker.plain]

/-- And so it may be read off at any of them. -/
theorem At.resting {p : Worker} (h : At s p) (hp : p.plain = true) : Resting s := by
  obtain ⟨howner, hcurrent, hlaunched⟩ := Worker.of_plain s hp
  refine ⟨?_, fun pid hpid => ?_, fun hr => ?_, fun hr => h.childless ?_⟩
  · have he := h.exits
    rwa [hcurrent, hlaunched, Bool.or_false] at he
  · have ho := h.owner pid hpid
    rw [howner] at ho
    split at ho
    · next hr => exact ⟨hr, ho⟩
    · cases ho
  · rw [← hcurrent]
    exact h.unasked (.inl hr)
  · revert hp
    cases p with
    | reaping r => cases r <;> simp [Worker.plain, Worker.childless, hr]
    | switch b => cases b <;> simp [Worker.plain, Worker.childless, hr]
    | loop | sleeping | backingOff | preparing => simp [Worker.childless, hr]
    | starting | disconnecting | finishing => simp [Worker.plain]

/-- Where the worker is known to have no child, and the state is another than `kRunning`. -/
theorem Resting.of_dead (hdead : s.isMediaMtxAlive = false) (hstate : s.state ≠ .running)
    (hexits : s.exits = s.exitCrashes) (hnone : ∀ pid, s.spontaneous pid = false) : Resting s where
  exits := by simpa [hstate] using hexits
  owner pid hpid := by cases (hnone pid).symm.trans hpid
  unasked h := absurd h hstate
  childless _ := hdead

/-- The worker records an exit that it has come to: the ledger is even. -/
theorem At.recorded {p : Worker} (h : At s p) (hdead : s.isMediaMtxAlive = false)
    (hrun : s.state = .running ∨ p.launched = true) (hcurrent : s.current p = s.mediamtxPid)
    (howner : s.workerOwner p = s.mediamtxPid ∨ s.workerOwner p = none) (cause : Cause)
    (hcause : cause.isExit = true) {st : State} (hst : st ≠ .running) (q : Thread Worker) :
    Resting { s.recordCrash cause with state := st, workerTh := q } := by
  refine .of_dead hdead hst ?_ fun pid => ?_
  · show s.exits = (s.recordCrash cause).exitCrashes
    have hpending : (s.state = .running || p.launched) = true := by simpa using hrun
    rw [exitCrashes_recordCrash, hcause, h.exits, hpending, hcurrent, not_runs_of_dead hdead]
    rfl
  · by_contra hno
    rw [Bool.not_eq_false] at hno
    have ho := h.owner pid hno
    rcases howner with hw | hw
    · rw [hw] at ho
      cases (not_spontaneous_of_dead hdead ho).symm.trans hno
    · cases hw.symm.trans ho

/-- Where the worker has no child, none exits unasked. -/
theorem At.none_spontaneous {p : Worker} (h : At s p) (howner : s.workerOwner p = none)
    (pid : Nat) : s.spontaneous pid = false := by
  by_contra hno
  rw [Bool.not_eq_false] at hno
  cases howner.symm.trans (h.owner pid hno)

/-- The choice of the next state keeps the ledger, where its branch does not go wrong. -/
theorem switchStep_ledger {childExited : Bool} {r : Option Nat} (h : At s (.switch childExited))
    (hfits : s.state ≠ .stopping) (hw : s.workerTh = .running (.switch childExited))
    (hcareful : s.branch r (.switch childExited) = true) : Ledger (s.switchStep childExited) := by
  -- in the states without a child nothing happens to the ledger
  have hrest (hst : s.state ≠ .running) (st : State) (hst' : st ≠ .running) (q : Worker)
      (hq : q.plain = true) : Ledger { s with state := st, workerTh := .running q } := by
    have hdead : s.isMediaMtxAlive = false := by
      refine h.childless ?_
      cases childExited <;> simp [Worker.childless, hst]
    have hexits : s.exits = s.exitCrashes := by
      simpa [Worker.launched, hst] using h.exits
    have hnone := h.none_spontaneous (by simp [workerOwner, hst])
    have hresting : Resting { s with state := st, workerTh := .running q } :=
      .of_dead hdead hst' hexits hnone
    exact (hresting.at hq).ledger rfl
  cases hs : s.state with
  | idle =>
    simp only [switchStep, hs]
    exact hrest (by rw [hs]; nofun) .idle nofun _ rfl
  | ready =>
    have hst : s.state ≠ .running := by
      rw [hs]
      nofun
    simp only [switchStep, hs]
    repeat' split
    all_goals exact hrest hst .ready nofun _ rfl
  | running =>
    have howner : s.workerOwner (.switch childExited) = s.mediamtxPid := by
      simp [workerOwner, hs]
    simp only [switchStep, hs]
    split
    · next hc =>
      -- the disconnect: no exit is unnoticed
      have hnot : s.unnoticed = false := by simpa [branch, hs, hc] using hcareful
      have hat : At
          { s with state := .stopping, workerTh := .running (.disconnecting (.enter false)) }
          (.disconnecting (.enter false)) := by
        refine ⟨?_, fun pid hpid => ?_, nofun, nofun⟩
        · have he := h.exits
          rw [← unnoticed_running hw, hnot] at he
          exact he
        · have ho := h.owner pid hpid
          rwa [howner] at ho
      exact hat.ledger rfl
    · next hc =>
      split
      · next he =>
        subst he
        have hdead := h.childless rfl
        refine (Resting.at ?_ (p := .sleeping) rfl).ledger rfl
        refine h.recorded hdead (.inl hs) rfl (.inl howner) _ rfl ?_ _
        split <;> nofun
      · split
        · next ha =>
          rw [Bool.not_eq_true] at ha
          have hready : State.ready ≠ .running := nofun
          have hresting := h.recorded ha (.inl hs) rfl (.inl howner) .vanished rfl hready
            (.running .sleeping)
          exact (hresting.at (p := .sleeping) rfl).ledger rfl
        · next hno ha =>
          rw [Bool.not_eq_true] at hno
          subst hno
          rw [not_not] at ha
          have hresting := h.resting rfl
          have he := hresting.exits
          rw [hs] at he
          have hsame : Resting { s with state := .running, workerTh := .running .sleeping } :=
            ⟨he, fun pid hpid => ⟨rfl, (hresting.owner pid hpid).2⟩,
              fun _ => hresting.unasked hs, fun hne => absurd rfl hne⟩
          exact (hsame.at rfl).ledger rfl
  | stopping => exact absurd hs hfits
  | error =>
    simp only [switchStep, hs]
    split
    · exact hrest (by rw [hs]; nofun) .ready nofun _ rfl
    · have hl := hrest (by rw [hs]; nofun) s.state (by rw [hs]; nofun) .sleeping rfl
      exact hl

/-- A child is forked: it runs, and nobody has asked it to end. -/
theorem At.fork (h : At s (.starting .enter)) (hst : s.state ≠ .running) (pid : Nat) :
    At { s with children := s.children.fork pid, workerTh := .running (.starting (.forked pid)) }
      (.starting (.forked pid)) := by
  have hfork : s.children.fork pid pid = some {} := update_self ..
  have hexits : s.exits = s.exitCrashes := by
    simpa [Worker.launched, Launch.launched, hst] using h.exits
  refine ⟨?_, fun p hp => ?_, fun _ p c hp hc => ?_, by rintro ⟨⟩⟩
  · have hruns : (s.children.fork pid).runs pid = true := by simp [Table.runs, hfork]
    show s.exits = s.exitCrashes + _
    simpa [current, hruns] using hexits
  · by_contra hne
    have hne : p ≠ pid := fun heq => hne (heq ▸ rfl)
    obtain ⟨c, hc, he, ha⟩ := spontaneous_iff.1 hp
    have hc : update s.children pid (some {}) p = some c := hc
    rw [update_of_ne hne] at hc
    cases (h.none_spontaneous rfl p).symm.trans (spontaneous_iff.2 ⟨c, hc, he, ha⟩)
  · cases hp
    cases hfork.symm.trans hc
    rfl

/-- The pid of a child that is gone is cleared. -/
theorem At.cleared (h : At s (.starting (.reap .clear))) :
    At { s with mediamtxPid := none } (.starting (.reap .clear)) := by
  have hdead := h.childless rfl
  have hnone : s.mediamtxPid.any s.children.runs = false := not_runs_of_dead hdead
  refine ⟨?_, fun pid hpid => ?_, fun _ _ _ hpid => (by cases hpid), fun _ => rfl⟩
  · have he := h.exits
    rw [show s.current (.starting (.reap .clear)) = s.mediamtxPid from rfl, hnone] at he
    exact he
  · have ho := h.owner pid hpid
    cases (not_spontaneous_of_dead hdead ho).symm.trans hpid

/-- `StartMediaMtx`: a new child, an old one that is gone, or a failure. -/
theorem launchStep_ledger {r : Option Nat} {l : Launch} (h : At s (.starting l))
    (hready : s.state = .ready) (hs : s.workerStep r (.starting l) = some t) : Ledger t := by
  have hst : s.state ≠ .running := by
    rw [hready]
    rintro ⟨⟩
  cases l with
  | enter =>
    have hdead := h.childless rfl
    have hexits : s.exits = s.exitCrashes := by
      simpa [Worker.launched, Launch.launched, hst] using h.exits
    have hnone := h.none_spontaneous rfl
    simp only [workerStep, launchStep, hdead, Bool.false_eq_true, if_false] at hs
    cases r with
    | none =>
      cases hs
      have hresting : Resting { s.recordCrash .fork with workerTh := .running .sleeping } := by
        refine .of_dead hdead hst ?_ hnone
        show s.exits = (s.recordCrash .fork).exitCrashes
        rw [exitCrashes_recordCrash, hexits]
        rfl
      exact (hresting.at rfl).ledger rfl
    | some pid =>
      simp only at hs
      cases hused : s.children.exists? pid with
      | true => simp [hused] at hs
      | false =>
        simp only [hused, Bool.false_eq_true, if_false] at hs
        cases hs
        exact (h.fork hst pid).ledger rfl
  | forked pid =>
    cases hs
    have hat : At
        { s with mediamtxPid := some pid, workerTh := .running (.starting .settling) }
        (.starting .settling) :=
      ⟨h.exits, h.owner, fun _ => h.unasked (.inr rfl), by rintro ⟨⟩⟩
    exact hat.ledger rfl
  | settling =>
    simp only [workerStep, launchStep] at hs
    cases ha : s.isMediaMtxAlive with
    | true =>
      simp only [ha, if_true] at hs
      cases hs
      -- from here on the state says that there is a child
      have hresting : Resting { s with state := .running, workerTh := .running .sleeping } := by
        refine ⟨?_, fun pid hpid => ⟨rfl, h.owner pid hpid⟩, fun _ => h.unasked (.inr rfl),
          fun hne => absurd rfl hne⟩
        have he := h.exits
        rw [show (Worker.starting .settling).launched = true from rfl, Bool.or_true] at he
        exact he
      exact (hresting.at rfl).ledger rfl
    | false =>
      simp only [ha, Bool.false_eq_true, if_false] at hs
      cases hs
      have hat : At { s with workerTh := .running (.starting (.reap .wait)) }
          (.starting (.reap .wait)) :=
        ⟨h.exits, h.owner, fun _ => h.unasked (.inr rfl), fun _ => ha⟩
      exact hat.ledger rfl
  | reap q =>
    have hdead := h.childless rfl
    cases q with
    | wait =>
      have hret : s.reapStep .wait = (s, .ret false) := reapStep_wait_of_dead hdead
      simp only [workerStep, launchStep, hret] at hs
      cases hs
      have hresting := h.recorded hdead (.inr rfl) rfl (.inl rfl) .launch rfl hst
        (.running .sleeping)
      exact (hresting.at (p := .sleeping) rfl).ledger rfl
    | clear =>
      cases hs
      have hresting := h.cleared.recorded rfl (.inr rfl) rfl (.inl rfl) .launch rfl hst
        (.running .sleeping)
      exact (hresting.at (p := .sleeping) rfl).ledger rfl

/-- `StopMediaMtx` in the worker. -/
theorem disconnectStep_ledger {r : Option Nat} {c : Halt} (h : At s (.disconnecting c))
    (hstopping : s.state = .stopping) (hs : s.workerStep r (.disconnecting c) = some t) :
    Ledger t := by
  have hexits : s.exits = s.exitCrashes := by
    simpa [Worker.launched, hstopping] using h.exits
  have hdead : ∀ q, c = .reap q → s.isMediaMtxAlive = false := by
    rintro q rfl
    exact h.childless rfl
  obtain ⟨children, pid, hm⟩ := haltStep_manages (s := s) c
  have howner {f : Flow Halt Unit} {u : Manager} (hu : s.haltStep c = (u, f)) {p : Nat}
      (hp : u.spontaneous p = true) := haltStep_owner h.owner hu hp
  simp only [workerStep] at hs
  split at hs
  · next u c' heq =>
    cases hs
    have hreap : ∀ q, c' = .reap q → u.isMediaMtxAlive = false := by
      rintro q rfl
      exact haltStep_reap hdead heq
    have hspont := @howner _ _ heq
    rw [heq] at hm
    cases hm
    have hat : At { s with children := children, mediamtxPid := pid
                           workerTh := .running (.disconnecting c') } (.disconnecting c') := by
      refine ⟨?_, fun p hp => ?_, ?_, fun hc => ?_⟩
      · show s.exits = s.exitCrashes + _
        simpa [Worker.launched, hstopping] using hexits
      · obtain ⟨c'', hgoto, ho⟩ := hspont hp
        cases hgoto
        exact ho
      · rintro (hr | hr)
        · cases hstopping.symm.trans hr
        · cases hr
      · cases c' with
        | reap q => exact hreap q rfl
        | enter | signal | grace | poll | clear => cases hc
    exact hat.ledger rfl
  · next u heq =>
    cases hs
    have hgone := haltStep_ret hdead heq
    have hspont := @howner _ _ heq
    rw [heq] at hm
    cases hm
    have hresting : Resting
        { s with
          children := children, mediamtxPid := pid, lastStopTime := s.now, state := .ready
          workerTh := .running .sleeping } := by
      refine .of_dead hgone (by rintro ⟨⟩) hexits fun p => ?_
      by_contra hno
      rw [Bool.not_eq_false] at hno
      obtain ⟨_, hgoto, -⟩ := hspont hno
      cases hgoto
    exact (hresting.at rfl).ledger rfl

/-- From one place of the loop to another at which nothing is going on. -/
theorem At.plain_step {p q : Worker} (h : At s p) (hp : p.plain = true) (hq : q.plain = true) :
    Ledger { s with workerTh := .running q } := by
  have hresting : Resting { s with workerTh := .running q } := { h.resting hp with }
  exact (hresting.at hq).ledger rfl

/-- `ReapChildIfNeeded` at the head of the loop. -/
theorem reapingStep_ledger {r : Option Nat} {c : Reap} (h : At s (.reaping c))
    (hs : s.workerStep r (.reaping c) = some t) : Ledger t := by
  cases c with
  | wait =>
    have hresting := h.resting rfl
    simp only [workerStep] at hs
    split at hs
    · next u c heq =>
      cases hs
      obtain ⟨rfl, hdead, hruns, hpid⟩ := reapStep_wait_dead heq
      have htame := reapStep_tame s .wait
      obtain ⟨children, pid, hm⟩ := reapStep_manages (s := s) .wait
      rw [heq] at htame hm
      cases hm
      have hat : At
          { s with
            children := children, mediamtxPid := pid, workerTh := .running (.reaping .clear) }
          (.reaping .clear) := by
        refine ⟨?_, fun p hp => ?_, fun hr p c hp hc => ?_, fun _ => hdead⟩
        · have he := hresting.exits
          rw [hruns] at he
          have hnone : pid.any children.runs = false := not_runs_of_dead hdead
          show s.exits = s.exitCrashes + _
          simpa [current, Worker.launched, hnone] using he
        · obtain ⟨hr, hm⟩ := hresting.owner p (htame p hp)
          show (if s.state = .running then pid else none) = some p
          rw [if_pos hr]
          exact hpid.trans hm
        · cases (not_alive_iff.1 hdead p hp).symm.trans hc
      exact hat.ledger rfl
    · next u b heq =>
      have hret : u = s ∧ b = false := by
        simp only [reapStep] at heq
        split at heq
        · cases heq
          exact ⟨rfl, rfl⟩
        · split at heq <;> cases heq
          exact ⟨rfl, rfl⟩
      obtain ⟨rfl, rfl⟩ := hret
      cases hs
      exact h.plain_step rfl rfl
  | clear =>
    cases hs
    have hdead := h.childless rfl
    have hat : At { s with mediamtxPid := none, workerTh := .running (.switch true) }
        (.switch true) := by
      refine ⟨?_, fun p hp => ?_, fun _ _ _ hp => (by cases hp), fun _ => rfl⟩
      · have he := h.exits
        rw [show s.current (.reaping .clear) = s.mediamtxPid from rfl, not_runs_of_dead hdead] at he
        exact he
      · have ho : (if s.state = .running then s.mediamtxPid else none) = some p := h.owner p hp
        split at ho
        · cases (not_spontaneous_of_dead hdead ho).symm.trans hp
        · cases ho
    exact hat.ledger rfl

/-- **A step of the worker keeps the ledger**, where its branch does not go wrong. -/
theorem Ledger.worker {r : Option Nat} {p : Worker} (h : Ledger s) (hp : s.workerTh = .running p)
    (hfits : p.Fits s.state) (hcareful : s.branch r p = true) (hs : s.workerStep r p = some t) :
    Ledger t := by
  have hat := h.at hp
  cases p with
  | loop =>
    simp only [workerStep] at hs
    split at hs <;> cases hs
    · next hq =>
      -- the worker leaves: no exit is unnoticed
      have hnot : s.unnoticed = false := by simpa [branch, hq] using hcareful
      have hexits := h.exits
      rw [hnot] at hexits
      refine ⟨hexits, fun pid hpid => ?_, by rintro _ ⟨⟩, by rintro ⟨⟩⟩
      exact ((hat.resting rfl).owner pid hpid).2
    · exact hat.plain_step rfl rfl
  | sleeping =>
    cases hs
    exact hat.plain_step rfl rfl
  | reaping c => exact reapingStep_ledger hat hs
  | switch childExited =>
    cases hs
    exact switchStep_ledger hat hfits hp hcareful
  | backingOff until_ =>
    simp only [workerStep] at hs
    split at hs <;> cases hs
    refine hat.plain_step rfl ?_
    split <;> rfl
  | preparing =>
    have hready : s.state = .ready := hfits
    have hst : s.state ≠ .running := by
      rw [hready]
      rintro ⟨⟩
    have hdead := hat.childless (by simp [Worker.childless, hst])
    have hexits : s.exits = s.exitCrashes := by
      simpa [Worker.launched, hst] using hat.exits
    have hnone := hat.none_spontaneous (by simp [workerOwner, hst])
    simp only [workerStep] at hs
    split at hs <;> cases hs
    · have hat' : At { s with workerTh := .running (.starting .enter) } (.starting .enter) := by
        refine ⟨?_, fun pid hpid => ?_, ?_, fun _ => hdead⟩
        · show s.exits = s.exitCrashes + _
          simpa [Worker.launched, Launch.launched, hst] using hexits
        · cases (hnone pid).symm.trans hpid
        · rintro (hr | hr)
          · exact absurd hr hst
          · cases hr
      exact hat'.ledger rfl
    · have hresting : Resting { s.recordCrash .config with workerTh := .running .sleeping } := by
        refine .of_dead hdead hst ?_ hnone
        show s.exits = (s.recordCrash .config).exitCrashes
        rw [exitCrashes_recordCrash, hexits]
        rfl
      exact (hresting.at rfl).ledger rfl
  | starting l => exact launchStep_ledger hat hfits hs
  | disconnecting c => exact disconnectStep_ledger hat hfits hs
  | finishing c => exact hfits.elim

/-! ### `Stop` -/

/-- What the rest of `Stop` keeps of the ledger. -/
theorem ledger_of_client (hw : t.workerTh = .none) (hexits : t.exits = t.exitCrashes)
    (howner : ∀ pid, t.spontaneous pid = true → t.clientOwner t.client = some pid)
    (hchildless : t.client.childless = true → t.isMediaMtxAlive = false) : Ledger t where
  exits := by
    rw [unnoticed_of_not_running (by rw [hw]; nofun)]
    exact hexits
  owner pid hpid := by
    rw [Manager.owner, hw]
    exact howner pid hpid
  unasked p hp := by cases hw.symm.trans hp
  childless hc := by
    rw [Manager.childless, hw] at hc
    exact hchildless hc

/-- `StopMediaMtx` and then `ReapChildIfNeeded` in `Stop`. -/
theorem haltingStep_ledger {c : Halt} (hw : s.workerTh = .none) (hexits : s.exits = s.exitCrashes)
    (howner : ∀ pid, s.spontaneous pid = true → s.haltOwner c = some pid)
    (hdead : ∀ q, c = .reap q → s.isMediaMtxAlive = false) :
    (∀ u c', s.haltStep c = (u, .goto c') → Ledger { u with client := .halting c' }) ∧
      ∀ u, s.haltStep c = (u, .ret ()) → Ledger { u with client := .checkingAgain } := by
  obtain ⟨children, pid, hm⟩ := haltStep_manages (s := s) c
  have hspont {f : Flow Halt Unit} {u : Manager} (hu : s.haltStep c = (u, f)) {p : Nat}
      (hp : u.spontaneous p = true) := haltStep_owner howner hu hp
  constructor
  · intro u c' heq
    have hreap : ∀ q, c' = .reap q → u.isMediaMtxAlive = false := by
      rintro q rfl
      exact haltStep_reap hdead heq
    have hsp := @hspont _ _ heq
    rw [heq] at hm
    cases hm
    refine ledger_of_client hw hexits (fun p hp => ?_) fun hc => ?_
    · obtain ⟨c'', hgoto, ho⟩ := hsp hp
      cases hgoto
      exact ho
    · cases c' with
      | reap q => exact hreap q rfl
      | enter | signal | grace | poll | clear => cases hc
  · intro u heq
    have hgone := haltStep_ret hdead heq
    have hsp := @hspont _ _ heq
    rw [heq] at hm
    cases hm
    refine ledger_of_client hw hexits (fun p hp => ?_) fun _ => hgone
    obtain ⟨_, hgoto, -⟩ := hsp hp
    cases hgoto

/-- A step that touches neither the child nor the worker. -/
theorem Ledger.congr (h : Ledger s) (hchildren : t.children = s.children)
    (hpid : t.mediamtxPid = s.mediamtxPid) (hstate : t.state = s.state)
    (hworker : t.workerTh = s.workerTh) (hexits : t.exits = s.exits)
    (hcrashes : t.crashes = s.crashes)
    (howner : s.clientOwner s.client = none ∨
      t.clientOwner t.client = s.clientOwner s.client)
    (hchildless : t.client.childless = true → s.client.childless = true) : Ledger t := by
  have hcurrent (p : Worker) : t.current p = s.current p := by
    unfold current
    split
    · rfl
    · exact hpid
  have hspont (pid : Nat) : t.spontaneous pid = s.spontaneous pid := by
    simp only [spontaneous, hchildren]
  have halive : t.isMediaMtxAlive = s.isMediaMtxAlive := by
    simp only [isMediaMtxAlive, hpid, hchildren]
  have hunnoticed : t.unnoticed = s.unnoticed := by
    simp only [unnoticed, hworker, hstate, hcurrent, hchildren]
  refine ⟨?_, fun pid hp => ?_, fun p hp hr pid c hc hch => ?_, fun hc => ?_⟩
  · rw [hunnoticed, hexits, h.exits]
    simp only [exitCrashes, hcrashes]
  · rw [hspont] at hp
    have hown := h.owner pid hp
    unfold Manager.owner at hown ⊢
    rw [hworker]
    split at hown
    · next p _ =>
      have heq : t.workerOwner p = s.workerOwner p := by
        simp only [workerOwner, haltOwner, hpid, hstate]
      exact heq.trans hown
    · exact hpid.trans hown
    · rcases howner with hnone | hsame
      · cases hnone.symm.trans hown
      · exact hsame.trans hown
  · rw [hworker] at hp
    rw [hstate] at hr
    rw [hcurrent] at hc
    rw [hchildren] at hch
    exact h.unasked p hp hr pid c hc hch
  · rw [halive]
    refine h.childless ?_
    unfold Manager.childless at hc ⊢
    rw [hworker, hstate] at hc
    split at hc
    · exact hc
    · exact hchildless hc
    · exact hc

/-- The ledger once the worker is joined. -/
theorem Ledger.joined (h : Ledger s) {c : Client} (hc : s.client = c) (hw : s.workerTh = .none) :
    s.exits = s.exitCrashes ∧ (∀ pid, s.spontaneous pid = true → s.clientOwner c = some pid) ∧
      (c.childless = true → s.isMediaMtxAlive = false) := by
  subst hc
  refine ⟨?_, fun pid hpid => ?_, fun hc => h.childless ?_⟩
  · have he := h.exits
    rwa [unnoticed_of_not_running (by rw [hw]; rintro _ ⟨⟩)] at he
  · have hown := h.owner pid hpid
    rwa [Manager.owner, hw] at hown
  · rwa [Manager.childless, hw]

/-- `Stop` joins the worker: what the worker owned is now the caller's. -/
theorem Ledger.joiningWorker (h : Ledger s) (hc : s.client = .joiningWorker)
    (hs : s.clientStep .joiningWorker = some t) : Ledger t := by
  simp only [clientStep] at hs
  split at hs
  · cases hs
  · next hnot =>
    cases hs
    refine ledger_of_client rfl ?_ (fun pid hpid => ?_) (by rintro ⟨⟩)
    · have he := h.exits
      rwa [unnoticed_of_not_running hnot] at he
    · have hown := h.owner pid hpid
      unfold Manager.owner at hown
      split at hown
      · next p hp => exact absurd hp (hnot p)
      · exact hown
      · rw [hc] at hown
        exact hown

/-- `Stop` looks whether the child is alive. -/
theorem Ledger.checking (h : Ledger s) (hc : s.client = .checking) (hw : s.workerTh = .none)
    (hs : s.clientStep .checking = some t) : Ledger t := by
  obtain ⟨hexits, howner, -⟩ := h.joined hc hw
  cases hs
  cases ha : s.isMediaMtxAlive with
  | true => exact ledger_of_client hw hexits howner (by rintro ⟨⟩)
  | false =>
    refine ledger_of_client hw hexits (fun pid hpid => ?_) fun _ => ha
    cases (not_spontaneous_of_dead ha (howner pid hpid)).symm.trans hpid

/-- `Stop` asks the child to end, and waits for it. -/
theorem Ledger.halting (h : Ledger s) {c : Halt} (hc : s.client = .halting c)
    (hw : s.workerTh = .none) (hs : s.clientStep (.halting c) = some t) : Ledger t := by
  obtain ⟨hexits, howner, hdead⟩ := h.joined hc hw
  have hreap : ∀ q, c = .reap q → s.isMediaMtxAlive = false := by
    rintro q rfl
    exact hdead rfl
  obtain ⟨hgoto, hret⟩ := haltingStep_ledger hw hexits howner hreap
  simp only [clientStep] at hs
  split at hs <;> next heq =>
    cases hs
    first
      | exact hgoto _ _ heq
      | exact hret _ heq

/-- `Stop` kills the child that has not ended: it was asked to before, so no exit counts. -/
theorem Ledger.killing (h : Ledger s) {c : Halt} (hc : s.client = .killing c)
    (hw : s.workerTh = .none) (hs : s.clientStep (.killing c) = some t) : Ledger t := by
  obtain ⟨hexits, howner, hdead⟩ := h.joined hc hw
  have htame := haltStep_tame s c
  have hreap : ∀ q, c = .reap q → s.isMediaMtxAlive = false := by
    rintro q rfl
    exact hdead rfl
  have hnone {p : Nat} (hp : (s.haltStep c).1.spontaneous p = true) : False := by
    cases howner p (htame p hp)
  obtain ⟨_, _, hm⟩ := haltStep_manages (s := s) c
  simp only [clientStep] at hs
  split at hs
  · next u c' heq =>
    have hstill : ∀ q, c' = .reap q → u.isMediaMtxAlive = false := by
      rintro q rfl
      exact haltStep_reap hreap heq
    rw [heq] at hm hnone
    cases hm
    cases hs
    refine ledger_of_client hw hexits (fun p hp => (hnone hp).elim) fun hcl => ?_
    cases c' with
    | reap q => exact hstill q rfl
    | enter | signal | grace | poll | clear => cases hcl
  · next u heq =>
    have hgone := haltStep_ret hreap heq
    rw [heq] at hm hnone
    cases hm
    cases hs
    exact ledger_of_client hw hexits (fun p hp => (hnone hp).elim) fun _ => hgone

/-- `Stop` reaps what is left. -/
theorem Ledger.reaping (h : Ledger s) {r : Reap} (hc : s.client = .reaping r)
    (hw : s.workerTh = .none) (hs : s.clientStep (.reaping r) = some t) : Ledger t := by
  obtain ⟨hexits, howner, hdead⟩ := h.joined hc hw
  have htame := reapStep_tame s r
  have hstill := reapStep_dead r (hdead rfl)
  obtain ⟨_, _, hm⟩ := reapStep_manages (s := s) r
  simp only [clientStep] at hs
  split at hs <;> next heq =>
    rw [heq] at hm htame hstill
    cases hm
    cases hs
    refine ledger_of_client hw hexits (fun p hp => ?_) fun _ => hstill
    cases howner p (htame p hp)

/-- **The rest of `Stop` keeps the ledger.** -/
theorem Ledger.client (h : Ledger s) (ho : Ordered s) (hs : s.clientStep s.client = some t) :
    Ledger t := by
  have hjoined := ho.joined
  rcases hc : s.client with stopped | _ | _ | _ | c | _ | c | r | _
  all_goals
    rw [hc] at hs hjoined
  case returned => cases hs
  case joiningMonitor =>
    simp only [clientStep] at hs
    split at hs <;> cases hs
    exact h.congr rfl rfl rfl rfl rfl rfl (.inr (by rw [hc]; rfl)) (by rintro ⟨⟩)
  case joiningWorker => exact h.joiningWorker hc hs
  case checking => exact h.checking hc (hjoined rfl) hs
  case halting => exact h.halting hc (hjoined rfl) hs
  case checkingAgain =>
    have hw := hjoined rfl
    obtain ⟨hexits, howner, hdead⟩ := h.joined hc hw
    have ha := hdead rfl
    simp only [clientStep, ha, Bool.false_eq_true, if_false] at hs
    cases hs
    exact ledger_of_client hw hexits howner fun _ => ha
  case killing => exact h.killing hc (hjoined rfl) hs
  case reaping => exact h.reaping hc (hjoined rfl) hs
  case finishing =>
    have hw := hjoined rfl
    obtain ⟨hexits, howner, hdead⟩ := h.joined hc hw
    cases hs
    exact ledger_of_client hw hexits howner fun _ => hdead rfl

/-! ### The step -/

/-- A child that runs unasked under a working manager is the current one. -/
theorem Ledger.current_of_spontaneous (h : Ledger s) {pid : Nat} (hpid : s.spontaneous pid = true)
    (hp : Placed s) (hstop : s.stopping = false) :
    ∃ p, s.workerTh = .running p ∧ (s.state = .running ∨ p.launched = true) ∧
      s.current p = some pid := by
  unfold stopping at hstop
  split at hstop
  · next p hw =>
    have hfits := hp.worker p hw
    have hown := h.owner pid hpid
    rw [Manager.owner, hw] at hown
    refine ⟨p, hw, ?_⟩
    cases p with
    | starting l =>
      cases l with
      | enter => cases hown
      | forked | settling | reap => exact ⟨.inr rfl, hown⟩
    | disconnecting c =>
      have hs : s.state = .stopping := hfits
      simp [hs] at hstop
    | finishing => exact hfits.elim
    | loop | reaping | switch | backingOff | preparing | sleeping =>
      have hown : (if s.state = .running then s.mediamtxPid else none) = some pid := hown
      split at hown
      · next hr => exact ⟨.inl hr, hown⟩
      · cases hown
  · cases hstop

/-- An exit that the manager has not asked for is one more to come to. -/
theorem unnoticed_gone (h : Ledger s) (hp : Placed s) {pid : Nat} {children : Table}
    (hcareful : s.spontaneous pid = true → s.stopping = false)
    (hother : ∀ q, q ≠ pid → children q = s.children q) (hruns : children.runs pid = false) :
    { s with children, exits := s.exits + (s.spontaneous pid).toNat }.unnoticed.toNat =
      s.unnoticed.toNat + (s.spontaneous pid).toNat := by
  cases hsp : s.spontaneous pid with
  | true =>
    obtain ⟨p, hw, hrun, hcur⟩ := h.current_of_spontaneous hsp hp (hcareful hsp)
    have hrun : (s.state = .running || p.launched) = true := by simpa using hrun
    obtain ⟨c, hc, he, -⟩ := spontaneous_iff.1 hsp
    have hold : s.children.runs pid = true := runs_iff.2 ⟨c, hc, he⟩
    have hnew : { s with children, exits := s.exits + true.toNat }.unnoticed =
        ((s.state = .running || p.launched) && !(s.current p).any children.runs) :=
      unnoticed_running (s := { s with children, exits := s.exits + true.toNat }) hw
    rw [unnoticed_running hw, hnew, hrun, hcur, Option.any_some, Option.any_some, hold, hruns]
    rfl
  | false =>
    rw [Bool.toNat_false, Nat.add_zero, Nat.add_zero]
    congr 1
    by_cases hw : ∃ p, s.workerTh = .running p
    · obtain ⟨p, hw⟩ := hw
      rw [unnoticed_running hw, unnoticed_running (s := { s with children }) hw]
      show ((s.state = .running || p.launched) && !(s.current p).any children.runs) = _
      cases hrun : (s.state = .running || p.launched) with
      | false => rfl
      | true =>
        congr 2
        cases hcur : s.current p with
        | none => rfl
        | some q =>
          rw [Option.any_some, Option.any_some]
          rcases eq_or_ne q pid with rfl | hne
          · -- this one had exited before, since nobody asks a child that is kept
            rw [hruns, eq_comm, ← Bool.not_eq_true, runs_iff]
            rintro ⟨c, hc, he⟩
            have hasked := h.unasked p hw (by simpa using hrun) q c hcur hc
            cases hsp.symm.trans (spontaneous_iff.2 ⟨c, hc, he, hasked⟩)
          · simp only [Table.runs, hother q hne]
    · have hnot : ∀ p, s.workerTh ≠ .running p := fun p hp => hw ⟨p, hp⟩
      rw [unnoticed_of_not_running hnot, unnoticed_of_not_running (s := { s with children }) hnot]

/-- A child stops to run: by itself, if the manager had not asked it to. -/
theorem Ledger.gone (h : Ledger s) (hp : Placed s) {pid : Nat} {children : Table}
    (hcareful : s.spontaneous pid = true → s.stopping = false)
    (hother : ∀ q, q ≠ pid → children q = s.children q)
    (hpid : ∀ c, children pid = some c →
      c.exited = true ∧ ∃ c', s.children pid = some c' ∧ c.asked = c'.asked) :
    Ledger { s with children, exits := s.exits + (s.spontaneous pid).toNat } := by
  have hruns : children.runs pid = false := by
    unfold Table.runs
    cases hc : children pid with
    | none => rfl
    | some c => simp [(hpid c hc).1]
  have hsome (q : Nat) (hq : (children q).isSome = true) : (s.children q).isSome = true := by
    rcases eq_or_ne q pid with rfl | hne
    · obtain ⟨c, hc⟩ := Option.isSome_iff_exists.1 hq
      obtain ⟨-, c', hc', -⟩ := hpid c hc
      rw [hc']
      rfl
    · rwa [← hother q hne]
  refine ⟨?_, fun q hq => ?_, fun p hw hr q c hcur hc => ?_, fun hc => ?_⟩
  · show s.exits + (s.spontaneous pid).toNat = s.exitCrashes + _
    rw [unnoticed_gone h hp hcareful hother hruns, h.exits, Nat.add_assoc]
  · -- those that run on are others
    obtain ⟨c, hc, he, ha⟩ := spontaneous_iff.1 hq
    have hc : children q = some c := hc
    have hne : q ≠ pid := by
      rintro rfl
      cases he.symm.trans (hpid c hc).1
    rw [hother q hne] at hc
    exact h.owner q (spontaneous_iff.2 ⟨c, hc, he, ha⟩)
  · rcases eq_or_ne q pid with rfl | hne
    · obtain ⟨-, c', hc', hasked⟩ := hpid c hc
      rw [hasked]
      exact h.unasked p hw hr q c' hcur hc'
    · have hc : children q = some c := hc
      rw [hother q hne] at hc
      exact h.unasked p hw hr q c hcur hc
  · have hdead := h.childless hc
    refine not_alive_iff.2 fun q hq => ?_
    by_contra hne
    have := hsome q (Option.isSome_iff_ne_none.2 hne)
    rw [not_alive_iff.1 hdead q hq] at this
    cases this

/-- An exit counts if the child ran by itself. -/
theorem childExit_exits (s : Manager) (pid : Nat) :
    (s.childExit pid).exits = s.exits + (s.spontaneous pid).toNat := by
  simp only [childExit, spontaneous]
  cases s.children pid with
  | none => rfl
  | some c => cases he : c.exited <;> cases ha : c.asked <;> simp [he, ha]

/-- A child that exits is one that the worker has yet to notice, unless it was asked to. -/
theorem Ledger.exit (h : Ledger s) (hp : Placed s) {pid : Nat}
    (hcareful : s.spontaneous pid = true → s.stopping = false) : Ledger (s.childExit pid) := by
  have heq : s.childExit pid =
      { s with
        children := s.children.exit pid, exits := s.exits + (s.spontaneous pid).toNat } := by
    rw [← childExit_exits]
    rfl
  rw [heq]
  refine h.gone hp hcareful (fun q hq => update_of_ne hq ..) fun c hc => ?_
  have hc : update s.children pid _ pid = some c := hc
  rw [update_self] at hc
  obtain ⟨c', hc', rfl⟩ := Option.map_eq_some_iff.1 hc
  exact ⟨rfl, c', hc', rfl⟩

/-- And so is one that is gone at once. -/
theorem Ledger.vanish (h : Ledger s) (hp : Placed s) {pid : Nat}
    (hcareful : s.spontaneous pid = true → s.stopping = false) : Ledger (s.childVanish pid) := by
  have heq : s.childVanish pid =
      { s with
        children := s.children.free pid, exits := s.exits + (s.spontaneous pid).toNat } := by
    rw [← childExit_exits]
    rfl
  rw [heq]
  refine h.gone hp hcareful (fun q hq => update_of_ne hq ..) fun c hc => ?_
  have hc : update s.children pid none pid = some c := hc
  rw [update_self] at hc
  cases hc

/-- Between the sessions there is no child that could exit. -/
theorem Ledger.returned (h : Ledger s) (hr : s.client.isReturned = true)
    (hw : s.workerTh = .none) :
    s.exits = s.exitCrashes ∧ (∀ pid, s.spontaneous pid = false) ∧ s.isMediaMtxAlive = false := by
  obtain ⟨stopped, hc⟩ : ∃ stopped, s.client = .returned stopped := by
    revert hr
    cases s.client <;> simp [Client.isReturned]
  refine ⟨?_, fun pid => ?_, h.childless ?_⟩
  · have he := h.exits
    rwa [unnoticed_of_not_running (by rw [hw]; nofun)] at he
  · by_contra hno
    rw [Bool.not_eq_false] at hno
    have hown := h.owner pid hno
    rw [Manager.owner, hw, hc] at hown
    cases hown
  · rw [Manager.childless, hw, hc]
    rfl

/-- `Init` keeps the ledger. -/
theorem Ledger.init (h : Ledger s) (hp : Placed s) (hr : s.client.isReturned = true)
    (config : PodConfig) (executable writable : Bool) :
    Ledger { s.init config executable writable with client := .returned false } := by
  cases hi : s.inited with
  | true =>
    rw [init_of_inited hi]
    refine h.congr rfl rfl rfl rfl rfl rfl (.inl ?_) fun _ => ?_
    all_goals
      revert hr
      cases s.client <;> simp [Client.isReturned, clientOwner, Client.childless]
  | false =>
    have hw := hp.ordered.worker hi
    obtain ⟨hexits, hnone, hdead⟩ := h.returned hr hw
    obtain ⟨_, _, _, heq, -⟩ := init_eq hi config executable writable
    rw [heq]
    refine ledger_of_client hw hexits (fun pid hpid => ?_) fun _ => hdead
    cases (hnone pid).symm.trans hpid

/-- `Start` keeps the ledger: there is no child that it does not know. -/
theorem Ledger.start (h : Ledger s) (hp : Placed s) (hr : s.client.isReturned = true) :
    Ledger { s.start with client := .returned false } := by
  rcases start_eq s with heq | ⟨⟨-, -, -, hw⟩, heq⟩ <;> rw [heq]
  · refine h.congr rfl rfl rfl rfl rfl rfl (.inl ?_) fun _ => ?_
    all_goals
      revert hr
      cases s.client <;> simp [Client.isReturned, clientOwner, Client.childless]
  · obtain ⟨hexits, hnone, hdead⟩ := h.returned hr hw
    have hst : s.state ≠ .running := by
      rcases hp.returned hr hw with hs | hs <;> rw [hs] <;> nofun
    have hresting : Resting
        { s with
          quit := false, monitorTh := .running (.loop 0 0), workerTh := .running .loop
          probes := [], client := .returned false } :=
      .of_dead hdead hst hexits hnone
    exact (hresting.at rfl).ledger rfl

/-- **Every careful step keeps the ledger.** -/
theorem Ledger.step {l : Label} (h : Ledger s) (hp : Placed s) (hcareful : Careful s l = true)
    (hs : step s l = some t) : Ledger t := by
  cases l with
  | init config executable writable =>
    simp only [PodStream.step] at hs
    split at hs <;> cases hs
    next hc => exact h.init hp (by rw [hc]; rfl) config executable writable
  | start =>
    simp only [PodStream.step] at hs
    split at hs <;> cases hs
    next hc => exact h.start hp (by rw [hc]; rfl)
  | stop =>
    simp only [PodStream.step] at hs
    split at hs <;> cases hs
    next hc =>
    have howner : s.clientOwner s.client = none := by rw [hc]; rfl
    unfold Manager.stop
    split
    · exact h.congr rfl rfl rfl rfl rfl rfl (.inl howner) fun _ => by rw [hc]; rfl
    · exact h.congr rfl rfl rfl rfl rfl rfl (.inl howner) (by rintro ⟨⟩)
  | client => exact h.client hp.ordered hs
  | monitor ok =>
    simp only [PodStream.step] at hs
    split at hs <;> cases hs
    next p hm =>
    cases p <;> cases ok <;> exact h.congr rfl rfl rfl rfl rfl rfl (.inr rfl) id
  | worker r =>
    simp only [PodStream.step] at hs
    split at hs
    · next p hw =>
      simp only [Careful, hw] at hcareful
      exact h.worker hw (hp.worker p hw) hcareful hs
    · cases hs
  | childExit pid =>
    cases hs
    exact h.exit hp (of_decide_eq_true hcareful)
  | childVanish pid =>
    cases hs
    exact h.vanish hp (of_decide_eq_true hcareful)
  | tick ns =>
    cases hs
    exact h.congr rfl rfl rfl rfl rfl rfl (.inr rfl) id

/-! ## The promise -/

/-- In `kError` the switch looks at the record and nothing else. -/
theorem switch_error {childExited : Bool} {r : Option Nat} (herror : s.state = .error)
    (hw : s.workerTh = .running (.switch childExited)) (hs : step s (.worker r) = some t) :
    t.state = if s.isCrashingTooOften then .error else .ready := by
  simp only [step, hw, workerStep, switchStep, herror] at hs
  cases hs
  cases ho : s.isCrashingTooOften <;> simp [herror]

/-- The worker comes to `kError` with a full record, which nothing prunes. -/
def Full (s : Manager) : Prop := s.state = .error → s.isCrashingTooOften = true

/-- **Every step keeps the record full** in `kError`. -/
theorem Full.step {l : Label} (h : Full s) (hp : Placed s) (hs : step s l = some t) : Full t := by
  cases l with
  | init config executable writable =>
    simp only [PodStream.step] at hs
    split at hs <;> cases hs
    cases hi : s.inited with
    | true =>
      rw [init_of_inited hi]
      exact h
    | false =>
      obtain ⟨_, _, _, heq, hstate⟩ := init_eq hi config executable writable
      rw [heq]
      intro he
      rcases hstate with ⟨-, hst⟩ | ⟨-, hst⟩ | ⟨-, -, hst⟩
      · cases (hst.trans (hp.idle hi)).symm.trans he
      · cases hst.symm.trans he
      · cases hst.symm.trans he
  | start =>
    simp only [PodStream.step] at hs
    split at hs <;> cases hs
    rcases start_eq s with heq | ⟨-, heq⟩ <;> rw [heq] <;> exact h
  | stop =>
    simp only [PodStream.step] at hs
    split at hs <;> cases hs
    unfold Manager.stop
    split <;> exact h
  | client =>
    have hst := clientStep_stops hs
    intro he
    rcases clientStep_state hs with ⟨hstate, -⟩ | ⟨-, rfl⟩
    · rw [isCrashingTooOften, hst.config, hst.crashTimestamps]
      exact h (hstate ▸ he)
    · cases he
  | monitor ok =>
    simp only [PodStream.step] at hs
    split at hs <;> cases hs
    next p hm => cases p <;> cases ok <;> exact h
  | worker r =>
    simp only [PodStream.step] at hs
    split at hs
    · next p hw =>
      have hworks := workerStep_works hs
      intro he
      cases workerStep_records (hp.worker p hw) hs with
      | same crashes stamps state =>
        rcases state with hst | ⟨-, hactive⟩
        · rw [isCrashingTooOften, hworks.config, stamps]
          exact h (hst ▸ he)
        · rw [he] at hactive
          cases hactive
      | recover crashes stamps error rare state place => cases state.symm.trans he
      | record cause crashes stamps active state affords => cases state.symm.trans he
      | tested crashes stamps active state =>
        rw [isCrashingTooOften, hworks.config, stamps]
        by_contra hno
        have hno : (s.recordCrash .exit).isCrashingTooOften = false := Bool.eq_false_iff.2 hno
        rw [hno] at state
        cases state.symm.trans he
    · cases hs
  | childExit pid | childVanish pid | tick ns =>
    cases hs
    exact h

/-- **`kError` is final**: no look at it leaves it, in any run. -/
theorem error_stays {ls : List Label} (hrun : run step {} ls = some s) {childExited : Bool}
    {r : Option Nat} (herror : s.state = .error)
    (hw : s.workerTh = .running (.switch childExited)) (hs : step s (.worker r) = some t) :
    t.state = .error := by
  have hfull : Placed s ∧ Full s :=
    run_invariant (P := fun s => Placed s ∧ Full s)
      (fun _ _ _ h hs => ⟨h.1.step hs, h.2.step h.1 hs⟩) ⟨.initial, nofun⟩ hrun
  rw [switch_error herror hw hs, hfull.2 herror]
  rfl

/-- The states, the window and the ledger make the budget. -/
theorem budgeted (hp : Placed s) (hb : InBudget s) (hl : Ledger s) : Budgeted s where
  start hw := by
    have hready : s.state = .ready := hp.worker _ hw
    exact hb.left (by rw [hready]; rfl)
  exits := hl.exits

/-- A careful look at `kError` leaves it if crashes are left, and only then. -/
theorem recovers {l : Label} (hb : InBudget s) (hcareful : Careful s l = true)
    (hs : step s l = some t) : Recovers s l t := by
  rintro childExited r he hw rfl
  have hex : s.exhausted = true := by simpa [Careful, hw, branch, he] using hcareful
  have hne : s.state ≠ .idle := by
    rw [he]
    nofun
  have hfull := tooOften_of_exhausted (hb.limit hne) (hb.agrees hne) hex
  rw [switch_error he hw hs, hfull]
  have hle := of_decide_eq_true hex
  constructor
  · nofun
  · intro hlt
    omega

/-- A new manager has nothing recorded. -/
theorem InBudget.initial : InBudget {} :=
  ⟨fun h => absurd rfl h, fun h => absurd rfl h, nofun⟩

/-- A new manager has no child. -/
theorem Ledger.initial : Ledger {} :=
  ⟨rfl, nofun, nofun, fun _ => rfl⟩

/-- **The crash budget**, in every state and every step of a run that is careful throughout. -/
theorem budgeted_of_run {ls : List Label} (hlimits : ∀ l ∈ ls, l.Limits)
    (hcareful : Along step (fun s l => Careful s l = true) {} ls) (h : run step {} ls = some s) :
    Budgeted s ∧ ∀ pre l post m t, ls = pre ++ l :: post → run step {} pre = some m →
      step m l = some t → Recovers m l t := by
  have hkeep (pre : List Label) (m : Manager) (hpre : pre <+: ls) (hm : run step {} pre = some m) :
      Placed m ∧ InBudget m ∧ Ledger m := by
    obtain ⟨post, rfl⟩ := hpre
    have hboth : Along step (fun s l => Careful s l = true ∧ l.Limits) {} pre := by
      rw [along_iff] at hcareful ⊢
      intro before l after heq n hn
      refine ⟨hcareful before l (after ++ post) (by rw [heq]; simp) n hn, hlimits l ?_⟩
      rw [heq]
      simp
    exact run_along (P := fun s => Placed s ∧ InBudget s ∧ Ledger s)
      (fun _ _ _ hc ⟨hp, hb, hl⟩ hs =>
        ⟨hp.step hs, hb.step hp hc.2 hc.1 hs, hl.step hp hc.1 hs⟩)
      ⟨.initial, .initial, .initial⟩ hboth hm
  constructor
  · obtain ⟨hp, hb, hl⟩ := hkeep ls s (List.prefix_refl ls) h
    exact budgeted hp hb hl
  · intro pre l post m t heq hm hs
    obtain ⟨-, hb, -⟩ := hkeep pre m ⟨l :: post, heq.symm⟩ hm
    exact recovers hb (along_iff.1 hcareful pre l post heq m hm) hs

/-- The default with a limit. -/
def limited (maxCrashCount : Int) : PodConfig := { quickConfig with maxCrashCount }

/-- Up to where the worker is about to write the configuration. -/
def connect (maxCrashCount : Int) : List Label :=
  [.init (limited maxCrashCount) true true, .start, .monitor true, .monitor true,
    .tick 2000000000, .worker none, .worker none, .worker none]

/-- The child is launched, and exits by itself. -/
def exitByItself : List Label :=
  [.worker (some 7), .worker (some 7), .worker none, .worker none, .childExit 7, .worker none,
    .worker none, .worker none, .worker none, .worker none]

/-- A child that exits by itself is recorded, and the worker goes on. -/
theorem budgeted_of_exit :
    ∃ ls s, run step {} (connect 2 ++ ls) = some s ∧ s.exits = 1 ∧ s.state = .ready ∧
      Budgeted s := by
  have h : (run step {} (connect 2 ++ exitByItself)).map (fun s => (s.exits, s.state)) =
      some (1, .ready) := by
    decide +kernel
  obtain ⟨s, hrun, hs⟩ := Option.map_eq_some_iff.1 h
  obtain ⟨hexits, hstate⟩ := Prod.mk.inj hs
  exact ⟨exitByItself, s, hrun, hexits, hstate, (budgeted_of_run (by decide) (by decide) hrun).1⟩

/-- The configuration cannot be written, and the next session begins. -/
def failedWrite : List Label :=
  [.worker none, .worker none, .worker none, .worker none, .worker none, .tick 1000000000,
    .worker none, .worker (some 7)]

/-- After a configuration that could not be written `StartMediaMtx` is called with no crash
left. -/
theorem not_budgeted :
    ¬ ∀ ls s, (∀ l ∈ ls, l.Limits) → run step {} ls = some s →
      Budgeted s ∧ ∀ pre l post m t, ls = pre ++ l :: post → run step {} pre = some m →
        step m l = some t → Recovers m l t := by
  intro h
  have hrun : (run step {} (connect 1 ++ failedWrite)).map
      (fun s => (s.workerTh, decide ((s.inWindow : Int) < s.config.maxCrashCount))) =
        some (.running (.starting .enter), false) := by
    decide +kernel
  obtain ⟨s, hs, heq⟩ := Option.map_eq_some_iff.1 hrun
  obtain ⟨hworker, hfull⟩ := Prod.mk.inj heq
  exact absurd ((h (connect 1 ++ failedWrite) s (by decide) hs).1.start hworker)
    (of_decide_eq_false hfull)

end PodStream
