import FastCppServer.MyMediamtxMonitor.RtspRelayMonitor

/-!
# What the relay monitor knows of its child

At every point of `MonitorLoop` and of `Stop`, the code goes by a pid that it has read: there is no
child but the one with that pid, or none at all (`Loop.Knows`, `Caller.Knows`). Only a `fork` can
make this wrong, where a `Stop` has already read `relay_pid_`. So a `Stop` leaves no child behind,
if no `fork` comes after its read and the read does not come between a `fork` and the store of the
pid (`Careful`).

A child that has exited answers `kill(pid, 0)` until somebody waits for it, and `CheckProcessAlive`
does not wait for a child that answers: it never finds one that has exited (`detects_iff`).
-/

namespace MyMediamtxMonitor

open Function Process Transition RtspRelayMonitor

variable {s t : RtspRelayMonitor} {l : Label}

/-! ## What is promised -/

/-- A thread is in `Start`. -/
def Caller.starting : Caller → Bool
  | .configured | .checking | .raising | .spawning => true
  | _ => false

/-- A step of a monitor that supervises its child: a liveness check finds out that the child has
exited, and when a `Stop` returns there is no child, nor will there be one until the next
`Start`. -/
structure Supervises (s : RtspRelayMonitor) (l : Label) (t : RtspRelayMonitor) : Prop where
  detects : ∀ r pid, l = .monitor r → s.monitorThread = .running (.probing pid) →
    s.children.waitpid pid = .exited → t.monitorThread = .running .rereading
  stopped : ∀ i, l = .caller i → s.callers i = .finishing → ∀ p, t.children p = none
  staysStopped : ∀ i, l = .caller i → s.callers i = .finishing → t.monitorThread = .none →
    (∀ i, (t.callers i).starting = false) → ∀ us u, run step t us = some u → (∀ i, .start i ∉ us) →
    ∀ p, u.children p = none

/-- The child has not exited when a liveness check comes. -/
def ChecksLive (s : RtspRelayMonitor) (l : Label) : Prop :=
  ∀ r pid, l = .monitor r → s.monitorThread = .running (.probing pid) →
    s.children.waitpid pid ≠ .exited

/-- `Stop` has read `relay_pid_`. -/
def Halt.read : Halt → Bool
  | .enter => false
  | _ => true

/-- A `Stop` has read `relay_pid_`, and has not returned. -/
def Caller.decided : Caller → Bool
  | .halting h => h.read
  | .joinable | .joining | .finishing => true
  | _ => false

/-- The pid of a new child has not been stored. -/
def RtspRelayMonitor.Launching (s : RtspRelayMonitor) : Prop :=
  ∃ pid, s.monitorThread = .running (.forked pid)

/-- No liveness check comes to a child that has exited, and no `Stop` reads the pid while a child is
being launched. -/
structure Careful (s : RtspRelayMonitor) (l : Label) : Prop where
  live : ChecksLive s l
  fork : ∀ pid, l = .monitor (some pid) → s.monitorThread = .running .fork →
    ∀ i, (s.callers i).decided = false
  read : ∀ i, l = .caller i → s.callers i = .halting .enter → ¬ s.Launching

/-! ## What the code knows -/

/-- What `StopProcess` goes by: there is no child but that of the pid it has read. -/
def Halt.Knows (t : Table) : Halt → Prop
  | .enter => True
  | .term pid | .poll pid _ | .check pid | .kill pid | .wait pid => t.Within (some pid)
  | .clear => t.Within none

/-- What the monitor thread goes by. -/
def Loop.Knows (t : Table) : Loop → Prop
  | .halting _ h => h.Knows t
  | .probing pid | .forked pid => t.Within (some pid)
  | .rereading | .reaping _ | .clearing | .port | .yaml | .fork => t.Within none
  | .head | .sleeping _ | .awake | .enabled | .source | .setting _ | .alive => True

/-- What a caller goes by. -/
def Caller.Knows (t : Table) : Caller → Prop
  | .halting h => h.Knows t
  | .joinable | .joining | .finishing => t.Within none
  | .out | .configured | .checking | .raising | .spawning | .lowering => True

/-- Fewer children, or none more. -/
def Fewer (t' t : Table) : Prop := ∀ q, t.Within q → t'.Within q

/-- Fewer children leave it right. -/
theorem Halt.Knows.mono {t t' : Table} {h : Halt} (hfew : Fewer t' t) (hk : h.Knows t) :
    h.Knows t' := by
  cases h with
  | enter => trivial
  | clear => exact hfew _ hk
  | term pid => exact hfew _ hk
  | poll pid i => exact hfew _ hk
  | check pid => exact hfew _ hk
  | kill pid => exact hfew _ hk
  | wait pid => exact hfew _ hk

/-- Fewer children leave it right. -/
theorem Loop.Knows.mono {t t' : Table} {p : Loop} (hfew : Fewer t' t) (hk : p.Knows t) :
    p.Knows t' := by
  cases p with
  | halting after h => exact Halt.Knows.mono hfew hk
  | probing pid | forked pid => exact hfew _ hk
  | rereading | reaping pid | clearing | port | yaml | fork => exact hfew _ hk
  | _ => trivial

/-- Fewer children leave it right. -/
theorem Caller.Knows.mono {t t' : Table} {c : Caller} (hfew : Fewer t' t) (hk : c.Knows t) :
    c.Knows t' := by
  cases c with
  | halting h => exact Halt.Knows.mono hfew hk
  | joinable | joining | finishing => exact hfew _ hk
  | _ => trivial

/-- A `Stop` that has not read `relay_pid_` knows nothing. -/
theorem Caller.knows_of_undecided {t : Table} {c : Caller} (h : c.decided = false) : c.Knows t := by
  cases c with
  | halting c =>
    cases c with
    | enter => trivial
    | _ => cases h
  | joinable | joining | finishing => cases h
  | _ => trivial

/-- What holds at every point of a careful run. -/
structure Tidy (s : RtspRelayMonitor) : Prop where
  stored : ¬ s.Launching → s.children.Within s.relayPid
  loop : ∀ p, s.monitorThread = .running p → p.Knows s.children
  callers : ∀ i, (s.callers i).Knows s.children
  apart : s.Launching → ∀ i, (s.callers i).decided = false

/-- At first there is no child. -/
theorem Tidy.initial : Tidy {} where
  stored _ := by
    intro p hp
    cases hp
  loop p hp := by cases hp
  callers _ := trivial
  apart _ _ := rfl

/-- No child more. -/
theorem fewer_refl (t : Table) : Fewer t t := fun _ h => h

/-- A signal makes no child. -/
theorem fewer_signal {t : Table} {pid : Nat} {sig : Signal} : Fewer (t.signal pid sig) t :=
  fun _ h => h.signal

/-- An exit makes no child. -/
theorem fewer_exit {t : Table} {pid : Nat} : Fewer (t.exit pid) t := fun _ h => h.exit

/-- Reaping makes no child. -/
theorem fewer_free {t : Table} {pid : Nat} : Fewer (t.free pid) t := fun _ h => h.free

/-- `StopRelayProcess` takes children away only. -/
theorem haltStep_frame {h : Halt} {f : Flow} (hstep : s.haltStep h = some (t, f)) :
    t = { s with relayPid := t.relayPid, children := t.children } ∧
      Fewer t.children s.children := by
  unfold haltStep at hstep
  cases h with
  | enter =>
    dsimp only at hstep
    split at hstep <;> cases hstep <;> exact ⟨rfl, fewer_refl _⟩
  | term pid => cases hstep; exact ⟨rfl, fewer_signal⟩
  | poll pid i =>
    dsimp only at hstep
    split at hstep <;> cases hstep <;> exact ⟨rfl, fewer_refl _⟩
  | check pid => cases hstep; exact ⟨rfl, fewer_refl _⟩
  | kill pid => cases hstep; exact ⟨rfl, fewer_signal⟩
  | wait pid =>
    dsimp only at hstep
    split at hstep <;> cases hstep
    · exact ⟨rfl, fewer_free⟩
    · exact ⟨rfl, fewer_refl _⟩
  | clear => cases hstep; exact ⟨rfl, fewer_refl _⟩

/-- And it ends with none, if it knows its child. -/
structure Halted (t : RtspRelayMonitor) (f : Flow) : Prop where
  stored : t.children.Within t.relayPid
  goto : ∀ h, f = .goto h → h.Knows t.children ∧ h.read = true
  ret : f = .ret → t.children.Within none

/-- `StopProcess` ends without a child. -/
theorem haltStep_halted {h : Halt} {f : Flow} (hstored : s.children.Within s.relayPid)
    (hk : h.Knows s.children) (hstep : s.haltStep h = some (t, f)) : Halted t f := by
  have hgo : ∀ {h : Halt}, h.Knows s.children → h.read = true → Halted s (.goto h) :=
    fun hk hread => ⟨hstored, by rintro _ ⟨⟩; exact ⟨hk, hread⟩, by rintro ⟨⟩⟩
  unfold haltStep at hstep
  cases h with
  | enter =>
    dsimp only at hstep
    split at hstep
    · next hpid =>
      cases hstep
      exact ⟨hstored, by rintro _ ⟨⟩, fun _ => hpid ▸ hstored⟩
    · next pid hpid =>
      cases hstep
      rw [hpid] at hstored
      exact hgo hstored rfl
  | term pid =>
    cases hstep
    exact ⟨hstored.signal, by rintro _ ⟨⟩; exact ⟨hk.signal, rfl⟩, by rintro ⟨⟩⟩
  | poll pid i =>
    dsimp only at hstep
    split at hstep
    · cases hstep
      exact hgo hk rfl
    · cases hstep
      exact hgo hk rfl
  | check pid =>
    cases hstep
    split
    · exact hgo hk rfl
    · exact hgo hk rfl
  | kill pid =>
    cases hstep
    exact ⟨hstored.signal, by rintro _ ⟨⟩; exact ⟨hk.signal, rfl⟩, by rintro ⟨⟩⟩
  | wait pid =>
    dsimp only at hstep
    split at hstep
    · cases hstep
    · cases hstep
      exact ⟨hstored.free, by rintro _ ⟨⟩; exact ⟨hk.free_self, rfl⟩, by rintro ⟨⟩⟩
    · next herror =>
      cases hstep
      exact hgo (hk.absent (Table.waitpid_error_iff.1 herror)) rfl
  | clear =>
    cases hstep
    exact ⟨hk, by rintro _ ⟨⟩, fun _ => hk⟩

/-! ## What one step keeps -/

/-- The monitor thread has a child whose pid it has not stored. -/
def Loop.launching : Loop → Bool
  | .forked _ => true
  | _ => false

/-- A monitor thread elsewhere launches nothing. -/
theorem not_launching {p : Loop} (h : s.monitorThread = .running p) (hp : p.launching = false) :
    ¬ s.Launching := by
  rintro ⟨pid, hpid⟩
  obtain rfl := Thread.running.inj (h.symm.trans hpid)
  cases hp

/-- The monitor thread goes on, and there is no child more. -/
theorem Tidy.loopStep (h : Tidy s) {p : Loop} (hcallers : t.callers = s.callers)
    (hthread : t.monitorThread = .running p) (hp : p.launching = false)
    (hfew : Fewer t.children s.children) (hstored : t.children.Within t.relayPid)
    (hk : p.Knows t.children) : Tidy t where
  stored _ := hstored
  loop q hq := by
    rw [hthread] at hq
    cases hq
    exact hk
  callers i := by
    rw [hcallers]
    exact (h.callers i).mono hfew
  apart hlaunching := absurd hlaunching (not_launching hthread hp)

/-- A thread in `Start` or `Stop` goes on. -/
theorem Tidy.callerStep (h : Tidy s) {i : Nat} {c : Caller}
    (hcallers : t.callers = update s.callers i c) (hthread : t.monitorThread = s.monitorThread)
    (hfew : Fewer t.children s.children) (hstored : ¬ s.Launching → t.children.Within t.relayPid)
    (hk : c.Knows t.children) (hdecided : c.decided = true → ¬ s.Launching) : Tidy t where
  stored hlaunching := hstored fun ⟨pid, hpid⟩ => hlaunching ⟨pid, hthread.trans hpid⟩
  loop p hp := (h.loop p (hthread.symm.trans hp)).mono hfew
  callers j := by
    rw [hcallers]
    rcases eq_or_ne j i with rfl | hne
    · rw [update_self]
      exact hk
    · rw [update_of_ne hne]
      exact (h.callers j).mono hfew
  apart := by
    rintro ⟨pid, hpid⟩ j
    have hlaunching : s.Launching := ⟨pid, hthread.symm.trans hpid⟩
    rw [hcallers]
    rcases eq_or_ne j i with rfl | hne
    · rw [update_self]
      cases hc : c.decided with
      | false => rfl
      | true => exact absurd hlaunching (hdecided hc)
    · rw [update_of_ne hne]
      exact h.apart hlaunching j

/-- The monitor thread goes on, and changes nothing else that matters here. -/
theorem Tidy.goto (h : Tidy s) {p q : Loop} (hp : s.monitorThread = .running p)
    (hlaunching : p.launching = false) (hq : q.launching = false) (hk : q.Knows s.children) :
    Tidy (s.loopAt q) :=
  h.loopStep rfl rfl hq (fewer_refl _) (h.stored (not_launching hp hlaunching)) hk

/-- The monitor thread begins, ends or is joined. -/
theorem Tidy.thread (h : Tidy s) {th : Thread Loop} (hnot : ¬ s.Launching)
    (hth : ∀ p, th = .running p → p.Knows s.children ∧ p.launching = false) :
    Tidy { s with monitorThread := th } where
  stored _ := h.stored hnot
  loop p hp := (hth p hp).1
  callers := h.callers
  apart := by
    rintro ⟨pid, hpid⟩
    have hlaunching := (hth _ hpid).2
    cases hlaunching

/-- The monitor thread ends, and has launched nothing. -/
theorem Tidy.exit (h : Tidy s) {p : Loop} (hp : s.monitorThread = .running p)
    (hlaunching : p.launching = false) : Tidy { s with monitorThread := .exited } :=
  h.thread (not_launching hp hlaunching) (by rintro p ⟨⟩)

/-- The monitor thread goes on in its own `StopProcess`. -/
theorem Tidy.halting (h : Tidy s) {r : Option Nat} {after : RtspRelayState} {c : Halt}
    (hp : s.monitorThread = .running (.halting after c))
    (hstep : s.loopStep r (.halting after c) = some t) : Tidy t := by
  have hk := h.loop _ hp
  have hstored := h.stored (not_launching hp rfl)
  unfold RtspRelayMonitor.loopStep at hstep
  dsimp only at hstep
  split at hstep
  · cases hstep
  · next m h' hhalt =>
    cases hstep
    obtain ⟨hrest, hfew⟩ := haltStep_frame hhalt
    obtain ⟨hstored, hgoto, -⟩ := haltStep_halted hstored hk hhalt
    refine h.loopStep ?_ rfl rfl hfew hstored (hgoto _ rfl).1
    rw [hrest]
    rfl
  · next m hhalt =>
    cases hstep
    obtain ⟨hrest, hfew⟩ := haltStep_frame hhalt
    obtain ⟨hstored, -, -⟩ := haltStep_halted hstored hk hhalt
    refine h.loopStep ?_ rfl rfl hfew hstored trivial
    rw [hrest]
    rfl

/-- It reads the pid of the child it watches. -/
theorem Tidy.alive (h : Tidy s) {r : Option Nat}
    (hp : s.monitorThread = .running .alive) (hstep : s.loopStep r .alive = some t) : Tidy t := by
  have hstored := h.stored (not_launching hp rfl)
  unfold RtspRelayMonitor.loopStep at hstep
  dsimp only at hstep
  split at hstep
  · next hpid =>
    cases hstep
    rw [hpid] at hstored
    exact h.goto hp rfl rfl hstored
  · next pid hpid =>
    cases hstep
    rw [hpid] at hstored
    exact h.goto hp rfl rfl hstored

/-- It reaps the child that is gone, if the child is still there to be waited for. -/
theorem Tidy.reaping (h : Tidy s) {r : Option Nat} {pid : Option Nat}
    (hp : s.monitorThread = .running (.reaping pid))
    (hstep : s.loopStep r (.reaping pid) = some t) : Tidy t := by
  have hk := h.loop _ hp
  unfold RtspRelayMonitor.loopStep at hstep
  dsimp only at hstep
  split at hstep
  · cases hstep
    exact h.goto hp rfl rfl hk
  · split at hstep
    · cases hstep
      exact h.loopStep rfl rfl rfl fewer_free (h.stored (not_launching hp rfl)).free hk.free
    · cases hstep
      exact h.goto hp rfl rfl hk

/-- It forks a child, and no `Stop` goes by a pid read before. -/
theorem Tidy.fork (h : Tidy s) {r : Option Nat} (hcareful : Careful s (.monitor r))
    (hp : s.monitorThread = .running .fork) (hstep : s.loopStep r .fork = some t) : Tidy t := by
  have hk := h.loop _ hp
  unfold RtspRelayMonitor.loopStep at hstep
  dsimp only at hstep
  split at hstep
  · cases hstep
    exact h.goto hp rfl rfl trivial
  · next pid =>
    split at hstep
    · cases hstep
    · cases hstep
      -- the one step that makes a child: no `Stop` has read what is now out of date
      have hundecided := hcareful.fork pid rfl hp
      refine ⟨fun hlaunching => absurd ⟨pid, rfl⟩ hlaunching, ?_, ?_, fun _ => hundecided⟩
      · intro q hq
        cases hq
        exact hk.fork
      · intro i
        exact Caller.knows_of_undecided (hundecided i)

/-- **A careful step of the monitor thread keeps it.** -/
theorem Tidy.loop_step (h : Tidy s) {r : Option Nat} (hcareful : Careful s (.monitor r)) {p : Loop}
    (hp : s.monitorThread = .running p) (hstep : s.loopStep r p = some t) : Tidy t := by
  have hk := h.loop p hp
  cases p with
  | head =>
    cases hstep
    split
    · exact h.goto hp rfl rfl trivial
    · exact h.exit hp rfl
  | sleeping i =>
    cases hstep
    split
    · exact h.goto hp rfl rfl trivial
    · exact h.goto hp rfl rfl trivial
  | awake =>
    cases hstep
    split
    · exact h.goto hp rfl rfl trivial
    · exact h.exit hp rfl
  | enabled =>
    cases hstep
    split
    · exact h.goto hp rfl rfl trivial
    · exact h.goto hp rfl rfl trivial
  | source =>
    cases hstep
    split
    · exact h.goto hp rfl rfl trivial
    · exact h.goto hp rfl rfl trivial
  | halting after c => exact h.halting hp hstep
  | setting state =>
    cases hstep
    exact h.loopStep rfl rfl rfl (fewer_refl _) (h.stored (not_launching hp rfl)) trivial
  | alive => exact h.alive hp hstep
  | probing pid =>
    cases hstep
    split
    · exact h.goto hp rfl rfl trivial
    · next hgone => exact h.goto hp rfl rfl (hk.of_not_exists hgone)
  | rereading =>
    cases hstep
    exact h.goto hp rfl rfl hk
  | reaping pid => exact h.reaping hp hstep
  | clearing =>
    cases hstep
    exact h.loopStep rfl rfl rfl (fewer_refl _) hk hk
  | port =>
    cases hstep
    split
    · exact h.goto hp rfl rfl hk
    · exact h.goto hp rfl rfl trivial
  | yaml =>
    cases hstep
    split
    · exact h.goto hp rfl rfl hk
    · exact h.goto hp rfl rfl trivial
  | fork => exact h.fork hcareful hp hstep
  | forked pid =>
    cases hstep
    exact h.loopStep rfl rfl rfl (fewer_refl _) hk trivial

/-- A thread goes on in `Start` or `Stop`, and changes nothing else that matters here. -/
theorem Tidy.put (h : Tidy s) {i : Nat} {c : Caller} (hk : c.Knows s.children)
    (hdecided : c.decided = true → ¬ s.Launching) : Tidy (s.put i c) :=
  h.callerStep rfl rfl (fewer_refl _) h.stored hk hdecided

/-- While a `Stop` goes by the pid nothing is launched. -/
theorem Tidy.not_launching (h : Tidy s) {i : Nat} (hi : (s.callers i).decided = true) :
    ¬ s.Launching := by
  intro hlaunching
  rw [h.apart hlaunching i] at hi
  cases hi

/-- **A careful step of a caller keeps it.** -/
theorem Tidy.caller_step (h : Tidy s) {i : Nat} (hcareful : Careful s (.caller i))
    (hstep : s.callerStep i (s.callers i) = some t) : Tidy t := by
  have hk := h.callers i
  have hapart := h.not_launching (i := i)
  have hundecided : ∀ {p : Prop}, false = true → p := fun h => absurd h Bool.false_ne_true
  have hread := hcareful.read i rfl
  unfold RtspRelayMonitor.callerStep at hstep
  cases hc : s.callers i <;> rw [hc] at hk hapart hread hstep <;> dsimp only at hstep
  case out => cases hstep
  case configured =>
    cases hstep
    split
    · exact h.put trivial hundecided
    · exact h.put trivial hundecided
  case checking =>
    cases hstep
    split
    · exact h.put trivial hundecided
    · exact h.put trivial hundecided
  case raising =>
    cases hstep
    exact h.callerStep rfl rfl (fewer_refl _) h.stored trivial hundecided
  case spawning =>
    split at hstep
    · next hnone =>
      cases hstep
      have hput : Tidy (s.put i .out) := h.put trivial hundecided
      refine hput.thread ?_ (by rintro p ⟨⟩; exact ⟨trivial, rfl⟩)
      rintro ⟨pid, hpid⟩
      cases hnone.symm.trans hpid
    · cases hstep
      exact ⟨h.stored, h.loop, h.callers, h.apart⟩
  case lowering =>
    cases hstep
    exact h.callerStep rfl rfl (fewer_refl _) h.stored trivial hundecided
  case halting c =>
    have hnot : ¬ s.Launching := by
      cases c with
      | enter => exact hread rfl
      | _ => exact hapart rfl
    have hstored := h.stored hnot
    split at hstep
    · cases hstep
    · next m h' hhalt =>
      cases hstep
      obtain ⟨hrest, hfew⟩ := haltStep_frame hhalt
      obtain ⟨hstored, hgoto, -⟩ := haltStep_halted hstored hk hhalt
      refine h.callerStep (i := i) (c := .halting h') ?_ ?_ hfew (fun _ => hstored) (hgoto _ rfl).1
        fun _ => hnot
      · rw [hrest]
        rfl
      · rw [hrest]
        rfl
    · next m hhalt =>
      cases hstep
      obtain ⟨hrest, hfew⟩ := haltStep_frame hhalt
      obtain ⟨hstored, -, hret⟩ := haltStep_halted hstored hk hhalt
      refine h.callerStep (i := i) (c := .joinable) ?_ ?_ hfew (fun _ => hstored) (hret rfl)
        fun _ => hnot
      · rw [hrest]
        rfl
      · rw [hrest]
        rfl
  case joinable =>
    split at hstep
    · cases hstep
      exact h.put hk fun _ => hapart rfl
    · cases hstep
      exact h.put hk fun _ => hapart rfl
  case joining =>
    split at hstep
    · cases hstep
      exact h.put trivial hundecided
    · cases hstep
    · cases hstep
      have hput : Tidy (s.put i .finishing) := h.put hk fun _ => hapart rfl
      exact hput.thread (hapart rfl) (by rintro p ⟨⟩)
  case finishing =>
    cases hstep
    exact h.callerStep rfl rfl (fewer_refl _) h.stored trivial hundecided

/-- **Every careful step keeps it.** -/
theorem Tidy.step (h : Tidy s) (hcareful : Careful s l) (hstep : step s l = some t) : Tidy t := by
  unfold MyMediamtxMonitor.step at hstep
  split at hstep
  · cases hstep
  · cases l with
    | init enable interval ok =>
      cases hstep
      exact ⟨h.stored, h.loop, h.callers, h.apart⟩
    | start i =>
      dsimp only at hstep
      split at hstep <;> cases hstep
      exact h.put trivial fun hdecided => absurd hdecided Bool.false_ne_true
    | stop i =>
      dsimp only at hstep
      split at hstep <;> cases hstep
      exact h.put trivial fun hdecided => absurd hdecided Bool.false_ne_true
    | caller i => exact h.caller_step hcareful hstep
    | monitor r =>
      dsimp only at hstep
      split at hstep
      · next p hp => exact h.loop_step hcareful hp hstep
      · cases hstep
    | childExit pid =>
      cases hstep
      exact ⟨fun hlaunching => (h.stored hlaunching).exit,
        fun p hp => (h.loop p hp).mono fewer_exit,
        fun i => (h.callers i).mono fewer_exit, h.apart⟩

/-! ## The promises -/

/-- A check of a child that has exited goes by what `kill(pid, 0)` says. -/
theorem not_detects {r : Option Nat} {pid : Nat} (hp : s.monitorThread = .running (.probing pid))
    (hexited : s.children.waitpid pid = .exited) (hstep : step s (.monitor r) = some t) :
    t = s.loopAt (.setting .running) := by
  obtain ⟨c, hc, -⟩ := Table.waitpid_exited_iff.1 hexited
  have hexists : s.children.exists? pid = true := by
    rw [Table.exists?, hc]
    rfl
  unfold MyMediamtxMonitor.step at hstep
  split at hstep
  · cases hstep
  · dsimp only at hstep
    rw [hp] at hstep
    dsimp only [RtspRelayMonitor.loopStep] at hstep
    rw [if_pos hexists] at hstep
    exact (Option.some.inj hstep).symm

/-- There is neither a monitor thread nor a child, nor a thread in `Start`. -/
structure Gone (s : RtspRelayMonitor) : Prop where
  thread : s.monitorThread = .none
  children : s.children.Within none
  starting : ∀ i, (s.callers i).starting = false

/-- A thread that is not in `Start` brings nothing back. -/
theorem Gone.put (h : Gone s) {i : Nat} {c : Caller} (hc : c.starting = false)
    (hthread : t.monitorThread = s.monitorThread) (hfew : Fewer t.children s.children)
    (hcallers : t.callers = update s.callers i c) : Gone t where
  thread := hthread.trans h.thread
  children := hfew _ h.children
  starting j := by
    rw [hcallers]
    rcases eq_or_ne j i with rfl | hne
    · rw [update_self]
      exact hc
    · rw [update_of_ne hne]
      exact h.starting j

/-- **Nothing comes back before the next `Start`.** -/
theorem Gone.step (h : Gone s) (hl : ∀ i, l ≠ .start i) (hstep : step s l = some t) : Gone t := by
  have hthread := h.thread
  unfold MyMediamtxMonitor.step at hstep
  split at hstep
  · cases hstep
  · cases l with
    | init enable interval ok => cases hstep; exact ⟨h.thread, h.children, h.starting⟩
    | start i => exact absurd rfl (hl i)
    | stop i =>
      dsimp only at hstep
      split at hstep <;> cases hstep
      exact h.put (i := i) (c := .lowering) rfl rfl (fewer_refl _) rfl
    | caller i =>
      have hi := h.starting i
      dsimp only at hstep
      unfold RtspRelayMonitor.callerStep at hstep
      cases hc : s.callers i <;> rw [hc] at hi hstep <;> dsimp only at hstep
      case lowering =>
        cases hstep
        exact h.put (i := i) (c := .halting .enter) rfl rfl (fewer_refl _) rfl
      case halting c =>
        split at hstep
        · cases hstep
        · next m c' hhalt =>
          cases hstep
          obtain ⟨hrest, hfew⟩ := haltStep_frame hhalt
          refine h.put (i := i) (c := .halting c') rfl ?_ hfew ?_ <;> rw [hrest] <;> rfl
        · next m hhalt =>
          cases hstep
          obtain ⟨hrest, hfew⟩ := haltStep_frame hhalt
          refine h.put (i := i) (c := .joinable) rfl ?_ hfew ?_ <;> rw [hrest] <;> rfl
      case joinable =>
        rw [hthread] at hstep
        cases hstep
        exact h.put (i := i) (c := .finishing) rfl rfl (fewer_refl _) rfl
      case joining =>
        rw [hthread] at hstep
        cases hstep
        exact h.put (i := i) (c := .out) rfl rfl (fewer_refl _) rfl
      case finishing =>
        cases hstep
        exact h.put (i := i) (c := .out) rfl rfl (fewer_refl _) rfl
      case out => cases hstep
      all_goals cases hi
    | monitor r =>
      dsimp only at hstep
      rw [hthread] at hstep
      cases hstep
    | childExit pid => cases hstep; exact ⟨h.thread, fewer_exit _ h.children, h.starting⟩

/-- **One step** of a careful run. -/
theorem Tidy.supervises (h : Tidy s) (hcareful : Careful s l)
    (hstep : MyMediamtxMonitor.step s l = some t) :
    Supervises s l t := by
  have hnone : ∀ i, l = .caller i → s.callers i = .finishing → t.children.Within none := by
    rintro i rfl hi
    have hk := h.callers i
    unfold MyMediamtxMonitor.step at hstep
    split at hstep
    · cases hstep
    · dsimp only at hstep
      rw [hi] at hk hstep
      cases hstep
      exact hk
  refine ⟨?_, ?_, ?_⟩
  · intro r pid hl hp hexited
    exact absurd hexited (hcareful.live r pid hl hp)
  · intro i hl hi
    exact Table.within_none_iff.1 (hnone i hl hi)
  · intro i hl hi hthread hstarting us u hrun hus
    have hno : ∀ l ∈ us, ∀ i, l ≠ .start i := by
      rintro l hl i rfl
      exact hus i hl
    have hgone : Gone u := run_along (P := Gone) (fun _ _ _ hC hP hstep => hP.step hC hstep)
      ⟨hthread, hnone i hl hi, hstarting⟩
      (along_of_forall (C := fun l => ∀ i, l ≠ Label.start i) hno t) hrun
    exact Table.within_none_iff.1 hgone.children

/-- **The relay monitor supervises its child**, in every careful run: a liveness check never comes
to a child that has exited, no `fork` comes after a `Stop` has read `relay_pid_`, and no `Stop`
reads it between a `fork` and the store of the pid. The first of these it needs. -/
theorem supervises_of_careful (ls : List Label) :
    (Along step Careful {} ls →
      Along step (fun s l => ∀ t, step s l = some t → Supervises s l t) {} ls) ∧
    ∀ s, run step {} ls = some s →
      Along step (fun s l => ∀ t, step s l = some t → Supervises s l t) {} ls →
      Along step ChecksLive {} ls := by
  constructor
  · intro hcareful
    exact along_imp (P := Tidy) (fun _ _ _ hC hP hstep => hP.step hC hstep)
      (fun _ _ hC hP _ hstep => hP.supervises hC hstep) Tidy.initial hcareful
  · intro s hrun hsupervises
    rw [along_iff] at hsupervises ⊢
    rintro pre l post hls m hm r pid rfl hp hexited
    obtain ⟨t, hstep, -⟩ := step_of_run hrun hls hm
    have hthread := (hsupervises pre _ post hls m hm t hstep).detects r pid rfl hp hexited
    rw [not_detects hp hexited hstep] at hthread
    cases hthread

/-! ## Runs with one caller -/

/-- The caller that a label is about. -/
def Label.caller? : Label → Option Nat
  | .start i | .stop i | .caller i => some i
  | .init .. | .monitor _ | .childExit _ => none

/-- `Careful`, where the calls are all made by one thread. -/
def carefulOne (s : RtspRelayMonitor) (l : Label) : Bool :=
  l.caller?.all (· == 0) &&
    match l, s.monitorThread with
    | .monitor _, .running (.probing pid) => s.children.waitpid pid ≠ .exited
    | .monitor r, .running .fork => r.isNone || !(s.callers 0).decided
    | .caller _, .running (.forked _) => s.callers 0 ≠ .halting .enter
    | _, _ => true

/-- All calls are made by one thread. -/
def OneCaller (s : RtspRelayMonitor) : Prop := ∀ i, i ≠ 0 → s.callers i = .out

/-- The monitor thread leaves the callers alone. -/
theorem loopStep_callers {r : Option Nat} {p : Loop} (hstep : s.loopStep r p = some t) :
    t.callers = s.callers := by
  unfold RtspRelayMonitor.loopStep at hstep
  cases p with
  | halting after h =>
    dsimp only at hstep
    split at hstep <;> cases hstep
    all_goals
      next m _ hhalt =>
      rw [(haltStep_frame hhalt).1]
      rfl
  | _ =>
    dsimp only at hstep
    repeat' split at hstep
    all_goals cases hstep <;> rfl

/-- A caller leaves the others alone. -/
theorem callerStep_callers {i j : Nat} (hne : j ≠ i) {c : Caller}
    (hstep : s.callerStep i c = some t) : t.callers j = s.callers j := by
  have hput : ∀ (s : RtspRelayMonitor) c, (s.put i c).callers j = s.callers j := by
    intro s c
    rw [RtspRelayMonitor.put]
    exact update_of_ne hne _ _
  unfold RtspRelayMonitor.callerStep at hstep
  cases c with
  | halting h =>
    dsimp only at hstep
    split at hstep <;> cases hstep
    all_goals
      next m _ hhalt =>
      rw [hput, (haltStep_frame hhalt).1]
  | _ =>
    dsimp only at hstep
    repeat' split at hstep
    all_goals cases hstep
    all_goals first | rfl | exact hput _ _

/-- Nobody else comes to call. -/
theorem OneCaller.step (h : OneCaller s) (hl : l.caller?.all (· == 0) = true)
    (hstep : step s l = some t) : OneCaller t := by
  intro i hne
  unfold MyMediamtxMonitor.step at hstep
  split at hstep
  · cases hstep
  · cases l with
    | init enable interval ok => cases hstep; exact h i hne
    | start j | stop j =>
      obtain rfl : j = 0 := by simpa [Label.caller?] using hl
      dsimp only at hstep
      split at hstep <;> cases hstep
      exact (update_of_ne hne _ _).trans (h i hne)
    | caller j =>
      obtain rfl : j = 0 := by simpa [Label.caller?] using hl
      exact (callerStep_callers hne hstep).trans (h i hne)
    | monitor r =>
      dsimp only at hstep
      split at hstep
      · rw [loopStep_callers hstep]
        exact h i hne
      · cases hstep
    | childExit pid => cases hstep; exact h i hne

/-- With one caller the check for it is enough. -/
theorem careful_of_one (h : OneCaller s) (hcareful : carefulOne s l = true) : Careful s l := by
  unfold carefulOne at hcareful
  rw [Bool.and_eq_true] at hcareful
  obtain ⟨hone, hcareful⟩ := hcareful
  refine ⟨?_, ?_, ?_⟩
  · rintro r pid rfl hp
    rw [hp] at hcareful
    exact of_decide_eq_true hcareful
  · rintro pid rfl hp i
    rw [hp] at hcareful
    rcases eq_or_ne i 0 with rfl | hne
    · simpa using hcareful
    · rw [h i hne]
      rfl
  · rintro i rfl hi ⟨pid, hp⟩
    obtain rfl : i = 0 := by simpa [Label.caller?] using hone
    rw [hp] at hcareful
    exact of_decide_eq_true hcareful hi

/-- A child is launched. -/
def launched : List Label :=
  [.init (some true) (some 1) true, .start 0, .caller 0, .caller 0, .caller 0, .caller 0,
    .monitor none, .monitor none, .monitor none, .monitor none, .monitor none, .monitor (some 0),
    .monitor none, .monitor (some 0), .monitor (some 0), .monitor (some 7), .monitor none,
    .monitor none]

/-- `Stop`, up to its return, of a child that ends when it is asked to. -/
def stopped : List Label :=
  [.stop 0, .caller 0, .caller 0, .caller 0, .childExit 7, .caller 0, .caller 0, .caller 0,
    .caller 0, .caller 0, .caller 0, .caller 0, .caller 0, .caller 0, .caller 0, .caller 0,
    .monitor none, .caller 0]

/-- With one caller the checks for it are enough, all along a run. -/
theorem careful_of_run {ls : List Label} (h : Along step (fun s l => carefulOne s l = true) {} ls) :
    Along step Careful {} ls :=
  along_imp (P := OneCaller)
    (fun _ _ _ hC hP hstep => hP.step (Bool.and_eq_true_iff.1 hC).1 hstep)
    (fun _ _ hC hP => careful_of_one hP hC) (fun _ _ => rfl) h

/-- A child that is launched and stopped leaves nothing behind. -/
theorem supervises_of_launched :
    ∃ s t, run step {} (launched ++ stopped) = some s ∧ s.callers 0 = .finishing ∧
      step s (.caller 0) = some t ∧ ∀ p, t.children p = none := by
  have hcareful : Along step Careful {} (launched ++ stopped ++ [.caller 0]) :=
    careful_of_run (by decide)
  have hend : (run step {} (launched ++ stopped ++ [.caller 0])).isSome = true := by decide
  have hbefore : (run step {} (launched ++ stopped)).map (fun s => s.callers 0) =
      some .finishing := by decide
  obtain ⟨s, hs, hfinishing⟩ := Option.map_eq_some_iff.1 hbefore
  obtain ⟨u, hu⟩ := Option.isSome_iff_exists.1 hend
  obtain ⟨t, ht, -⟩ := step_of_run hu rfl hs
  have hsupervises := along_iff.1 ((supervises_of_careful _).1 hcareful) _ _ _ rfl s hs t ht
  exact ⟨s, t, hs, hfinishing, ht, hsupervises.stopped 0 rfl hfinishing⟩

/-! ## Runs that are not careful -/

/-- The child exits, and the next check finds it alive. -/
def unnoticed : List Label :=
  launched ++ [.childExit 7, .monitor none, .monitor none, .monitor none, .monitor none,
    .monitor none, .monitor (some 0), .monitor none, .monitor none, .monitor none]

/-- `Stop` comes when the monitor thread is about to launch a child. -/
def lateLaunch : List Label :=
  launched.take 15 ++ [.stop 0, .caller 0, .caller 0, .caller 0, .monitor (some 7), .monitor none,
    .monitor none, .monitor none, .caller 0]

/-- **Two runs** without supervision: one says `RUNNING` of a child that has exited, and one leaves
a child running when `Stop` returns. -/
theorem not_supervises :
    (∃ s, run step {} unnoticed = some s ∧ s.state = .running ∧ s.relayPid = some 7 ∧
      s.children.waitpid 7 = .exited) ∧
    (∃ s t, run step {} lateLaunch = some s ∧ s.callers 0 = .finishing ∧
      step s (.caller 0) = some t ∧ t.callers 0 = .out ∧ t.children.runs 7 = true) ∧
    ¬ ∀ ls, Along step (fun s l => ∀ t, step s l = some t → Supervises s l t) {} ls := by
  have hunnoticed : (run step {} unnoticed).map
      (fun s => (s.state, s.relayPid, s.children.waitpid 7)) =
        some (.running, some 7, .exited) := by
    decide
  have hlate : (run step {} lateLaunch).map (fun s => s.callers 0) = some .finishing := by decide
  have hend : (run step {} (lateLaunch ++ [.caller 0])).map
      (fun t => (t.callers 0, t.children.runs 7)) = some (.out, true) := by decide
  obtain ⟨s, hs, hstate⟩ := Option.map_eq_some_iff.1 hunnoticed
  obtain ⟨m, hm, hfinishing⟩ := Option.map_eq_some_iff.1 hlate
  obtain ⟨t, ht, hruns⟩ := Option.map_eq_some_iff.1 hend
  obtain ⟨u, hstep, hu⟩ := step_of_run ht rfl hm
  obtain rfl := Option.some.inj hu
  rw [Prod.mk.injEq] at hruns
  rw [Prod.mk.injEq, Prod.mk.injEq] at hstate
  refine ⟨⟨s, hs, hstate⟩, ⟨m, u, hm, hfinishing, hstep, hruns⟩, fun hall => ?_⟩
  have hsupervises := along_iff.1 (hall (lateLaunch ++ [.caller 0])) _ _ _ rfl m hm u hstep
  have hnone := hsupervises.stopped 0 rfl hfinishing 7
  have hruns7 := hruns.2
  rw [Table.runs, hnone] at hruns7
  cases hruns7

end MyMediamtxMonitor
