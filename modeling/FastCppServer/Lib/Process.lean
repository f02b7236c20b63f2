import Mathlib.Logic.Function.Basic

/-!
# Child processes

The children of a process, by their pids, as POSIX has them: a child runs, then it has exited and
keeps its pid until it has been waited for, and then the pid is free again. A signal reaches a child
that runs; to one that has exited it does nothing.
-/

namespace Process

open Function

/-- A child process, up to where it is reaped. -/
structure Child where
  exited : Bool := false
  /-- It has been asked to end: a signal was sent to it while it ran. -/
  asked : Bool := false
  /-- The signal was `SIGKILL`. -/
  killed : Bool := false
  deriving DecidableEq

/-- The children, by their pids. -/
abbrev Table := Nat → Option Child

/-- The signals. -/
inductive Signal where
  | term
  | kill
  deriving DecidableEq

/-- What `waitpid` with `WNOHANG` says. -/
inductive Wait where
  | running
  | exited
  | error
  deriving DecidableEq

/-- A signal reaches a child that runs. -/
def Child.signal (c : Child) (sig : Signal) : Child :=
  if c.exited then c else { c with asked := true, killed := c.killed || sig = .kill }

namespace Table

/-- A new child with the pid. -/
def fork (t : Table) (pid : Nat) : Table := update t pid (some {})

/-- The pid is free again. -/
def free (t : Table) (pid : Nat) : Table := update t pid none

/-- A signal to the child with the pid. -/
def signal (t : Table) (pid : Nat) (sig : Signal) : Table :=
  update t pid ((t pid).map fun c => c.signal sig)

/-- The child with the pid exits. -/
def exit (t : Table) (pid : Nat) : Table :=
  update t pid ((t pid).map fun c => { c with exited := true })

/-- `waitpid` with `WNOHANG`. -/
def waitpid (t : Table) (pid : Nat) : Wait :=
  match t pid with
  | none => .error
  | some c => if c.exited then .exited else .running

/-- `kill(pid, 0)` finds a child with the pid, be it one that has exited. -/
def exists? (t : Table) (pid : Nat) : Bool := (t pid).isSome

/-- The child with the pid runs. -/
def runs (t : Table) (pid : Nat) : Bool := (t pid).any fun c => !c.exited

variable {t : Table} {pid p : Nat}

/-- A child that has exited is reaped. -/
theorem waitpid_exited_iff : t.waitpid pid = .exited ↔ ∃ c, t pid = some c ∧ c.exited = true := by
  unfold waitpid
  split
  · next h => simp [h]
  · next c h => cases hc : c.exited <;> simp [h, hc]

/-- `waitpid` fails where there is no child. -/
theorem waitpid_error_iff : t.waitpid pid = .error ↔ t pid = none := by
  unfold waitpid
  split
  · next h => simp [h]
  · next c h => cases c.exited <;> simp [h]

/-- A signal takes no child away. -/
@[simp] theorem isSome_signal {sig : Signal} : (t.signal pid sig p).isSome = (t p).isSome := by
  unfold signal
  rcases eq_or_ne p pid with rfl | hne
  · rw [update_self, Option.isSome_map]
  · rw [update_of_ne hne]

/-- An exit takes no child away. -/
@[simp] theorem isSome_exit : (t.exit pid p).isSome = (t p).isSome := by
  unfold exit
  rcases eq_or_ne p pid with rfl | hne
  · rw [update_self, Option.isSome_map]
  · rw [update_of_ne hne]

/-- A new child is there. -/
theorem isSome_fork : (t.fork pid pid).isSome = true := by
  unfold fork
  rw [update_self]
  rfl

/-- What is there after a child has been reaped was there before, and is another one. -/
theorem isSome_of_free (h : (t.free pid p).isSome = true) : p ≠ pid ∧ (t p).isSome = true := by
  unfold free at h
  rcases eq_or_ne p pid with rfl | hne
  · rw [update_self] at h
    cases h
  · rw [update_of_ne hne] at h
    exact ⟨hne, h⟩

/-! ## What there can be -/

/-- There is no child but one with the pid. -/
def Within (t : Table) (pid : Option Nat) : Prop := ∀ p, (t p).isSome = true → pid = some p

variable {q : Option Nat} {sig : Signal}

/-- Within nothing there is no child. -/
theorem within_none_iff : t.Within none ↔ ∀ p, t p = none := by
  constructor
  · intro h p
    cases hp : t p with
    | none => rfl
    | some c => cases h p (by rw [hp]; rfl)
  · intro h p hp
    rw [h p] at hp
    cases hp

/-- Without children there is none but one. -/
theorem Within.of_none (h : t.Within none) : t.Within q := by
  intro p hp
  cases h p hp

/-- A signal makes no child. -/
theorem Within.signal (h : t.Within q) : (t.signal pid sig).Within q := by
  intro p hp
  rw [isSome_signal] at hp
  exact h p hp

/-- An exit makes no child. -/
theorem Within.exit (h : t.Within q) : (t.exit pid).Within q := by
  intro p hp
  rw [isSome_exit] at hp
  exact h p hp

/-- Reaping makes no child. -/
theorem Within.free (h : t.Within q) : (t.free pid).Within q :=
  fun p hp => h p (isSome_of_free hp).2

/-- Whoever waits for the only child is left with none. -/
theorem Within.free_self (h : t.Within (some pid)) : (t.free pid).Within none := by
  intro p hp
  obtain ⟨hne, hsome⟩ := isSome_of_free hp
  exact absurd (Option.some.inj (h p hsome)).symm hne

/-- Without the one child there is none. -/
theorem Within.absent (h : t.Within (some pid)) (habsent : t pid = none) : t.Within none := by
  intro p hp
  obtain rfl := Option.some.inj (h p hp)
  rw [habsent] at hp
  cases hp

/-- As `kill(pid, 0)` finds it. -/
theorem Within.of_not_exists (h : t.Within (some pid)) (hgone : ¬ t.exists? pid = true) :
    t.Within none := by
  rw [exists?, Bool.not_eq_true, Option.isSome_eq_false_iff, Option.isNone_iff_eq_none] at hgone
  exact h.absent hgone

/-- A first child is the only one. -/
theorem Within.fork (h : t.Within none) : (t.fork pid).Within (some pid) := by
  intro p hp
  rcases eq_or_ne p pid with rfl | hne
  · rfl
  · unfold Table.fork at hp
    rw [update_of_ne hne] at hp
    cases h p hp

end Table

end Process
