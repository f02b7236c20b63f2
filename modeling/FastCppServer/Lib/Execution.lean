import FastCppServer.Lib.Transition
import Mathlib.Order.Basic

/-!
# Runs that go on for ever

An infinite run of a step function. A party that goes on taking steps reaches its goal, if there is
a rank that no step increases, and that its own steps decrease as long as it is not there
(`Execution.eventually`).
-/

universe u v

/-- A run without an end. -/
structure Execution {σ : Type u} {κ : Type v} (step : σ → κ → Option σ) where
  state : Nat → σ
  label : Nat → κ
  next : ∀ i, step (state i) (label i) = some (state (i + 1))

namespace Execution

variable {σ : Type u} {κ : Type v} {step : σ → κ → Option σ}

/-- It takes steps again and again, until it is at its goal. -/
def Fair (mine : κ → Prop) (goal : σ → Prop) (e : Execution step) : Prop :=
  ∀ i, ∃ j, i ≤ j ∧ (mine (e.label j) ∨ goal (e.state j))

theorem invariant {P : σ → Prop} (keep : ∀ s l t, P s → step s l = some t → P t)
    (e : Execution step)
    (h : P (e.state 0)) (i : Nat) : P (e.state i) := by
  induction i with
  | zero => exact h
  | succ i ih => exact keep _ _ _ ih (e.next i)

/-- What no step decreases. -/
theorem monotone {f : σ → Nat} (keep : ∀ s l t, step s l = some t → f s ≤ f t) (e : Execution step)
    {i j : Nat} (h : i ≤ j) : f (e.state i) ≤ f (e.state j) := by
  induction j with
  | zero =>
    obtain rfl := Nat.le_zero.1 h
    exact Nat.le_refl _
  | succ j ih =>
    rcases Nat.lt_or_eq_of_le h with hlt | rfl
    · exact Nat.le_trans (ih (Nat.le_of_lt_succ hlt)) (keep _ _ _ (e.next j))
    · exact Nat.le_refl _

/-- **A party reaches its goal** by a rank that its steps decrease. -/
theorem eventually {mine : κ → Prop} {goal : σ → Prop} {e : Execution step} (rank : Nat → Nat)
    (hother : ∀ i, ¬ goal (e.state i) → rank (i + 1) ≤ rank i)
    (hmine : ∀ i, ¬ goal (e.state i) → mine (e.label i) → rank (i + 1) < rank i)
    (hfair : e.Fair mine goal) : ∃ i, goal (e.state i) := by
  by_contra hnever
  rw [not_exists] at hnever
  have hdown : ∀ i j, i ≤ j → rank j ≤ rank i := by
    intro i j hij
    induction j with
    | zero => exact Nat.le_zero.1 hij ▸ Nat.le_refl _
    | succ j ih =>
      rcases Nat.lt_or_eq_of_le hij with hlt | rfl
      · exact Nat.le_trans (hother j (hnever j)) (ih (Nat.le_of_lt_succ hlt))
      · exact Nat.le_refl _
  have hsmaller : ∀ i, ∃ j, rank j < rank i := by
    intro i
    obtain ⟨j, hij, hj | hj⟩ := hfair i
    · exact ⟨j + 1, Nat.lt_of_lt_of_le (hmine j (hnever j) hj) (hdown i j hij)⟩
    · exact absurd hj (hnever j)
  -- the ranks have a least one
  have hleast : ∀ n i, rank i = n → False := by
    intro n
    induction n using Nat.strongRecOn with
    | ind n ih =>
      intro i hi
      obtain ⟨j, hj⟩ := hsmaller i
      exact ih (rank j) (hi ▸ hj) j rfl
  exact hleast _ 0 rfl

section
variable {P : σ → Prop} {label : σ → κ} {next : σ → σ}

theorem rec_inv (hnext : ∀ s, P s → step s (label s) = some (next s) ∧ P (next s)) {s : σ}
    (hs : P s) (i : Nat) : P (Nat.rec s (fun _ s => next s) i) := by
  induction i with
  | zero => exact hs
  | succ i ih => exact (hnext _ ih).2

/-- The run that a step chosen in each state gives. -/
def iterate (hnext : ∀ s, P s → step s (label s) = some (next s) ∧ P (next s)) {s : σ}
    (hs : P s) : Execution step where
  state i := Nat.rec s (fun _ s => next s) i
  label i := label (Nat.rec s (fun _ s => next s) i)
  next i := (hnext _ (rec_inv hnext hs i)).1

end

end Execution
