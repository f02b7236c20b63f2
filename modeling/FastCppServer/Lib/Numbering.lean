import Mathlib.Data.Set.Insert
import Mathlib.Logic.Function.Basic

/-!
# Numbers that are given out once

A counter gives each party a number that no one has had. A party holds its number until it puts it
into the set of those in use, or lets it go. What is held is below the counter, is not in use, and
is held by one party (`Fresh`).
-/

namespace Numbering

open Function

universe u

variable {ι : Type u}

structure Fresh (next : Nat) (used : Set Nat) (held : ι → Option Nat) : Prop where
  used_lt : ∀ k ∈ used, k < next
  held_lt : ∀ i k, held i = some k → k < next
  apart : ∀ i k, held i = some k → k ∉ used
  inj : ∀ i j k, held i = some k → held j = some k → i = j

section
variable {next : Nat} {used used' : Set Nat} {held : ι → Option Nat} {i : ι} {k : Nat}

theorem fresh_init : Fresh next ∅ fun _ : ι => none where
  used_lt k hk := absurd hk (Set.notMem_empty k)
  held_lt i k hk := by cases hk
  apart i k hk := by cases hk
  inj i j k hk := by cases hk

/-- Numbers that are not in use any more. -/
theorem Fresh.shrink (h : Fresh next used held) (hsub : used' ⊆ used) : Fresh next used' held where
  used_lt k hk := h.used_lt k (hsub hk)
  held_lt := h.held_lt
  apart i k hk hused := h.apart i k hk (hsub hused)
  inj := h.inj

variable [DecidableEq ι]

/-- A party comes to hold nothing else than before. -/
theorem Fresh.keep (h : Fresh next used held) {o : Option Nat}
    (ho : ∀ k, o = some k → held i = some k) : Fresh next used (update held i o) := by
  have hold : ∀ j k, update held i o j = some k → held j = some k := by
    intro j k hj
    rcases eq_or_ne j i with rfl | hne
    · rw [update_self] at hj
      exact ho k hj
    · rwa [update_of_ne hne] at hj
  exact ⟨h.used_lt, fun j k hj => h.held_lt j k (hold j k hj),
    fun j k hj => h.apart j k (hold j k hj),
    fun j j' k hj hj' => h.inj j j' k (hold j k hj) (hold j' k hj')⟩

/-- A party gets the next number. -/
theorem Fresh.draw (h : Fresh next used held) (i : ι) :
    Fresh (next + 1) used (update held i (some next)) where
  used_lt k hk := Nat.lt_succ_of_lt (h.used_lt k hk)
  held_lt j k hj := by
    rcases eq_or_ne j i with rfl | hne
    · rw [update_self] at hj
      cases hj
      exact Nat.lt_succ_self next
    · rw [update_of_ne hne] at hj
      exact Nat.lt_succ_of_lt (h.held_lt j k hj)
  apart j k hj hk := by
    rcases eq_or_ne j i with rfl | hne
    · rw [update_self] at hj
      cases hj
      exact Nat.lt_irrefl next (h.used_lt next hk)
    · rw [update_of_ne hne] at hj
      exact h.apart j k hj hk
  inj j j' k hj hj' := by
    rcases eq_or_ne j i with rfl | hne
    · rw [update_self] at hj
      cases hj
      rcases eq_or_ne j' j with rfl | hne'
      · rfl
      · rw [update_of_ne hne'] at hj'
        exact absurd (h.held_lt j' next hj') (Nat.lt_irrefl next)
    · rw [update_of_ne hne] at hj
      rcases eq_or_ne j' i with rfl | hne'
      · rw [update_self] at hj'
        cases hj'
        exact absurd (h.held_lt j next hj) (Nat.lt_irrefl next)
      · rw [update_of_ne hne'] at hj'
        exact h.inj j j' k hj hj'

/-- A party puts its number into use. -/
theorem Fresh.use (h : Fresh next used held) (hk : held i = some k) :
    Fresh next (insert k used) (update held i none) where
  used_lt l hl := by
    rcases hl with rfl | hl
    · exact h.held_lt i l hk
    · exact h.used_lt l hl
  held_lt j l hj := by
    rcases eq_or_ne j i with rfl | hne
    · rw [update_self] at hj
      cases hj
    · rw [update_of_ne hne] at hj
      exact h.held_lt j l hj
  apart j l hj hl := by
    rcases eq_or_ne j i with rfl | hne
    · rw [update_self] at hj
      cases hj
    · rw [update_of_ne hne] at hj
      rcases hl with rfl | hl
      · exact hne (h.inj j i l hj hk)
      · exact h.apart j l hj hl
  inj j j' l hj hj' := by
    rcases eq_or_ne j i with rfl | hne
    · rw [update_self] at hj
      cases hj
    · rcases eq_or_ne j' i with rfl | hne'
      · rw [update_self] at hj'
        cases hj'
      · rw [update_of_ne hne] at hj
        rw [update_of_ne hne'] at hj'
        exact h.inj j j' l hj hj'

end

end Numbering
