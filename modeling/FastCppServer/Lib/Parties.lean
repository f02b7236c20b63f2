import Mathlib.Algebra.BigOperators.Ring.Finset
import Mathlib.Data.Fintype.Card

/-!
# Counting parties

A system of finitely many parties keeps the phase of each in a function. How many of them are in a
phase of some kind changes, when one of them takes a step, by what the step does to this one
(`count_update`).
-/

namespace Parties

open Function

universe u v w x

section
variable {ι : Type u} {π : Type v} [Fintype ι] {P : π → Prop} [DecidablePred P]
  {c : ι → π}

/-- How many parties are in a phase with the property. -/
def count (P : π → Prop) [DecidablePred P] (c : ι → π) : Nat :=
  (Finset.univ.filter fun i => P (c i)).card

/-- One or none. -/
def one (P : π → Prop) [DecidablePred P] (p : π) : Nat := if P p then 1 else 0

/-- One, in a phase with the property. -/
@[simp] theorem one_pos {p : π} (h : P p) : one P p = 1 := if_pos h

/-- None, in a phase without it. -/
@[simp] theorem one_neg {p : π} (h : ¬ P p) : one P p = 0 := if_neg h

/-- One at most. -/
theorem one_le (p : π) : one P p ≤ 1 := by
  unfold one
  split <;> omega

/-- A weaker property has more. -/
theorem one_mono {p q : π} (h : P p → P q) : one P p ≤ one P q := by
  by_cases hp : P p
  · rw [one_pos hp, one_pos (h hp)]
  · rw [one_neg hp]
    exact Nat.zero_le _

/-- The parties are counted one by one. -/
theorem count_eq_sum : count P c = ∑ i, one P (c i) := by
  rw [count, Finset.card_filter]
  rfl

/-- **A step of one party.** -/
theorem count_update [DecidableEq ι] (a : ι) (p : π) :
    count P (update c a p) + one P (c a) = count P c + one P p := by
  have hcomp : (fun i => one P (update c a p i)) = update (fun i => one P (c i)) a (one P p) :=
    comp_update (one P) c a p
  have hold : count P c = one P (c a) + ∑ i ∈ Finset.univ \ {a}, one P (c i) := by
    rw [count_eq_sum]
    exact Finset.sum_eq_add_sum_sdiff_singleton_of_mem (Finset.mem_univ a) fun i => one P (c i)
  rw [count_eq_sum, hcomp, Finset.sum_update_of_mem (Finset.mem_univ a), hold]
  omega

/-- A party that stays on its side of the property is counted as before. -/
theorem count_stay [DecidableEq ι] {a : ι} {p : π} (h : P (c a) ↔ P p) :
    count P (update c a p) = count P c := by
  have hu := count_update (P := P) (c := c) a p
  by_cases hp : P p
  · rw [one_pos hp, one_pos (h.2 hp)] at hu
    omega
  · rw [one_neg hp, one_neg fun hc => hp (h.1 hc)] at hu
    omega

/-- A party that comes to the property is one more. -/
theorem count_enter [DecidableEq ι] {a : ι} {p : π} (h : ¬ P (c a)) (hp : P p) :
    count P (update c a p) = count P c + 1 := by
  have hu := count_update (P := P) (c := c) a p
  rw [one_pos hp, one_neg h] at hu
  omega

/-- A party that leaves the property is one less. -/
theorem count_leave [DecidableEq ι] {a : ι} {p : π} (h : P (c a)) (hp : ¬ P p) :
    count P (update c a p) + 1 = count P c := by
  have hu := count_update (P := P) (c := c) a p
  rw [one_neg hp, one_pos h] at hu
  omega

/-- None is counted where nobody has the property. -/
theorem count_eq_zero : count P c = 0 ↔ ∀ i, ¬ P (c i) := by
  rw [count, Finset.card_eq_zero, Finset.filter_eq_empty_iff]
  exact ⟨fun h i => h (Finset.mem_univ i), fun h i _ => h i⟩

/-- A party is one of those that are counted. -/
theorem one_le_count (i : ι) : one P (c i) ≤ count P c := by
  by_cases h : P (c i)
  · rw [one_pos h]
    exact Nat.pos_of_ne_zero fun h₀ => count_eq_zero.1 h₀ i h
  · rw [one_neg h]
    exact Nat.zero_le _

end

/-! ## Counting by what a phase names -/

section
variable {ι : Type u} {π : Type v} {α : Type w} [Fintype ι] [DecidableEq α] {key : π → Option α}
  {c : ι → π} {a : α} {i : ι} {p : π}

/-- How many parties are in a phase that names it. -/
def countAt (key : π → Option α) (c : ι → π) (a : α) : Nat := count (fun p => key p = some a) c

/-- A key that a party names is counted. -/
theorem countAt_pos (h : key (c i) = some a) : 0 < countAt key c a := by
  have hone : one (fun p => key p = some a) (c i) = 1 := if_pos h
  have hle : one (fun p => key p = some a) (c i) ≤ countAt key c a := one_le_count i
  omega

/-- A key that two parties name is counted twice. -/
theorem one_lt_countAt {j : ι} (hij : i ≠ j) (hi : key (c i) = some a) (hj : key (c j) = some a) :
    1 < countAt key c a :=
  Finset.one_lt_card.2 ⟨i, by simp [hi], j, by simp [hj], hij⟩

/-- A key that is counted is named by a party. -/
theorem exists_of_countAt_pos (h : 0 < countAt key c a) : ∃ i, key (c i) = some a := by
  by_contra hno
  have hzero : countAt key c a = 0 := count_eq_zero.2 fun i hi => hno ⟨i, hi⟩
  omega

/-- A party that names what it has named is counted as before. -/
theorem countAt_stay [DecidableEq ι] (h : key (c i) = key p) :
    countAt key (update c i p) = countAt key c :=
  funext fun _ => count_stay (by rw [h])

/-- A party that comes to name a key is one more there. -/
theorem countAt_enter [DecidableEq ι] (h : key (c i) = none) (hp : key p = some a) :
    countAt key (update c i p) = update (countAt key c) a (countAt key c a + 1) := by
  funext b
  rcases eq_or_ne b a with rfl | hne
  · rw [update_self]
    exact count_enter (by simp [h]) hp
  · rw [update_of_ne hne]
    exact count_stay (by simp [h, hp, hne.symm])

/-- A party that comes to name nothing is one less there. -/
theorem countAt_leave [DecidableEq ι] (h : key (c i) = some a) (hp : key p = none) :
    countAt key (update c i p) = update (countAt key c) a (countAt key c a - 1) := by
  funext b
  rcases eq_or_ne b a with rfl | hne
  · have hleave := count_leave (P := fun p => key p = some b) (c := c) (a := i) (p := p) h
      (by simp [hp])
    rw [update_self]
    exact Nat.eq_sub_of_add_eq hleave
  · rw [update_of_ne hne]
    exact count_stay (by simp [h, hp, hne.symm])

end

/-! ## Some, and at most one -/

section
variable {ι : Type u} {π : Type v} [DecidableEq ι] {P : π → Prop} {c : ι → π} {a : ι} {p : π}

/-- No two parties are in a phase with the property. -/
def AtMostOne (P : π → Prop) (c : ι → π) : Prop := ∀ i j, P (c i) → P (c j) → i = j

/-- Somebody still has the property, unless it was the one who has left it. -/
theorem exists_update (h : ∃ i, P (c i)) (hp : P (c a) → P p) : ∃ i, P (update c a p i) := by
  obtain ⟨i, hi⟩ := h
  rcases eq_or_ne i a with rfl | hne
  · exact ⟨i, by rw [update_self]; exact hp hi⟩
  · exact ⟨i, by rwa [update_of_ne hne]⟩

/-- A party that comes to the property has it. -/
theorem exists_update_self (hp : P p) : ∃ i, P (update c a p i) := ⟨a, by rwa [update_self]⟩

/-- Who is in such a phase after a step was so before, or has just come to it. -/
theorem exists_of_update (h : ∃ i, P (update c a p i)) : P p ∨ ∃ i, P (c i) := by
  obtain ⟨i, hi⟩ := h
  rcases eq_or_ne i a with rfl | hne
  · rw [update_self] at hi
    exact .inl hi
  · rw [update_of_ne hne] at hi
    exact .inr ⟨i, hi⟩

/-- A party comes to such a phase when nobody else is in one. -/
theorem AtMostOne.enter (h : AtMostOne P c) (hp : P p → ∀ j, j ≠ a → ¬ P (c j)) :
    AtMostOne P (update c a p) := by
  intro i j hi hj
  rcases eq_or_ne i a with rfl | hia
  · rcases eq_or_ne j i with rfl | hji
    · rfl
    · rw [update_self] at hi
      rw [update_of_ne hji] at hj
      exact absurd hj (hp hi j hji)
  · rw [update_of_ne hia] at hi
    rcases eq_or_ne j a with rfl | hja
    · rw [update_self] at hj
      exact absurd hi (hp hj i hia)
    · rw [update_of_ne hja] at hj
      exact h i j hi hj

/-- A party comes to no such phase that it is not in already. -/
theorem AtMostOne.stay (h : AtMostOne P c) (hp : P p → P (c a)) : AtMostOne P (update c a p) :=
  h.enter fun hp' j hj hcj => hj (h j a hcj (hp hp'))

end

/-! ## What the parties work on -/

section
variable {ι : Type u} {π : Type v} {α : Type w} {ω : Type x} {key : π → Option α}
  {Fits : π → ω → Prop} {Rests : ω → Prop} {c : ι → π} {objects : α → Option ω} {a : α} {i : ι}
  {p : π} {o o' : ω}

/-- At most one party at a time works on an object, which then fits the party's phase. Nobody works
on the objects that rest. -/
structure Attended (key : π → Option α) (Fits : π → ω → Prop) (Rests : ω → Prop) (c : ι → π)
    (objects : α → Option ω) : Prop where
  one : ∀ a, AtMostOne (fun p => key p = some a) c
  fits : ∀ i a o, key (c i) = some a → objects a = some o → Fits (c i) o
  rests : ∀ a o, objects a = some o → (∀ i, key (c i) ≠ some a) → Rests o

namespace Attended

/-- An object that changes by itself. -/
theorem touch [DecidableEq α] (h : Attended key Fits Rests c objects) (ha : objects a = some o)
    (hfits : ∀ p, Fits p o → Fits p o') (hrests : Rests o → Rests o') :
    Attended key Fits Rests c (update objects a (some o')) := by
  refine ⟨h.one, fun i b ob hkey hb => ?_, fun b ob hb hnobody => ?_⟩
  · rcases eq_or_ne b a with rfl | hne
    · rw [update_self] at hb
      cases hb
      exact hfits _ (h.fits i b o hkey ha)
    · rw [update_of_ne hne] at hb
      exact h.fits i b ob hkey hb
  · rcases eq_or_ne b a with rfl | hne
    · rw [update_self] at hb
      cases hb
      exact hrests (h.rests b o ha hnobody)
    · rw [update_of_ne hne] at hb
      exact h.rests b ob hb hnobody

/-- What nobody works on comes to an address, or is taken from it. -/
theorem replace [DecidableEq α] {ob : Option ω} (h : Attended key Fits Rests c objects)
    (hnobody : ∀ j, key (c j) ≠ some a) (hrests : ∀ o, ob = some o → Rests o) :
    Attended key Fits Rests c (update objects a ob) := by
  refine ⟨h.one, fun i b o hkey hb => ?_, fun b o hb hnobody' => ?_⟩
  · rcases eq_or_ne b a with rfl | hne
    · exact absurd hkey (hnobody i)
    · rw [update_of_ne hne] at hb
      exact h.fits i b o hkey hb
  · rcases eq_or_ne b a with rfl | hne
    · rw [update_self] at hb
      exact hrests o hb
    · rw [update_of_ne hne] at hb
      exact h.rests b o hb hnobody'

variable [DecidableEq ι]

/-- A party that works on nothing. -/
theorem pass (h : Attended key Fits Rests c objects) (hold : key (c i) = none)
    (hnew : key p = none) : Attended key Fits Rests (update c i p) objects := by
  have hkey : ∀ j, key (update c i p j) = key (c j) := by
    intro j
    rcases eq_or_ne j i with rfl | hne
    · rw [update_self, hold, hnew]
    · rw [update_of_ne hne]
  refine ⟨fun a => (h.one a).stay (by simp [hnew]), fun j b o hj hb => ?_, fun b o hb hno => ?_⟩
  · rcases eq_or_ne j i with rfl | hne
    · rw [update_self, hnew] at hj
      cases hj
    · rw [update_of_ne hne] at hj ⊢
      exact h.fits j b o hj hb
  · exact h.rests b o hb fun j hj => hno j (by rw [hkey j, hj])

variable [DecidableEq α]

/-- **A step of a party with an object.** Nobody else works on the object. It fits the party's phase
after the step if the party goes on with it, and rests otherwise. -/
theorem work (h : Attended key Fits Rests c objects) (hold : ∀ b, key (c i) = some b → b = a)
    (hothers : ∀ j, j ≠ i → key (c j) ≠ some a) (hnew : ∀ b, key p = some b → b = a)
    (hfits : key p = some a → Fits p o) (hrests : key p = none → Rests o) :
    Attended key Fits Rests (update c i p) (update objects a (some o)) := by
  refine ⟨fun b => (h.one b).enter fun hb j hj hcj => ?_, fun j b ob hj hb => ?_,
    fun b ob hb hno => ?_⟩
  · rw [hnew b hb] at hcj
    exact hothers j hj hcj
  · rcases eq_or_ne j i with rfl | hne
    · rw [update_self] at hj ⊢
      obtain rfl := hnew b hj
      rw [update_self] at hb
      cases hb
      exact hfits hj
    · rw [update_of_ne hne] at hj ⊢
      rcases eq_or_ne b a with rfl | hba
      · exact absurd hj (hothers j hne)
      · rw [update_of_ne hba] at hb
        exact h.fits j b ob hj hb
  · have hi := hno i
    rw [update_self] at hi
    rcases eq_or_ne b a with rfl | hba
    · rw [update_self] at hb
      cases hb
      refine hrests (Option.eq_none_iff_forall_ne_some.2 fun k hk => ?_)
      rw [hnew k hk] at hk
      exact hi hk
    · rw [update_of_ne hba] at hb
      refine h.rests b ob hb fun j hj => ?_
      rcases eq_or_ne j i with rfl | hne
      · exact hba (hold b hj)
      · exact hno j (by rw [update_of_ne hne, hj])

end Attended

end

end Parties
