import FastCppServer.Lib.Parties

/-!
# Condition variables

A party waits on a condition variable in phases of its own (`Waits`), and a notification takes it
out of them (`wake`). `notifyOne` takes one waiting party out, of the choice of the scheduler, and
nobody where nobody waits; `notifyAll` takes all of them out.

What a notification is worth is a number: where somebody still waits after a `notifyOne`, there is
one more party on its way (`notifyOne_count`).
-/

namespace Condvar

open Function Parties

universe u v

section
variable {ι : Type u} {π : Type v} [Fintype ι] [DecidableEq ι] {Waits : π → Prop}
  [DecidablePred Waits] {wake : π → π} {c c' : ι → π}

def notifyOne (Waits : π → Prop) [DecidablePred Waits] (wake : π → π) (c : ι → π) :
    Option ι → Option (ι → π)
  | some j => if Waits (c j) then some (update c j (wake (c j))) else none
  | none => if ∀ j, ¬ Waits (c j) then some c else none

omit [Fintype ι] [DecidableEq ι] in
def notifyAll (Waits : π → Prop) [DecidablePred Waits] (wake : π → π) (c : ι → π) (i : ι) : π :=
  if Waits (c i) then wake (c i) else c i

/-- One party is notified, or nobody waits. -/
theorem notifyOne_cases {o : Option ι} (h : notifyOne Waits wake c o = some c') :
    (∃ j, Waits (c j) ∧ c' = update c j (wake (c j))) ∨ (∀ j, ¬ Waits (c j)) ∧ c' = c := by
  cases o with
  | none =>
    simp only [notifyOne] at h
    split at h
    next hn => exact .inr ⟨hn, (Option.some.inj h).symm⟩
    next => cases h
  | some j =>
    simp only [notifyOne] at h
    split at h
    next hj => exact .inl ⟨j, hj, (Option.some.inj h).symm⟩
    next => cases h

/-- Where somebody still waits, one more party is on its way. -/
theorem notifyOne_count {Woken : π → Prop} [DecidablePred Woken] {o : Option ι}
    (h : notifyOne Waits wake c o = some c') (hwoken : ∀ p, Waits p → ¬ Woken p ∧ Woken (wake p))
    {i : ι} (hi : Waits (c' i)) : count Woken c' = count Woken c + 1 := by
  rcases notifyOne_cases h with ⟨j, hj, rfl⟩ | ⟨hn, rfl⟩
  · exact count_enter (hwoken _ hj).1 (hwoken _ hj).2
  · exact absurd hi (hn i)

/-- Parties that wait for something else do not notice. -/
theorem notifyOne_count_other {P : π → Prop} [DecidablePred P] {o : Option ι}
    (h : notifyOne Waits wake c o = some c') (hother : ∀ p, Waits p → (P p ↔ P (wake p))) :
    count P c' = count P c := by
  rcases notifyOne_cases h with ⟨j, hj, rfl⟩ | ⟨-, rfl⟩
  · exact count_stay (hother _ hj)
  · rfl

/-- A notification makes nobody wait. -/
theorem notifyOne_waits {P : π → Prop} {o : Option ι} (h : notifyOne Waits wake c o = some c')
    (hwake : ∀ p, Waits p → P (wake p) → P p) {i : ι} (hi : P (c' i)) : P (c i) := by
  rcases notifyOne_cases h with ⟨j, hj, rfl⟩ | ⟨-, rfl⟩
  · rcases eq_or_ne i j with rfl | hne
    · rw [update_self] at hi
      exact hwake _ hj hi
    · rwa [update_of_ne hne] at hi
  · exact hi

omit [Fintype ι] [DecidableEq ι] in
theorem notifyAll_waits (hwake : ∀ p, Waits p → ¬ Waits (wake p)) (i : ι) :
    ¬ Waits (notifyAll Waits wake c i) := by
  unfold notifyAll
  split
  next hi => exact hwake _ hi
  next hi => exact hi

omit [Fintype ι] [DecidableEq ι] in
theorem notifyAll_other {P : π → Prop} (hwake : ∀ p, Waits p → P (wake p) → P p) {i : ι}
    (hi : P (notifyAll Waits wake c i)) : P (c i) := by
  unfold notifyAll at hi
  split at hi
  next hw => exact hwake _ hw hi
  next => exact hi

end

end Condvar
