import Mathlib.Data.List.Nodup
import Mathlib.Logic.Function.Basic

/-!
# Reader-writer locks

A lock that is held by one party exclusively, or by any number of parties together. The lock itself
knows who holds it; what each party believes is a function of the system (`Fits`). The two agree as
long as nobody takes the lock twice, and then who holds it exclusively holds it alone
(`Fits.alone`).
-/

namespace Locks

open Function

universe u

inductive Mode where
  | unique
  | shared
  deriving DecidableEq

structure RwLock (π : Type u) where
  writer : Option π := none
  readers : List π := []

namespace RwLock

section
variable {π : Type u} [DecidableEq π] {l l' : RwLock π} {h : π → Option Mode} {p q : π} {m : Mode}

/-- The lock once the party has it, or `none` while the party must wait. -/
def lock (l : RwLock π) (p : π) : Mode → Option (RwLock π)
  | .unique => if l.writer = none ∧ l.readers = [] then some { l with writer := some p } else none
  | .shared => if l.writer = none then some { l with readers := p :: l.readers } else none

def unlock (l : RwLock π) (p : π) : Mode → RwLock π
  | .unique => { l with writer := none }
  | .shared => { l with readers := l.readers.erase p }

/-- The lock and the parties agree on who holds it. -/
structure Fits (l : RwLock π) (h : π → Option Mode) : Prop where
  writer : ∀ p, l.writer = some p ↔ h p = some .unique
  readers : ∀ p, p ∈ l.readers ↔ h p = some .shared
  nodup : l.readers.Nodup
  exclusive : l.writer ≠ none → l.readers = []

omit [DecidableEq π] in
theorem fits_init : Fits ({} : RwLock π) fun _ => none where
  writer _ := ⟨nofun, nofun⟩
  readers _ := ⟨nofun, nofun⟩
  nodup := List.nodup_nil
  exclusive _ := rfl

omit [DecidableEq π] in
/-- **Exclusion.** Who holds the lock exclusively holds it alone. -/
theorem Fits.alone (hf : Fits l h) (hp : h p = some .unique) (hq : q ≠ p) : h q = none := by
  have hw := (hf.writer p).2 hp
  cases hm : h q with
  | none => rfl
  | some m =>
    cases m with
    | unique =>
      have hw' := (hf.writer q).2 hm
      rw [hw] at hw'
      exact absurd (Option.some.inj hw').symm hq
    | shared =>
      have hr := (hf.readers q).2 hm
      rw [hf.exclusive (by rw [hw]; nofun)] at hr
      cases hr

theorem Fits.stay (hf : Fits l h) {o : Option Mode} (ho : o = h p) : Fits l (update h p o) := by
  rw [ho, update_eq_self]
  exact hf

theorem Fits.lock (hf : Fits l h) (hl : l.lock p m = some l') (hp : h p = none) :
    Fits l' (update h p (some m)) := by
  cases m with
  | unique =>
    simp only [RwLock.lock] at hl
    split at hl
    next hfree =>
      obtain rfl := Option.some.inj hl
      refine ⟨fun q => ?_, fun q => ?_, hf.nodup, fun _ => hfree.2⟩
      · rcases eq_or_ne q p with rfl | hne
        · simp
        · have hold := hf.writer q
          rw [hfree.1] at hold
          simp [update_of_ne hne, ← hold, hne.symm]
      · have hold := hf.readers q
        rw [hfree.2] at hold
        rcases eq_or_ne q p with rfl | hne
        · simp [hfree.2]
        · simp [update_of_ne hne, ← hold, hfree.2]
    next => cases hl
  | shared =>
    simp only [RwLock.lock] at hl
    split at hl
    next hfree =>
      obtain rfl := Option.some.inj hl
      have hnew : p ∉ l.readers := fun hr => by simp [(hf.readers p).1 hr] at hp
      refine ⟨fun q => ?_, fun q => ?_, List.nodup_cons.2 ⟨hnew, hf.nodup⟩, absurd hfree⟩
      · rcases eq_or_ne q p with rfl | hne
        · simp [hfree]
        · simp [update_of_ne hne, hf.writer q]
      · rcases eq_or_ne q p with rfl | hne
        · simp
        · simp [hf.readers q, hne]
    next => cases hl

theorem Fits.unlock (hf : Fits l h) (hp : h p = some m) :
    Fits (l.unlock p m) (update h p none) := by
  cases m with
  | unique =>
    have hw := (hf.writer p).2 hp
    refine ⟨fun q => ?_, fun q => ?_, hf.nodup, absurd rfl⟩
    · rcases eq_or_ne q p with rfl | hne
      · simp [RwLock.unlock]
      · simp [RwLock.unlock, update_of_ne hne, hf.alone hp hne]
    · have hr := hf.exclusive (by rw [hw]; nofun)
      rcases eq_or_ne q p with rfl | hne
      · simp [RwLock.unlock, hr]
      · simp [RwLock.unlock, update_of_ne hne, hr, hf.alone hp hne]
  | shared =>
    have hr := (hf.readers p).2 hp
    have hw : l.writer = none := by
      by_contra hne
      rw [hf.exclusive hne] at hr
      cases hr
    refine ⟨fun q => ?_, fun q => ?_, hf.nodup.erase p, absurd hw⟩
    · rcases eq_or_ne q p with rfl | hne
      · simp [RwLock.unlock, hw]
      · simp [RwLock.unlock, update_of_ne hne, hf.writer q]
    · rcases eq_or_ne q p with rfl | hne
      · simp [RwLock.unlock, hf.nodup.not_mem_erase]
      · simp [RwLock.unlock, update_of_ne hne, List.mem_erase_of_ne hne, hf.readers q]

end

end RwLock

end Locks
