import Mathlib.Data.Set.Insert
import Mathlib.Logic.Function.Basic

/-!
# Handles, and who holds them

An issuer gives out handles, each of them once, and takes them back one by one. A holder has slots
for the handles that it has been issued; a slot holds one handle, or none (0). A handle that was
issued to the holder, is alive, and is in no slot has leaked: nothing that the holder does to its
slots can give it back.
-/

open Function

universe u

/-- The books on the handles: the next to be issued, those that are alive, those issued to one
holder, and the handle it holds at each place. -/
structure Ledger (τ : Type u) where
  next : Nat
  alive : Set Nat
  /-- What the holder has been issued. -/
  issued : Set Nat
  held : τ → Nat

namespace Ledger

variable {τ : Type u}

/-- A new handle, which goes into no slot. -/
def issue (l : Ledger τ) : Ledger τ :=
  { l with next := l.next + 1, alive := insert l.next l.alive, issued := insert l.next l.issued }

/-- A new handle, which goes into a slot. -/
def take [DecidableEq τ] (l : Ledger τ) (t : τ) : Ledger τ :=
  { l.issue with held := update l.held t l.next }

/-- The handle of a slot is given back. -/
def giveBack [DecidableEq τ] (l : Ledger τ) (t : τ) : Ledger τ :=
  { l with alive := l.alive \ {l.held t}, held := update l.held t 0 }

/-- The handles of all slots are given back. -/
def giveBackAll (l : Ledger τ) : Ledger τ :=
  { l with alive := l.alive \ Set.range l.held, held := fun _ => 0 }

/-- The books are sound: handles are issued in order, and a handle that is held is alive, was issued
to the holder and is held once. -/
structure Sound (l : Ledger τ) : Prop where
  alive_bound : ∀ h ∈ l.alive, 0 < h ∧ h < l.next
  issued_lt : ∀ h ∈ l.issued, h < l.next
  held_alive : ∀ t, l.held t ≠ 0 → l.held t ∈ l.alive
  held_issued : ∀ t, l.held t ≠ 0 → l.held t ∈ l.issued
  held_inj : ∀ t t', l.held t ≠ 0 → l.held t = l.held t' → t = t'

/-- A handle that was issued to the holder is alive, and the holder does not hold it any more. -/
def Leaked (l : Ledger τ) : Prop := ∃ h ∈ l.issued, h ∈ l.alive ∧ ∀ t, l.held t ≠ h

section
variable {l : Ledger τ}

/-- A holder with empty slots has left nothing behind unless it has leaked. -/
theorem leaked_iff (h : Sound l) (hheld : ∀ t, l.held t = 0) :
    Leaked l ↔ ∃ handle ∈ l.issued, handle ∈ l.alive := by
  refine ⟨fun ⟨d, hd, ha, _⟩ => ⟨d, hd, ha⟩, fun ⟨d, hd, ha⟩ => ⟨d, hd, ha, fun t ht => ?_⟩⟩
  have hpos := (h.alive_bound d ha).1
  rw [← ht, hheld] at hpos
  exact Nat.lt_irrefl _ hpos

/-- The next handle is not alive yet. -/
theorem Sound.next_not_mem (h : Sound l) : l.next ∉ l.alive :=
  fun ha => Nat.lt_irrefl _ (h.alive_bound _ ha).2

/-- Nor is it held. -/
theorem Sound.held_ne_next (h : Sound l) (hpos : 0 < l.next) (t : τ) : l.held t ≠ l.next := by
  intro ht
  rcases Nat.eq_zero_or_pos (l.held t) with hz | hz
  · omega
  · exact h.next_not_mem (ht ▸ h.held_alive t (Nat.ne_of_gt hz))

/-- Issuing a handle keeps the books sound. -/
theorem Sound.issue (h : Sound l) (hpos : 0 < l.next) : Sound l.issue where
  alive_bound d hd := by
    rcases hd with rfl | hd
    · exact ⟨hpos, Nat.lt_succ_self _⟩
    · exact ⟨(h.alive_bound d hd).1, Nat.lt_succ_of_lt (h.alive_bound d hd).2⟩
  issued_lt d hd := by
    rcases hd with rfl | hd
    · exact Nat.lt_succ_self _
    · exact Nat.lt_succ_of_lt (h.issued_lt d hd)
  held_alive t ht := .inr (h.held_alive t ht)
  held_issued t ht := .inr (h.held_issued t ht)
  held_inj := h.held_inj

/-- What is issued and put nowhere has leaked. -/
theorem leaked_issue (h : Sound l) (hpos : 0 < l.next) : Leaked l.issue :=
  ⟨l.next, .inl rfl, .inl rfl, h.held_ne_next hpos⟩

/-- So does giving all back. -/
theorem Sound.giveBackAll (h : Sound l) : Sound l.giveBackAll where
  alive_bound d hd := h.alive_bound d hd.1
  issued_lt := h.issued_lt
  held_alive _ ht := absurd rfl ht
  held_issued _ ht := absurd rfl ht
  held_inj _ _ ht := absurd rfl ht

/-- Giving all back that is held leaks nothing, and recovers nothing. -/
theorem leaked_giveBackAll (h : Sound l) : Leaked l.giveBackAll ↔ Leaked l := by
  rw [leaked_iff h.giveBackAll fun _ => rfl]
  constructor
  · rintro ⟨d, hd, ha, hheld⟩
    exact ⟨d, hd, ha, fun t ht => hheld ⟨t, ht⟩⟩
  · rintro ⟨d, hd, ha, hheld⟩
    exact ⟨d, hd, ha, fun ⟨t, ht⟩ => hheld t ht⟩

variable [DecidableEq τ]

/-- Taking a handle for a place keeps them sound. -/
theorem Sound.take (h : Sound l) (hpos : 0 < l.next) (t : τ) : Sound (l.take t) where
  alive_bound := (h.issue hpos).alive_bound
  issued_lt := (h.issue hpos).issued_lt
  held_alive t' ht' := by
    rcases eq_or_ne t' t with rfl | hne
    · exact .inl (update_self ..)
    · simp only [Ledger.take, update_of_ne hne] at ht' ⊢
      exact .inr (h.held_alive t' ht')
  held_issued t' ht' := by
    rcases eq_or_ne t' t with rfl | hne
    · exact .inl (update_self ..)
    · simp only [Ledger.take, update_of_ne hne] at ht' ⊢
      exact .inr (h.held_issued t' ht')
  held_inj t₁ t₂ ht heq := by
    simp only [Ledger.take, update_apply] at ht heq
    split at heq <;> split at heq
    next h₁ h₂ => exact h₁.trans h₂.symm
    next h₁ h₂ => exact absurd heq.symm (h.held_ne_next hpos t₂)
    next h₁ h₂ => exact absurd heq (h.held_ne_next hpos t₁)
    next h₁ h₂ =>
      rw [if_neg h₁] at ht
      exact h.held_inj t₁ t₂ ht heq

/-- What has leaked stays leaked. -/
theorem Leaked.take (h : Leaked l) (hs : Sound l) (t : τ) : Leaked (l.take t) := by
  obtain ⟨d, hd, ha, hheld⟩ := h
  refine ⟨d, .inr hd, .inr ha, fun t' ht' => ?_⟩
  simp only [Ledger.take, update_apply] at ht'
  split at ht'
  · exact hs.next_not_mem (ht' ▸ ha)
  · exact hheld t' ht'

/-- A slot that is filled again loses what it held. -/
theorem leaked_take_held (h : Sound l) (hpos : 0 < l.next) {t : τ} (ht : l.held t ≠ 0) :
    Leaked (l.take t) := by
  refine ⟨l.held t, .inr (h.held_issued t ht), .inr (h.held_alive t ht), fun t' ht' => ?_⟩
  simp only [Ledger.take, update_apply] at ht'
  split at ht'
  next => exact h.held_ne_next hpos t ht'.symm
  next hne => exact hne (h.held_inj t t' ht ht'.symm).symm

/-- An empty slot is there to be filled. -/
theorem leaked_take (h : Sound l) {t : τ} (ht : l.held t = 0) : Leaked (l.take t) ↔ Leaked l := by
  refine ⟨fun ⟨d, hd, ha, hheld⟩ => ?_, fun hl => hl.take h t⟩
  have hne : d ≠ l.next := by
    rintro rfl
    exact hheld t (update_self ..)
  have ha' : d ∈ l.alive := ha.resolve_left hne
  refine ⟨d, hd.resolve_left hne, ha', fun t' ht' => ?_⟩
  rcases eq_or_ne t' t with rfl | hne'
  · rw [ht] at ht'
    exact Nat.lt_irrefl _ (ht' ▸ (h.alive_bound d ha').1)
  · exact hheld t' ((update_of_ne hne' ..).trans ht')

/-- Giving one back keeps them sound. -/
theorem Sound.giveBack (h : Sound l) (t : τ) : Sound (l.giveBack t) where
  alive_bound d hd := h.alive_bound d hd.1
  issued_lt := h.issued_lt
  held_alive t' ht' := by
    rcases eq_or_ne t' t with rfl | hne
    · exact absurd (update_self ..) ht'
    · simp only [Ledger.giveBack, update_of_ne hne] at ht' ⊢
      exact ⟨h.held_alive t' ht', fun heq => hne (h.held_inj t' t ht' heq)⟩
  held_issued t' ht' := by
    rcases eq_or_ne t' t with rfl | hne
    · exact absurd (update_self ..) ht'
    · simp only [Ledger.giveBack, update_of_ne hne] at ht' ⊢
      exact h.held_issued t' ht'
  held_inj t₁ t₂ ht heq := by
    simp only [Ledger.giveBack, update_apply] at ht heq
    split at ht
    · exact absurd rfl ht
    next h₁ =>
      rw [if_neg h₁] at heq
      split at heq
      · exact absurd heq ht
      · exact h.held_inj t₁ t₂ ht heq

/-- And neither leaks nor recovers one. -/
theorem leaked_giveBack (h : Sound l) (t : τ) : Leaked (l.giveBack t) ↔ Leaked l := by
  constructor
  · rintro ⟨d, hd, ⟨ha, hne⟩, hheld⟩
    refine ⟨d, hd, ha, fun t' ht' => ?_⟩
    rcases eq_or_ne t' t with rfl | hne'
    · exact hne ht'.symm
    · exact hheld t' ((update_of_ne hne' ..).trans ht')
  · rintro ⟨d, hd, ha, hheld⟩
    refine ⟨d, hd, ⟨ha, fun heq => hheld t heq.symm⟩, fun t' ht' => ?_⟩
    simp only [Ledger.giveBack, update_apply] at ht'
    split at ht'
    · exact Nat.lt_irrefl _ (ht' ▸ (h.alive_bound d ha).1)
    · exact hheld t' ht'

end

end Ledger
