import Mathlib.Data.List.Infix
import Mathlib.Tactic.Tauto

/-!
# What has happened since

A log, the last entry last. `Since P Q` says that there is an entry with `P` and none with `Q` after
it: of two kinds of entries that undo each other, it is `P` that counts.
-/

universe u

variable {α : Type u} {P P' Q : α → Prop} {a : α} {l : List α}

/-- There has been a `P`, and no `Q` since. -/
def Since (P Q : α → Prop) (l : List α) : Prop :=
  ∃ a post, a :: post <:+ l ∧ P a ∧ ∀ b ∈ post, ¬ Q b

namespace Since

/-- It can be found out by a look at each suffix. -/
theorem iff_tails : Since P Q l ↔ ∃ t ∈ l.tails, ∃ a ∈ t.head?, P a ∧ ∀ b ∈ t.tail, ¬ Q b := by
  constructor
  · rintro ⟨a, post, hsuffix, ha, hpost⟩
    exact ⟨a :: post, (List.mem_tails _ _).2 hsuffix, a, rfl, ha, hpost⟩
  · rintro ⟨t, ht, a, hhead, ha, hpost⟩
    refine ⟨a, t.tail, ?_, ha, hpost⟩
    rw [List.cons_head?_tail hhead]
    exact (List.mem_tails _ _).1 ht

instance [DecidablePred P] [DecidablePred Q] (l : List α) : Decidable (Since P Q l) :=
  decidable_of_iff _ iff_tails.symm

theorem not_of_forall (h : ∀ a ∈ l, ¬ P a) : ¬ Since P Q l := fun ⟨a, _, hsuffix, ha, _⟩ =>
  h a (hsuffix.subset List.mem_cons_self) ha

/-- **The last entry** decides, if it is of either kind. -/
theorem concat : Since P Q (l ++ [a]) ↔ P a ∨ Since P Q l ∧ ¬ Q a := by
  constructor
  · rintro ⟨b, post, ⟨pre, hpre⟩, hb, hpost⟩
    induction post using List.reverseRecOn with
    | nil =>
      obtain ⟨-, hab⟩ := List.append_inj' hpre rfl
      rw [(List.cons.inj hab).1] at hb
      exact .inl hb
    | append_singleton post c _ =>
      rw [← List.cons_append, ← List.append_assoc] at hpre
      obtain ⟨hl, hca⟩ := List.append_inj' hpre rfl
      refine .inr ⟨⟨b, post, ⟨pre, hl⟩, hb, fun d hd => hpost d ?_⟩, ?_⟩
      · exact List.mem_append_left _ hd
      · rw [← (List.cons.inj hca).1]
        exact hpost c (List.mem_append_right _ (List.mem_singleton_self c))
  · rintro (ha | ⟨⟨b, post, ⟨pre, hpre⟩, hb, hpost⟩, ha⟩)
    · exact ⟨a, [], List.suffix_append l [a], ha, fun b hb => absurd hb List.not_mem_nil⟩
    · refine ⟨b, post ++ [a], ⟨pre, by rw [← hpre, List.append_assoc]; rfl⟩, hb, fun c hc => ?_⟩
      rcases List.mem_append.1 hc with hc | hc
      · exact hpost c hc
      · rw [List.mem_singleton.1 hc]
        exact ha

/-- **Two logs, one after the other.** -/
theorem append {m : List α} :
    Since P Q (l ++ m) ↔ Since P Q m ∨ Since P Q l ∧ ∀ b ∈ m, ¬ Q b := by
  induction m using List.reverseRecOn with
  | nil =>
    have h : ¬ Since P Q ([] : List α) := not_of_forall (by simp)
    simp [h]
  | append_singleton m a ih =>
    rw [← List.append_assoc, concat, concat, ih]
    simp only [List.forall_mem_append, List.forall_mem_singleton]
    tauto

end Since
