import FastCppServer.Lib.Since
import Mathlib.Data.List.DropRight

/-!
# What a log says of a thing

A log, the last entry last. Some of its entries end the thing it is about, some begin it. `life` are
the entries since it began, none where it is not there; `latest f` is what the last entry says that
says anything in the sense of `f`. A new entry is all that has to be looked at: `life_concat`,
`latest_concat`.
-/

namespace History

universe u v

variable {α : Type u} {β : Type v} {ends begins : α → Bool} {f : α → Option β}
    {log : List α} {a : α}

/-- The entries since it began. -/
def life (ends begins : α → Bool) (log : List α) : List α :=
  (log.rtakeWhile fun a => !ends a).dropWhile fun a => !begins a

/-- The last thing said. -/
def latest (f : α → Option β) (log : List α) : Option β := (log.filterMap f).getLast?

@[simp] theorem life_nil : life ends begins [] = [] := rfl

@[simp] theorem latest_nil : latest f [] = none := rfl

/-- **A new entry** ends it, goes on with it or begins it. -/
theorem life_concat :
    life ends begins (log ++ [a]) =
      if ends a then []
      else if life ends begins log = [] then (if begins a then [a] else [])
      else life ends begins log ++ [a] := by
  rw [life, List.rtakeWhile_concat]
  cases ends a with
  | true => rfl
  | false =>
    simp only [Bool.not_false, if_true, List.dropWhile_append, List.isEmpty_iff, Bool.false_eq_true,
      if_false]
    change (if life ends begins log = [] then _ else life ends begins log ++ [a]) = _
    by_cases hlife : life ends begins log = []
    · rw [if_pos hlife, if_pos hlife]
      cases hbegins : begins a <;> simp [hbegins]
    · rw [if_neg hlife, if_neg hlife]

/-- It begins with what begins it. -/
theorem begins_of_life {first : α} {rest : List α} (h : life ends begins log = first :: rest) :
    begins first = true := by
  have hne : life ends begins log ≠ [] := by
    rw [h]
    exact List.cons_ne_nil first rest
  have hhead : (!begins ((life ends begins log).head hne)) = false :=
    List.head_dropWhile_not (fun a => !begins a) hne
  simp only [h, List.head_cons, Bool.not_eq_false'] at hhead
  exact hhead

/-- **It is there** when it has begun, and has not ended since. -/
theorem life_ne_nil_iff (hdisj : ∀ a, begins a = true → ends a = false) :
    life ends begins log ≠ [] ↔ Since (begins · = true) (ends · = true) log := by
  induction log using List.reverseRecOn with
  | nil =>
    refine ⟨fun h => absurd rfl h, ?_⟩
    rintro ⟨a, post, hsuffix, -⟩
    exact absurd (List.suffix_nil.1 hsuffix) (List.cons_ne_nil a post)
  | append_singleton log a ih =>
    rw [life_concat, Since.concat, ← ih]
    cases hends : ends a with
    | true =>
      have hbegins : ¬ begins a = true := fun h => by simp [hdisj a h] at hends
      simp [hbegins]
    | false => by_cases hlife : life ends begins log = [] <;> cases begins a <;> simp [hlife]

theorem latest_concat : latest f (log ++ [a]) = (f a).or (latest f log) := by
  rw [latest, List.filterMap_append, List.getLast?_append, latest]
  cases h : f a <;> simp [h]

end History
