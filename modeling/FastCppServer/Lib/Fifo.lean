import Mathlib.Data.List.Basic

/-!
# Queues and their histories

A history of a queue is a list of events, the oldest first. It is legal (`Legal`) when it is one of
a first-in first-out queue that is empty at first. The law is one of conservation
(`Legal.conserve`): what has been pushed is what has left the queue, in this order, and then what is
still in it; what has left has been popped, or dropped by a clear. So the popped items are a
sublist of the pushed ones, and a prefix where nothing has been cleared.
-/

namespace Fifo

universe u

/-- What a client does to a queue: it puts an item in, takes one out, or empties it. -/
inductive Event (α : Type u) where
  | push (a : α)
  | pop (a : α)
  | clear

section
variable {α : Type u}

/-- The history is one of a queue that holds the items in the end. -/
inductive Legal : List (Event α) → List α → Prop where
  | nil : Legal [] []
  | push {es items} (a : α) (h : Legal es items) : Legal (es ++ [.push a]) (items ++ [a])
  | pop {es a items} (h : Legal es (a :: items)) : Legal (es ++ [.pop a]) items
  | clear {es items} (h : Legal es items) : Legal (es ++ [.clear]) []

/-- The item an event puts in. -/
def Event.pushed? : Event α → Option α
  | .push a => some a
  | _ => none

/-- The item an event takes out. -/
def Event.popped? : Event α → Option α
  | .pop a => some a
  | _ => none

/-- What has been pushed, in order. -/
def pushed (es : List (Event α)) : List α := es.filterMap Event.pushed?

/-- What has been popped, in order. -/
def popped (es : List (Event α)) : List α := es.filterMap Event.popped?

/-- What has been pushed and neither popped nor cleared. -/
def waiting (es : List (Event α)) : List α :=
  es.foldl (fun items e =>
    match e with
    | .push a => items ++ [a]
    | .pop _ => items.tail
    | .clear => []) []

/-- What has been pushed, but for what has been cleared. -/
def kept (es : List (Event α)) : List α := popped es ++ waiting es

/-- No events, nothing pushed. -/
@[simp] theorem pushed_nil : pushed ([] : List (Event α)) = [] := rfl

/-- No events, nothing popped. -/
@[simp] theorem popped_nil : popped ([] : List (Event α)) = [] := rfl

/-- The pushes of two histories, one after the other. -/
@[simp] theorem pushed_append (es fs : List (Event α)) :
    pushed (es ++ fs) = pushed es ++ pushed fs :=
  List.filterMap_append

/-- The pops of two histories, one after the other. -/
@[simp] theorem popped_append (es fs : List (Event α)) :
    popped (es ++ fs) = popped es ++ popped fs :=
  List.filterMap_append

@[simp] theorem pushed_push (a : α) : pushed [Event.push a] = [a] := rfl

@[simp] theorem pushed_pop (a : α) : pushed [Event.pop a] = [] := rfl

@[simp] theorem pushed_clear : pushed [(Event.clear : Event α)] = [] := rfl

@[simp] theorem popped_push (a : α) : popped [Event.push a] = [] := rfl

@[simp] theorem popped_pop (a : α) : popped [Event.pop a] = [a] := rfl

@[simp] theorem popped_clear : popped [(Event.clear : Event α)] = [] := rfl

/-- **Conservation.** What has been pushed has left the queue, in this order, or is still in it;
what has left, with its fate, has been popped (`true`) or dropped (`false`). -/
theorem Legal.conserve {es : List (Event α)} {items : List α} (h : Legal es items) :
    ∃ left : List (α × Bool), pushed es = left.map Prod.fst ++ items ∧
      popped es = (left.filter Prod.snd).map Prod.fst := by
  induction h with
  | nil => exact ⟨[], rfl, rfl⟩
  | push a _ ih =>
    obtain ⟨left, hpush, hpop⟩ := ih
    exact ⟨left, by simp [hpush], by simp [hpop]⟩
  | @pop _ a _ _ ih =>
    obtain ⟨left, hpush, hpop⟩ := ih
    exact ⟨left ++ [(a, true)], by simp [hpush], by simp [hpop]⟩
  | @clear _ items _ ih =>
    obtain ⟨left, hpush, hpop⟩ := ih
    refine ⟨left ++ items.map fun a => (a, false), ?_, ?_⟩
    · simp [hpush, Function.comp_def]
    · have hnone : (items.map fun a => (a, false)).filter Prod.snd = [] := by simp
      simp [hpop, hnone]

/-- In a legal history what was taken out and what still waits come from what was put in, in that
order. -/
theorem Legal.popped_sublist {es : List (Event α)} {items : List α} (h : Legal es items) :
    (popped es ++ items).Sublist (pushed es) := by
  obtain ⟨left, hpush, hpop⟩ := h.conserve
  rw [hpush, hpop]
  exact (List.filter_sublist.map Prod.fst).append (List.Sublist.refl items)

/-- Where nothing is cleared nothing is lost. -/
theorem Legal.pushed_eq {es : List (Event α)} {items : List α} (h : Legal es items)
    (hclear : .clear ∉ es) : pushed es = popped es ++ items := by
  induction h with
  | nil => rfl
  | push a _ ih =>
    have ih := ih fun hc => hclear (List.mem_append_left _ hc)
    simp [ih]
  | pop _ ih =>
    have ih := ih fun hc => hclear (List.mem_append_left _ hc)
    simp [ih]
  | clear => exact absurd (List.mem_append_right _ List.mem_cons_self) hclear

/-- The items a history leaves waiting are the contents of the queue. -/
theorem Legal.waiting_eq {es : List (Event α)} {items : List α} (h : Legal es items) :
    waiting es = items := by
  induction h with
  | nil => rfl
  | push a _ ih | pop _ ih | clear _ ih => simp_all [waiting, List.foldl_append]

/-- What is kept is what has been pushed, with gaps where something has been cleared. -/
theorem Legal.kept_sublist {es : List (Event α)} {items : List α} (h : Legal es items) :
    (kept es).Sublist (pushed es) := by
  rw [kept, h.waiting_eq]
  exact h.popped_sublist

/-- Without a clear, every pushed item is kept. -/
theorem Legal.kept_eq {es : List (Event α)} {items : List α} (h : Legal es items)
    (hclear : .clear ∉ es) : kept es = pushed es := by
  rw [kept, h.waiting_eq, h.pushed_eq hclear]

end

end Fifo
