import Mathlib.Data.Finset.Card
import Mathlib.Data.Finset.SDiff
import Mathlib.Data.List.AList
import Mathlib.Logic.Relation

/-!
# Searching a finite graph

A graph is given by its lists of successors, of which finitely many are not empty. The search pops a
vertex from a stack, skips it if it has been visited, and else pushes its successors; the stack may
hold a vertex several times. What is left to visit of the vertices with successors goes down
whenever the stack grows (`search`).

The result holds what the search has begun with, and it is closed where it and the stack were closed
before (`search_closed`); nothing else is in it (`search_sound`), and nothing twice
(`nodup_search`). So from a stack alone it is what is reachable from there (`mem_search_iff`).
-/

namespace Search

universe u

variable {α : Type u} [DecidableEq α]

/-- The successors of a vertex. -/
def next (g : AList fun _ : α => List α) (a : α) : List α := (g.lookup a).getD []

/-- A vertex without a list has no successors. -/
theorem next_of_notMem {g : AList fun _ : α => List α} {a : α} (h : a ∉ g) : next g a = [] := by
  rw [next, AList.lookup_eq_none.2 h]
  rfl

/-- The vertices with successors that have not been visited. -/
def unvisited (g : AList fun _ : α => List α) (vis : Finset α) : Finset α := g.keys.toFinset \ vis

/-- Visiting a vertex with successors leaves one fewer to visit. -/
theorem card_unvisited_insert {g : AList fun _ : α => List α} {vis : Finset α} {a : α}
    (ha : a ∈ g) (hvis : a ∉ vis) :
    (unvisited g (insert a vis)).card < (unvisited g vis).card := by
  refine Finset.card_lt_card (Finset.ssubset_iff_subset_ne.2 ⟨?_, fun heq => ?_⟩)
  · exact Finset.sdiff_subset_sdiff (Finset.Subset.refl _) (Finset.subset_insert a vis)
  · have hmem : a ∈ unvisited g (insert a vis) := by
      rw [heq, unvisited, Finset.mem_sdiff, List.mem_toFinset]
      exact ⟨ha, hvis⟩
    exact (Finset.mem_sdiff.1 hmem).2 (Finset.mem_insert_self a vis)

/-- Visiting any other leaves as many. -/
theorem unvisited_insert_of_notMem {g : AList fun _ : α => List α} {vis : Finset α} {a : α}
    (ha : a ∉ g) : unvisited g (insert a vis) = unvisited g vis := by
  ext b
  simp only [unvisited, Finset.mem_sdiff, List.mem_toFinset, Finset.mem_insert, not_or]
  refine and_congr_right fun hb => and_iff_right ?_
  rintro rfl
  exact ha hb

/-- The search, with the top of the stack in front. -/
def search (g : AList fun _ : α => List α) :
    (stack : List α) → (vis : Finset α) → (res : List α) → List α
  | [], _, res => res
  | a :: stack, vis, res =>
    if a ∈ vis then search g stack vis res
    else search g ((next g a).reverse ++ stack) (insert a vis) (res ++ [a])
termination_by stack vis => ((unvisited g vis).card, stack.length)
decreasing_by
  · exact Prod.Lex.right _ (Nat.lt_succ_self _)
  · next hvis =>
    by_cases ha : a ∈ g
    · exact Prod.Lex.left _ _ (card_unvisited_insert ha hvis)
    · rw [next_of_notMem ha, unvisited_insert_of_notMem ha]
      exact Prod.Lex.right _ (Nat.lt_succ_self _)

variable {g : AList fun _ : α => List α} {stack res : List α} {vis : Finset α}

/-- What has been visited is what the result holds so far. -/
theorem visited_insert (h : ∀ b, b ∈ vis ↔ b ∈ res) (a b : α) :
    b ∈ insert a vis ↔ b ∈ res ++ [a] := by
  rw [Finset.mem_insert, h b, List.mem_append, List.mem_singleton, or_comm]

/-- What holds of the stack and of the result so far, and passes along the edges, holds of the whole
result. -/
theorem search_sound {P : α → Prop} (hnext : ∀ a, P a → ∀ b ∈ next g a, P b)
    (hstack : ∀ a ∈ stack, P a) (hres : ∀ a ∈ res, P a) : ∀ a ∈ search g stack vis res, P a := by
  fun_induction search g stack vis res with
  | case1 vis res => exact hres
  | case2 a stack vis res hvis ih =>
    exact ih (fun b hb => hstack b (List.mem_cons_of_mem a hb)) hres
  | case3 a stack vis res hvis ih =>
    have ha : P a := hstack a List.mem_cons_self
    refine ih (fun b hb => ?_) (fun b hb => ?_)
    · rcases List.mem_append.1 hb with hb | hb
      · exact hnext a ha b (List.mem_reverse.1 hb)
      · exact hstack b (List.mem_cons_of_mem a hb)
    · rcases List.mem_append.1 hb with hb | hb
      · exact hres b hb
      · exact List.mem_singleton.1 hb ▸ ha

/-- The result holds no vertex twice. -/
theorem nodup_search (hvis : ∀ b, b ∈ vis ↔ b ∈ res) (h : res.Nodup) :
    (search g stack vis res).Nodup := by
  fun_induction search g stack vis res with
  | case1 vis res => exact h
  | case2 a stack vis res ha ih => exact ih hvis h
  | case3 a stack vis res ha ih =>
    refine ih (visited_insert hvis a) (h.append (List.nodup_singleton a) ?_)
    rw [List.disjoint_singleton]
    exact fun hmem => ha ((hvis a).2 hmem)

/-- It holds what it has begun with and what was on the stack. -/
theorem subset_search (hvis : ∀ b, b ∈ vis ↔ b ∈ res) {a : α} (ha : a ∈ res ∨ a ∈ stack) :
    a ∈ search g stack vis res := by
  fun_induction search g stack vis res with
  | case1 vis res => exact ha.resolve_right List.not_mem_nil
  | case2 b stack vis res hb ih =>
    refine ih hvis ?_
    rcases ha with ha | ha
    · exact .inl ha
    · rcases List.mem_cons.1 ha with rfl | ha
      · exact .inl ((hvis a).1 hb)
      · exact .inr ha
  | case3 b stack vis res hb ih =>
    refine ih (visited_insert hvis b) ?_
    rcases ha with ha | ha
    · exact .inl (List.mem_append_left _ ha)
    · rcases List.mem_cons.1 ha with rfl | ha
      · exact .inl (List.mem_append_right _ (List.mem_singleton_self a))
      · exact .inr (List.mem_append_right _ ha)

/-- An edge out of the result so far leads into it or to the stack. -/
theorem search_closed (hvis : ∀ b, b ∈ vis ↔ b ∈ res)
    (hclosed : ∀ a ∈ res, ∀ b ∈ next g a, b ∈ res ∨ b ∈ stack) :
    ∀ a ∈ search g stack vis res, ∀ b ∈ next g a, b ∈ search g stack vis res := by
  fun_induction search g stack vis res with
  | case1 vis res =>
    intro a ha b hb
    exact (hclosed a ha b hb).resolve_right List.not_mem_nil
  | case2 c stack vis res hc ih =>
    refine ih hvis fun a ha b hb => ?_
    rcases hclosed a ha b hb with hb | hb
    · exact .inl hb
    · rcases List.mem_cons.1 hb with rfl | hb
      · exact .inl ((hvis b).1 hc)
      · exact .inr hb
  | case3 c stack vis res hc ih =>
    refine ih (visited_insert hvis c) fun a ha b hb => ?_
    rcases List.mem_append.1 ha with ha | ha
    · rcases hclosed a ha b hb with hb | hb
      · exact .inl (List.mem_append_left _ hb)
      · rcases List.mem_cons.1 hb with rfl | hb
        · exact .inl (List.mem_append_right _ (List.mem_singleton_self b))
        · exact .inr (List.mem_append_right _ hb)
    · rw [List.mem_singleton.1 ha] at hb
      exact .inr (List.mem_append_left _ (List.mem_reverse.2 hb))

/-- **The search finds what is reachable.** -/
theorem mem_search_iff {a : α} :
    a ∈ search g stack ∅ [] ↔ ∃ r ∈ stack, Relation.ReflTransGen (fun a b => b ∈ next g a) r a := by
  have hvis : ∀ b, b ∈ (∅ : Finset α) ↔ b ∈ ([] : List α) := by simp
  constructor
  · intro ha
    refine search_sound (P := fun a => ∃ r ∈ stack, Relation.ReflTransGen _ r a) ?_ ?_ ?_ a ha
    · rintro b ⟨r, hr, hreach⟩ c hc
      exact ⟨r, hr, hreach.tail hc⟩
    · exact fun r hr => ⟨r, hr, .refl⟩
    · exact fun b hb => absurd hb List.not_mem_nil
  · rintro ⟨r, hr, hreach⟩
    have hclosed : ∀ a ∈ search g stack ∅ [], ∀ b ∈ next g a, b ∈ search g stack ∅ [] :=
      search_closed hvis fun a ha => absurd ha List.not_mem_nil
    induction hreach with
    | refl => exact subset_search hvis (.inr hr)
    | tail _ hstep ih => exact hclosed _ ih _ hstep

end Search
