import Mathlib.Data.List.Nodup

/-!
# Gathering under distinct keys

A loop over the places `i`, `i + 1`, … that puts what it finds there behind what it has. It goes on
where a place has nothing, and ends at a place that fails and at the first key that it has already.

So no key comes twice (`gather_nodup`), and the same loop over the same places adds nothing
(`gather_again`).
-/

namespace Gather

universe u v

/-- What is found at a place. -/
inductive Round (α : Type u) where
  | stop
  | skip
  | put (a : α)

def Round.found {α : Type u} : Round α → Option α
  | .put a => some a
  | _ => none

theorem Round.found_eq_some {α : Type u} {r : Round α} {a : α} :
    r.found = some a ↔ r = .put a := by
  cases r <;> simp [Round.found]

section
variable {α : Type u} {κ : Type v} [DecidableEq κ] (key : α → κ) (round : Nat → Round α)

/-- The loop over `n` places from `i` on. -/
def gather : Nat → Nat → List α → List α
  | 0, _, acc => acc
  | n + 1, i, acc =>
    match round i with
    | .stop => acc
    | .skip => gather n (i + 1) acc
    | .put a => if key a ∈ acc.map key then acc else gather n (i + 1) (acc ++ [a])

variable {key round} {n i : Nat} {acc : List α}

theorem gather_succ : gather key round (n + 1) i acc =
    match round i with
    | .stop => acc
    | .skip => gather key round n (i + 1) acc
    | .put a => if key a ∈ acc.map key then acc else gather key round n (i + 1) (acc ++ [a]) := rfl

theorem gather_stop (h : round i = .stop) : gather key round (n + 1) i acc = acc := by
  rw [gather_succ, h]

theorem gather_skip (h : round i = .skip) :
    gather key round (n + 1) i acc = gather key round n (i + 1) acc := by
  rw [gather_succ, h]

theorem gather_taken {a : α} (h : round i = .put a) (ha : key a ∈ acc.map key) :
    gather key round (n + 1) i acc = acc := by
  rw [gather_succ, h]
  exact if_pos ha

theorem gather_put {a : α} (h : round i = .put a) (ha : key a ∉ acc.map key) :
    gather key round (n + 1) i acc = gather key round n (i + 1) (acc ++ [a]) := by
  rw [gather_succ, h]
  exact if_neg ha

/-- No key comes twice. -/
theorem gather_nodup (h : (acc.map key).Nodup) : ((gather key round n i acc).map key).Nodup := by
  induction n generalizing i acc with
  | zero => exact h
  | succ n ih =>
    cases hi : round i with
    | stop => rwa [gather_stop hi]
    | skip =>
      rw [gather_skip hi]
      exact ih h
    | put a =>
      by_cases ha : key a ∈ acc.map key
      · rwa [gather_taken hi ha]
      · rw [gather_put hi ha]
        refine ih ?_
        rw [List.map_append, List.map_singleton]
        refine List.nodup_append.2 ⟨h, List.nodup_singleton _, fun k hk k' hk' heq => ?_⟩
        rw [List.mem_singleton.1 hk'] at heq
        rw [heq] at hk
        exact ha hk

/-- **What is gathered**: all that is found up to a place, which is the last one, fails, or has a
key that is there already. -/
theorem gather_eq : ∃ k ≤ n,
    gather key round n i acc =
      acc ++ (List.range' i k).filterMap (fun j => (round j).found) ∧
    (∀ j, i ≤ j → j < i + k → round j ≠ .stop) ∧
    (k < n → round (i + k) = .stop ∨
      ∃ a, round (i + k) = .put a ∧ key a ∈ (gather key round n i acc).map key) := by
  induction n generalizing i acc with
  | zero => exact ⟨0, Nat.le_refl 0, by simp [gather], by omega, by omega⟩
  | succ n ih =>
    have hfrom {k : Nat} (hi : round i ≠ .stop)
        (hall : ∀ j, i + 1 ≤ j → j < i + 1 + k → round j ≠ .stop) :
        ∀ j, i ≤ j → j < i + (k + 1) → round j ≠ .stop := by
      intro j hij hjk
      rcases Nat.eq_or_lt_of_le hij with rfl | hlt
      · exact hi
      · exact hall j hlt (by omega)
    cases hi : round i with
    | stop =>
      refine ⟨0, Nat.zero_le _, ?_, by omega, fun _ => .inl hi⟩
      rw [gather_stop hi]
      simp
    | skip =>
      obtain ⟨k, hk, heq, hall, hend⟩ := @ih (i + 1) acc
      refine ⟨k + 1, by omega, ?_, hfrom (by simp [hi]) hall, fun hlt => ?_⟩
      · rw [gather_skip hi, heq, List.range'_succ, List.filterMap_cons_none (by rw [hi]; rfl)]
      · have hplace : i + (k + 1) = i + 1 + k := by omega
        rw [gather_skip hi, hplace]
        exact hend (by omega)
    | put a =>
      by_cases ha : key a ∈ acc.map key
      · refine ⟨0, Nat.zero_le _, ?_, by omega, fun _ => .inr ⟨a, hi, ?_⟩⟩
        · rw [gather_taken hi ha]
          simp
        · rwa [gather_taken hi ha]
      · obtain ⟨k, hk, heq, hall, hend⟩ := @ih (i + 1) (acc ++ [a])
        refine ⟨k + 1, by omega, ?_, hfrom (by simp [hi]) hall, fun hlt => ?_⟩
        · rw [gather_put hi ha, heq, List.range'_succ,
            List.filterMap_cons_some (by rw [hi]; rfl), List.append_assoc, List.singleton_append]
        · have hplace : i + (k + 1) = i + 1 + k := by omega
          rw [gather_put hi ha, hplace]
          exact hend (by omega)

/-- What is there was there before, or it has been found at one of the places. -/
theorem mem_gather {a : α} (h : a ∈ gather key round n i acc) :
    a ∈ acc ∨ ∃ j, i ≤ j ∧ j < i + n ∧ round j = .put a := by
  obtain ⟨k, hk, heq, -, -⟩ := @gather_eq α κ _ key round n i acc
  rw [heq, List.mem_append] at h
  rcases h with h | h
  · exact .inl h
  · obtain ⟨j, hj, hfound⟩ := List.mem_filterMap.1 h
    obtain ⟨hij, hjk⟩ := List.mem_range'_1.1 hj
    exact .inr ⟨j, hij, by omega, Round.found_eq_some.1 hfound⟩

/-- What was there stays in front. -/
theorem prefix_gather : acc <+: gather key round n i acc := by
  obtain ⟨k, -, heq, -, -⟩ := @gather_eq α κ _ key round n i acc
  rw [heq]
  exact List.prefix_append _ _

/-- **The same loop again adds nothing**, where all keys that it has gathered are there. -/
theorem gather_again {acc' : List α}
    (h : ∀ a ∈ gather key round n i acc, key a ∈ acc'.map key) :
    gather key round n i acc' = acc' := by
  induction n generalizing i acc with
  | zero => rfl
  | succ n ih =>
    cases hi : round i with
    | stop => exact gather_stop hi
    | skip =>
      rw [gather_skip hi] at h ⊢
      exact ih h
    | put a =>
      refine gather_taken hi ?_
      by_cases ha : key a ∈ acc.map key
      · rw [gather_taken hi ha] at h
        obtain ⟨b, hb, hkey⟩ := List.mem_map.1 ha
        rw [← hkey]
        exact h b hb
      · rw [gather_put hi ha] at h
        have hmem : a ∈ acc ++ [a] := by simp
        exact h a (List.IsPrefix.subset prefix_gather hmem)

end

end Gather
