import FastCppServer.Lib.Search
import FastCppServer.MySoftHealthy.ProcStat
import Mathlib.Data.List.Sort

/-!
# The subtree of a process

The pids are read from `/proc` one after the other, so the maps need not be a tree: a parent may
have exited between two reads and its pid been taken again. `collect_subtree` searches whatever
graph there is (`Search.search`) and sorts what it finds.
-/

namespace MySoftHealthy

open Search

/-- `ppid_children`. -/
abbrev Children := AList fun _ : Int => List Int

/-- `build_pid_maps`, of the pids there are and what their files hold. -/
def buildPidMaps (pids : List Int) (stat : Int → List UInt8) :
    (AList fun _ : Int => Int) × Children :=
  pids.foldl
    (fun (pidToPpid, ppidChildren) pid =>
      match readProcStat pid (stat pid) {} with
      | (false, _) => (pidToPpid, ppidChildren)
      | (true, tmp) =>
        (pidToPpid.insert pid tmp.ppid,
          ppidChildren.insert tmp.ppid (next ppidChildren tmp.ppid ++ [pid])))
    (∅, ∅)

/-- `collect_subtree`. A vector is a stack with its top at the back. -/
def collectSubtree (roots : List Int) (ppidChildren : Children) : List Int :=
  (search ppidChildren roots.reverse ∅ []).mergeSort (· ≤ ·)

/-! ## What is collected -/

variable {roots roots' : List Int} {m m' : Children} {pid : Int}

/-- It is a root, or reachable from one. -/
def Below (m : Children) (roots : List Int) (pid : Int) : Prop :=
  ∃ r ∈ roots, Relation.ReflTransGen (fun p c => c ∈ next m p) r pid

theorem mem_collectSubtree : pid ∈ collectSubtree roots m ↔ Below m roots pid := by
  rw [collectSubtree, (List.mergeSort_perm _ _).mem_iff, mem_search_iff]
  simp only [List.mem_reverse, Below]

/-- **Each once, in order.** -/
theorem collectSubtree_pairwise (roots : List Int) (m : Children) :
    (collectSubtree roots m).Pairwise (· < ·) := by
  have hnodup : (collectSubtree roots m).Nodup :=
    (List.mergeSort_perm _ _).nodup_iff.2 (nodup_search (by simp) List.nodup_nil)
  have hle : (collectSubtree roots m).Pairwise (· ≤ ·) := List.pairwise_mergeSort' (· ≤ ·) _
  exact (hle.and hnodup).imp fun h => lt_of_le_of_ne h.1 h.2

/-- More roots and more children make a larger subtree. -/
theorem Below.mono (h : Below m roots pid) (hroots : ∀ r ∈ roots, r ∈ roots')
    (hnext : ∀ p, ∀ c ∈ next m p, c ∈ next m' p) : Below m' roots' pid := by
  obtain ⟨r, hr, hreach⟩ := h
  exact ⟨r, hroots r hr, Relation.ReflTransGen.mono hnext _ _ hreach⟩

/-- Nothing is below a subtree that is not in it. -/
theorem below_collectSubtree : Below m (collectSubtree roots m) pid ↔ Below m roots pid := by
  constructor
  · rintro ⟨r, hr, hreach⟩
    obtain ⟨root, hroot, hbelow⟩ := mem_collectSubtree.1 hr
    exact ⟨root, hroot, hbelow.trans hreach⟩
  · intro h
    exact ⟨pid, mem_collectSubtree.2 h, .refl⟩

/-- Two subtrees with the same pids are the same. -/
theorem collectSubtree_ext (h : ∀ pid, Below m' roots' pid ↔ Below m roots pid) :
    collectSubtree roots' m' = collectSubtree roots m := by
  refine (collectSubtree_pairwise roots' m').eq_of_mem_iff (collectSubtree_pairwise roots m) ?_
  intro pid
  rw [mem_collectSubtree, mem_collectSubtree, h pid]

/-- **The subtree is computed exactly**, whatever the graph. -/
theorem collectSubtree_exact (roots : List Int) (m : Children) :
    (collectSubtree roots m).Pairwise (· < ·) ∧
      (∀ pid, pid ∈ collectSubtree roots m ↔ Below m roots pid) ∧
      (∀ roots' m', (∀ r, r ∈ roots' ↔ r ∈ roots) → (∀ p c, c ∈ next m' p ↔ c ∈ next m p) →
        collectSubtree roots' m' = collectSubtree roots m) ∧
      (∀ roots' m', (∀ r ∈ roots, r ∈ roots') → (∀ p, ∀ c ∈ next m p, c ∈ next m' p) →
        ∀ pid ∈ collectSubtree roots m, pid ∈ collectSubtree roots' m') ∧
      collectSubtree (collectSubtree roots m) m = collectSubtree roots m := by
  refine ⟨collectSubtree_pairwise roots m, fun _ => mem_collectSubtree, ?_, ?_, ?_⟩
  · intro roots' m' hroots hnext
    refine collectSubtree_ext fun pid => ⟨fun h => ?_, fun h => ?_⟩
    · exact h.mono (fun r => (hroots r).1) fun p c => (hnext p c).1
    · exact h.mono (fun r => (hroots r).2) fun p c => (hnext p c).2
  · intro roots' m' hroots hnext pid hpid
    exact mem_collectSubtree.2 ((mem_collectSubtree.1 hpid).mono hroots hnext)
  · exact collectSubtree_ext fun _ => below_collectSubtree

/-! ## The maps -/

/-- The parent that `/proc` names. -/
def parentOf (stat : Int → List UInt8) (pid : Int) : Option Int :=
  match readProcStat pid (stat pid) {} with
  | (false, _) => none
  | (true, tmp) => some tmp.ppid

theorem next_insert (p q : Int) (cs : List Int) :
    next (m.insert p cs) q = if q = p then cs else next m q := by
  rw [next]
  split
  · next h => rw [h, AList.lookup_insert, Option.getD_some]
  · next h => rw [AList.lookup_insert_ne h, next]

/-- **The children of a process are the pids that name it.** -/
theorem next_buildPidMaps (pids : List Int) (stat : Int → List UInt8) (p : Int) :
    next (buildPidMaps pids stat).2 p = pids.filter (parentOf stat · = some p) := by
  induction pids using List.reverseRecOn with
  | nil => rfl
  | append_singleton pids pid ih =>
    rw [List.filter_append, ← ih]
    simp only [buildPidMaps, List.foldl_append, List.foldl_cons, List.foldl_nil]
    cases hread : readProcStat pid (stat pid) {} with
    | mk ok tmp =>
      cases ok with
      | false => simp [parentOf, hread]
      | true =>
        have hparent : parentOf stat pid = some tmp.ppid := by rw [parentOf, hread]
        dsimp only
        rw [next_insert, List.filter_singleton, hparent]
        by_cases hp : p = tmp.ppid
        · rw [if_pos hp, hp]
          simp
        · have hne : ¬ some tmp.ppid = some p := fun h => hp (Option.some.inj h).symm
          rw [if_neg hp]
          simp [hne]

end MySoftHealthy
