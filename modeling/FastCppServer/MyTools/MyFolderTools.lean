import FastCppServer.Lib.LinkCalls

/-!
# Deleting a folder by its path

`MyFolderTools.cpp`, `DeleteFolderByPathV1` and `DeleteFolderByPathV2`. The first walks the tree
itself, on `lstat` and on pathnames it builds; the second asks `std::filesystem`, whose predicates
follow a link in the last place. The two agree, inside the folder, exactly when `Meets` holds of the
pathname (`deletes_exact_iff`). Nobody else touches the tree while a deletion runs.
-/

namespace MyFolderTools

open LinkTree

/-- A tree of directories, links and files of bytes. -/
abbrev Fs := Tree String (List UInt8)

/-- A pathname of such a tree. -/
abbrev Pathname := Path String

/-! ## The code -/

/-- A call that returns zero, or leaves the tree as it was. -/
def succeeded (t : Fs) : Except Errno Fs → Bool × Fs
  | .ok u => (true, u)
  | .error _ => (false, t)

/-- The loop over `readdir`: the entries are removed by their pathnames until one fails. -/
def removeEach (removeOne : Fs → Pathname → Bool × Fs) (path : Pathname) :
    Fs → List String → Bool × Fs
  | t, [] => (true, t)
  | t, name :: names =>
    match removeOne t (path.child name) with
    | (true, t) => removeEach removeOne path t names
    | (false, t) => (false, t)

/-- The recursion, so many directories deep. -/
def removeDirectoryRecursivelyOld (cwd : List String) : Nat → Fs → Pathname → Bool × Fs
  | 0, t, _ => (false, t)
  | depth + 1, t, path =>
    match t.lstat cwd path with
    | .error e => (decide (e = .noent), t)
    | .ok (_, .dir) =>
      match t.list cwd path with
      | .error _ => (false, t)
      | .ok names =>
        match removeEach (removeDirectoryRecursivelyOld cwd depth) path t names with
        | (false, t) => (false, t)
        | (true, t) => succeeded t (t.rmdir cwd path)
    | .ok _ => succeeded t (t.unlink cwd path)

/-- `DeleteFolderByPathV1`. The tree is no deeper than the recursion may go. -/
def deleteFolderByPathV1 (cwd : List String) (t : Fs) (fullPath : Pathname) : Bool × Fs :=
  if fullPath.isEmpty then (false, t)
  else
    match t.lstat cwd fullPath with
    | .error e => (decide (e = .noent), t)
    | .ok (_, .dir) => removeDirectoryRecursivelyOld cwd (t.depth + 2) t fullPath
    | .ok _ => (false, t)

/-- `DeleteFolderByPathV2`. -/
def deleteFolderByPathV2 (cwd : List String) (t : Fs) (fullPath : Pathname) : Bool × Fs :=
  if fullPath.isEmpty then (false, t)
  else
    match t.present cwd fullPath with
    | .error _ => (false, t)
    | .ok false => (true, t)
    | .ok true =>
      if t.isDirectory cwd fullPath then
        match t.removeAll cwd fullPath with
        | (some _, t) => (false, t)
        | (none, t) => (true, t)
      else (false, t)

/-! ## What the two deletions are for -/

/-- A location outside the subtree of what the pathname names. -/
def Outside (cwd : List String) (t : Fs) (path : Pathname) (q : List String) : Prop :=
  ∀ top found, t.lstat cwd path.entry = .ok (top, found) → ¬ top <+: q

/-- The two deletions agree, and stay inside the folder. -/
structure Agree (cwd : List String) (t : Fs) (path : Pathname) : Prop where
  value : (deleteFolderByPathV1 cwd t path).1 = (deleteFolderByPathV2 cwd t path).1
  tree : ∀ q, (deleteFolderByPathV1 cwd t path).2.node q =
    (deleteFolderByPathV2 cwd t path).2.node q
  gone : (deleteFolderByPathV1 cwd t path).1 = true →
    ∀ found, (deleteFolderByPathV1 cwd t path).2.lstat cwd path ≠ .ok found
  inside : ∀ q, Outside cwd t path q → (deleteFolderByPathV1 cwd t path).2.node q = t.node q

/-- The pathname leads to a directory, and through nothing inside it. -/
structure Straight (cwd : List String) (t : Fs) (path : Pathname) (l : List String) : Prop where
  leads : t.leads cwd path = .ok l
  above : ∀ q ∈ t.through cwd path, l <+: q → q = l

/-- Where the two deletions agree. -/
def Meets (cwd : List String) (t : Fs) (path : Pathname) : Prop :=
  path.isEmpty = true ∨
    match t.lstat cwd path with
    | .error e => e ≠ .notdir
    | .ok (_, .file _) => True
    | .ok (_, .link _) =>
      match t.stat cwd path with
      | .error e => e ≠ .noent ∧ e ≠ .notdir
      | .ok (_, found) => found ≠ .dir
    | .ok (l, .dir) => Straight cwd t path l ∧
      (t.lstat cwd path.entry = .ok (l, .dir) ∨ t.children l = [])

section
variable {cwd : List String} {t u : Fs} {path : Pathname} {l : List String} {k : String} {n d : Nat}

/-! ## The recursion -/

/-- Nothing is removed where the pathname leads nowhere. -/
theorem removeOld_noent (h : t.leads cwd path = .error .noent) :
    (removeDirectoryRecursivelyOld cwd n t (path.child k)).2 = t := by
  cases n with
  | zero => rfl
  | succ n => simp [removeDirectoryRecursivelyOld, Tree.lstat_child_error h]

/-- One call on an entry of the directory that a pathname leads to. -/
theorem removeOld_child (h : t.leads cwd path = .ok l) :
    removeDirectoryRecursivelyOld cwd (n + 1) t (path.child k) =
      match t.node (l ++ [k]) with
      | none => (true, t)
      | some .dir =>
        match removeEach (removeDirectoryRecursivelyOld cwd n) (path.child k) t
            (t.children (l ++ [k])) with
        | (false, t) => (false, t)
        | (true, t) => succeeded t (t.rmdir cwd (path.child k))
      | some _ => (true, t.prune l k) := by
  rw [removeDirectoryRecursivelyOld, Tree.lstat_child h]
  cases hn : t.node (l ++ [k]) with
  | none => rfl
  | some found =>
    cases found with
    | dir =>
      have hlstat : t.lstat cwd (path.child k) = .ok (l ++ [k], .dir) := by
        rw [Tree.lstat_child h, hn]
      simp only [Tree.list_of_lstat hlstat]
    | file b => simp [Tree.unlink_child h hn, succeeded]
    | link target => simp [Tree.unlink_child h hn, succeeded]

/-- The pathname leads to the directory, or no longer anywhere. -/
def Reaches (cwd : List String) (t : Fs) (path : Pathname) (l : List String) : Prop :=
  t.leads cwd path = .ok l ∨ t.leads cwd path = .error .noent

/-- When something is lost the pathname leads there still, or nowhere. -/
theorem Reaches.loses {m : List String} (h : Reaches cwd t path l) (hu : Loses m t u) :
    Reaches cwd u path l := by
  rcases Tree.leads_loses cwd path hu with hkeep | hno
  · have := Tree.leads_congr hkeep
    exact h.imp this.trans this.trans
  · exact .inr hno

/-- The loop takes away nothing outside the directory. -/
theorem removeEach_loses {removeOne : Fs → Pathname → Bool × Fs}
    (hone : ∀ t k, Reaches cwd t path l → Loses (l ++ [k]) t (removeOne t (path.child k)).2)
    (names : List String) (t : Fs) (h : Reaches cwd t path l) :
    Loses l t (removeEach removeOne path t names).2 := by
  induction names generalizing t with
  | nil => exact Loses.refl l t
  | cons k names ih =>
    have hk := hone t k h
    unfold removeEach
    split
    · rename_i u hu
      rw [hu] at hk
      exact (hk.mono (List.prefix_append l [k])).trans (ih u (h.loses hk))
    · rename_i u hu
      rw [hu] at hk
      exact hk.mono (List.prefix_append l [k])

/-- A call takes away nothing but its entry and what is below it, however the pathname goes. -/
theorem removeOld_loses (n : Nat) (t : Fs) (path : Pathname) (l : List String) (k : String)
    (h : Reaches cwd t path l) :
    Loses (l ++ [k]) t (removeDirectoryRecursivelyOld cwd n t (path.child k)).2 := by
  induction n generalizing t path l k with
  | zero => exact Loses.refl _ t
  | succ n ih =>
    rcases h with h | h
    · rw [removeOld_child h]
      cases hn : t.node (l ++ [k]) with
      | none => exact Loses.refl _ t
      | some found =>
        cases found with
        | file b => exact t.loses_prune
        | link target => exact t.loses_prune
        | dir =>
          have hdir := Tree.leads_child h hn
          have hloop : Loses (l ++ [k]) t (removeEach (removeDirectoryRecursivelyOld cwd n)
              (path.child k) t (t.children (l ++ [k]))).2 :=
            removeEach_loses (fun t j => ih t (path.child k) (l ++ [k]) j) _ t (.inl hdir)
          simp only
          split
          · rename_i u hu
            rwa [hu] at hloop
          · rename_i u hu
            rw [hu] at hloop
            cases hrm : u.rmdir cwd (path.child k) with
            | error e => exact hloop
            | ok left =>
              obtain ⟨m, j, hm, -, -, rfl, -⟩ := Tree.rmdir_of_loses hloop hdir hrm
              rw [hm] at hloop ⊢
              exact hloop.trans u.loses_prune
    · rw [removeOld_noent h]
      exact Loses.refl _ t

/-! ## A pathname that goes through nothing inside the directory -/

/-- A change inside the folder leaves the way to it straight. -/
theorem Straight.keeps (h : Straight cwd t path l)
    (hu : ∀ q, (l <+: q → q = l) → u.node q = t.node q) : Straight cwd u path l := by
  have hkeep : ∀ q ∈ t.through cwd path, u.node q = t.node q := fun q hq => hu q (h.above q hq)
  refine ⟨(Tree.leads_congr hkeep).trans h.leads, ?_⟩
  rw [Tree.through_congr hkeep]
  exact h.above

/-- The way to a folder in it is straight. -/
theorem Straight.child (h : Straight cwd t path l) (hk : t.node (l ++ [k]) = some .dir) :
    Straight cwd t (path.child k) (l ++ [k]) := by
  refine ⟨Tree.leads_child h.leads hk, fun q hq hkq => ?_⟩
  rw [Tree.through_child h.leads hk, List.mem_append] at hq
  rcases hq with hq | hq
  · have hl := h.above q hq ((List.prefix_append l [k]).trans hkq)
    exact absurd (hl ▸ hkq) (not_concat_below l k)
  · exact List.mem_singleton.1 hq

/-- No location is longer. -/
def Within (d : Nat) (t : Fs) : Prop := ∀ q, t.node q ≠ none → q.length ≤ d

/-- When something is lost no location gets longer. -/
theorem Within.loses (h : Within d t) (hu : Loses l t u) : Within d u := by
  intro q hq
  exact h q (hu.ne_none hq ▸ hq)

/-- The loop takes away each of the entries, with everything below it. -/
theorem removeEach_clears {removeOne : Fs → Pathname → Bool × Fs}
    (hone : ∀ t k, Straight cwd t path l → Within d t →
      ∃ u, removeOne t (path.child k) = (true, u) ∧ ∀ q, u.node q = (t.prune l k).node q)
    (names : List String) (t : Fs) (h : Straight cwd t path l) (hd : Within d t) :
    ∃ u, removeEach removeOne path t names = (true, u) ∧
      ∀ q, u.node q = if ∃ k ∈ names, l ++ [k] <+: q then none else t.node q := by
  induction names generalizing t with
  | nil => exact ⟨t, rfl, fun q => by simp⟩
  | cons k names ih =>
    obtain ⟨u, hu, hnode⟩ := hone t k h hd
    have hprune : Loses (l ++ [k]) t u := fun q => hnode q ▸ t.loses_prune q
    have hstraight : Straight cwd u path l := h.keeps fun q hq => by
      rw [hnode, Tree.prune_node, if_neg]
      intro hk
      have hl := hq ((List.prefix_append l [k]).trans hk)
      exact not_concat_below l k (hl ▸ hk)
    obtain ⟨v, hv, hrest⟩ := ih u hstraight (hd.loses hprune)
    refine ⟨v, by rw [removeEach, hu]; exact hv, fun q => ?_⟩
    rw [hrest, hnode, Tree.prune_node]
    by_cases hq : ∃ j ∈ names, l ++ [j] <+: q
    · rw [if_pos hq, if_pos (hq.imp fun j hj => ⟨List.mem_cons_of_mem k hj.1, hj.2⟩)]
    · rw [if_neg hq]
      simp only [List.mem_cons, exists_eq_or_imp, hq, or_false]

/-- With all its entries gone the directory is clear. -/
theorem clear_of_children (hu : ∀ q, u.node q =
    if ∃ k ∈ t.children l, l ++ [k] <+: q then none else t.node q) (q : List String) :
    u.node q = (t.clear l).node q := by
  rw [hu, Tree.clear_node]
  by_cases hq : l <+: q ∧ q ≠ l
  · rw [if_pos hq, ite_eq_left_iff]
    intro hno
    by_contra hn
    obtain ⟨k, hk, hkn⟩ := t.child_of_below hn hq.1 hq.2
    exact hno ⟨k, t.mem_children.2 hkn, hk⟩
  · rw [if_neg hq, if_neg]
    rintro ⟨k, -, hk⟩
    refine hq ⟨(List.prefix_append l [k]).trans hk, fun he => ?_⟩
    exact not_concat_below l k (he ▸ hk)

/-- The depth left for an entry is enough for what is in it. -/
theorem Within.deeper {k : String} (h : Within d t) (hk : t.node (l ++ [k]) ≠ none)
    (hn : d < l.length + (n + 1)) : 0 < n ∧ d < (l ++ [k]).length + n := by
  have hlen : (l ++ [k]).length ≤ d := h _ hk
  simp only [List.length_append, List.length_singleton] at hlen ⊢
  omega

/-- A call takes away its entry with everything below it, and succeeds. -/
theorem removeOld_clears (n : Nat) (t : Fs) (path : Pathname) (l : List String) (k : String)
    (h : Straight cwd t path l) (hd : Within d t) (hn : 0 < n ∧ d < l.length + n) :
    ∃ u, removeDirectoryRecursivelyOld cwd n t (path.child k) = (true, u) ∧
      ∀ q, u.node q = (t.prune l k).node q := by
  induction n generalizing t path l k with
  | zero => exact absurd hn.1 (Nat.lt_irrefl 0)
  | succ n ih =>
    rw [removeOld_child h.leads]
    cases hk : t.node (l ++ [k]) with
    | none => exact ⟨t, rfl, fun q => (t.prune_absent hk q).symm⟩
    | some found =>
      cases found with
      | file b => exact ⟨_, rfl, fun q => rfl⟩
      | link target => exact ⟨_, rfl, fun q => rfl⟩
      | dir =>
        have hbound := hd.deeper (k := k) (by simp [hk]) hn.2
        obtain ⟨u, hu, hnode⟩ := removeEach_clears
          (fun t j ht hdt => ih t (path.child k) (l ++ [k]) j ht hdt hbound)
          (t.children (l ++ [k])) t (h.child hk) hd
        have hclear := clear_of_children hnode
        have hdir : u.node (l ++ [k]) = some .dir := by
          simp [hclear, Tree.clear_node, hk]
        have hempty : u.children (l ++ [k]) = [] := by
          refine u.children_eq_nil.2 fun j => ?_
          simp [hclear, Tree.clear_node]
        have hp : u.parent cwd (path.child k) = .ok l := by
          rw [Tree.parent_child]
          refine (h.keeps fun q hq => ?_).leads
          rw [hclear, Tree.clear_node, if_neg]
          rintro ⟨hkq, -⟩
          have hl := hq ((List.prefix_append l [k]).trans hkq)
          exact not_concat_below l k (hl ▸ hkq)
        refine ⟨u.prune l k, ?_, fun q => ?_⟩
        · simp only [hu, Tree.rmdir_of_name (path.child_getLast? k) hp hdir hempty, succeeded]
        · rw [Tree.prune_node, Tree.prune_node, hclear, Tree.clear_node]
          split
          · rfl
          · rw [if_neg]
            rintro ⟨hkq, -⟩
            contradiction

/-! ## The depth of the tree is enough -/

/-- Two removals that do the same to each entry do the same. -/
theorem removeEach_congr {f g : Fs → Pathname → Bool × Fs}
    (hfg : ∀ t k, Reaches cwd t path l → Within d t → f t (path.child k) = g t (path.child k))
    (hf : ∀ t k, Reaches cwd t path l → Loses (l ++ [k]) t (f t (path.child k)).2)
    (names : List String) (t : Fs) (h : Reaches cwd t path l) (hd : Within d t) :
    removeEach f path t names = removeEach g path t names := by
  induction names generalizing t with
  | nil => rfl
  | cons k names ih =>
    have hk := hf t k h
    unfold removeEach
    rw [← hfg t k h hd]
    split
    · rename_i u hu
      rw [hu] at hk
      exact ih u (h.loses hk) (hd.loses hk)
    · rfl

/-- **One directory less of recursion is enough**, where the tree is not that deep. -/
theorem removeOld_enough (n : Nat) (t : Fs) (path : Pathname) (l : List String) (k : String)
    (h : Reaches cwd t path l) (hd : Within d t) (hn : 0 < n ∧ d < l.length + n) :
    removeDirectoryRecursivelyOld cwd (n + 1) t (path.child k) =
      removeDirectoryRecursivelyOld cwd n t (path.child k) := by
  induction n generalizing t path l k with
  | zero => exact absurd hn.1 (Nat.lt_irrefl 0)
  | succ n ih =>
    rcases h with h | h
    · rw [removeOld_child h, removeOld_child h]
      cases hk : t.node (l ++ [k]) with
      | none => rfl
      | some found =>
        cases found with
        | file b => rfl
        | link target => rfl
        | dir =>
          have hbound := hd.deeper (k := k) (by simp [hk]) hn.2
          rw [removeEach_congr
            (fun t j ht hdt => ih t (path.child k) (l ++ [k]) j ht hdt hbound)
            (fun t j ht => removeOld_loses (n + 1) t (path.child k) (l ++ [k]) j ht) _ t
            (.inl (Tree.leads_child h hk)) hd]
    · simp [removeDirectoryRecursivelyOld, Tree.lstat_child_error h]

/-- The recursion never runs out: with more depth than the tree has it does the same. -/
theorem removeDirectoryRecursivelyOld_enough (hn : t.depth + 2 ≤ n) :
    removeDirectoryRecursivelyOld cwd n t path =
      removeDirectoryRecursivelyOld cwd (t.depth + 2) t path := by
  induction n, hn using Nat.le_induction with
  | base => rfl
  | succ n hn ih =>
    obtain ⟨m, rfl⟩ := Nat.exists_eq_add_of_le' (show 1 ≤ n by omega)
    rw [← ih, removeDirectoryRecursivelyOld, removeDirectoryRecursivelyOld]
    split
    · rfl
    · rename_i l h
      have hbound : 0 < m ∧ t.depth < l.length + m := by omega
      simp only [Tree.list_of_lstat h]
      rw [removeEach_congr (fun t' k ht hd => removeOld_enough m t' path l k ht hd hbound)
        (fun t' k ht => removeOld_loses (m + 1) t' path l k ht) _ t
        (.inl (Tree.leads_of_lstat h)) fun q => t.length_le_depth]
    · rfl

/-! ## The two deletions of a directory -/

/-- `DeleteFolderByPathV1` of a directory: the loop over its entries, then `rmdir`. -/
theorem deleteV1_dir (hne : path.isEmpty = false) (h : t.lstat cwd path = .ok (l, .dir)) :
    deleteFolderByPathV1 cwd t path =
      match removeEach (removeDirectoryRecursivelyOld cwd (t.depth + 1)) path t (t.children l) with
      | (false, t) => (false, t)
      | (true, t) => succeeded t (t.rmdir cwd path) := by
  simp only [deleteFolderByPathV1, hne, h, removeDirectoryRecursivelyOld, Tree.list_of_lstat h]
  rfl

/-- `DeleteFolderByPathV2` of a directory: everything below it goes, then `remove` is called. -/
theorem deleteV2_dir (hne : path.isEmpty = false) (h : t.lstat cwd path = .ok (l, .dir)) :
    deleteFolderByPathV2 cwd t path =
      match (t.clear l).remove cwd path with
      | .ok left => (true, left)
      | .error .noent => (true, t.clear l)
      | .error _ => (false, t.clear l) := by
  have hstat : t.stat cwd path = .ok (l, .dir) := Tree.stat_of_dir h
  simp only [deleteFolderByPathV2, hne, Tree.present, Tree.isDirectory, hstat, Tree.removeAll, h]
  cases hr : (t.clear l).remove cwd path with
  | ok left => simp
  | error e => cases e <;> simp

/-- How the first deletion of a directory ends: it fails with entries taken away, or `rmdir` has
taken away the directory itself. -/
theorem deleteV1_ends (hne : path.isEmpty = false) (h : t.lstat cwd path = .ok (l, .dir)) :
    ∃ u, Loses l t u ∧ (deleteFolderByPathV1 cwd t path = (false, u) ∨
      ∃ left, deleteFolderByPathV1 cwd t path = (true, left) ∧ u.rmdir cwd path = .ok left) := by
  have hloop : Loses l t (removeEach (removeDirectoryRecursivelyOld cwd (t.depth + 1)) path t
      (t.children l)).2 :=
    removeEach_loses (fun u k => removeOld_loses (t.depth + 1) u path l k) _ t
      (.inl (Tree.leads_of_lstat h))
  rw [deleteV1_dir hne h]
  split
  · rename_i u hu
    rw [hu] at hloop
    exact ⟨u, hloop, .inl rfl⟩
  · rename_i u hu
    rw [hu] at hloop
    refine ⟨u, hloop, ?_⟩
    cases hrm : u.rmdir cwd path with
    | error e => exact .inl rfl
    | ok left => exact .inr ⟨left, rfl, rfl⟩

/-- The first deletion loses what is in the folder, and nothing else. -/
theorem deleteV1_loses (hne : path.isEmpty = false) (h : t.lstat cwd path = .ok (l, .dir)) :
    Loses l t (deleteFolderByPathV1 cwd t path).2 := by
  obtain ⟨u, hu, hend | ⟨left, hend, hrm⟩⟩ := deleteV1_ends hne h
  · rwa [hend]
  · obtain ⟨m, k, hm, -, -, rfl, -⟩ := Tree.rmdir_of_loses hu (Tree.leads_of_lstat h) hrm
    rw [hend]
    rw [hm] at hu ⊢
    exact hu.trans u.loses_prune

/-- The first deletion succeeds on no pathname that goes through an entry inside the directory, and
on no link. -/
theorem deleteV1_true (hne : path.isEmpty = false) (h : t.lstat cwd path = .ok (l, .dir))
    (hv : (deleteFolderByPathV1 cwd t path).1 = true) :
    Straight cwd t path l ∧ t.lstat cwd path.entry = .ok (l, .dir) ∧
      (deleteFolderByPathV1 cwd t path).2.lstat cwd path = .error .noent := by
  have hleads := Tree.leads_of_lstat h
  obtain ⟨u, hu, hend | ⟨left, hend, hrm⟩⟩ := deleteV1_ends hne h
  · rw [hend] at hv
    cases hv
  · obtain ⟨m, k, -, hentry, hempty, -, hkeep⟩ := Tree.rmdir_of_loses hu hleads hrm
    refine ⟨⟨hleads, fun b hb hlb => ?_⟩, hentry, by rw [hend]; exact Tree.rmdir_gone hrm⟩
    -- an entry below the directory would still be there when `rmdir` finds it empty
    by_contra hbl
    have hbu : u.node b ≠ none := by
      rw [hkeep b hb]
      exact looks_exist hleads b hb
    obtain ⟨j, -, hj⟩ := u.child_of_below hbu hlb hbl
    exact hj (u.children_eq_nil.1 hempty j)

/-- On a straight way the two deletions of a directory do the same. -/
theorem deletes_straight (hne : path.isEmpty = false) (h : t.lstat cwd path = .ok (l, .dir))
    (hs : Straight cwd t path l) :
    (deleteFolderByPathV1 cwd t path).1 = (deleteFolderByPathV2 cwd t path).1 ∧
      ∀ q, (deleteFolderByPathV1 cwd t path).2.node q =
        (deleteFolderByPathV2 cwd t path).2.node q := by
  have hbound : 0 < t.depth + 1 ∧ t.depth < l.length + (t.depth + 1) := by omega
  obtain ⟨u, hu, hnode⟩ := removeEach_clears
    (fun t' k ht hd => removeOld_clears (t.depth + 1) t' path l k ht hd hbound)
    (t.children l) t hs fun q => t.length_le_depth
  have hclear := clear_of_children hnode
  have hlstat : (t.clear l).lstat cwd path = .ok (l, .dir) := by
    rw [Tree.lstat_congr fun b hb => ?_, h]
    rw [Tree.clear_node, if_neg]
    exact fun hbl => hbl.2 (hs.above b hb hbl.1)
  have hnoent := Tree.rmdir_ne_noent hlstat
  simp only [deleteV1_dir hne h, deleteV2_dir hne h, hu, Tree.remove_of_lstat hlstat]
  rcases Tree.rmdir_congr cwd path hclear with
    ⟨u', t', hu', ht', hsame⟩ | ⟨e, hu', ht'⟩
  · simpa [hu', ht', succeeded] using hsame
  · rw [ht'] at hnoent
    simp only [hu', ht', succeeded]
    cases e with
    | noent => exact absurd rfl hnoent
    | _ => exact ⟨rfl, hclear⟩

/-! ## Where the two deletions agree -/

/-- A deletion that leaves the tree alone does so for both. -/
theorem Agree.of_unchanged {b : Bool} (h₁ : deleteFolderByPathV1 cwd t path = (b, t))
    (h₂ : deleteFolderByPathV2 cwd t path = (b, t))
    (hgone : b = true → ∀ found, t.lstat cwd path ≠ .ok found) : Agree cwd t path where
  value := by rw [h₁, h₂]
  tree q := by rw [h₁, h₂]
  gone hb := by
    rw [h₁] at hb ⊢
    exact hgone hb
  inside q _ := by rw [h₁]

/-- Where the folder cannot be found the two agree, unless something on the way is no directory. -/
theorem agree_error {e : Errno} (hne : path.isEmpty = false) (h : t.lstat cwd path = .error e) :
    Agree cwd t path ↔ e ≠ .notdir := by
  have hstat : t.stat cwd path = .error e := by
    rw [Tree.stat_of_lstat fun q target hq => ?_, h]
    cases h.symm.trans hq
  have h₁ : deleteFolderByPathV1 cwd t path = (decide (e = .noent), t) := by
    simp [deleteFolderByPathV1, hne, h]
  have h₂ : deleteFolderByPathV2 cwd t path = (decide (e = .noent ∨ e = .notdir), t) := by
    simp only [deleteFolderByPathV2, hne, Tree.present, hstat]
    cases e <;> rfl
  constructor
  · rintro hagree rfl
    have := hagree.value
    rw [h₁, h₂] at this
    cases this
  · intro hnot
    refine Agree.of_unchanged h₁ (by simp [h₂, hnot]) fun _ found hf => ?_
    cases h.symm.trans hf

/-- On a file the two agree. -/
theorem agree_file {q : List String} {b : List UInt8} (hne : path.isEmpty = false)
    (h : t.lstat cwd path = .ok (q, .file b)) : Agree cwd t path := by
  have hstat : t.stat cwd path = .ok (q, .file b) := by
    rw [Tree.stat_of_lstat fun p target hp => ?_, h]
    cases h.symm.trans hp
  refine Agree.of_unchanged (b := false) ?_ ?_ (by simp)
  · simp [deleteFolderByPathV1, hne, h]
  · simp [deleteFolderByPathV2, hne, Tree.present, Tree.isDirectory, hstat]

/-- A link in the last place: the first deletion refuses it, the second asks where it leads. -/
theorem agree_link {q : List String} {target : Pathname} (hne : path.isEmpty = false)
    (h : t.lstat cwd path = .ok (q, .link target)) :
    Agree cwd t path ↔
      match t.stat cwd path with
      | .error e => e ≠ .noent ∧ e ≠ .notdir
      | .ok (_, found) => found ≠ .dir := by
  have h₁ : deleteFolderByPathV1 cwd t path = (false, t) := by
    simp [deleteFolderByPathV1, hne, h]
  cases hstat : t.stat cwd path with
  | error e =>
    have h₂ : deleteFolderByPathV2 cwd t path = (decide (e = .noent ∨ e = .notdir), t) := by
      simp only [deleteFolderByPathV2, hne, Tree.present, hstat]
      cases e <;> rfl
    constructor
    · intro hagree
      have := hagree.value
      rw [h₁, h₂] at this
      simpa using this.symm
    · intro hnot
      exact Agree.of_unchanged h₁ (by simp [h₂, hnot.1, hnot.2]) (by simp)
  | ok found =>
    obtain ⟨p, n⟩ := found
    by_cases hn : n = .dir
    · subst hn
      obtain ⟨left, hleft⟩ := Tree.remove_link h
      have h₂ : deleteFolderByPathV2 cwd t path = (true, left) := by
        simp [deleteFolderByPathV2, hne, Tree.present, Tree.isDirectory, hstat, Tree.removeAll, h,
          hleft]
      simp only [ne_eq, not_true_eq_false, iff_false]
      intro hagree
      have := hagree.value
      rw [h₁, h₂] at this
      cases this
    · have h₂ : deleteFolderByPathV2 cwd t path = (false, t) := by
        cases n <;>
          simp [deleteFolderByPathV2, hne, Tree.present, Tree.isDirectory, hstat] at hn ⊢
      exact ⟨fun _ => hn, fun _ => Agree.of_unchanged h₁ h₂ (by simp)⟩

/-- The second deletion leaves nothing in the folder. -/
theorem deleteV2_clears (hne : path.isEmpty = false) (h : t.lstat cwd path = .ok (l, .dir)) :
    (deleteFolderByPathV2 cwd t path).2.node (l ++ [k]) = none := by
  have hclear : (t.clear l).node (l ++ [k]) = none := by simp [Tree.clear_node]
  rw [deleteV2_dir hne h]
  split
  · rename_i left hleft
    have hloses := Tree.remove_loses hleft
    by_contra hn
    exact hn ((hloses.ne_none hn).trans hclear)
  · exact hclear
  · exact hclear

/-- An entry of the directory goes, so what the pathname names has to be above it. -/
theorem Agree.names (hagree : Agree cwd t path) (hne : path.isEmpty = false)
    (h : t.lstat cwd path = .ok (l, .dir)) (hk : t.node (l ++ [k]) ≠ none) :
    ∃ top found, t.lstat cwd path.entry = .ok (top, found) ∧ top <+: l ++ [k] := by
  by_contra! hout
  have hsame := hagree.inside (l ++ [k]) hout
  rw [hagree.tree, deleteV2_clears hne h] at hsame
  exact hk hsame.symm

/-- Where the two agree, a link that the pathname names is no way into the directory and has
nothing to do with its entries. -/
theorem Agree.apart {q : List String} {target : Pathname} (hagree : Agree cwd t path)
    (hne : path.isEmpty = false) (h : t.lstat cwd path = .ok (l, .dir))
    (hentry : t.lstat cwd path.entry = .ok (q, .link target))
    (hlink : t.node q = some (.link target)) (hk : t.node (l ++ [k]) ≠ none) :
    l <+: q ∧ q ≠ l := by
  obtain ⟨top, found, htop, hpre⟩ := hagree.names hne h hk
  cases hentry.symm.trans htop
  have hqk := t.eq_of_link hlink hk hpre
  refine ⟨hqk ▸ List.prefix_append l [k], fun hql => ?_⟩
  exact not_concat_below l k ⟨[], by rw [hqk, hql, List.append_nil]⟩

/-- Where the two agree the way to the folder is straight. -/
theorem Agree.straight (hagree : Agree cwd t path) (hne : path.isEmpty = false)
    (h : t.lstat cwd path = .ok (l, .dir)) : Straight cwd t path l := by
  have hleads := Tree.leads_of_lstat h
  refine ⟨hleads, fun b hb hlb => ?_⟩
  by_contra hbl
  have hv : (deleteFolderByPathV2 cwd t path).1 ≠ true := by
    rw [← hagree.value]
    exact fun hv => hbl ((deleteV1_true hne h hv).1.above b hb hlb)
  rcases Tree.remove_detour h hb hlb hbl with hno | ⟨q, target, hq, hlink, hnot⟩
  · simp [deleteV2_dir hne h, hno] at hv
  · obtain ⟨k, -, hk⟩ := t.child_of_below (looks_exist hleads b hb) hlb hbl
    exact hnot (hagree.apart hne h hq hlink hk)

/-- What the two deletions do on a straight way stays in the folder. -/
theorem agree_of_straight (hne : path.isEmpty = false) (h : t.lstat cwd path = .ok (l, .dir))
    (hs : Straight cwd t path l)
    (hentry : t.lstat cwd path.entry = .ok (l, .dir) ∨ t.children l = []) : Agree cwd t path := by
  obtain ⟨hvalue, htree⟩ := deletes_straight hne h hs
  refine ⟨hvalue, htree, fun hv found hf => ?_, fun q hq => ?_⟩
  · cases (deleteV1_true hne h hv).2.2.symm.trans hf
  · have houtside (he : t.lstat cwd path.entry = .ok (l, .dir)) :
        (deleteFolderByPathV1 cwd t path).2.node q = t.node q :=
      (deleteV1_loses hne h q).resolve_right fun hl => hq l .dir he hl.1
    rcases hentry with he | hempty
    · exact houtside he
    · by_cases hv : (deleteFolderByPathV1 cwd t path).1 = true
      · exact houtside (deleteV1_true hne h hv).2.1
      · -- nothing to remove, and `rmdir` fails
        rw [deleteV1_dir hne h, hempty] at hv ⊢
        simp only [removeEach] at hv ⊢
        cases hrm : t.rmdir cwd path with
        | error e => rfl
        | ok left => simp [hrm, succeeded] at hv

/-- A directory: the way there goes through nothing inside it, and a pathname that reaches it
through a link in the last place finds it empty. -/
theorem agree_dir (hne : path.isEmpty = false) (h : t.lstat cwd path = .ok (l, .dir)) :
    Agree cwd t path ↔ Straight cwd t path l ∧
      (t.lstat cwd path.entry = .ok (l, .dir) ∨ t.children l = []) := by
  constructor
  · intro hagree
    have hs := hagree.straight hne h
    refine ⟨hs, (Tree.lstat_entry hs.leads).imp_right ?_⟩
    rintro ⟨q, target, hq, hlink, hmem⟩
    refine t.children_eq_nil.2 fun k => ?_
    by_contra hk
    obtain ⟨hlq, hne'⟩ := hagree.apart hne h hq hlink hk
    exact hne' (hs.above q hmem hlq)
  · rintro ⟨hs, hentry⟩
    exact agree_of_straight hne h hs hentry

/-- The two deletions return the same value and leave the same tree, nothing is left at the
pathname when they return true, and nothing outside the folder is touched, exactly when `Meets`
holds of the tree and the pathname. -/
theorem deletes_exact_iff (cwd : List String) (t : Fs) (path : Pathname) :
    Agree cwd t path ↔ Meets cwd t path := by
  unfold Meets
  cases hne : path.isEmpty with
  | true =>
    refine iff_of_true (Agree.of_unchanged (b := false) ?_ ?_ (by simp)) (.inl rfl)
    · simp [deleteFolderByPathV1, hne]
    · simp [deleteFolderByPathV2, hne]
  | false =>
    simp only [Bool.false_eq_true, false_or]
    cases h : t.lstat cwd path with
    | error e => exact agree_error hne h
    | ok found =>
      obtain ⟨q, n⟩ := found
      cases n with
      | dir => exact agree_dir hne h
      | file b => exact iff_of_true (agree_file hne h) trivial
      | link target => exact agree_link hne h

end

/-- A directory, and a link to it. -/
def linked : Fs where
  node q :=
    if q = [] ∨ q = ["data"] then some .dir
    else if q = ["latest"] then some (.link ⟨false, [.name "data"], false⟩)
    else none
  paths := [[], ["data"], ["latest"]]
  nodup_paths := by decide
  mem_paths {q} := by
    simp only [List.mem_cons, List.not_mem_nil, or_false]
    split
    · rename_i hq
      rcases hq with rfl | rfl <;> simp
    · split <;> simp_all
  root_dir := rfl
  parent_dir {q k} h := by
    have hq : q = [] := by
      by_contra hne
      simp [List.append_eq_singleton_iff, hne] at h
    simp [hq]

/-- A link to a directory: the first deletion refuses it, the second removes the link. -/
theorem not_agree : ¬ ∀ cwd t path, Agree cwd t path := by
  intro h
  have hlstat : linked.lstat [] ⟨true, [.name "latest"], false⟩ =
      .ok (["latest"], .link ⟨false, [.name "data"], false⟩) := by
    simp [Tree.lstat, Path.toPieces, Path.start, walk, linked]
  have hstat : linked.stat [] ⟨true, [.name "latest"], false⟩ = .ok (["data"], .dir) := by
    simp [Tree.stat, Tree.maxLinks, Path.toPieces, Path.start, walk, linked]
  have hnot := (agree_link (by rfl) hlstat).1 (h [] linked _)
  simp [hstat] at hnot

end MyFolderTools
