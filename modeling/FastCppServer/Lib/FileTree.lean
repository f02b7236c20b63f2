import Mathlib.Data.List.Infix
import Mathlib.Data.List.DropRight
import Mathlib.Logic.Function.Basic

/-!
# Trees of files

A file system without links: a path is a list of components, and at a path stands nothing, a
directory, or a file, which is an inode of its own. An open file is its inode, so it goes on when
its path is renamed or removed. The tree carries its own well-formedness: the root is a directory,
what is above a path is a directory, and no two paths share an inode.

Every operation is `none` where the kernel refuses it. Each has one lemma that says what a
successful call leaves (`mkdir_some`, `openTrunc_some`, `rename_file`, `remove_some`), and users of
this library need no more of it.
-/

namespace FileTree

open Function

universe u v

/-- What stands at a path. -/
inductive Node where
  | dir
  | file (inode : Nat)
  deriving DecidableEq

/-- The bytes of a file, and the time of its last write. -/
structure Inode (β : Type v) where
  bytes : List β := []
  mtime : Int := 0

/-- A tree of directories and files. Whatever is there stands in a directory, and each file has an
inode of its own. -/
structure Tree (κ : Type u) (β : Type v) where
  node : List κ → Option Node
  /-- The paths that are there, in the order a listing meets them. -/
  paths : List (List κ)
  inode : Nat → Inode β
  /-- The inodes from here on are free. -/
  next : Nat
  mem_paths : ∀ {p}, p ∈ paths ↔ node p ≠ none
  root_dir : node [] = some .dir
  parent_dir : ∀ {p}, p ≠ [] → node p ≠ none → node p.dropLast = some .dir
  lt_next : ∀ {p i}, node p = some (.file i) → i < next
  inode_inj : ∀ {p q i}, node p = some (.file i) → node q = some (.file i) → p = q

namespace Tree

variable {κ : Type u} {β : Type v} {t t' : Tree κ β} {p q r : List κ} {i j : Nat}

/-! ## What a tree holds -/

/-- A regular file stands at the path. -/
def IsFile (t : Tree κ β) (p : List κ) : Prop := ∃ i, t.node p = some (.file i)

instance (t : Tree κ β) (p : List κ) : Decidable (t.IsFile p) :=
  match h : t.node p with
  | some (.file i) => isTrue ⟨i, h⟩
  | some .dir => isFalse fun ⟨_, hi⟩ => nomatch h.symm.trans hi
  | none => isFalse fun ⟨_, hi⟩ => nomatch h.symm.trans hi

/-- The bytes of the file at the path. -/
def content (t : Tree κ β) (p : List κ) : Option (List β) :=
  match t.node p with
  | some (.file i) => some (t.inode i).bytes
  | _ => none

/-- The regular files, as a listing meets them. -/
def files (t : Tree κ β) : List (List κ) := t.paths.filter t.IsFile

/-- The files are listed. -/
theorem mem_files : p ∈ t.files ↔ t.IsFile p := by
  rw [files, List.mem_filter, mem_paths, decide_eq_true_iff, and_iff_right_iff_imp]
  rintro ⟨i, hi⟩
  simp [hi]

/-- The content of a path is that of its inode. -/
theorem content_eq_some {bs : List β} :
    t.content p = some bs ↔ ∃ i, t.node p = some (.file i) ∧ (t.inode i).bytes = bs := by
  unfold content
  cases h : t.node p with
  | none => simp
  | some n => cases n <;> simp

/-- A path has a content if a file stands at it. -/
theorem content_isSome : (t.content p).isSome ↔ t.IsFile p := by
  simp [Option.isSome_iff_exists, content_eq_some, IsFile]

/-- A file has a content. -/
theorem IsFile.content (h : t.IsFile p) : ∃ bs, t.content p = some bs :=
  Option.isSome_iff_exists.1 (content_isSome.2 h)

/-- The root is no file. -/
theorem ne_nil_of_file (h : t.node p = some (.file i)) : p ≠ [] := by
  rintro rfl
  cases h.symm.trans t.root_dir

/-- No path is its own parent. -/
theorem dropLast_ne_self (hp : p ≠ []) : p.dropLast ≠ p := by
  intro h
  have := congrArg List.length h
  have := List.length_pos_iff.2 hp
  rw [List.length_dropLast] at *
  omega

/-- The content at a path is what its node and its inode say. -/
theorem content_congr (hn : t'.node p = t.node p)
    (hi : ∀ i, t.node p = some (.file i) → t'.inode i = t.inode i) :
    t'.content p = t.content p := by
  unfold content
  rw [hn]
  cases h : t.node p with
  | none => rfl
  | some n =>
    cases n with
    | dir => rfl
    | file i => simp [hi i h]

/-- What is above a path is a directory. -/
theorem dir_of_prefix (h : t.node (p ++ q) ≠ none) (hq : q ≠ []) : t.node p = some .dir := by
  induction q using List.reverseRecOn with
  | nil => exact (hq rfl).elim
  | append_singleton q k ih =>
    have hd : t.node (p ++ q) = some .dir := by
      have := t.parent_dir (p := p ++ (q ++ [k])) (by simp) h
      rwa [← List.append_assoc, List.dropLast_concat] at this
    rcases eq_or_ne q [] with rfl | hne
    · simpa using hd
    · exact ih (by simp [hd]) hne

/-- Nothing stands directly under the path. -/
def Childless (t : Tree κ β) (q : List κ) : Prop := ∀ p ∈ t.paths, p ≠ [] → p.dropLast ≠ q

instance [DecidableEq κ] (t : Tree κ β) (q : List κ) : Decidable (t.Childless q) :=
  inferInstanceAs (Decidable (∀ p ∈ t.paths, p ≠ [] → p.dropLast ≠ q))

/-- Nothing stands under a file. -/
theorem IsFile.childless (h : t.IsFile q) : t.Childless q := by
  rintro p hp hne rfl
  obtain ⟨i, hi⟩ := h
  cases hi.symm.trans (t.parent_dir hne (t.mem_paths.1 hp))

/-- Two trees with the same regular files: they differ in directories only. -/
def SameFiles (t t' : Tree κ β) : Prop :=
  t'.inode = t.inode ∧ ∀ p i, t'.node p = some (.file i) ↔ t.node p = some (.file i)

/-- A tree has its own files. -/
theorem SameFiles.refl (t : Tree κ β) : SameFiles t t := ⟨rfl, fun _ _ => Iff.rfl⟩

/-- Over two trees the files are the same. -/
theorem SameFiles.trans {t'' : Tree κ β} (h : SameFiles t t') (h' : SameFiles t' t'') :
    SameFiles t t'' :=
  ⟨h'.1.trans h.1, fun p i => (h'.2 p i).trans (h.2 p i)⟩

/-- The same files stand at the same paths. -/
theorem SameFiles.isFile (h : SameFiles t t') (p : List κ) : t'.IsFile p ↔ t.IsFile p :=
  exists_congr fun i => h.2 p i

/-- And they have the same content. -/
theorem SameFiles.content (h : SameFiles t t') (p : List κ) : t'.content p = t.content p := by
  refine Option.ext fun bs => ?_
  rw [content_eq_some, content_eq_some, h.1]
  exact exists_congr fun i => and_congr_left fun _ => h.2 p i

/-- The tree of the root directory alone. -/
def empty : Tree κ β where
  node p := if p = [] then some .dir else none
  paths := [[]]
  inode _ := {}
  next := 0
  mem_paths {p} := by simp
  root_dir := rfl
  parent_dir hp h := by simp [hp] at h
  lt_next h := by
    split at h <;> cases h
  inode_inj h := by
    split at h <;> cases h

/-! ## The operations on inodes -/

/-- The content and the time of an inode set. -/
def setInode (t : Tree κ β) (i : Nat) (n : Inode β) : Tree κ β :=
  { t with inode := update t.inode i n }

/-- A free inode taken, which no path has yet. -/
def allocate (t : Tree κ β) (now : Int) : Tree κ β :=
  { t with
    inode := update t.inode t.next { mtime := now }
    next := t.next + 1
    lt_next := fun h => Nat.lt_succ_of_lt (t.lt_next h) }

/-- The bytes written over the old ones from an offset; a gap before it is filled with zeros. -/
def overwrite [Zero β] (old : List β) (off : Nat) (bs : List β) : List β :=
  old.take off ++ List.replicate (off - old.length) 0 ++ bs ++ old.drop (off + bs.length)

/-- A write through an open handle. -/
def write [Zero β] (t : Tree κ β) (i off : Nat) (bs : List β) (now : Int) : Tree κ β :=
  t.setInode i { bytes := overwrite (t.inode i).bytes off bs, mtime := now }

/-- Setting an inode moves nothing. -/
@[simp] theorem setInode_node (t : Tree κ β) (i : Nat) (n : Inode β) :
    (t.setInode i n).node = t.node := rfl

/-- A write moves nothing. -/
@[simp] theorem write_node [Zero β] (t : Tree κ β) (i off : Nat) (bs : List β) (now : Int) :
    (t.write i off bs now).node = t.node := rfl

/-- A write changes the inode that it is made through. -/
theorem write_inode [Zero β] (t : Tree κ β) (i off : Nat) (bs : List β) (now : Int) :
    (t.write i off bs now).inode =
      update t.inode i { bytes := overwrite (t.inode i).bytes off bs, mtime := now } := rfl

/-- What is written to an empty file from its start is its content. -/
theorem overwrite_nil [Zero β] (bs : List β) : overwrite [] 0 bs = bs := by
  simp [overwrite]

/-! ## The operations on paths -/

variable [DecidableEq κ]

/-- Puts a node at a path whose directory is there and that is no directory itself. An inode is put
only at the path that has it, or at one while no path has it. -/
def link (t : Tree κ β) (q : List κ) (n : Node) (hq : q ≠ []) (hdir : t.node q.dropLast = some .dir)
    (hfree : t.node q ≠ some .dir)
    (hn : ∀ i, n = .file i → i < t.next ∧ ∀ p, t.node p = some (.file i) → p = q) : Tree κ β where
  node := update t.node q (some n)
  paths := q :: t.paths
  inode := t.inode
  next := t.next
  mem_paths {p} := by
    rcases eq_or_ne p q with rfl | h
    · simp
    · simp [h, t.mem_paths]
  root_dir := by rw [update_of_ne hq.symm, t.root_dir]
  parent_dir {p} hp h := by
    have hne : p.dropLast ≠ q := by
      rintro rfl
      exact hfree (t.parent_dir hp (by rwa [update_of_ne (dropLast_ne_self hp).symm] at h))
    rw [update_of_ne hne]
    rcases eq_or_ne p q with rfl | he
    · exact hdir
    · exact t.parent_dir hp (by rwa [update_of_ne he] at h)
  lt_next {p i} h := by
    rcases eq_or_ne p q with rfl | he
    · exact (hn i (by simpa using h)).1
    · exact t.lt_next (by rwa [update_of_ne he] at h)
  inode_inj {p r i} h h' := by
    rcases eq_or_ne p q with hp | hp <;> rcases eq_or_ne r q with hr | hr
    · rw [hp, hr]
    · subst hp
      exact ((hn i (by simpa using h)).2 r (by rwa [update_of_ne hr] at h')).symm
    · subst hr
      exact (hn i (by simpa using h')).2 p (by rwa [update_of_ne hp] at h)
    · exact t.inode_inj (by rwa [update_of_ne hp] at h) (by rwa [update_of_ne hr] at h')

/-- Takes away what stands at a path that nothing is under. -/
def unlink (t : Tree κ β) (q : List κ) (hq : q ≠ []) (hc : t.Childless q) : Tree κ β where
  node := update t.node q none
  paths := t.paths.filter (· ≠ q)
  inode := t.inode
  next := t.next
  mem_paths {p} := by
    rcases eq_or_ne p q with rfl | h
    · simp
    · simp [h, t.mem_paths]
  root_dir := by rw [update_of_ne hq.symm, t.root_dir]
  parent_dir {p} hp h := by
    rcases eq_or_ne p q with rfl | he
    · simp at h
    rw [update_of_ne he] at h
    rw [update_of_ne (hc p (t.mem_paths.2 h) hp)]
    exact t.parent_dir hp h
  lt_next {p i} h := by
    rcases eq_or_ne p q with rfl | he
    · simp at h
    · exact t.lt_next (by rwa [update_of_ne he] at h)
  inode_inj {p r i} h h' := by
    rcases eq_or_ne p q with rfl | he
    · simp at h
    rcases eq_or_ne r q with rfl | he'
    · simp at h'
    · exact t.inode_inj (by rwa [update_of_ne he] at h) (by rwa [update_of_ne he'] at h')

/-- What stands where, after one path is taken away. -/
@[simp] theorem unlink_node (t : Tree κ β) (hq : q ≠ []) (hc : t.Childless q) :
    (t.unlink q hq hc).node = update t.node q none := rfl

/-- A file moved, over what is at its new path if that is no directory. -/
def moveFile (t : Tree κ β) (p q : List κ) (i : Nat) (hp : t.node p = some (.file i)) (hq : q ≠ [])
    (hdir : t.node q.dropLast = some .dir) (hfree : t.node q ≠ some .dir) : Tree κ β :=
  (t.unlink p (ne_nil_of_file hp) (IsFile.childless ⟨i, hp⟩)).link q (.file i) hq
    (by
      have hne : q.dropLast ≠ p := by
        rintro rfl
        cases hp.symm.trans hdir
      rw [unlink_node, update_of_ne hne, hdir])
    (by
      rw [unlink_node]
      rcases eq_or_ne q p with rfl | hne
      · simp
      · rwa [update_of_ne hne])
    (by
      rintro j ⟨⟩
      refine ⟨t.lt_next hp, fun r hr => ?_⟩
      rw [unlink_node] at hr
      rcases eq_or_ne r p with rfl | hne
      · simp at hr
      · rw [update_of_ne hne] at hr
        exact absurd (t.inode_inj hr hp) hne)

/-- A directory moved with all that is under it. -/
def moveDir (t : Tree κ β) (p q : List κ) (hp : p ≠ []) (hq : q ≠ [])
    (hdir : t.node q.dropLast = some .dir) (hpq : ¬ p <+: q) : Tree κ β where
  node r := if q <+: r then t.node (p ++ r.drop q.length) else if p <+: r then none else t.node r
  paths := t.paths.filter (fun r => ¬ p <+: r ∧ ¬ q <+: r) ++
    (t.paths.filter (p <+: ·)).map fun r => q ++ r.drop p.length
  inode := t.inode
  next := t.next
  mem_paths {r} := by
    by_cases hr : q <+: r
    · obtain ⟨s, rfl⟩ := hr
      simp only [List.mem_append, List.mem_filter, List.mem_map, List.prefix_append, if_true,
        List.drop_left, ← t.mem_paths, decide_eq_true_eq, not_true, and_false, false_or]
      constructor
      · rintro ⟨x, ⟨hx, s', rfl⟩, he⟩
        rw [List.drop_left, List.append_cancel_left_eq] at he
        rwa [← he]
      · exact fun h => ⟨p ++ s, ⟨h, List.prefix_append _ _⟩, by rw [List.drop_left]⟩
    · have : ∀ x, q ++ x ≠ r := fun x hx => hr ⟨x, hx⟩
      by_cases hp : p <+: r <;> simp [hr, hp, this, t.mem_paths]
  root_dir := by simp [hp, hq, t.root_dir]
  parent_dir {r} hr h := by
    by_cases hqr : q <+: r
    · obtain ⟨s, rfl⟩ := hqr
      rcases eq_or_ne s [] with rfl | hs
      · have hnq : ¬ q <+: q.dropLast := fun hc =>
          dropLast_ne_self hq ((List.dropLast_prefix q).eq_of_length_le hc.length_le)
        have hnp : ¬ p <+: q.dropLast := fun hc => hpq (hc.trans (List.dropLast_prefix q))
        simp [hnq, hnp, hdir]
      · rw [List.dropLast_append_of_ne_nil hs]
        simp only [List.prefix_append, if_true, List.drop_left] at h ⊢
        have := t.parent_dir (p := p ++ s) (by simp [hs]) h
        rwa [List.dropLast_append_of_ne_nil hs] at this
    · have hd := List.dropLast_prefix r
      by_cases hpr : p <+: r
      · simp [hqr, hpr] at h
      · rw [if_neg fun hc => hqr (hc.trans hd), if_neg fun hc => hpr (hc.trans hd)]
        exact t.parent_dir hr (by simpa [hqr, hpr] using h)
  lt_next {r i} h := by
    split_ifs at h <;> exact t.lt_next h
  inode_inj {r s i} hr hs := by
    split_ifs at hr hs with hqr hqs hps hpr hqs
    · obtain ⟨⟨r, rfl⟩, ⟨s, rfl⟩⟩ := hqr, hqs
      simpa using t.inode_inj hr hs
    · exact absurd (t.inode_inj hr hs ▸ List.prefix_append p _) hps
    · exact absurd (t.inode_inj hs hr ▸ List.prefix_append p _) hpr
    · exact t.inode_inj hr hs

/-- Makes a directory where nothing stands. -/
def mkdir (t : Tree κ β) (q : List κ) : Option (Tree κ β) :=
  if h : q ≠ [] ∧ t.node q.dropLast = some .dir ∧ t.node q = none then
    some (t.link q .dir h.1 h.2.1 (by simp [h.2.2]) (by simp))
  else none

/-- Opens a file for writing, truncated, and creates it where there is none: the tree and the inode
behind the handle. -/
def openTrunc (t : Tree κ β) (q : List κ) (now : Int) : Option (Tree κ β × Nat) :=
  match h : t.node q with
  | some .dir => none
  | some (.file i) => some (t.setInode i { mtime := now }, i)
  | none =>
    if hq : q ≠ [] ∧ t.node q.dropLast = some .dir then
      some ((t.allocate now).link q (.file t.next) hq.1 hq.2 (by simp [allocate, h]) (by
        rintro i ⟨⟩
        exact ⟨Nat.lt_succ_self _, fun p hp => absurd (t.lt_next hp) (Nat.lt_irrefl _)⟩), t.next)
    else none

/-- Removes a file or an empty directory. -/
def remove (t : Tree κ β) (q : List κ) : Option (Tree κ β) :=
  if h : q ≠ [] ∧ t.node q ≠ none ∧ t.Childless q then some (t.unlink q h.1 h.2.2) else none

/-- Renames, in one step. A file replaces the file that is at its new path, a directory only an
empty directory. -/
def rename (t : Tree κ β) (p q : List κ) : Option (Tree κ β) :=
  if p = q then (t.node p).map fun _ => t else
  match h : t.node p with
  | none => none
  | some (.file i) =>
    if hq : q ≠ [] ∧ t.node q.dropLast = some .dir ∧ t.node q ≠ some .dir then
      some (t.moveFile p q i h hq.1 hq.2.1 hq.2.2)
    else none
  | some .dir =>
    if hq : p ≠ [] ∧ q ≠ [] ∧ t.node q.dropLast = some .dir ∧ ¬ p <+: q ∧
        (t.node q = none ∨ t.node q = some .dir ∧ t.Childless q) then
      some (t.moveDir p q hq.1 hq.2.1 hq.2.2.1 hq.2.2.2.1)
    else none

/-! ## What they leave -/

/-- A write at the end appends. -/
theorem overwrite_append [Zero β] {old : List β} {off : Nat} (h : old.length = off) (bs : List β) :
    overwrite old off bs = old ++ bs := by
  subst h
  simp [overwrite]

/-- What a new directory changes. -/
theorem mkdir_some (h : t.mkdir q = some t') :
    t.node q = none ∧ t'.node = update t.node q (some .dir) ∧ t'.inode = t.inode := by
  rw [mkdir] at h
  split at h
  next hq =>
    cases h
    exact ⟨hq.2.2, rfl, rfl⟩
  next => cases h

/-- A new directory is no file. -/
theorem mkdir_sameFiles (h : t.mkdir q = some t') : SameFiles t t' := by
  obtain ⟨hn, hnode, hinode⟩ := mkdir_some h
  refine ⟨hinode, fun p i => ?_⟩
  rw [hnode]
  rcases eq_or_ne p q with rfl | hne
  · simp [hn]
  · rw [update_of_ne hne]

/-- The inode behind the handle is at the path and at no other, and it is empty. -/
theorem openTrunc_some {now : Int} (h : t.openTrunc q now = some (t', i)) :
    t.node q ≠ some .dir ∧ (∀ p, t.node p = some (.file i) → p = q) ∧
      t'.node = update t.node q (some (.file i)) ∧
      t'.inode = update t.inode i { mtime := now } := by
  rw [openTrunc] at h
  split at h
  next => cases h
  next j hj =>
    cases h
    refine ⟨by simp [hj], fun p hp => t.inode_inj hp hj, ?_, rfl⟩
    rw [setInode_node, ← hj, update_eq_self]
  next hn =>
    split at h
    next hq =>
      cases h
      exact ⟨by simp [hn], fun p hp => absurd (t.lt_next hp) (Nat.lt_irrefl _), rfl, rfl⟩
    next => cases h

/-- A file can be opened. -/
theorem openTrunc_file (h : t.IsFile q) (now : Int) : ∃ r, t.openTrunc q now = some r := by
  obtain ⟨i, hi⟩ := h
  rw [openTrunc]
  split
  next hd => cases hi.symm.trans hd
  next => exact ⟨_, rfl⟩
  next hn => cases hi.symm.trans hn

/-- What is removed stood there, with nothing under it. -/
theorem remove_some (h : t.remove q = some t') :
    t.node q ≠ none ∧ t.Childless q ∧ t'.node = update t.node q none ∧ t'.inode = t.inode := by
  rw [remove] at h
  split at h
  next hq =>
    cases h
    exact ⟨hq.2.1, hq.2.2, rfl, rfl⟩
  next => cases h

/-- The files after a path has been taken away. -/
theorem exists_file_update_none {node : List κ → Option Node} :
    (∃ j, update node q none p = some (.file j)) ↔ p ≠ q ∧ ∃ j, node p = some (.file j) := by
  rcases eq_or_ne p q with rfl | hne
  · simp
  · simp [hne]

/-- The files after one has been put at a path. -/
theorem exists_file_update_file {node : List κ → Option Node} :
    (∃ j, update node q (some (.file i)) p = some (.file j)) ↔
      p = q ∨ ∃ j, node p = some (.file j) := by
  rcases eq_or_ne p q with rfl | hne
  · simp
  · simp [hne]

/-- A removal takes away no other file than the one at its path. -/
theorem remove_isFile (h : t.remove q = some t') : t'.IsFile p ↔ p ≠ q ∧ t.IsFile p := by
  obtain ⟨-, -, hnode, -⟩ := remove_some h
  unfold IsFile
  rw [hnode, exists_file_update_none]

/-- A file can be removed. -/
theorem remove_file (h : t.IsFile q) : ∃ t', t.remove q = some t' := by
  obtain ⟨i, hi⟩ := h
  rw [remove, dif_pos ⟨ne_nil_of_file hi, by simp [hi], IsFile.childless ⟨i, hi⟩⟩]
  exact ⟨_, rfl⟩

/-- What is renamed stood there. -/
theorem rename_source (h : t.rename p q = some t') : t.node p ≠ none := by
  intro hn
  rw [rename] at h
  split at h
  next =>
    rw [hn] at h
    cases h
  split at h
  next => cases h
  next hj => cases hn.symm.trans hj
  next hj => cases hn.symm.trans hj

/-- What renaming a file changes. -/
theorem rename_file (hp : t.node p = some (.file i)) (h : t.rename p q = some t') :
    t.node q ≠ some .dir ∧ t'.node = update (update t.node p none) q (some (.file i)) ∧
      t'.inode = t.inode := by
  rw [rename] at h
  split at h
  next he =>
    subst he
    rw [hp] at h
    cases h
    refine ⟨by simp [hp], ?_, rfl⟩
    rw [update_idem, ← hp, update_eq_self]
  split at h
  next hn => cases hp.symm.trans hn
  next j hj =>
    cases hp.symm.trans hj
    split at h
    next hq =>
      cases h
      exact ⟨hq.2.2, rfl, rfl⟩
    next => cases h
  next hn => cases hp.symm.trans hn

/-- What renaming a directory changes. -/
theorem rename_dir (hp : t.node p = some .dir) (h : t.rename p q = some t') :
    t'.inode = t.inode ∧
      (t' = t ∨ ∀ r, ¬ q <+: r → t'.node r = if p <+: r then none else t.node r) := by
  rw [rename] at h
  split at h
  next =>
    obtain ⟨-, -, rfl⟩ := Option.map_eq_some_iff.1 h
    exact ⟨rfl, .inl rfl⟩
  split at h
  next hn => cases hp.symm.trans hn
  next hn => cases hp.symm.trans hn
  next =>
    split at h
    next =>
      cases h
      exact ⟨rfl, .inr fun r hr => if_neg hr⟩
    next => cases h

/-- What does not lie under the new path of a rename stays, or goes with the old one. -/
theorem rename_away (h : t.rename p q = some t') :
    t'.inode = t.inode ∧ ∀ r, ¬ q <+: r → t'.node r = t.node r ∨ t'.node r = none := by
  rcases hp : t.node p with _ | _ | i
  · exact absurd hp (rename_source h)
  · obtain ⟨hinode, rfl | hnode⟩ := rename_dir hp h
    · exact ⟨hinode, fun r _ => .inl rfl⟩
    · refine ⟨hinode, fun r hr => ?_⟩
      rw [hnode r hr]
      split
      · exact .inr rfl
      · exact .inl rfl
  · obtain ⟨-, hnode, hinode⟩ := rename_file hp h
    refine ⟨hinode, fun r hr => ?_⟩
    have hne : r ≠ q := by
      rintro rfl
      exact hr List.prefix_rfl
    rw [hnode, update_of_ne hne]
    rcases eq_or_ne r p with rfl | hrp
    · exact .inr (update_self ..)
    · exact .inl (update_of_ne hrp _ _)

/-! ## Trees with less in them -/

/-- The second tree has nothing that the first has not. -/
def Shrinks (t t' : Tree κ β) : Prop :=
  t'.inode = t.inode ∧ ∀ p, t'.node p = t.node p ∨ t'.node p = none

omit [DecidableEq κ] in
/-- A tree has nothing that it has not. -/
theorem Shrinks.refl (t : Tree κ β) : Shrinks t t := ⟨rfl, fun _ => .inl rfl⟩

omit [DecidableEq κ] in
/-- Over two steps nothing comes. -/
theorem Shrinks.trans {t'' : Tree κ β} (h : Shrinks t t') (h' : Shrinks t' t'') :
    Shrinks t t'' := by
  refine ⟨h'.1.trans h.1, fun p => ?_⟩
  rcases h'.2 p with hp | hp
  · rw [hp]
    exact h.2 p
  · exact .inr hp

omit [DecidableEq κ] in
/-- What is left is what it was. -/
theorem Shrinks.node (h : Shrinks t t') (hp : t'.node p ≠ none) : t'.node p = t.node p :=
  (h.2 p).resolve_right hp

/-- Removing brings nothing. -/
theorem remove_shrinks (h : t.remove q = some t') : Shrinks t t' := by
  obtain ⟨-, -, hnode, hinode⟩ := remove_some h
  refine ⟨hinode, fun p => ?_⟩
  rw [hnode]
  rcases eq_or_ne p q with rfl | hne
  · exact .inr (update_self ..)
  · exact .inl (update_of_ne hne _ _)

end Tree

end FileTree
