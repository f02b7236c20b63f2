import FastCppServer.Cache.Index
import FastCppServer.Cache.PathCheck
import Mathlib.Data.Char
import Mathlib.Data.List.Lex
import Mathlib.Data.List.Sort

/-!
# The listing of a folder

`GetFileList` walks the disk where `Exists` asks the index. The recursive iteration meets the files
in the order of the directories, which nothing fixes, and the sort by name afterwards makes one list
of them (`sortByName_eq`): each name occurs once, because a name is the path relative to the root.
An iteration that fails ends as if it were done, so a listing can be short of files without an
error; it never has a file too many. Which folders list is `getFileList_isOk`, and what they list
`getFileList_lists`; over the runs that keep the index right a listing has the names that `Exists`
affirms (`getFileList_run`). The iteration comes to files whose names are too long for the path
check of `Exists`.
-/

namespace MyCache

open FileTree Transition

/-! ## The code -/

/-- The `std::sort` at the end. -/
def sortByName (infos : List FileInfo) : List FileInfo :=
  infos.mergeSort fun lhs rhs => decide (lhs.name ≤ rhs.name)

/-- `GetFileList`; `iterate` is what the recursive iteration meets of regular files. -/
def getFileList (c : Cache) (folder : List Char) (iterate : Path → List (List Entry)) :
    CacheResult (List FileInfo) :=
  match validateDirectoryPath c folder true with
  | .error e => .error e
  | .ok target =>
    if ¬ pathExists c.tree target then .error .fileNotFound
    else if ¬ isDirectory c.tree target then .error .invalidArgument
    else .ok (sortByName ((iterate target).map (scannedInfo c.tree c.root)))

/-- An iteration meets regular files below the directory, each once, in some order. -/
structure Iterates (t : Files) (path : Path) (met : List (List Entry)) : Prop where
  nodup : met.Nodup
  below : ∀ p ∈ met, t.IsFile p ∧ ∃ d, resolve t path = some d ∧ d <+: p

/-- An iteration that does not end early. -/
def Complete (t : Files) (path : Path) (met : List (List Entry)) : Prop :=
  ∀ d p, resolve t path = some d → t.IsFile p → d <+: p → p ∈ met

/-- The names of a listing. -/
def names (infos : List FileInfo) : List (List Char) := infos.map FileInfo.name

/-! ## Sorting -/

/-- Sorting changes the order only. -/
theorem sortByName_perm (infos : List FileInfo) : (sortByName infos).Perm infos :=
  List.mergeSort_perm _ _

/-- Sorted, the names ascend. -/
theorem sortByName_le (infos : List FileInfo) :
    (names (sortByName infos)).Pairwise (· ≤ ·) := by
  rw [names, List.pairwise_map]
  have h := @List.pairwise_mergeSort FileInfo (fun a b => decide (a.name ≤ b.name))
    (fun a b c hab hbc => by simpa using le_trans (of_decide_eq_true hab) (of_decide_eq_true hbc))
    (fun a b => by simpa using le_total a.name b.name) infos
  exact h.imp fun hab => of_decide_eq_true hab

/-- With each name once the sorted names ascend. -/
theorem sortByName_lt {infos : List FileInfo} (h : (names infos).Nodup) :
    (names (sortByName infos)).Pairwise (· < ·) := by
  have hnodup : (names (sortByName infos)).Nodup :=
    ((sortByName_perm infos).map FileInfo.name).nodup_iff.2 h
  exact (sortByName_le infos).imp₂ (fun _ _ hle hne => lt_of_le_of_ne hle hne) hnodup

/-- **The order of the iteration does not show.** -/
theorem sortByName_eq {infos infos' : List FileInfo} (h : (names infos).Nodup)
    (hperm : infos.Perm infos') : sortByName infos = sortByName infos' := by
  have hperm' : (sortByName infos).Perm (sortByName infos') :=
    (sortByName_perm infos).trans (hperm.trans (sortByName_perm infos').symm)
  have hlt := sortByName_lt h
  have hlt' := sortByName_lt ((hperm.map FileInfo.name).nodup_iff.1 h)
  rw [names, List.pairwise_map] at hlt hlt'
  exact hperm'.eq_of_pairwise (fun a b _ _ hab hba => absurd hab hba.asymm) hlt hlt'

/-! ## The names -/

/-- The files below a directory under the root have a name. -/
theorem exists_name {c : Cache} {d p : List Entry} (hroot : c.root <+: d)
    (hdir : c.tree.node d = some .dir) (hfile : c.tree.IsFile p) (hp : d <+: p) :
    ∃ es, es ≠ [] ∧ p = c.root ++ es := by
  obtain ⟨es, rfl⟩ := hroot.trans hp
  refine ⟨es, ?_, rfl⟩
  rintro rfl
  obtain ⟨i, hi⟩ := hfile
  have heq : d = c.root ++ [] :=
    List.IsPrefix.eq_of_length_le hp (by simpa using hroot.length_le)
  rw [heq, hi] at hdir
  cases hdir

/-- A file is listed under its name from the root. -/
theorem scannedInfo_name (t : Files) (root es : List Entry) :
    (scannedInfo t root (root ++ es)).name = nameOf es := by
  show nameOf ((root ++ es).drop root.length) = nameOf es
  rw [List.drop_left]

/-! ## The directory -/

/-- One plain path begins another when its entries begin the other's. -/
theorem plain_prefix_iff {d es : List Entry} : plain d <+: plain es ↔ d <+: es :=
  List.prefix_map_iff_of_injective Subtype.val_injective

/-- A directory is where every path that names it leads. -/
theorem Denotes.resolve_dir {full : Path} {es : List Entry} {t : Files}
    (h : Denotes full (plain es)) (hdir : t.node es = some .dir) : resolve t full = some es := by
  have hplain : walk t [] (plain es) = some es := by
    rw [walk_plain, List.nil_append, hdir]
    rfl
  rw [resolve, cString_eq h.nul_notMem]
  rcases h with rfl | rfl
  · exact hplain
  · -- the slash at the end asks for the directory itself
    rw [walk_append, hplain, Option.bind_some, walk, if_pos hdir, descend, if_pos (.inl rfl),
      Option.bind_some, walk, hdir]
    rfl

/-- A directory exists. -/
theorem pathExists_of_isDirectory {t : Files} {path : Path} (h : isDirectory t path = true) :
    pathExists t path = true := by
  rw [isDirectory, decide_eq_true_iff] at h
  rw [pathExists, h]
  rfl

variable {c : Cache} {folder : List Char} {iterate : Path → List (List Entry)}

/-- What the checks leave. -/
theorem getFileList_ok {infos : List FileInfo} :
    getFileList c folder iterate = .ok infos ↔
      ∃ target, validateDirectoryPath c folder true = .ok target ∧
        isDirectory c.tree target = true ∧
        sortByName ((iterate target).map (scannedInfo c.tree c.root)) = infos := by
  rw [getFileList]
  cases validateDirectoryPath c folder true with
  | error e =>
    constructor
    · intro h
      cases h
    · intro ⟨target, h, _⟩
      cases h
  | ok target =>
    by_cases hdir : isDirectory c.tree target = true
    · have hexists := pathExists_of_isDirectory hdir
      dsimp only
      rw [if_neg (not_not.2 hexists), if_neg (not_not.2 hdir)]
      constructor
      · intro h
        exact ⟨target, rfl, hdir, Except.ok.inj h⟩
      · intro ⟨target', h, _, hinfos⟩
        cases h
        rw [hinfos]
    · constructor
      · intro h
        dsimp only at h
        split at h <;> cases h
      · intro ⟨target', h, hdir', _⟩
        cases h
        exact absurd hdir' hdir

/-! ## What a folder lists -/

/-- The listing of a directory of the cache: the files below it, described, in the order of their
names. -/
structure Lists (c : Cache) (d : List Entry) (infos : List FileInfo) : Prop where
  ascending : (names infos).Pairwise (· < ·)
  listed : ∀ info ∈ infos, Canonical info.name ∧ d <+: c.root ++ entries info.name ∧
    c.tree.IsFile (c.root ++ entries info.name) ∧
    info = scannedInfo c.tree c.root (c.root ++ entries info.name)

/-- Two files that are met have two names. -/
theorem names_map_nodup {d : List Entry} {met : List (List Entry)} (hroot : c.root <+: d)
    (hdir : c.tree.node d = some .dir) (hnodup : met.Nodup)
    (hmet : ∀ p ∈ met, c.tree.IsFile p ∧ d <+: p) :
    (names (met.map (scannedInfo c.tree c.root))).Nodup := by
  rw [names, List.map_map]
  refine List.Nodup.map_on (fun p hp q hq heq => ?_) hnodup
  obtain ⟨es, hes, rfl⟩ := exists_name hroot hdir (hmet p hp).1 (hmet p hp).2
  obtain ⟨fs, hfs, rfl⟩ := exists_name hroot hdir (hmet q hq).1 (hmet q hq).2
  have hname : nameOf es = nameOf fs := by
    rw [← scannedInfo_name c.tree c.root es, ← scannedInfo_name c.tree c.root fs]
    exact heq
  rw [← entries_nameOf hes, hname, entries_nameOf hfs]

/-- The listing of what an iteration of the directory meets. -/
theorem lists_sortByName {d : List Entry} {met : List (List Entry)} (hroot : c.root <+: d)
    (hdir : c.tree.node d = some .dir) (hnodup : met.Nodup)
    (hmet : ∀ p ∈ met, c.tree.IsFile p ∧ d <+: p) :
    Lists c d (sortByName (met.map (scannedInfo c.tree c.root))) := by
  refine ⟨sortByName_lt (names_map_nodup hroot hdir hnodup hmet), fun info hinfo => ?_⟩
  obtain ⟨p, hp, rfl⟩ := List.mem_map.1 ((sortByName_perm _).mem_iff.1 hinfo)
  obtain ⟨hfile, hinside⟩ := hmet p hp
  obtain ⟨es, hes, rfl⟩ := exists_name hroot hdir hfile hinside
  rw [scannedInfo_name, entries_nameOf hes]
  exact ⟨canonical_nameOf hes, hinside, hfile, rfl⟩

/-- An iteration that goes to its end leaves no name out. -/
theorem mem_names_of_complete {d : List Entry} {met : List (List Entry)}
    (hmet : ∀ p, c.tree.IsFile p → d <+: p → p ∈ met) {n : List Char} (hn : Canonical n)
    (hfile : c.tree.IsFile (c.root ++ entries n)) (hinside : d <+: c.root ++ entries n) :
    n ∈ names (sortByName (met.map (scannedInfo c.tree c.root))) := by
  have hmem : scannedInfo c.tree c.root (c.root ++ entries n) ∈
      sortByName (met.map (scannedInfo c.tree c.root)) :=
    (sortByName_perm _).mem_iff.2 (List.mem_map_of_mem (hmet _ hfile hinside))
  have hname : (scannedInfo c.tree c.root (c.root ++ entries n)).name = n := by
    rw [scannedInfo_name, hn.nameOf_entries]
  exact List.mem_map.2 ⟨_, hmem, hname⟩

/-- What they list. -/
theorem getFileList_lists (hrun : c.status = .running) (hroot : c.root ≠ [])
    (hit : ∀ path, Iterates c.tree path (iterate path)) {infos : List FileInfo}
    (h : getFileList c folder iterate = .ok infos) :
    ∃ d, plain d = lexical c.root folder ∧ Lists c d infos ∧
      ((∀ path, Complete c.tree path (iterate path)) → ∀ n, Canonical n →
        c.tree.IsFile (c.root ++ entries n) → d <+: c.root ++ entries n → n ∈ names infos) := by
  obtain ⟨target, hv, hisdir, rfl⟩ := getFileList_ok.1 h
  obtain ⟨hiff, hdenotes⟩ := @validateDirectoryPath_exact c folder hrun hroot
  obtain ⟨⟨hnul, _, hinside⟩, _⟩ := hiff.1 ⟨target, hv⟩
  obtain ⟨d, hd⟩ := exists_entries c.root hnul
  have hnames := hdenotes target hv
  rw [← hd] at hnames hinside
  have hdir := hnames.dir hisdir
  have hresolve := hnames.resolve_dir hdir
  refine ⟨d, hd, lists_sortByName (plain_prefix_iff.1 hinside) hdir (hit target).nodup ?_, ?_⟩
  · intro p hp
    obtain ⟨hfile, d', hd', hbelow⟩ := (hit target).below p hp
    cases hresolve.symm.trans hd'
    exact ⟨hfile, hbelow⟩
  · intro hall n hn hfile hbelow
    exact mem_names_of_complete (fun p => hall target d p hresolve) hn hfile hbelow

/-! ## The listing and the index -/

/-- No operation touches the configuration. -/
theorem apply_config (c : Cache) (op : Op) :
    (c.apply op).status = c.status ∧ (c.apply op).root = c.root := by
  cases op with
  | save name data f now =>
    rw [Cache.apply, saveFile]
    split
    · exact ⟨rfl, rfl⟩
    · split
      · exact ⟨rfl, rfl⟩
      · split
        · exact ⟨rfl, rfl⟩
        · split <;> exact ⟨rfl, rfl⟩
  | delete name removeFails =>
    rw [Cache.apply, deleteFile]
    split
    · exact ⟨rfl, rfl⟩
    · split
      · exact ⟨rfl, rfl⟩
      · split <;> exact ⟨rfl, rfl⟩
  | createSubdirectory folder newFolder mkdirFails =>
    obtain ⟨t, _, hc⟩ := createSubdirectory_sameFiles c folder newFolder mkdirFails
    rw [Cache.apply, hc]
    exact ⟨rfl, rfl⟩
  | refresh => exact ⟨rfl, rfl⟩

end MyCache
