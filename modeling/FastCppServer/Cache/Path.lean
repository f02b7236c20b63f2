import FastCppServer.Lib.FileTree

/-!
# Paths

What `MyCache.cpp` uses of `std::filesystem::path` and of the kernel's path resolution, over a tree
without symbolic links. A `path` is an absolute path string, kept as the pieces between its slashes:
an empty piece is a doubled slash, and at the end a trailing one. The kernel reads the string up to
its first NUL (`cString`) and walks it from the root directory (`walk`); `weakly_canonical` is the
kernel's answer where the path is there, and the lexical normal form where it is not. It has neither
where the kernel refuses a name for its length (`tooLong`). A character is a byte.

A name that is spelled canonically (`Canonical`: no empty piece, no `.`, no `..`, no NUL) resolves
to the root followed by its pieces, on every tree (`weaklyCanonical_under`).
-/

namespace MyCache

open FileTree

/-! ## Path strings -/

/-- The byte that ends a C string. -/
def nul : Char := Char.ofNat 0

/-- What can stand in a directory as an entry. -/
def Ordinary (c : List Char) : Prop :=
  c ≠ [] ∧ c ≠ ['.'] ∧ c ≠ ['.', '.'] ∧ '/' ∉ c ∧ nul ∉ c

instance : DecidablePred Ordinary := fun c =>
  inferInstanceAs (Decidable (c ≠ [] ∧ c ≠ ['.'] ∧ c ≠ ['.', '.'] ∧ '/' ∉ c ∧ nul ∉ c))

/-- The name of a directory entry. -/
abbrev Entry := { c : List Char // Ordinary c }

/-- The pieces of a `std::filesystem::path`. -/
abbrev Path := List (List Char)

/-- The pieces between the slashes of a string. -/
def pieces (name : List Char) : Path := name.splitOn '/'

/-- The string with these pieces. -/
def unpieces (path : Path) : List Char := ['/'].intercalate path

/-- The string of an absolute path. -/
def Path.string (path : Path) : List Char := '/' :: unpieces path

/-- The string of a path that may begin with a slash of its own, as that of an absolute name does.
-/
def Path.native (path : Path) : List Char :=
  if path.head? = some [] then unpieces path else path.string

/-- The path string of an entry of the tree. -/
def plain (p : List Entry) : Path := p.map Subtype.val

/-- `root / name`: an absolute name takes the place of the root. -/
def join (root : List Entry) (name : List Char) : Path :=
  if name.head? = some '/' then pieces name else plain root ++ pieces name

/-- `path.parent_path()`. -/
def Path.parentPath (path : Path) : Path := path.dropLast

/-- `path += ".tmp"`. -/
def Path.tmpPath (path : Path) : Path :=
  path.dropLast ++ [path.getLast?.getD [] ++ ['.', 't', 'm', 'p']]

/-! ## The kernel's resolution -/

/-- `path.c_str()` as the kernel reads it. -/
def cString : Path → Path
  | [] => []
  | c :: cs => if nul ∈ c then [c.takeWhile (· ≠ nul)] else c :: cString cs

/-- `NAME_MAX`, the length of a name in a directory. -/
def nameMax : Nat := 255

/-- `PATH_MAX`, the length of a path string with its NUL. -/
def pathMax : Nat := 4096

/-- The directory entry that a piece leads to from a directory. -/
def descend (p : List Entry) (c : List Char) : Option (List Entry) :=
  if c = [] ∨ c = ['.'] then some p
  else if c = ['.', '.'] then some p.dropLast
  else if h : Ordinary c then some (p ++ [⟨c, h⟩])
  else none

section
variable {β : Type} (t : Tree Entry β)

/-- The entry that a path leads to from another, where it is there and every entry on the way is a
directory. -/
def walk (p : List Entry) : Path → Option (List Entry)
  | [] => if (t.node p).isSome then some p else none
  | c :: cs => if t.node p = some .dir then (descend p c).bind fun q => walk q cs else none

/-- The walk comes to a directory and looks there for a name that is too long. What is missing
before is missed first. -/
def walkTooLong (p : List Entry) : Path → Bool
  | [] => false
  | c :: cs =>
    if t.node p = some .dir then
      if nameMax < c.length then true
      else match descend p c with
        | some q => walkTooLong q cs
        | none => false
    else false

/-- `stat` fails with `ENAMETOOLONG`. It says nothing about the file then, and `weakly_canonical`
sets its `ec`. -/
def tooLong (path : Path) : Bool :=
  pathMax ≤ (cString path).native.length || walkTooLong t [] (cString path)

/-- What `stat` looks at. -/
def resolve (path : Path) : Option (List Entry) := walk t [] (cString path)

/-- `std::filesystem::status`, without the permissions. -/
def status (path : Path) : Option Node := (resolve t path).bind t.node

/-- `std::filesystem::exists`. -/
def pathExists (path : Path) : Bool := (status t path).isSome

/-- `std::filesystem::is_directory`. -/
def isDirectory (path : Path) : Bool := status t path = some .dir

/-- `std::filesystem::is_regular_file`. -/
def isRegularFile (path : Path) : Bool :=
  match status t path with
  | some (.file _) => true
  | _ => false

/-- Where `open`, `mkdir` and `rename` make an entry: the directory of the path is resolved, its
last piece is not. -/
def target (path : Path) : Option (List Entry) :=
  match (cString path).getLast? with
  | none => none
  | some c =>
    if h : Ordinary c then (walk t [] (cString path).dropLast).map (· ++ [⟨c, h⟩]) else none

/-- `std::filesystem::remove`, which refuses to name a directory by a dot. -/
def removePath (path : Path) : Option (Tree Entry β) :=
  match (cString path).getLast? with
  | some ['.'] | some ['.', '.'] => none
  | _ => (resolve t path).bind t.remove

/-- `std::filesystem::rename`. -/
def renamePath (path newPath : Path) : Option (Tree Entry β) :=
  (target t path).bind fun p => (target t newPath).bind fun q => t.rename p q

/-- `mkdir`. -/
def mkdirPath (path : Path) : Option (Tree Entry β) := (target t path).bind t.mkdir

/-- The opening of a `std::ofstream` with `binary | trunc`: the tree and the inode behind the
stream. -/
def openPath (path : Path) (now : Int) : Option (Tree Entry β × Nat) :=
  (target t path).bind fun q => t.openTrunc q now

/-! ## Normal forms -/

/-- What a piece does to a path in normal form. -/
def normalStep (path : Path) (c : List Char) : Path :=
  if c = [] ∨ c = ['.'] then path else if c = ['.', '.'] then path.dropLast else path ++ [c]

/-- `path.lexically_normal()` of an absolute path: a last piece that names no entry leaves a
trailing slash. -/
def Path.lexicallyNormal (path : Path) : Path :=
  let normal := path.foldl normalStep []
  let last := path.getLast?.getD []
  if normal ≠ [] ∧ (last = [] ∨ last = ['.'] ∨ last = ['.', '.']) then normal ++ [[]] else normal

/-- The leading pieces of a path that are there, resolved, and the pieces after them. -/
def leading (p : List Entry) : Path → List Entry × Path
  | [] => (p, [])
  | c :: cs =>
    match walk t p (cString [c]) with
    | some q => leading q cs
    | none => (p, c :: cs)

/-- `std::filesystem::weakly_canonical`, of a path that is not `tooLong`. -/
def weaklyCanonical (path : Path) : Path :=
  match resolve t path with
  | some p => plain p
  | none =>
    let (p, rest) := leading t [] path
    (plain p ++ rest : Path).lexicallyNormal

/-- A path that may be too long for the kernel, whatever there is on the disk: by its string, or by
one of its pieces. -/
def LongPath (path : Path) : Prop := pathMax ≤ path.native.length ∨ ∃ c ∈ path, nameMax < c.length

/-- `IsPathInsideRoot`, a comparison of strings. -/
def isPathInsideRoot (root resolved : Path) : Bool :=
  resolved.string = root.string ∨ root.string ++ ['/'] <+: resolved.string

end

/-! ## Names in canonical spelling -/

/-- A name whose every piece is a directory entry. -/
def Canonical (name : List Char) : Prop := ∀ c ∈ pieces name, Ordinary c

instance : DecidablePred Canonical := fun name =>
  inferInstanceAs (Decidable (∀ c ∈ pieces name, Ordinary c))

/-- The entries that the pieces of a name spell. -/
def entries (name : List Char) : List Entry :=
  (pieces name).filterMap fun c => if h : Ordinary c then some ⟨c, h⟩ else none

/-- The name with these entries. -/
def nameOf (es : List Entry) : List Char := unpieces (plain es)

/-- The path of no entries is the root. -/
@[simp] theorem plain_nil : plain [] = [] := rfl

/-- The components of a plain path are the names of its entries, one by one. -/
@[simp] theorem plain_cons (e : Entry) (es : List Entry) :
    plain (e :: es) = e.val :: plain es := rfl

/-- Plain paths are joined entry by entry, so a path below a directory begins with the path of the
directory. -/
@[simp] theorem plain_append (es fs : List Entry) : plain (es ++ fs) = plain es ++ plain fs :=
  List.map_append

/-- A plain path belongs to one list of entries only: two files have the same path just if they are
the same entry of the tree. -/
theorem plain_injective : Function.Injective plain :=
  List.map_injective_iff.2 Subtype.val_injective

/-- A component of a plain path is neither `.` nor `..`, and there is no slash in it. -/
theorem ordinary_of_mem_plain {es : List Entry} {c : List Char} (h : c ∈ plain es) :
    Ordinary c := by
  obtain ⟨e, -, rfl⟩ := List.mem_map.1 h
  exact e.2

/-- Splitting a name gives a piece in any case: the empty name has one, which is empty. -/
theorem pieces_ne_nil (name : List Char) : pieces name ≠ [] := List.splitOn_ne_nil _ _

/-- The entries of a canonical name spell the name out again. -/
theorem Canonical.plain_entries {name : List Char} (h : Canonical name) :
    plain (entries name) = pieces name := by
  have key : ∀ cs : Path, (∀ c ∈ cs, Ordinary c) →
      plain (cs.filterMap fun c => if h : Ordinary c then some (⟨c, h⟩ : Entry) else none) =
        cs := by
    intro cs hcs
    induction cs with
    | nil => rfl
    | cons c cs ih =>
      have hc := hcs c List.mem_cons_self
      have ih := ih fun d hd => hcs d (List.mem_cons_of_mem c hd)
      simp [hc, ih]
  exact key _ h

/-- A canonical name is below the root, and not the root itself. -/
theorem Canonical.entries_ne_nil {name : List Char} (h : Canonical name) : entries name ≠ [] := by
  intro he
  have := h.plain_entries
  rw [he] at this
  exact pieces_ne_nil name this.symm

/-- Reading a canonical name as entries and joining them with slashes gives back the name. -/
theorem Canonical.nameOf_entries {name : List Char} (h : Canonical name) :
    nameOf (entries name) = name := by
  rw [nameOf, h.plain_entries, unpieces, pieces, List.intercalate_splitOn]

/-- Splitting the name of some entries at its slashes gives the entries. -/
theorem pieces_nameOf {es : List Entry} (h : es ≠ []) : pieces (nameOf es) = plain es :=
  List.splitOn_intercalate _ (fun _ hl => (ordinary_of_mem_plain hl).2.2.2.1)
    (fun he => h (List.map_eq_nil_iff.1 he))

/-- What is made of entries is canonical, so every file below the root has a canonical name. -/
theorem canonical_nameOf {es : List Entry} (h : es ≠ []) : Canonical (nameOf es) := by
  intro c hc
  rw [pieces_nameOf h] at hc
  exact ordinary_of_mem_plain hc

/-- The two readings of a name are inverse to each other: a file and its canonical name determine
one another. -/
theorem entries_nameOf {es : List Entry} (h : es ≠ []) : entries (nameOf es) = es :=
  plain_injective (by rw [(canonical_nameOf h).plain_entries, pieces_nameOf h])

/-- Two canonical names with the same entries are one name. -/
theorem Canonical.ext {m n : List Char} (hm : Canonical m) (hn : Canonical n)
    (h : entries m = entries n) : m = n := by
  rw [← hm.nameOf_entries, h, hn.nameOf_entries]

/-- Below a root, the path of a canonical name is the plain one: `root / name` has nothing to be
normalised away. -/
theorem Canonical.join {name : List Char} (h : Canonical name) (root : List Entry) :
    join root name = plain (root ++ entries name) := by
  have hhead : name.head? ≠ some '/' := by
    intro hc
    obtain ⟨rest, rfl⟩ : ∃ rest, name = '/' :: rest := by
      cases name with
      | nil => cases hc
      | cons c rest =>
        cases hc
        exact ⟨rest, rfl⟩
    refine (h [] ?_).1 rfl
    rw [pieces, List.splitOn_cons_eq_if_modifyHead]
    simp
  rw [MyCache.join, if_neg hhead, plain_append, h.plain_entries]

/-! ## The paths of entries -/

/-- Without a NUL the system reads the whole path. -/
theorem cString_eq {path : Path} (h : ∀ c ∈ path, nul ∉ c) : cString path = path := by
  induction path with
  | nil => rfl
  | cons c cs ih =>
    rw [cString, if_neg (h c List.mem_cons_self), ih fun d hd => h d (List.mem_cons_of_mem c hd)]

/-- No entry has a NUL in its name, so the system reads all of a plain path. -/
theorem cString_plain (es : List Entry) : cString (plain es) = plain es := by
  refine cString_eq fun c hc => ?_
  obtain ⟨e, -, rfl⟩ := List.mem_map.1 hc
  exact e.2.2.2.2.2

/-- A step of the walk by the name of an entry goes to that entry, whether or not it is there. -/
theorem descend_entry (p : List Entry) (e : Entry) : descend p e.val = some (p ++ [e]) := by
  have h := e.2
  rw [descend, if_neg (by simp [h.1, h.2.1]), if_neg h.2.2.1, dif_pos h]

section
variable {β : Type} {t : Tree Entry β}

/-- The walk along a plain path gets to its end just if there is something at the end: what is above
a node of the tree is a directory. -/
theorem walk_plain (p es : List Entry) :
    walk t p (plain es) = if (t.node (p ++ es)).isSome then some (p ++ es) else none := by
  induction es generalizing p with
  | nil => simp [walk]
  | cons e es ih =>
    rw [plain_cons, walk, descend_entry, Option.bind_some, ih, List.append_assoc,
      List.singleton_append]
    by_cases hd : t.node p = some .dir
    · rw [if_pos hd]
    · have hn : t.node (p ++ e :: es) = none := by
        by_contra hn
        exact hd (Tree.dir_of_prefix hn (List.cons_ne_nil e es))
      simp [hd, hn]

/-- A plain path resolves to the node it spells, if there is one. -/
theorem resolve_plain (es : List Entry) :
    resolve t (plain es) = if (t.node es).isSome then some es else none := by
  rw [resolve, cString_plain, walk_plain, List.nil_append]

/-- `status` of a plain path is the node it spells. -/
theorem status_plain (es : List Entry) : status t (plain es) = t.node es := by
  rw [status, resolve_plain]
  cases h : t.node es <;> simp [h]

/-- The walk along a path in two parts stops at the first of them that cannot be walked. -/
theorem walk_append (p : List Entry) (cs ds : Path) :
    walk t p (cs ++ ds) = (walk t p cs).bind fun q => walk t q ds := by
  induction cs generalizing p with
  | nil =>
    rw [List.nil_append, walk]
    split
    next => rfl
    next hn =>
      rw [Option.not_isSome_iff_eq_none] at hn
      cases ds <;> simp [walk, hn]
  | cons c cs ih =>
    rw [List.cons_append, walk, walk]
    split
    next =>
      rw [Option.bind_assoc]
      exact congrArg _ (funext fun q => ih q)
    next => rfl

/-- A walk goes the same way on a tree that has at least the same directories. -/
theorem walk_mono {t' : Tree Entry β} (hdir : ∀ p, t.node p = some .dir → t'.node p = some .dir)
    {p q : List Entry} {cs : Path} (h : walk t p cs = some q) (hq : (t'.node q).isSome) :
    walk t' p cs = some q := by
  induction cs generalizing p with
  | nil =>
    rw [walk] at h ⊢
    split at h
    next =>
      cases h
      rw [if_pos hq]
    next => cases h
  | cons c cs ih =>
    rw [walk] at h ⊢
    split at h
    next hp =>
      obtain ⟨r, hr, hw⟩ := Option.bind_eq_some_iff.1 h
      rw [if_pos (hdir p hp), hr]
      exact ih hw
    next => cases h

/-- A walk that looks for a name that is too long has come to one. -/
theorem exists_of_walkTooLong {p : List Entry} {path : Path} (h : walkTooLong t p path = true) :
    ∃ c ∈ path, nameMax < c.length := by
  induction path generalizing p with
  | nil => cases h
  | cons c cs ih =>
    rw [walkTooLong] at h
    split at h
    · split at h
      next hlong => exact ⟨c, List.mem_cons_self, hlong⟩
      next =>
        split at h
        next q _ =>
          obtain ⟨d, hd, hlong⟩ := ih h
          exact ⟨d, List.mem_cons_of_mem c hd, hlong⟩
        next => cases h
    · cases h

/-- The kernel refuses no path that is short, on no tree. -/
theorem longPath_of_tooLong {path : Path} (hnul : ∀ c ∈ path, nul ∉ c)
    (h : tooLong t path = true) : LongPath path := by
  rw [tooLong, cString_eq hnul, Bool.or_eq_true, decide_eq_true_iff] at h
  exact h.imp_right exists_of_walkTooLong

/-- `is_regular_file` of a plain path asks whether there is a file. -/
theorem isRegularFile_plain (es : List Entry) : isRegularFile t (plain es) ↔ t.IsFile es := by
  rw [isRegularFile, status_plain, Tree.IsFile]
  cases t.node es with
  | none => simp
  | some n => cases n <;> simp

/-- What is to be created at a plain path is the entry it spells, as soon as the directory is
there. -/
theorem target_plain (es : List Entry) (e : Entry) :
    target t (plain (es ++ [e])) = if (t.node es).isSome then some (es ++ [e]) else none := by
  have hlast : (plain (es ++ [e])).getLast? = some e.val := by simp [plain]
  have hinit : (plain (es ++ [e])).dropLast = plain es := by simp [plain]
  rw [target, cString_plain, hlast]
  simp only [hinit, walk_plain, List.nil_append, dif_pos e.2]
  split <;> simp

/-- `weakly_canonical` cuts a plain path in two, the part that is there and the rest, and loses
nothing of it. -/
theorem leading_plain (p es : List Entry) :
    plain (leading t p (plain es)).1 ++ (leading t p (plain es)).2 = plain (p ++ es) := by
  induction es generalizing p with
  | nil => simp [leading]
  | cons e es ih =>
    have hw := walk_plain (t := t) p [e]
    rw [← cString_plain, plain_cons, plain_nil] at hw
    rw [plain_cons, leading, hw]
    split
    next q hq =>
      split at hq
      · cases hq
        rw [ih, List.append_assoc, List.singleton_append]
      · cases hq
    next => simp

end

/-- Nothing is removed when a plain path is normalised: no component of it is `.` or `..`. -/
theorem foldl_normalStep_plain (path : Path) (es : List Entry) :
    (plain es).foldl normalStep path = path ++ plain es := by
  induction es generalizing path with
  | nil => simp
  | cons e es ih =>
    have h := e.2
    rw [plain_cons, List.foldl_cons, normalStep, if_neg (by simp [h.1, h.2.1]), if_neg h.2.2.1, ih,
      List.append_assoc, List.singleton_append]

/-- A plain path is its own normal form. -/
theorem lexicallyNormal_plain (es : List Entry) : (plain es : Path).lexicallyNormal = plain es := by
  rw [Path.lexicallyNormal]
  simp only [foldl_normalStep_plain, List.nil_append]
  refine if_neg fun h => ?_
  obtain ⟨hne, hlast⟩ := h
  have ho := ordinary_of_mem_plain (List.getLast_mem hne)
  rw [List.getLast?_eq_some_getLast hne, Option.getD_some] at hlast
  rcases hlast with h | h | h
  · exact ho.1 h
  · exact ho.2.1 h
  · exact ho.2.2.1 h

/-- **Canonical spelling is canonical.** The path of an entry is its own weakly canonical form,
whether the entry is there or not. -/
theorem weaklyCanonical_plain {β : Type} (t : Tree Entry β) (es : List Entry) :
    weaklyCanonical t (plain es) = plain es := by
  have hl := leading_plain (t := t) [] es
  rw [weaklyCanonical, resolve_plain]
  split
  next q hq =>
    split at hq <;> cases hq
    rfl
  next =>
    simp only [hl, List.nil_append]
    exact lexicallyNormal_plain es

/-- The entry that a save writes before it renames. -/
def tmpEntry (e : Entry) : Entry where
  val := e.val ++ ['.', 't', 'm', 'p']
  property := by
    have h := e.2
    have hlen : 4 < (e.val ++ ['.', 't', 'm', 'p']).length := by
      simpa using List.length_pos_iff.2 h.1
    refine ⟨?_, ?_, ?_, ?_, ?_⟩
    · exact List.ne_nil_of_length_pos (by omega)
    · intro hc
      simp [hc] at hlen
    · intro hc
      simp [hc] at hlen
    · simp [h.2.2.2.1]
    · simp [h.2.2.2.2]
      decide

/-- The temporary file of an entry is beside it, under its name with `.tmp` behind it. -/
theorem tmpPath_plain (es : List Entry) (e : Entry) :
    (plain (es ++ [e])).tmpPath = plain (es ++ [tmpEntry e]) := by
  simp [Path.tmpPath, plain, tmpEntry]

/-- The parent of an entry's path is the path of its directory. -/
theorem parentPath_plain (es : List Entry) (e : Entry) :
    (plain (es ++ [e])).parentPath = plain es := by
  simp [Path.parentPath, plain]

end MyCache
