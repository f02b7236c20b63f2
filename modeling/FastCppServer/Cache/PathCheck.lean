import FastCppServer.Cache.Disk

/-!
# What the path check accepts

`ValidatePath` and `ValidateDirectoryPath` compare the weakly canonical form of a name with the
root. Where the name leads somewhere, the kernel's walk goes the way the pieces say
(`walk_lexical`), and where it does not, the rest is resolved by the pieces (`leading_lexical`): so
the form is the lexical resolution of the name, up to a slash at its end
(`weaklyCanonical_lexical`).

That slash makes the last test of `ValidatePath` miss the root: a name that comes back to the root
over an entry that is not there is accepted (`Returns`). And it is the one of the two checks that
lets a NUL pass, where the kernel stops reading (`Cut`). Both refuse a name that the kernel takes
for too long, wherever it leads (`tooLong`). They are exact for every other name
(`validate_exact_iff`).
-/

namespace MyCache

open FileTree Function

/-! ## Exactness -/

/-- The lexical resolution of a name against the root, component by component. -/
def lexical (root : List Entry) (name : List Char) : Path := (join root name).foldl normalStep []

/-- The path lies properly below the root. -/
def Below (root : List Entry) (path : Path) : Prop := plain root <+: path ∧ path ≠ plain root

/-- The path string names these components, a slash at its end apart. -/
def Denotes (full components : Path) : Prop := full = components ∨ full = components ++ [[]]

/-- The tree has got this directory and nothing else. -/
def Makes (t t' : Files) (p : List Entry) : Prop :=
  t.node p = none ∧ t'.node = update t.node p (some .dir) ∧ t'.inode = t.inode

/-- What the checks do with a name, and what is created under the folder of that name. -/
structure Exact (c : Cache) (name : List Char) : Prop where
  accepts : (∃ full, validatePath c name = .ok full) ↔
    name ≠ [] ∧ Below c.root (lexical c.root name)
  fullPath : ∀ full, validatePath c name = .ok full → Denotes full (lexical c.root name)
  acceptsDirectory : (∃ full, validateDirectoryPath c name true = .ok full) ↔
    nul ∉ name ∧ '\\' ∉ name ∧ plain c.root <+: lexical c.root name
  directoryPath : ∀ full, validateDirectoryPath c name true = .ok full →
    Denotes full (lexical c.root name)
  creates : ∀ newFolder mkdirFails,
    (createSubdirectory c name newFolder mkdirFails).1.tree = c.tree ∨
      ∃ parent, ∃ e : Entry, plain parent = lexical c.root name ∧ e.val = newFolder ∧
        Makes c.tree (createSubdirectory c name newFolder mkdirFails).1.tree (parent ++ [e])

/-- A last piece that names no entry. -/
def Dotted (path : Path) : Prop :=
  path.getLast?.getD [] = [] ∨ path.getLast?.getD [] = ['.'] ∨ path.getLast?.getD [] = ['.', '.']

instance (path : Path) : Decidable (Dotted path) :=
  inferInstanceAs (Decidable (_ = [] ∨ _ = ['.'] ∨ _ = ['.', '.']))

/-- The name leads nowhere, and its pieces come back to the root with one that names no entry. -/
def Returns (c : Cache) (name : List Char) : Prop :=
  resolve c.tree (join c.root name) = none ∧ lexical c.root name = plain c.root ∧
    Dotted (join c.root name)

/-- The kernel reads the name up to a NUL and finds there another entry than the pieces say, one of
the two below the root. -/
def Cut (c : Cache) (name : List Char) : Prop :=
  nul ∈ name ∧ ∃ p, resolve c.tree (join c.root name) = some p ∧
    plain p ≠ lexical c.root name ∧
    (Below c.root (plain p) ∨ Below c.root (lexical c.root name))

/-- A check should accept the name, if the kernel took it. -/
def Owed (c : Cache) (name : List Char) : Prop :=
  Below c.root (lexical c.root name) ∨
    (nul ∉ name ∧ '\\' ∉ name ∧ name ≠ ['.'] ∧ plain c.root <+: lexical c.root name)

/-! ## The kernel goes where the pieces say -/

section
variable {β : Type} {t : Tree Entry β}

/-- Going down one component agrees with the lexical normalisation of that component. -/
theorem descend_lexical {p q : List Entry} {c : List Char} (h : descend p c = some q) :
    plain q = normalStep (plain p) c := by
  rw [descend] at h
  rw [normalStep]
  split_ifs at h with h1 h2 h3
  · cases h
    rw [if_pos h1]
  · cases h
    rw [if_neg h1, if_pos h2, plain, plain, List.map_dropLast]
  · cases h
    rw [if_neg h1, if_neg h2, plain_append]
    rfl

/-- A walk that comes to its end has gone piece by piece. -/
theorem walk_lexical {p q : List Entry} {path : Path} (h : walk t p path = some q) :
    plain q = path.foldl normalStep (plain p) := by
  induction path generalizing p with
  | nil =>
    rw [walk] at h
    split at h <;> cases h
    rfl
  | cons c cs ih =>
    rw [walk] at h
    split at h
    next =>
      obtain ⟨r, hr, hw⟩ := Option.bind_eq_some_iff.1 h
      rw [List.foldl_cons, ← descend_lexical hr]
      exact ih hw
    next => cases h

/-- Where a walk arrives, there is something. -/
theorem walk_isSome {p q : List Entry} {path : Path} (h : walk t p path = some q) :
    (t.node q).isSome := by
  induction path generalizing p with
  | nil =>
    rw [walk] at h
    split at h
    next hp =>
      cases h
      exact hp
    next => cases h
  | cons c cs ih =>
    rw [walk] at h
    split at h
    next =>
      obtain ⟨r, -, hw⟩ := Option.bind_eq_some_iff.1 h
      exact ih hw
    next => cases h

/-- Where the walk does not come to its end, its leading pieces and the rest say what the path
says. -/
theorem leading_lexical {p : List Entry} {path : Path} (hp : (t.node p).isSome)
    (h : walk t p (cString path) = none) :
    (plain (leading t p path).1 ++ (leading t p path).2).foldl normalStep [] =
        path.foldl normalStep (plain p) ∧
      (leading t p path).2 ≠ [] := by
  induction path generalizing p with
  | nil =>
    rw [cString, walk, if_pos hp] at h
    cases h
  | cons c cs ih =>
    rw [leading]
    split
    next q hq =>
      -- a piece that is walked has no NUL, since the walk of the C string goes on behind it
      have hc : nul ∉ c := by
        intro hc
        rw [cString, if_pos hc] at h hq
        rw [h] at hq
        cases hq
      rw [cString, if_neg hc] at h hq
      rw [cString] at hq
      have hwalk : walk t q (cString cs) = none := by
        have happ := walk_append (t := t) p [c] (cString cs)
        rw [List.singleton_append, h, hq, Option.bind_some] at happ
        exact happ.symm
      obtain ⟨hfold, hne⟩ := ih (walk_isSome hq) hwalk
      refine ⟨?_, hne⟩
      rw [hfold, walk_lexical hq]
      rfl
    next =>
      refine ⟨?_, List.cons_ne_nil c cs⟩
      rw [List.foldl_append, foldl_normalStep_plain, List.nil_append]

/-- **The weakly canonical form** of a path that leads somewhere: where it leads. -/
theorem weaklyCanonical_some {path : Path} {p : List Entry} (h : resolve t path = some p) :
    weaklyCanonical t path = plain p := by
  rw [weaklyCanonical, h]

/-- Without a NUL that is what the pieces say. -/
theorem resolve_lexical {path : Path} {p : List Entry} (h : resolve t path = some p)
    (hnul : ∀ c ∈ path, nul ∉ c) : plain p = path.foldl normalStep [] := by
  rw [resolve, cString_eq hnul] at h
  exact walk_lexical h

/-- **The weakly canonical form** of a path that leads nowhere: what the pieces say, and a slash
behind it where the last one names no entry. -/
theorem weaklyCanonical_none {path : Path} (h : resolve t path = none) :
    weaklyCanonical t path =
      if path.foldl normalStep [] ≠ [] ∧ Dotted path then path.foldl normalStep [] ++ [[]]
      else path.foldl normalStep [] := by
  have hroot : (t.node []).isSome := by
    rw [t.root_dir]
    rfl
  obtain ⟨hfold, hne⟩ := leading_lexical hroot h
  have hlast : (plain (leading t [] path).1 ++ (leading t [] path).2).getLast? =
      path.getLast? := by
    obtain ⟨front, hpath⟩ := leading_suffix (t := t) [] path
    rw [List.getLast?_append_of_ne_nil _ hne]
    conv_rhs => rw [← hpath, List.getLast?_append_of_ne_nil _ hne]
  rw [weaklyCanonical, h]
  dsimp only
  rw [Path.lexicallyNormal]
  simp only [hfold, hlast]
  rfl

end

/-! ## The comparison of strings -/

/-- Joining the pieces of two paths puts one slash between them. -/
theorem unpieces_append {path path' : Path} (h : path ≠ []) (h' : path' ≠ []) :
    unpieces (path ++ path') = unpieces path ++ '/' :: unpieces path' := by
  induction path with
  | nil => exact absurd rfl h
  | cons c cs ih =>
    rcases eq_or_ne cs [] with rfl | hcs
    · rw [List.singleton_append, unpieces, List.intercalate_cons_of_ne_nil h', unpieces,
        List.intercalate_singleton, List.append_assoc]
      rfl
    · have happ : cs ++ path' ≠ [] := List.append_ne_nil_of_left_ne_nil hcs path'
      rw [List.cons_append, unpieces, List.intercalate_cons_of_ne_nil happ, unpieces,
        List.intercalate_cons_of_ne_nil hcs]
      have := ih hcs
      rw [unpieces, unpieces] at this
      simp only [this, List.append_assoc]

/-- **The comparison is that of the pieces**, also with a sibling whose name starts like the
root. -/
theorem inside_iff {root : List Entry} (hroot : root ≠ []) {path : Path}
    (hs : ∀ c ∈ path, '/' ∉ c) :
    isPathInsideRoot (plain root) path = true ↔ plain root <+: path := by
  constructor
  · exact prefix_of_inside hs
  · rintro ⟨rest, rfl⟩
    have hne : plain root ≠ [] := fun he => hroot (List.map_eq_nil_iff.1 he)
    rw [isPathInsideRoot_iff]
    rcases eq_or_ne rest [] with rfl | hrest
    · exact .inl (by rw [List.append_nil])
    · refine .inr ⟨unpieces rest, ?_⟩
      rw [Path.string, Path.string, unpieces_append hne hrest]
      simp

/-- A character of a component is a character of the path. -/
theorem mem_unpieces {path : Path} {c : List Char} {x : Char} (hc : c ∈ path) (hx : x ∈ c) :
    x ∈ unpieces path := by
  induction path with
  | nil => cases hc
  | cons d path ih =>
    rcases eq_or_ne path [] with rfl | hne
    · rw [unpieces, List.intercalate_singleton]
      rwa [List.mem_singleton.1 hc] at hx
    · rw [unpieces, List.intercalate_cons_of_ne_nil hne, List.mem_append, List.mem_append]
      rcases List.mem_cons.1 hc with rfl | hc
      · exact .inl (.inl hx)
      · exact .inr (ih hc)

/-- A name without a NUL gives a path without one. -/
theorem nul_notMem_join {root : List Entry} {name : List Char} (h : nul ∉ name) :
    ∀ c ∈ join root name, nul ∉ c := by
  have hpieces : ∀ c ∈ pieces name, nul ∉ c := by
    intro c hc hn
    have := mem_unpieces hc hn
    rw [unpieces, pieces, List.intercalate_splitOn] at this
    exact h this
  intro c hc
  rw [join] at hc
  split at hc
  · exact hpieces c hc
  · rcases List.mem_append.1 hc with hc | hc
    · exact (ordinary_of_mem_plain hc).2.2.2.2
    · exact hpieces c hc

/-! ## The checks -/

section
variable {c : Cache} {name : List Char}

/-- A trailing slash does not change whether the root is a prefix. -/
theorem slash_prefix {root : List Entry} {path : Path} :
    plain root <+: path ++ [[]] ↔ plain root <+: path := by
  rw [List.prefix_concat_iff]
  refine or_iff_right fun h => ?_
  have hmem : ([] : List Char) ∈ plain root := by
    rw [h]
    exact List.mem_append_right _ List.mem_cons_self
  exact (ordinary_of_mem_plain hmem).1 rfl

/-- No path that ends in a slash is one of plain entries. -/
theorem slash_ne_plain (path : Path) (p : List Entry) : plain p ≠ path ++ [[]] := by
  intro h
  have hmem : ([] : List Char) ∈ plain p := by
    rw [h]
    exact List.mem_append_right _ List.mem_cons_self
  exact (ordinary_of_mem_plain hmem).1 rfl

/-- What `validatePath` accepts: the file system follows the joined path, and what it resolves to
lies below the root. -/
theorem validatePath_iff (hrun : c.status = .running) (hroot : c.root ≠ []) (hname : name ≠ [])
    {full : Path} :
    validatePath c name = .ok full ↔
      tooLong c.tree (join c.root name) = false ∧
        full = weaklyCanonical c.tree (join c.root name) ∧ Below c.root full := by
  have hinside :
      isPathInsideRoot (plain c.root) (weaklyCanonical c.tree (join c.root name)) = true ↔
        plain c.root <+: weaklyCanonical c.tree (join c.root name) :=
    inside_iff hroot (weaklyCanonical_normal fun _ hc => mem_join_no_slash hc).1
  rw [validatePath, if_neg hname, if_neg (not_not.2 hrun)]
  dsimp only
  constructor
  · intro h
    split_ifs at h with hlong hin heq
    cases h
    exact ⟨Bool.eq_false_iff.2 hlong, rfl, hinside.1 hin, heq⟩
  · rintro ⟨hlong, rfl, hprefix, hne⟩
    rw [if_neg (Bool.eq_false_iff.1 hlong), if_neg (not_not.2 (hinside.2 hprefix)), if_neg hne]

/-- The weakly canonical form of a name: an entry that is there, or the lexical resolution, which
has a slash at its end where the last piece names no entry. -/
theorem canonical_cases (c : Cache) (name : List Char) :
    (∃ p, resolve c.tree (join c.root name) = some p ∧
        weaklyCanonical c.tree (join c.root name) = plain p) ∨
      (resolve c.tree (join c.root name) = none ∧
        ((lexical c.root name ≠ [] ∧ Dotted (join c.root name) ∧
            weaklyCanonical c.tree (join c.root name) = lexical c.root name ++ [[]]) ∨
          (¬ (lexical c.root name ≠ [] ∧ Dotted (join c.root name)) ∧
            weaklyCanonical c.tree (join c.root name) = lexical c.root name))) := by
  cases h : resolve c.tree (join c.root name) with
  | some p => exact .inl ⟨p, rfl, weaklyCanonical_some h⟩
  | none =>
    rw [weaklyCanonical_none h]
    by_cases hdots : lexical c.root name ≠ [] ∧ Dotted (join c.root name)
    · exact .inr ⟨rfl, .inl ⟨hdots.1, hdots.2, if_pos hdots⟩⟩
    · exact .inr ⟨rfl, .inr ⟨hdots, if_neg hdots⟩⟩

/-- **When `ValidatePath` is exact**, for a name that the kernel takes. -/
theorem validatePath_exact_iff (hrun : c.status = .running) (hroot : c.root ≠ [])
    (hname : name ≠ []) (hlong : tooLong c.tree (join c.root name) = false) :
    (((∃ full, validatePath c name = .ok full) ↔ Below c.root (lexical c.root name)) ∧
        ∀ full, validatePath c name = .ok full → Denotes full (lexical c.root name)) ↔
      ¬ Returns c name ∧ ¬ Cut c name := by
  have hplain : plain c.root ≠ [] := fun he => hroot (List.map_eq_nil_iff.1 he)
  simp only [validatePath_iff hrun hroot hname, hlong, true_and, exists_eq_left, and_imp,
    forall_eq]
  rcases canonical_cases c name with ⟨p, hp, hw⟩ | ⟨hnone, ⟨-, hdots, hw⟩ | ⟨hdots, hw⟩⟩
  · -- the name leads to an entry
    have hreturns : ¬ Returns c name := by
      rintro ⟨h, -⟩
      cases h.symm.trans hp
    rw [hw]
    by_cases hsame : plain p = lexical c.root name
    · have hcut : ¬ Cut c name := by
        rintro ⟨-, q, hq, hne, -⟩
        cases hp.symm.trans hq
        exact hne hsame
      rw [hsame]
      exact iff_of_true ⟨Iff.rfl, fun _ => .inl rfl⟩ ⟨hreturns, hcut⟩
    · have hnul : nul ∈ name := by
        by_contra hnul
        exact hsame (resolve_lexical hp (nul_notMem_join hnul))
      constructor
      · rintro ⟨hiff, hdenotes⟩
        refine ⟨hreturns, ?_⟩
        rintro ⟨-, q, hq, -, hbelow⟩
        cases hp.symm.trans hq
        rcases hdenotes (hbelow.elim id hiff.2) with h | h
        · exact hsame h
        · exact slash_ne_plain _ p h
      · rintro ⟨-, hcut⟩
        have hneither : ¬ (Below c.root (plain p) ∨ Below c.root (lexical c.root name)) :=
          fun h => hcut ⟨hnul, p, hp, hsame, h⟩
        rw [not_or] at hneither
        exact ⟨iff_of_false hneither.1 hneither.2, fun h => absurd h hneither.1⟩
  · -- it leads nowhere, and a slash is put at the end of what the pieces say
    have hcut : ¬ Cut c name := by
      rintro ⟨-, q, hq, -⟩
      cases hnone.symm.trans hq
    rw [hw]
    have hbelow : Below c.root (lexical c.root name ++ [[]]) ↔
        plain c.root <+: lexical c.root name := by
      rw [Below, slash_prefix]
      exact and_iff_left (slash_ne_plain _ _).symm
    rw [hbelow]
    constructor
    · rintro ⟨hiff, -⟩
      refine ⟨?_, hcut⟩
      rintro ⟨-, heq, -⟩
      exact (hiff.1 (heq ▸ List.prefix_rfl)).2 heq
    · rintro ⟨hreturns, -⟩
      refine ⟨⟨fun h => ⟨h, fun heq => hreturns ⟨hnone, heq, hdots⟩⟩, And.left⟩, fun _ => .inr rfl⟩
  · -- it leads nowhere, and the form is what the pieces say
    have hcut : ¬ Cut c name := by
      rintro ⟨-, q, hq, -⟩
      cases hnone.symm.trans hq
    have hreturns : ¬ Returns c name := by
      rintro ⟨-, heq, h⟩
      exact hdots ⟨heq ▸ hplain, h⟩
    rw [hw]
    exact iff_of_true ⟨Iff.rfl, fun _ => .inl rfl⟩ ⟨hreturns, hcut⟩

/-! ## Directories -/

/-- What `validateDirectoryPath` accepts: no NUL and no backslash, and then the root itself for the
empty name and for `.`, or else a path that the file system follows to a place at or below the
root. -/
theorem validateDirectoryPath_iff (hrun : c.status = .running) (hroot : c.root ≠ [])
    {full : Path} :
    validateDirectoryPath c name true = .ok full ↔ nul ∉ name ∧ '\\' ∉ name ∧
      (((name = [] ∨ name = ['.']) ∧ full = plain c.root) ∨
        (¬ (name = [] ∨ name = ['.']) ∧ tooLong c.tree (join c.root name) = false ∧
          full = weaklyCanonical c.tree (join c.root name) ∧ plain c.root <+: full)) := by
  have hinside :
      isPathInsideRoot (plain c.root) (weaklyCanonical c.tree (join c.root name)) = true ↔
        plain c.root <+: weaklyCanonical c.tree (join c.root name) :=
    inside_iff hroot (weaklyCanonical_normal fun _ hc => mem_join_no_slash hc).1
  rw [validateDirectoryPath, if_neg (not_not.2 hrun)]
  dsimp only
  constructor
  · intro h
    split_ifs at h with hnul hslash hempty hlong hin
    · cases h
      exact ⟨hnul, hslash, .inl ⟨hempty, rfl⟩⟩
    · cases h
      exact ⟨hnul, hslash, .inr ⟨hempty, Bool.eq_false_iff.2 hlong, rfl, hinside.1 hin⟩⟩
  · rintro ⟨hnul, hslash, ⟨hempty, rfl⟩ | ⟨hempty, hlong, rfl, hprefix⟩⟩
    · rw [if_neg hnul, if_neg hslash, if_pos hempty]
    · rw [if_neg hnul, if_neg hslash, if_neg hempty, if_neg (Bool.eq_false_iff.1 hlong),
        if_neg (not_not.2 (hinside.2 hprefix)), if_neg fun h => h.1 rfl]

/-- The empty name and `.` denote the root. -/
theorem lexical_root {root : List Entry} (h : name = [] ∨ name = ['.']) :
    lexical root name = plain root := by
  rcases h with rfl | rfl
  · rw [lexical, join, if_neg (by simp), List.foldl_append, foldl_normalStep_plain]
    rfl
  · rw [lexical, join, if_neg (by decide), List.foldl_append, foldl_normalStep_plain]
    rfl

/-- Without a NUL the weakly canonical form names what the pieces say. -/
theorem canonical_denotes (hnul : nul ∉ name) :
    Denotes (weaklyCanonical c.tree (join c.root name)) (lexical c.root name) := by
  rcases canonical_cases c name with ⟨p, hp, hw⟩ | ⟨-, ⟨-, -, hw⟩ | ⟨-, hw⟩⟩
  · exact .inl (hw.trans (resolve_lexical hp (nul_notMem_join hnul)))
  · exact .inr hw
  · exact .inl hw

/-- A path and the one it denotes lie alike with regard to the root. -/
theorem Denotes.prefix_iff {full path : Path} {root : List Entry} (h : Denotes full path) :
    plain root <+: full ↔ plain root <+: path := by
  rcases h with rfl | rfl
  · exact Iff.rfl
  · exact slash_prefix

/-- **`ValidateDirectoryPath` is exact**: the root, and what is below it under a name that the
kernel takes. -/
theorem validateDirectoryPath_exact (hrun : c.status = .running) (hroot : c.root ≠ []) :
    ((∃ full, validateDirectoryPath c name true = .ok full) ↔
        (nul ∉ name ∧ '\\' ∉ name ∧ plain c.root <+: lexical c.root name) ∧
          ((name = [] ∨ name = ['.']) ∨ tooLong c.tree (join c.root name) = false)) ∧
      ∀ full, validateDirectoryPath c name true = .ok full →
        Denotes full (lexical c.root name) := by
  simp only [validateDirectoryPath_iff hrun hroot]
  refine ⟨⟨?_, ?_⟩, ?_⟩
  · rintro ⟨full, hnul, hslash, ⟨hempty, -⟩ | ⟨-, hlong, rfl, hprefix⟩⟩
    · exact ⟨⟨hnul, hslash, (lexical_root hempty).symm ▸ List.prefix_rfl⟩, .inl hempty⟩
    · exact ⟨⟨hnul, hslash, (canonical_denotes hnul).prefix_iff.1 hprefix⟩, .inr hlong⟩
  · rintro ⟨⟨hnul, hslash, hprefix⟩, hlong⟩
    by_cases hempty : name = [] ∨ name = ['.']
    · exact ⟨_, hnul, hslash, .inl ⟨hempty, rfl⟩⟩
    · exact ⟨_, hnul, hslash, .inr ⟨hempty, hlong.resolve_left hempty, rfl,
        (canonical_denotes hnul).prefix_iff.2 hprefix⟩⟩
  · rintro full ⟨hnul, -, ⟨hempty, rfl⟩ | ⟨-, -, rfl, -⟩⟩
    · exact .inl (lexical_root hempty).symm
    · exact canonical_denotes hnul

/-! ## A new directory -/

/-- Normalising a path brings no new component. -/
theorem mem_foldl_normalStep {path acc : Path} {d : List Char}
    (h : d ∈ path.foldl normalStep acc) : d ∈ acc ∨ d ∈ path := by
  induction path generalizing acc with
  | nil => exact .inl h
  | cons e path ih =>
    rcases ih h with h | h
    · rw [normalStep] at h
      split_ifs at h
      · exact .inl h
      · exact .inl (List.mem_of_mem_dropLast h)
      · rcases List.mem_append.1 h with h | h
        · exact .inl h
        · exact .inr (List.mem_singleton.1 h ▸ List.mem_cons_self)
    · exact .inr (List.mem_cons_of_mem e h)

/-- Without a NUL the lexical resolution is the path of an entry. -/
theorem exists_entries (root : List Entry) (hnul : nul ∉ name) :
    ∃ es, plain es = lexical root name := by
  refine exists_plain fun d hd => ?_
  have hslash : ∀ d ∈ join root name, '/' ∉ d := fun _ hd => mem_join_no_slash hd
  have hnamed := foldl_normalStep_named hslash (List.forall_mem_nil _) d hd
  have hd' : d ∈ join root name := (mem_foldl_normalStep hd).resolve_left List.not_mem_nil
  exact ⟨hnamed.1, hnamed.2.1, hnamed.2.2.1, hnamed.2.2.2, nul_notMem_join hnul d hd'⟩

/-- A path that denotes plain entries normalises to them. -/
theorem Denotes.foldl {full : Path} {es : List Entry} (h : Denotes full (plain es)) :
    full.foldl normalStep [] = plain es := by
  rcases h with rfl | rfl
  · rw [foldl_normalStep_plain, List.nil_append]
  · rw [List.foldl_append, foldl_normalStep_plain, List.nil_append]
    rfl

/-- A path that denotes plain entries holds no NUL. -/
theorem Denotes.nul_notMem {full : Path} {es : List Entry} (h : Denotes full (plain es)) :
    ∀ d ∈ full, nul ∉ d := by
  have hes : ∀ d ∈ plain es, nul ∉ d := fun d hd => (ordinary_of_mem_plain hd).2.2.2.2
  rcases h with rfl | rfl
  · exact hes
  · intro d hd
    rcases List.mem_append.1 hd with hd | hd
    · exact hes d hd
    · rw [List.mem_singleton.1 hd]
      exact List.not_mem_nil

/-- A directory that a path names. -/
theorem Denotes.dir {full : Path} {es : List Entry} {t : Files} (h : Denotes full (plain es))
    (hdir : isDirectory t full = true) : t.node es = some .dir := by
  rw [isDirectory, decide_eq_true_iff, status] at hdir
  obtain ⟨p, hp, hnode⟩ := Option.bind_eq_some_iff.1 hdir
  have hes := (resolve_lexical hp h.nul_notMem).trans h.foldl
  rwa [plain_injective hes] at hnode

/-- An entry under the directory that a path names. -/
theorem Denotes.weaklyCanonical {full : Path} {es : List Entry} {t : Files}
    (h : Denotes full (plain es)) (e : Entry) :
    weaklyCanonical t (full ++ [e.val]) = plain (es ++ [e]) := by
  have hfold : (full ++ [e.val]).foldl normalStep [] = plain (es ++ [e]) := by
    rw [List.foldl_append, h.foldl]
    have := foldl_normalStep_plain (plain es) [e]
    rwa [← plain_append] at this
  cases hp : resolve t (full ++ [e.val]) with
  | some p =>
    rw [weaklyCanonical_some hp, ← hfold]
    refine resolve_lexical hp fun d hd => ?_
    rcases List.mem_append.1 hd with hd | hd
    · exact h.nul_notMem d hd
    · rw [List.mem_singleton.1 hd]
      exact e.2.2.2.2.2
  | none =>
    rw [weaklyCanonical_none hp, hfold, if_neg]
    rintro ⟨-, hdots⟩
    rw [Dotted, List.getLast?_concat, Option.getD_some] at hdots
    rcases hdots with h | h | h
    · exact e.2.1 h
    · exact e.2.2.1 h
    · exact e.2.2.2.1 h

/-- Creating a directory below one that is there makes it, or finds it made. -/
theorem createDirectory_plain {t t' : Files} {es : List Entry} {e : Entry} {created : Bool}
    (hdir : t.node es = some .dir)
    (h : createDirectory t (plain (es ++ [e])) = some (t', created)) :
    (created = true ∧ Makes t t' (es ++ [e])) ∨ (created = false ∧ t' = t) := by
  have hmkdir : mkdirPath t (plain (es ++ [e])) = t.mkdir (es ++ [e]) := by
    rw [mkdirPath, target_plain, if_pos (by rw [hdir]; rfl), Option.bind_some]
  rw [createDirectory, hmkdir] at h
  split at h
  next t₁ hm =>
    cases h
    exact .inl ⟨rfl, Tree.mkdir_some hm⟩
  next =>
    split at h <;> cases h
    exact .inr ⟨rfl, rfl⟩

/-- **`CreateSubdirectory` stays in its folder.** -/
theorem createSubdirectory_makes (hrun : c.status = .running) (hroot : c.root ≠ [])
    (newFolder : List Char) (mkdirFails : Bool) :
    (createSubdirectory c name newFolder mkdirFails).1.tree = c.tree ∨
      ∃ parent, ∃ e : Entry, plain parent = lexical c.root name ∧ e.val = newFolder ∧
        Makes c.tree (createSubdirectory c name newFolder mkdirFails).1.tree (parent ++ [e]) := by
  rw [createSubdirectory]
  cases hparent : validateDirectoryPath c name true with
  | error e => exact .inl rfl
  | ok parent =>
    obtain ⟨hnul, -, -⟩ := (validateDirectoryPath_iff hrun hroot).1 hparent
    obtain ⟨es, hes⟩ := exists_entries c.root hnul
    have hdenotes : Denotes parent (plain es) := by
      rw [hes]
      exact (validateDirectoryPath_exact hrun hroot).2 parent hparent
    dsimp only
    split
    next => exact .inl rfl
    next hempty =>
    split
    next => exact .inl rfl
    next hbad =>
    split
    next => exact .inl rfl
    next =>
    split
    next => exact .inl rfl
    next hdir =>
    split
    next => exact .inl rfl
    next =>
    -- the new folder is an entry
    simp only [not_or] at hbad
    have hordinary : Ordinary newFolder :=
      ⟨hempty, hbad.2.2.2.1, hbad.2.2.2.2, hbad.2.2.1, hbad.1⟩
    rw [hdenotes.weaklyCanonical ⟨newFolder, hordinary⟩]
    split
    next => exact .inl rfl
    next =>
    split
    next => exact .inl rfl
    next =>
    cases mkdirFails with
    | true => exact .inl rfl
    | false =>
      rw [if_neg Bool.false_ne_true]
      cases hcreate :
          createDirectory c.tree (plain (es ++ [⟨newFolder, hordinary⟩])) with
      | none => exact .inl rfl
      | some made =>
        obtain ⟨t, created⟩ := made
        rcases createDirectory_plain (hdenotes.dir (not_not.1 hdir)) hcreate with
          ⟨rfl, hmakes⟩ | ⟨rfl, rfl⟩
        · exact .inr ⟨es, ⟨newFolder, hordinary⟩, hes, rfl, hmakes⟩
        · exact .inl rfl

/-! ## The path check -/

/-- The checks of a name that the kernel takes. -/
theorem exact_iff_of_taken {c : Cache} {name : List Char} (hrun : c.status = .running)
    (hroot : c.root ≠ []) (hname : name ≠ []) (hlong : tooLong c.tree (join c.root name) = false) :
    Exact c name ↔ ¬ Returns c name ∧ ¬ Cut c name := by
  obtain ⟨hdir, hdirPath⟩ := @validateDirectoryPath_exact c name hrun hroot
  rw [and_iff_left (.inr hlong)] at hdir
  rw [← validatePath_exact_iff hrun hroot hname hlong]
  constructor
  · intro h
    exact ⟨h.accepts.trans (and_iff_right hname), h.fullPath⟩
  · rintro ⟨haccepts, hfull⟩
    exact ⟨haccepts.trans (and_iff_right hname).symm, hfull, hdir, hdirPath,
      createSubdirectory_makes hrun hroot⟩

/-- The checks of a name that the kernel refuses: they refuse it too. -/
theorem exact_iff_of_tooLong {c : Cache} {name : List Char} (hrun : c.status = .running)
    (hroot : c.root ≠ []) (hname : name ≠ []) (hlong : tooLong c.tree (join c.root name) = true) :
    Exact c name ↔ ¬ Owed c name := by
  obtain ⟨hdir, hdirPath⟩ := @validateDirectoryPath_exact c name hrun hroot
  have hno : ∀ full, validatePath c name ≠ .ok full := by
    intro full h
    rw [validatePath_iff hrun hroot hname, hlong] at h
    cases h.1
  simp only [hlong, Bool.true_eq_false, or_false, hname, false_or] at hdir
  constructor
  · rintro h (hbelow | ⟨hnul, hslash, hdot, hprefix⟩)
    · obtain ⟨full, hfull⟩ := h.accepts.2 ⟨hname, hbelow⟩
      exact hno full hfull
    · exact hdot (hdir.1 (h.acceptsDirectory.2 ⟨hnul, hslash, hprefix⟩)).2
  · intro hnot
    refine ⟨?_, fun full h => absurd h (hno full), hdir.trans ?_, hdirPath,
      createSubdirectory_makes hrun hroot⟩
    · exact iff_of_false (fun ⟨full, h⟩ => hno full h) fun h => hnot (.inl h.2)
    · refine and_iff_left_of_imp fun ⟨hnul, hslash, hprefix⟩ => ?_
      by_contra hdot
      exact hnot (.inr ⟨hnul, hslash, hdot, hprefix⟩)

/-- **The path check is exact** but for the names that come back to the root over an entry that is
not there, and for those that a NUL cuts; and a name that the kernel takes for too long is refused,
also where it should be accepted. -/
theorem validate_exact_iff {c : Cache} {name : List Char} (hrun : c.status = .running)
    (hroot : c.root ≠ []) :
    Exact c name ↔ name = [] ∨
      (if tooLong c.tree (join c.root name) then ¬ Owed c name
      else ¬ Returns c name ∧ ¬ Cut c name) := by
  by_cases hname : name = []
  · obtain ⟨hdir, hdirPath⟩ := @validateDirectoryPath_exact c name hrun hroot
    rw [and_iff_left (.inl (.inl hname))] at hdir
    refine iff_of_true ⟨?_, ?_, hdir, hdirPath, createSubdirectory_makes hrun hroot⟩ (.inl hname)
    · rw [validatePath, if_pos hname]
      exact iff_of_false (fun ⟨_, h⟩ => by cases h) fun h => h.1 hname
    · intro full h
      rw [validatePath, if_pos hname] at h
      cases h
  · rw [or_iff_right hname]
    cases hlong : tooLong c.tree (join c.root name) with
    | true => exact exact_iff_of_tooLong hrun hroot hname hlong
    | false => exact exact_iff_of_taken hrun hroot hname hlong

end

/-- A cache whose root holds nothing. -/
def bareCache : Cache where
  status := .running
  root := [⟨['r'], by decide⟩]
  tree := (Tree.empty.mkdir [⟨['r'], by decide⟩]).getD Tree.empty
  index := ∅

/-- The name `a` in an empty cache. -/
theorem validate_exact_entry : Exact bareCache ['a'] := by
  refine (validate_exact_iff rfl (List.cons_ne_nil _ _)).2 (.inr ?_)
  rw [if_neg (by decide)]
  refine ⟨?_, ?_⟩
  · rintro ⟨-, -, hdots⟩
    exact absurd hdots (by decide)
  · rintro ⟨hnul, -⟩
    exact absurd hnul (by decide)

/-- The name `x/..` is accepted, and its path is that of the root with a slash behind it. -/
theorem not_validate_exact :
    ¬ ∀ (c : Cache) (name : List Char), c.status = .running → c.root ≠ [] → Exact c name := by
  intro h
  have hexact := h bareCache ['x', '/', '.', '.'] rfl (List.cons_ne_nil _ _)
  have hbelow := hexact.accepts.1 ⟨[['r'], []], by rfl⟩
  exact hbelow.2.2 (by decide)

end MyCache
