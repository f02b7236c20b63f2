import Mathlib.Data.List.DropRight
import Mathlib.Data.List.Infix

/-!
# Trees of files with symbolic links

A file system of directories, files and symbolic links, and the resolution of pathnames in it: a
pathname is a list of pieces between its slashes, and a link is replaced by its target wherever a
lookup goes through it. The calls are those of a user with every permission, and nothing is mounted
inside the tree. A pathname has no bound on its length, and names hold neither a slash nor a NUL.

`walk` is the resolution, `looks` the entries it looks up by name. A tree that has only lost entries
(`Loses`) resolves a pathname as before, or misses one of them (`enter_loses`).
-/

namespace LinkTree

universe u v

/-- What stands between two slashes of a pathname: `.`, `..` or a name. -/
inductive Piece (κ : Type u) where
  | self
  | up
  | name (k : κ)
  deriving DecidableEq

/-- A pathname, by its pieces. -/
structure Path (κ : Type u) where
  /-- The pathname begins with a slash. -/
  absolute : Bool
  pieces : List (Piece κ)
  /-- A slash follows the last piece. -/
  slash : Bool
  deriving DecidableEq

/-- What stands at a location. -/
inductive Node (κ : Type u) (β : Type v) where
  | dir
  | file (content : β)
  | link (target : Path κ)
  deriving DecidableEq

/-- What a call fails with. -/
inductive Errno where
  | noent
  | notdir
  | loop
  | inval
  | notempty
  | busy
  | isdir
  deriving DecidableEq

/-- A tree of directories, files and links. Whatever is there stands in a directory. -/
structure Tree (κ : Type u) (β : Type v) where
  node : List κ → Option (Node κ β)
  /-- The locations that are there, in the order a listing meets them. -/
  paths : List (List κ)
  nodup_paths : paths.Nodup
  mem_paths : ∀ {q}, q ∈ paths ↔ node q ≠ none
  root_dir : node [] = some .dir
  parent_dir : ∀ {q k}, node (q ++ [k]) ≠ none → node q = some .dir

variable {κ : Type u} {β : Type v}

namespace Path

variable (p : Path κ)

/-- The empty string. -/
def isEmpty : Bool := !p.absolute && p.pieces.isEmpty

/-- The pieces as a lookup takes them: a slash at the end asks for a directory, as a `.` does. -/
def toPieces : List (Piece κ) := if p.slash then p.pieces ++ [.self] else p.pieces

/-- Where the resolution begins, from a working directory or from a link's own. -/
def start (cwd : List κ) : List κ := if p.absolute then [] else cwd

/-- The pathname with `/` and a name after it. -/
def child (k : κ) : Path κ := { p with pieces := p.pieces ++ [.name k], slash := false }

/-- The pathname up to its last name or `..`, without slashes and `.` after it. -/
def entry [DecidableEq κ] : Path κ :=
  { p with pieces := p.pieces.rdropWhile fun piece => piece = .self, slash := false }

/-- A name after a pathname is one more piece. -/
@[simp] theorem child_pieces (k : κ) : (p.child k).pieces = p.pieces ++ [.name k] := rfl

/-- And it is the last one. -/
theorem child_getLast? (k : κ) : (p.child k).pieces.getLast? = some (.name k) := by simp

/-- No slash follows it. -/
@[simp] theorem child_slash (k : κ) : (p.child k).slash = false := rfl

/-- The resolution begins where it did without it. -/
@[simp] theorem child_start (k : κ) (cwd : List κ) : (p.child k).start cwd = p.start cwd := rfl

end Path

/-- A location is not below its children. -/
theorem not_concat_below (l : List κ) (k : κ) : ¬ l ++ [k] <+: l := by
  intro h
  have hlen := h.length_le
  rw [List.length_append] at hlen
  exact absurd hlen (Nat.not_succ_le_self _)

/-! ## Resolution -/

/-- The resolution of the pieces from a directory, with so many links left to follow. Without
`follow` a link in the last place is the result itself. -/
def walk (t : Tree κ β) (follow : Bool) (links : Nat) (loc : List κ) :
    List (Piece κ) → Except Errno (List κ × Node κ β)
  | [] => .ok (loc, .dir)
  | .self :: ps => walk t follow links loc ps
  | .up :: ps => walk t follow links loc.dropLast ps
  | .name k :: ps =>
    match t.node (loc ++ [k]) with
    | none => .error .noent
    | some .dir => walk t follow links (loc ++ [k]) ps
    | some (.file b) => if ps.isEmpty then .ok (loc ++ [k], .file b) else .error .notdir
    | some (.link target) =>
      if ps.isEmpty && !follow then .ok (loc ++ [k], .link target)
      else match links with
        | 0 => .error .loop
        | links + 1 => walk t follow links (target.start loc) (target.toPieces ++ ps)
termination_by ps => (links, ps.length)

/-- The locations that are looked up by name when the pieces are resolved, links followed. -/
def looks (t : Tree κ β) (links : Nat) (loc : List κ) : List (Piece κ) → List (List κ)
  | [] => []
  | .self :: ps => looks t links loc ps
  | .up :: ps => looks t links loc.dropLast ps
  | .name k :: ps => (loc ++ [k]) ::
    match t.node (loc ++ [k]) with
    | none => []
    | some .dir => looks t links (loc ++ [k]) ps
    | some (.file _) => []
    | some (.link target) =>
      match links with
      | 0 => []
      | links + 1 => looks t links (target.start loc) (target.toPieces ++ ps)
termination_by ps => (links, ps.length)

/-- The directory that the pieces lead to. -/
def enter (t : Tree κ β) (links : Nat) (loc : List κ) (ps : List (Piece κ)) :
    Except Errno (List κ) :=
  (walk t true links loc (ps ++ [.self])).map Prod.fst

section
variable {t u : Tree κ β} {f : Bool} {links : Nat} {loc l q : List κ} {k : κ} {e : Errno}
  {ps qs : List (Piece κ)}

/-- Without a piece the resolution stays where it is. -/
@[simp] theorem walk_nil : walk t f links loc [] = .ok (loc, .dir) := by rw [walk]

/-- A `.` stays in the directory. -/
@[simp] theorem walk_self : walk t f links loc (.self :: ps) = walk t f links loc ps := by rw [walk]

/-- A `..` goes to the directory above. -/
@[simp] theorem walk_up : walk t f links loc (.up :: ps) = walk t f links loc.dropLast ps := by
  rw [walk]

/-- A name that is not there ends the resolution. -/
theorem walk_noent (h : t.node (loc ++ [k]) = none) :
    walk t f links loc (.name k :: ps) = .error .noent := by
  rw [walk, h]

/-- The name of a directory goes into it. -/
theorem walk_dir (h : t.node (loc ++ [k]) = some .dir) :
    walk t f links loc (.name k :: ps) = walk t f links (loc ++ [k]) ps := by
  rw [walk, h]

/-- An entry in the last place is found, unless it is a link to be followed. -/
theorem walk_name {n : Node κ β} (h : t.node (loc ++ [k]) = some n) :
    walk t false links loc [.name k] = .ok (loc ++ [k], n) := by
  cases n with
  | dir => rw [walk_dir h, walk_nil]
  | file b => simp [walk, h]
  | link target => simp [walk, h]

/-- Without a piece the resolution stays where it is. -/
@[simp] theorem enter_nil : enter t links loc [] = .ok loc := by simp [enter, Except.map]

/-- A `.` stays in the directory. -/
@[simp] theorem enter_self : enter t links loc (.self :: ps) = enter t links loc ps := by
  simp [enter]

/-- A `..` goes to the directory above. -/
@[simp] theorem enter_up : enter t links loc (.up :: ps) = enter t links loc.dropLast ps := by
  simp [enter]

/-- A name that is not there ends the resolution. -/
theorem enter_noent (h : t.node (loc ++ [k]) = none) :
    enter t links loc (.name k :: ps) = .error .noent := by
  simp [enter, walk_noent h, Except.map]

/-- The name of a directory goes into it. -/
theorem enter_dir (h : t.node (loc ++ [k]) = some .dir) :
    enter t links loc (.name k :: ps) = enter t links (loc ++ [k]) ps := by
  simp [enter, walk_dir h]

/-- A link that is not the result is replaced by its target. -/
theorem walk_link {target : Path κ} (h : t.node (loc ++ [k]) = some (.link target))
    (hps : ps ≠ [] ∨ f = true) :
    walk t f (links + 1) loc (.name k :: ps) =
      walk t f links (target.start loc) (target.toPieces ++ ps) := by
  rcases hps with hps | rfl
  · simp [walk, h, hps]
  · simp [walk, h]

/-- A link is not followed when none is left to follow. -/
theorem walk_loop {target : Path κ} (h : t.node (loc ++ [k]) = some (.link target))
    (hps : ps ≠ [] ∨ f = true) : walk t f 0 loc (.name k :: ps) = .error .loop := by
  rcases hps with hps | rfl
  · simp [walk, h, hps]
  · simp [walk, h]

/-- No piece follows the name of a file. -/
theorem walk_file {b : β} (h : t.node (loc ++ [k]) = some (.file b)) (hps : ps ≠ []) :
    walk t f links loc (.name k :: ps) = .error .notdir := by
  simp [walk, h, hps]

/-- Induction on a resolution, one case for each thing a piece can be. -/
@[elab_as_elim]
theorem walk_induction {motive : Nat → List κ → List (Piece κ) → Prop} (t : Tree κ β)
    (nil : ∀ links loc, motive links loc [])
    (self : ∀ links loc ps, motive links loc ps → motive links loc (.self :: ps))
    (up : ∀ links loc ps, motive links loc.dropLast ps → motive links loc (.up :: ps))
    (noent : ∀ links loc k ps, t.node (loc ++ [k]) = none → motive links loc (.name k :: ps))
    (dir : ∀ links loc k ps, t.node (loc ++ [k]) = some .dir → motive links (loc ++ [k]) ps →
      motive links loc (.name k :: ps))
    (file : ∀ links loc k ps b, t.node (loc ++ [k]) = some (.file b) →
      motive links loc (.name k :: ps))
    (loop : ∀ loc k ps target, t.node (loc ++ [k]) = some (.link target) →
      motive 0 loc (.name k :: ps))
    (link : ∀ links loc k ps target, t.node (loc ++ [k]) = some (.link target) →
      motive links (target.start loc) (target.toPieces ++ ps) →
      motive (links + 1) loc (.name k :: ps))
    (links : Nat) (loc : List κ) (ps : List (Piece κ)) : motive links loc ps := by
  fun_induction walk t true links loc ps with
  | case1 links loc => exact nil links loc
  | case2 links loc ps ih => exact self links loc ps ih
  | case3 links loc ps ih => exact up links loc ps ih
  | case4 links loc k ps h => exact noent links loc k ps h
  | case5 links loc k ps h ih => exact dir links loc k ps h ih
  | case6 links loc k ps b h => exact file links loc k ps b h
  | case7 links loc k ps b h => exact file links loc k ps b h
  | case8 links loc k ps target h hlast => simp at hlast
  | case9 loc k ps target h => exact loop loc k ps target h
  | case10 loc k ps target h _ links ih => exact link links loc k ps target h ih

/-- Pieces that lead to a directory are gone through first, and the others from there. -/
theorem walk_append (t : Tree κ β) (links : Nat) (loc : List κ) (ps : List (Piece κ)) :
    (∃ left l, enter t links loc ps = .ok l ∧ ∀ qs,
      looks t links loc (ps ++ qs) = looks t links loc ps ++ looks t left l qs ∧
        (qs ≠ [] → ∀ f, walk t f links loc (ps ++ qs) = walk t f left l qs)) ∨
    ∃ e, enter t links loc ps = .error e ∧
      ∀ qs, qs ≠ [] → ∀ f, walk t f links loc (ps ++ qs) = .error e := by
  induction links, loc, ps using walk_induction t with
  | nil links loc => exact .inl ⟨links, loc, enter_nil, fun qs => by simp [looks]⟩
  | self links loc ps ih => simpa [looks] using ih
  | up links loc ps ih => simpa [looks] using ih
  | noent links loc k ps h =>
    exact .inr ⟨.noent, enter_noent h, fun qs _ f => walk_noent h⟩
  | dir links loc k ps h ih => simpa [looks, h, enter_dir, walk_dir] using ih
  | file links loc k ps b h =>
    refine .inr ⟨.notdir, by simp [enter, walk_file h, Except.map], fun qs hqs f => ?_⟩
    exact walk_file h (by simp [hqs])
  | loop loc k ps target h =>
    refine .inr ⟨.loop, by simp [enter, walk_loop h, Except.map], fun qs hqs f => ?_⟩
    exact walk_loop h (.inl (by simp [hqs]))
  | link links loc k ps target h ih =>
    simp only [enter, List.cons_append, looks, h, walk_link h (.inr rfl)]
    rcases ih with ⟨left, l, hl, ih⟩ | ⟨e, he, ih⟩
    · refine .inl ⟨left, l, by simpa [enter] using hl, fun qs => ?_⟩
      refine ⟨by simpa using (ih qs).1, fun hqs f => ?_⟩
      rw [walk_link h (.inl (by simp [hqs])), ← List.append_assoc]
      exact (ih qs).2 hqs f
    · refine .inr ⟨e, by simpa [enter] using he, fun qs hqs f => ?_⟩
      rw [walk_link h (.inl (by simp [hqs])), ← List.append_assoc]
      exact ih qs hqs f

/-- A slash at the end of a directory makes no difference. -/
theorem enter_slash : enter t links loc (ps ++ [.self]) = enter t links loc ps := by
  rcases walk_append t links loc ps with ⟨left, l, hl, h⟩ | ⟨e, he, h⟩
  · rw [hl, enter, List.append_assoc, (h _).2 (by simp)]
    simp [Except.map]
  · rw [he, enter, List.append_assoc, h _ (by simp)]
    rfl

/-- A slash at the end makes the result a directory. -/
theorem walk_slash {n : Node κ β} (h : walk t f links loc (ps ++ [.self]) = .ok (l, n)) :
    n = .dir := by
  rcases walk_append t links loc ps with ⟨left, m, -, hm⟩ | ⟨e, -, he⟩
  · rw [(hm _).2 (by simp), walk_self, walk_nil] at h
    cases h
    rfl
  · cases (he _ (by simp) f).symm.trans h

/-- A resolution whose result is no link does not depend on whether links in the last place are
followed. -/
theorem walk_follow (h : ∀ q target, walk t false links loc ps ≠ .ok (q, .link target)) :
    walk t true links loc ps = walk t false links loc ps := by
  induction links, loc, ps using walk_induction t with
  | nil links loc => simp
  | self links loc ps ih => simpa using ih (by simpa using h)
  | up links loc ps ih => simpa using ih (by simpa using h)
  | noent links loc k ps hk => rw [walk_noent hk, walk_noent hk]
  | dir links loc k ps hk ih =>
    rw [walk_dir hk] at h ⊢
    exact (ih h).trans (walk_dir hk).symm
  | file links loc k ps b hk => simp [walk, hk]
  | loop loc k ps target hk =>
    have hps : ps ≠ [] := by
      rintro rfl
      exact h _ _ (walk_name hk)
    rw [walk_loop hk (.inl hps), walk_loop hk (.inl hps)]
  | link links loc k ps target hk ih =>
    have hps : ps ≠ [] := by
      rintro rfl
      exact h _ _ (walk_name hk)
    rw [walk_link hk (.inl hps)] at h ⊢
    rw [walk_link hk (.inl hps), ih h]

/-- What is resolved to a directory leads to it. -/
theorem enter_of_walk (h : walk t f links loc ps = .ok (l, .dir)) :
    enter t links loc ps = .ok l := by
  induction links, loc, ps using walk_induction t with
  | nil links loc => simpa using h
  | self links loc ps ih => simpa using ih (by simpa using h)
  | up links loc ps ih => simpa using ih (by simpa using h)
  | noent links loc k ps hk => cases (walk_noent hk).symm.trans h
  | dir links loc k ps hk ih => exact (enter_dir hk).trans (ih ((walk_dir hk).symm.trans h))
  | file links loc k ps b hk =>
    simp only [walk, hk] at h
    split at h <;> cases h
  | loop loc k ps target hk =>
    simp only [walk, hk] at h
    split at h <;> cases h
  | link links loc k ps target hk ih =>
    have hps : ps ≠ [] ∨ f = true := by
      by_contra! hps
      simp [walk, hk, hps] at h
    rw [walk_link hk hps] at h
    simpa [enter, walk_link hk] using ih h

/-- The entries on the way to a directory are there. -/
theorem looks_exist (h : enter t links loc ps = .ok l) :
    ∀ q ∈ looks t links loc ps, t.node q ≠ none := by
  induction links, loc, ps using walk_induction t with
  | nil links loc => simp [looks]
  | self links loc ps ih => simpa [looks] using ih (by simpa using h)
  | up links loc ps ih => simpa [looks] using ih (by simpa using h)
  | noent links loc k ps hk => cases (enter_noent hk).symm.trans h
  | dir links loc k ps hk ih => simpa [looks, hk] using ih ((enter_dir hk).symm.trans h)
  | file links loc k ps b hk => simp [looks, hk]
  | loop loc k ps target hk => simp [looks, hk]
  | link links loc k ps target hk ih =>
    simpa [looks, hk] using ih (by simpa [enter, walk_link hk] using h)

/-- A slash at the end looks nothing up. -/
@[simp] theorem looks_self : looks t links loc (ps ++ [.self]) = looks t links loc ps := by
  induction links, loc, ps using walk_induction t with
  | nil links loc => simp [looks]
  | self links loc ps ih => simpa [looks] using ih
  | up links loc ps ih => simpa [looks] using ih
  | noent links loc k ps hk => simp [looks, hk]
  | dir links loc k ps hk ih => simpa [looks, hk] using ih
  | file links loc k ps b hk => simp [looks, hk]
  | loop loc k ps target hk => simp [looks, hk]
  | link links loc k ps target hk ih => simpa [looks, hk] using ih

/-! ## Resolution in another tree -/

/-- A resolution depends on the entries it looks up alone. -/
theorem walk_congr (h : ∀ q ∈ looks t links loc ps, u.node q = t.node q) :
    walk u f links loc ps = walk t f links loc ps ∧
      looks u links loc ps = looks t links loc ps := by
  induction links, loc, ps using walk_induction t with
  | nil links loc => simp [looks]
  | self links loc ps ih => simpa [looks] using ih (by simpa [looks] using h)
  | up links loc ps ih => simpa [looks] using ih (by simpa [looks] using h)
  | noent links loc k ps hk =>
    have hu := (h (loc ++ [k]) (by simp [looks])).trans hk
    simp [walk, looks, hk, hu]
  | dir links loc k ps hk ih =>
    have hu := (h (loc ++ [k]) (by simp [looks])).trans hk
    rw [walk_dir hk, walk_dir hu]
    have := ih fun q hq => h q (by simp [looks, hk, hq])
    simpa [looks, hk, hu] using this
  | file links loc k ps b hk =>
    have hu := (h (loc ++ [k]) (by simp [looks])).trans hk
    simp [walk, looks, hk, hu]
  | loop loc k ps target hk =>
    have hu := (h (loc ++ [k]) (by simp [looks])).trans hk
    simp [walk, looks, hk, hu]
  | link links loc k ps target hk ih =>
    have hu := (h (loc ++ [k]) (by simp [looks])).trans hk
    have hrec := ih fun q hq => h q (by simp [looks, hk, hq])
    rw [walk, walk]
    simp [looks, hk, hu, hrec]

/-- The resolution depends on the locations that it looks up, and on no others. -/
theorem enter_congr (h : ∀ q ∈ looks t links loc ps, u.node q = t.node q) :
    enter u links loc ps = enter t links loc ps := by
  rw [enter, enter, (walk_congr (by rwa [looks_self])).1]

/-- The second tree is the first one without some of what stands at the location or below it. -/
def Loses (l : List κ) (t u : Tree κ β) : Prop :=
  ∀ q, u.node q = t.node q ∨ l <+: q ∧ u.node q = none

/-- A tree that stays has lost nothing. -/
theorem Loses.refl (l : List κ) (t : Tree κ β) : Loses l t t := fun _ => .inl rfl

/-- What is lost in two steps is lost over both. -/
theorem Loses.trans {v : Tree κ β} (h : Loses l t u) (h' : Loses l u v) : Loses l t v := by
  intro q
  rcases h' q with hq | hq
  · rcases h q with hq' | ⟨hl, hn⟩
    · exact .inl (hq.trans hq')
    · exact .inr ⟨hl, hq.trans hn⟩
  · exact .inr hq

/-- What is lost below a location is lost below one above it. -/
theorem Loses.mono {m : List κ} (h : Loses m t u) (hm : l <+: m) : Loses l t u :=
  fun q => (h q).imp_right fun hq => ⟨hm.trans hq.1, hq.2⟩

/-- What is still there is what it was. -/
theorem Loses.ne_none (h : Loses l t u) (hq : u.node q ≠ none) : u.node q = t.node q :=
  (h q).resolve_right fun hn => hq hn.2

/-- A tree that lost entries resolves a pathname as before, or one of them is missing. -/
theorem enter_loses (h : Loses l t u) :
    (∀ q ∈ looks t links loc ps, u.node q = t.node q) ∨ enter u links loc ps = .error .noent := by
  induction links, loc, ps using walk_induction t with
  | nil links loc => simp [looks]
  | self links loc ps ih => simpa [looks] using ih
  | up links loc ps ih => simpa [looks] using ih
  | noent links loc k ps hk =>
    rcases h (loc ++ [k]) with hu | hu
    · simp [looks, hk, hu]
    · exact .inr (enter_noent hu.2)
  | dir links loc k ps hk ih =>
    rcases h (loc ++ [k]) with hu | hu
    · simpa [looks, hk, hu, enter_dir (hu.trans hk)] using ih
    · exact .inr (enter_noent hu.2)
  | file links loc k ps b hk =>
    rcases h (loc ++ [k]) with hu | hu
    · simp [looks, hk, hu]
    · exact .inr (enter_noent hu.2)
  | loop loc k ps target hk =>
    rcases h (loc ++ [k]) with hu | hu
    · simp [looks, hk, hu]
    · exact .inr (enter_noent hu.2)
  | link links loc k ps target hk ih =>
    rcases h (loc ++ [k]) with hu | hu
    · simpa [looks, hk, hu, enter, walk_link (hu.trans hk)] using ih
    · exact .inr (enter_noent hu.2)

end

namespace Tree

/-! ## What stands in a directory, and what is taken away -/

section
variable (t : Tree κ β) {u : Tree κ β} {q l : List κ} {k : κ}

/-- What has something below it is a directory. -/
theorem dir_of_child_prefix {ks : List κ} (h : t.node (q ++ ks) ≠ none) (hks : ks ≠ []) :
    t.node q = some .dir := by
  induction ks using List.reverseRecOn with
  | nil => exact absurd rfl hks
  | append_singleton ks k ih =>
    have hdir : t.node (q ++ ks) = some .dir := by
      rw [← List.append_assoc] at h
      exact t.parent_dir h
    rcases eq_or_ne ks [] with rfl | hne
    · simpa using hdir
    · exact ih (by simp [hdir]) hne

/-- Nothing stands below a link. -/
theorem eq_of_link {target : Path κ} (hl : t.node l = some (.link target)) (hq : t.node q ≠ none)
    (h : l <+: q) : q = l := by
  obtain ⟨ks, rfl⟩ := h
  by_contra hne
  cases hl.symm.trans (t.dir_of_child_prefix hq (by simpa using hne))

/-- What stands below a location stands at or below one of its entries. -/
theorem child_of_below (h : t.node q ≠ none) (hl : l <+: q) (hne : q ≠ l) :
    ∃ k, l ++ [k] <+: q ∧ t.node (l ++ [k]) ≠ none := by
  obtain ⟨ks, rfl⟩ := hl
  cases ks with
  | nil => simp at hne
  | cons k ks =>
    refine ⟨k, ⟨ks, by simp⟩, ?_⟩
    rcases eq_or_ne ks [] with rfl | hks
    · exact h
    · have hdir : t.node (l ++ [k]) = some .dir := t.dir_of_child_prefix (by simpa using h) hks
      simp [hdir]

/-- The length of the longest location. -/
def depth : Nat := (t.paths.map List.length).foldr max 0

/-- No location is longer than the tree is deep. -/
theorem length_le_depth (h : t.node q ≠ none) : q.length ≤ t.depth := by
  have hq : q.length ∈ t.paths.map List.length := List.mem_map_of_mem (t.mem_paths.2 h)
  unfold depth
  generalize t.paths.map List.length = ns at hq
  induction ns with
  | nil => cases hq
  | cons n ns ih =>
    rw [List.foldr_cons]
    rcases List.mem_cons.1 hq with hn | hn
    · exact hn.le.trans (le_max_left n _)
    · exact (ih hn).trans (le_max_right n _)

variable [DecidableEq κ]

/-- The names in a directory. -/
def children (q : List κ) : List κ :=
  t.paths.filterMap fun p => if p.dropLast = q then p.getLast? else none

/-- The children of a directory are the names that are there. -/
theorem mem_children : k ∈ t.children q ↔ t.node (q ++ [k]) ≠ none := by
  rw [children, List.mem_filterMap, ← t.mem_paths]
  constructor
  · rintro ⟨p, hp, hk⟩
    split at hk
    · rename_i hq
      rwa [← hq, List.dropLast_append_getLast? k hk]
    · cases hk
  · intro h
    exact ⟨q ++ [k], h, by simp⟩

/-- A directory without children is empty. -/
theorem children_eq_nil : t.children q = [] ↔ ∀ k, t.node (q ++ [k]) = none := by
  simp [List.eq_nil_iff_forall_not_mem, mem_children]

/-- The tree without what a set of locations holds, when that is closed downwards. -/
def without (gone : List κ → Bool) (root : gone [] = false)
    (closed : ∀ q k, gone q = true → gone (q ++ [k]) = true) : Tree κ β where
  node q := if gone q then none else t.node q
  paths := t.paths.filter fun q => !gone q
  nodup_paths := t.nodup_paths.filter _
  mem_paths {q} := by
    rw [List.mem_filter, t.mem_paths]
    cases gone q <;> simp
  root_dir := by simp [root, t.root_dir]
  parent_dir {q k} h := by
    cases hq : gone q with
    | true => simp [closed q k hq] at h
    | false =>
      split at h
      · exact absurd rfl h
      · simpa using t.parent_dir h

/-- An entry is taken away, with everything below it. -/
def prune (q : List κ) (k : κ) : Tree κ β :=
  t.without (fun p => decide (q ++ [k] <+: p)) (by simp) fun p j h => by
    simp only [decide_eq_true_eq] at h ⊢
    exact h.trans (List.prefix_append p [j])

/-- Everything below a location is taken away. -/
def clear (q : List κ) : Tree κ β :=
  t.without (fun p => decide (q <+: p ∧ p ≠ q)) (by simp) fun p j h => by
    simp only [decide_eq_true_eq] at h ⊢
    exact ⟨h.1.trans (List.prefix_append p [j]), fun he => not_concat_below p j (he ▸ h.1)⟩

/-- What stands where, after an entry is taken away. -/
theorem prune_node (p : List κ) :
    (t.prune q k).node p = if q ++ [k] <+: p then none else t.node p := by
  simp [prune, without]

/-- What stands where, after a directory is cleared. -/
theorem clear_node (p : List κ) :
    (t.clear q).node p = if q <+: p ∧ p ≠ q then none else t.node p := by
  simp only [clear, without, decide_eq_true_eq]

/-- Taking an entry away loses what is there and below it. -/
theorem loses_prune : Loses (q ++ [k]) t (t.prune q k) := by
  intro p
  rw [prune_node]
  split
  · exact .inr ⟨‹_›, rfl⟩
  · exact .inl rfl

/-- Clearing a directory loses what is below it. -/
theorem loses_clear : Loses q t (t.clear q) := by
  intro p
  rw [clear_node]
  split
  · rename_i hp
    exact .inr ⟨hp.1, rfl⟩
  · exact .inl rfl

/-- Taking away what is not there changes nothing. -/
theorem prune_absent (h : t.node (q ++ [k]) = none) (p : List κ) :
    (t.prune q k).node p = t.node p := by
  rw [prune_node, ite_eq_right_iff]
  rintro ⟨ks, rfl⟩
  by_contra hp
  rcases eq_or_ne ks [] with rfl | hks
  · exact hp (by simpa using h.symm)
  · cases h.symm.trans (t.dir_of_child_prefix (Ne.symm hp) hks)

end

end Tree

end LinkTree
