import FastCppServer.Lib.LinkTree

/-!
# Calls on a tree with symbolic links

`lstat`, `stat`, `opendir`, `rmdir` and `unlink` of one process, and what `std::filesystem` makes of
them. A call that fails is its error and leaves the tree alone. Each call has a lemma for a name
after a pathname that leads to a directory (`lstat_child`, `unlink_child`, `rmdir_of_name`), and
`last_piece` takes any pathname apart at its last piece.
-/

namespace LinkTree

universe u v

variable {κ : Type u} {β : Type v}

namespace Tree

section
variable (t : Tree κ β) (cwd : List κ) (path : Path κ)

/-- The links that one resolution may go through. -/
def maxLinks : Nat := 40

/-- `lstat`. -/
def lstat : Except Errno (List κ × Node κ β) :=
  walk t false maxLinks (path.start cwd) path.toPieces

/-- `stat`, which follows a link in the last place. -/
def stat : Except Errno (List κ × Node κ β) :=
  walk t true maxLinks (path.start cwd) path.toPieces

/-- The directory that the whole pathname leads to. -/
def leads : Except Errno (List κ) := enter t maxLinks (path.start cwd) path.pieces

/-- The entries that are looked up on the way there. -/
def through : List (List κ) := looks t maxLinks (path.start cwd) path.pieces

/-- The directory that the pathname without its last piece leads to. -/
def parent : Except Errno (List κ) := enter t maxLinks (path.start cwd) path.pieces.dropLast

variable [DecidableEq κ]

/-- `opendir`, and `readdir` to the end, without `.` and `..`. -/
def list : Except Errno (List κ) :=
  match t.stat cwd path with
  | .error e => .error e
  | .ok (q, .dir) => .ok (t.children q)
  | .ok _ => .error .notdir

/-- `rmdir`. -/
def rmdir : Except Errno (Tree κ β) :=
  match path.pieces.getLast? with
  | none => .error .busy
  | some last =>
    match t.parent cwd path with
    | .error e => .error e
    | .ok q =>
      match last with
      | .self => .error .inval
      | .up => .error .notempty
      | .name k =>
        match t.node (q ++ [k]) with
        | none => .error .noent
        | some .dir =>
          if t.children (q ++ [k]) = [] then .ok (t.prune q k) else .error .notempty
        | some _ => .error .notdir

/-- `unlink`. -/
def unlink : Except Errno (Tree κ β) :=
  match path.pieces.getLast? with
  | none => .error .isdir
  | some last =>
    match t.parent cwd path with
    | .error e => .error e
    | .ok q =>
      match last with
      | .name k =>
        match t.node (q ++ [k]) with
        | none => .error .noent
        | some .dir => .error .isdir
        | some _ => if path.slash then .error .notdir else .ok (t.prune q k)
      | _ => .error .isdir

/-- The library's `remove`: an entry that `unlink` finds to be a directory goes to `rmdir`. -/
def remove : Except Errno (Tree κ β) :=
  match t.unlink cwd path with
  | .error .isdir => t.rmdir cwd path
  | r => r

/-- `std::filesystem::exists`: that nothing is found is no error. -/
def present : Except Errno Bool :=
  match t.stat cwd path with
  | .error e => if e = .noent ∨ e = .notdir then .ok false else .error e
  | .ok _ => .ok true

/-- `std::filesystem::is_directory`. -/
def isDirectory : Bool :=
  match t.stat cwd path with
  | .ok (_, .dir) => true
  | _ => false

/-- `std::filesystem::remove_all`: the contents of what is there go first, links are not followed,
and then `remove` is called on the pathname, where a missing entry is no error. The tree stands as
it was left also when an error is reported. -/
def removeAll : Option Errno × Tree κ β :=
  match t.lstat cwd path with
  | .error e => if e = .noent ∨ e = .notdir then (none, t) else (some e, t)
  | .ok found =>
    let cleared :=
      match found with
      | (q, .dir) => t.clear q
      | _ => t
    match cleared.remove cwd path with
    | .ok left => (none, left)
    | .error .noent => (none, cleared)
    | .error e => (some e, cleared)

end

section
variable {t u : Tree κ β} {cwd q l : List κ} {path : Path κ} {k : κ} {e : Errno} {last : Piece κ}

/-- The way through the last piece, once the pieces before it are gone through. -/
theorem last_piece (hlast : path.pieces.getLast? = some last) (hp : t.parent cwd path = .ok q) :
    ∃ left, t.lstat cwd path =
        walk t false left q (last :: if path.slash then [.self] else []) ∧
      t.leads cwd path = enter t left q [last] ∧
      t.through cwd path =
        looks t maxLinks (path.start cwd) path.pieces.dropLast ++ looks t left q [last] := by
  have hpieces : path.pieces = path.pieces.dropLast ++ [last] :=
    (List.dropLast_append_getLast? last hlast).symm
  rcases walk_append t maxLinks (path.start cwd) path.pieces.dropLast with
    ⟨left, q', hq, h⟩ | ⟨e, he, -⟩
  · cases hq.symm.trans hp
    refine ⟨left, ?_, ?_, ?_⟩
    · rw [lstat, Path.toPieces, hpieces, ← (h _).2 (by simp)]
      split <;> simp
    · rw [leads, hpieces, enter, enter, List.append_assoc, (h _).2 (by simp)]
    · rw [through, ← (h [last]).1, ← hpieces]
  · cases he.symm.trans hp

/-- Where the directory above cannot be found nothing below it can. -/
theorem parent_error (hlast : path.pieces.getLast? = some last)
    (hp : t.parent cwd path = .error e) :
    t.lstat cwd path = .error e ∧ t.leads cwd path = .error e := by
  have hpieces : path.pieces = path.pieces.dropLast ++ [last] :=
    (List.dropLast_append_getLast? last hlast).symm
  rcases walk_append t maxLinks (path.start cwd) path.pieces.dropLast with
    ⟨left, q', hq, -⟩ | ⟨e', he, h⟩
  · cases hq.symm.trans hp
  · cases he.symm.trans hp
    rw [lstat, leads, enter, Path.toPieces, hpieces, List.append_assoc, h _ (by simp)]
    refine ⟨?_, rfl⟩
    split <;> exact h _ (by simp) _

/-- What the last piece is where `lstat` finds a directory. -/
theorem lstat_dir_cases (h : t.lstat cwd path = .ok (l, .dir)) :
    path.pieces.getLast? = none ∨ ∃ q, t.parent cwd path = .ok q ∧
      (path.pieces.getLast? = some .self ∨ path.pieces.getLast? = some .up ∨
        ∃ k, path.pieces.getLast? = some (.name k) ∧
          (t.node (q ++ [k]) = some .dir ∧ l = q ++ [k] ∨
            ∃ target, t.node (q ++ [k]) = some (.link target) ∧ path.slash = true)) := by
  cases hlast : path.pieces.getLast? with
  | none => exact .inl rfl
  | some last =>
    cases hp : t.parent cwd path with
    | error e => cases (parent_error hlast hp).1.symm.trans h
    | ok q =>
      refine .inr ⟨q, rfl, ?_⟩
      obtain ⟨left, hl, -, -⟩ := last_piece hlast hp
      rw [hl] at h
      cases last with
      | self => exact .inl rfl
      | up => exact .inr (.inl rfl)
      | name k =>
        refine .inr (.inr ⟨k, rfl, ?_⟩)
        cases hn : t.node (q ++ [k]) with
        | none => cases (walk_noent hn).symm.trans h
        | some n =>
          cases hslash : path.slash with
          | false =>
            simp only [hslash] at h
            cases (walk_name hn).symm.trans h
            exact .inl ⟨rfl, rfl⟩
          | true =>
            simp only [hslash] at h
            cases n with
            | dir =>
              rw [walk_dir hn] at h
              simp at h
              exact .inl ⟨rfl, h.symm⟩
            | file b => cases (walk_file hn (by simp)).symm.trans h
            | link target => exact .inr ⟨target, rfl, rfl⟩

/-- What is found to be a directory is where the pathname leads. -/
theorem leads_of_lstat (h : t.lstat cwd path = .ok (l, .dir)) : t.leads cwd path = .ok l := by
  rw [lstat, Path.toPieces] at h
  split at h
  · exact enter_slash.symm.trans (enter_of_walk h)
  · exact enter_of_walk h

/-- What is no link is the same with links followed. -/
theorem stat_of_lstat (h : ∀ q target, t.lstat cwd path ≠ .ok (q, .link target)) :
    t.stat cwd path = t.lstat cwd path :=
  walk_follow h

/-- `lstat` depends on the entries that are looked up on the way. -/
theorem lstat_congr (h : ∀ q ∈ t.through cwd path, u.node q = t.node q) :
    u.lstat cwd path = t.lstat cwd path := by
  refine (walk_congr fun q hq => h q ?_).1
  rw [Path.toPieces] at hq
  split at hq
  · rwa [looks_self] at hq
  · exact hq

/-- Of a directory `stat` says what `lstat` says. -/
theorem stat_of_dir (h : t.lstat cwd path = .ok (l, .dir)) : t.stat cwd path = .ok (l, .dir) := by
  rw [stat_of_lstat fun q target hq => ?_, h]
  cases h.symm.trans hq

/-- What is found to be a directory can be listed. -/
theorem list_of_lstat [DecidableEq κ] (h : t.lstat cwd path = .ok (l, .dir)) :
    t.list cwd path = .ok (t.children l) := by
  simp [list, stat_of_dir h]

/-- Where a pathname leads depends on the entries on the way. -/
theorem leads_congr (h : ∀ q ∈ t.through cwd path, u.node q = t.node q) :
    u.leads cwd path = t.leads cwd path :=
  enter_congr h

/-- When something is lost a pathname still leads where it did, or nowhere. -/
theorem leads_loses (cwd : List κ) (path : Path κ) (h : Loses l t u) :
    (∀ b ∈ t.through cwd path, u.node b = t.node b) ∨ u.leads cwd path = .error .noent :=
  enter_loses h

/-- And so does the one of the directory above. -/
theorem parent_loses (cwd : List κ) (path : Path κ) (h : Loses l t u) :
    (∀ b ∈ looks t maxLinks (path.start cwd) path.pieces.dropLast, u.node b = t.node b) ∨
      u.parent cwd path = .error .noent :=
  enter_loses h

/-- The entries on the way depend on themselves only. -/
theorem through_congr (h : ∀ q ∈ t.through cwd path, u.node q = t.node q) :
    u.through cwd path = t.through cwd path :=
  (walk_congr (f := true) h).2

/-! ## A name after a pathname that leads to a directory -/

/-- The directory above a child is where the pathname leads. -/
theorem parent_child : t.parent cwd (path.child k) = t.leads cwd path := by
  simp [parent, leads]

/-- Where the pathname does not lead anywhere no child can be found. -/
theorem lstat_child_error (h : t.leads cwd path = .error e) :
    t.lstat cwd (path.child k) = .error e :=
  (parent_error (path.child_getLast? k) (parent_child.trans h)).1

/-- What stands at a child. -/
theorem lstat_child (h : t.leads cwd path = .ok l) :
    t.lstat cwd (path.child k) =
      match t.node (l ++ [k]) with
      | none => .error .noent
      | some n => .ok (l ++ [k], n) := by
  obtain ⟨left, hl, -, -⟩ := last_piece (path.child_getLast? k) (parent_child.trans h)
  rw [hl]
  cases hn : t.node (l ++ [k]) with
  | none => exact walk_noent hn
  | some n => exact walk_name hn

/-- A child that is a directory is where its pathname leads. -/
theorem leads_child (h : t.leads cwd path = .ok l) (hk : t.node (l ++ [k]) = some .dir) :
    t.leads cwd (path.child k) = .ok (l ++ [k]) := by
  obtain ⟨left, -, hl, -⟩ := last_piece (path.child_getLast? k) (parent_child.trans h)
  rw [hl, enter_dir hk, enter_nil]

/-- The way to a child goes through the child itself. -/
theorem through_child (h : t.leads cwd path = .ok l) (hk : t.node (l ++ [k]) = some .dir) :
    t.through cwd (path.child k) = t.through cwd path ++ [l ++ [k]] := by
  obtain ⟨left, -, -, hl⟩ := last_piece (path.child_getLast? k) (parent_child.trans h)
  rw [hl]
  simp [through, looks, hk]

variable [DecidableEq κ]

/-- What `rmdir` takes away is a directory without entries, named by the last piece. -/
theorem rmdir_ok (h : t.rmdir cwd path = .ok u) :
    ∃ q k, path.pieces.getLast? = some (.name k) ∧ t.parent cwd path = .ok q ∧
      t.node (q ++ [k]) = some .dir ∧ t.children (q ++ [k]) = [] ∧ u = t.prune q k := by
  unfold rmdir at h
  split at h
  · cases h
  · rename_i last hlast
    split at h
    · cases h
    · rename_i q hq
      split at h
      · cases h
      · cases h
      · rename_i k
        split at h
        · cases h
        · rename_i hdir
          split at h
          · rename_i hempty
            cases h
            exact ⟨q, k, hlast, hq, hdir, hempty, rfl⟩
          · cases h
        · cases h

/-- Taking away `/` and `.` at the end of a pathname does not change where it leads. -/
theorem leads_entry : t.leads cwd path.entry = t.leads cwd path ∧
    t.through cwd path.entry = t.through cwd path := by
  have hstart : path.entry.start cwd = path.start cwd := rfl
  simp only [leads, through, hstart]
  simp only [Path.entry]
  induction path.pieces using List.reverseRecOn with
  | nil => simp
  | append_singleton ps piece ih =>
    by_cases hself : piece = .self
    · subst hself
      rw [List.rdropWhile_concat_pos _ _ _ (by simp), enter_slash, looks_self]
      exact ih
    · rw [List.rdropWhile_concat_neg _ _ _ (by simpa using hself)]
      exact ⟨rfl, rfl⟩

/-- A pathname that ends in a name has nothing taken off. -/
theorem entry_pieces (hlast : path.pieces.getLast? = some (.name k)) :
    path.entry.pieces = path.pieces := by
  refine List.rdropWhile_eq_self_iff.2 fun hne => ?_
  rw [List.getLast?_eq_some_getLast hne, Option.some_inj] at hlast
  simp [hlast]

/-- What stands at the last name of a pathname. -/
theorem lstat_entry_name {n : Node κ β} (hlast : path.pieces.getLast? = some (.name k))
    (hp : t.parent cwd path = .ok q) (hn : t.node (q ++ [k]) = some n) :
    t.lstat cwd path.entry = .ok (q ++ [k], n) := by
  have hpieces := entry_pieces hlast
  have hp' : t.parent cwd path.entry = .ok q := by
    rw [parent, hpieces]
    exact hp
  obtain ⟨left, hl, -, -⟩ := last_piece (hpieces ▸ hlast) hp'
  exact hl.trans (walk_name hn)

/-- The entry of a pathname that leads to a directory is that directory, or a link on the way. -/
theorem lstat_entry (h : t.leads cwd path = .ok l) :
    t.lstat cwd path.entry = .ok (l, .dir) ∨
      ∃ q target, t.lstat cwd path.entry = .ok (q, .link target) ∧
        t.node q = some (.link target) ∧ q ∈ t.through cwd path := by
  rw [← leads_entry.1] at h
  rw [← leads_entry.2]
  have hslash : path.entry.slash = false := rfl
  cases hlast : path.entry.pieces.getLast? with
  | none =>
    rw [List.getLast?_eq_none_iff] at hlast
    simpa [lstat, leads, Path.toPieces, hlast, hslash] using h
  | some last =>
    cases hp : t.parent cwd path.entry with
    | error e => cases (parent_error hlast hp).2.symm.trans h
    | ok q =>
      obtain ⟨left, hl, hle, hth⟩ := last_piece hlast hp
      rw [hle] at h
      simp only [hslash] at hl
      cases last with
      | self =>
        have hne : path.entry.pieces ≠ [] := by
          rintro hnil
          simp [hnil] at hlast
        have := List.rdropWhile_last_not _ _ hne
        rw [List.getLast?_eq_some_getLast hne, Option.some_inj] at hlast
        exact absurd (decide_eq_true hlast) this
      | up =>
        left
        simpa [hl] using h
      | name k =>
        cases hn : t.node (q ++ [k]) with
        | none => cases (enter_noent hn).symm.trans h
        | some n =>
          have hl' : t.lstat cwd path.entry = .ok (q ++ [k], n) := hl.trans (walk_name hn)
          cases n with
          | dir =>
            rw [enter_dir hn, enter_nil] at h
            cases h
            exact .inl hl'
          | file b => simp [enter, walk_file hn, Except.map] at h
          | link target =>
            refine .inr ⟨q ++ [k], target, hl', hn, ?_⟩
            rw [hth]
            simp [looks]

/-- A child that is no directory is unlinked. -/
theorem unlink_child {n : Node κ β} (h : t.leads cwd path = .ok l)
    (hn : t.node (l ++ [k]) = some n) (hdir : n ≠ .dir) :
    t.unlink cwd (path.child k) = .ok (t.prune l k) := by
  cases n with
  | dir => exact absurd rfl hdir
  | file b => simp [unlink, parent_child, h, hn]
  | link target => simp [unlink, parent_child, h, hn]

/-- An empty directory is removed. -/
theorem rmdir_of_name (hlast : path.pieces.getLast? = some (.name k))
    (hp : t.parent cwd path = .ok q) (hdir : t.node (q ++ [k]) = some .dir)
    (hempty : t.children (q ++ [k]) = []) : t.rmdir cwd path = .ok (t.prune q k) := by
  simp [rmdir, hlast, hp, hdir, hempty]

/-- A directory that lost entries goes in the end where the pathname led before. -/
theorem rmdir_of_loses (ht : Loses q t u) (hl : t.leads cwd path = .ok l) {left : Tree κ β}
    (h : u.rmdir cwd path = .ok left) :
    ∃ m k, l = m ++ [k] ∧ t.lstat cwd path.entry = .ok (l, .dir) ∧ u.children l = [] ∧
      left = u.prune m k ∧ ∀ b ∈ t.through cwd path, u.node b = t.node b := by
  obtain ⟨m, k, hlast, hp, hdir, hempty, rfl⟩ := rmdir_ok h
  have hkeep : ∀ b ∈ looks t maxLinks (path.start cwd) path.pieces.dropLast,
      u.node b = t.node b := by
    refine (parent_loses cwd path ht).resolve_right fun hno => ?_
    cases hno.symm.trans hp
  have hpt : t.parent cwd path = .ok m := (enter_congr hkeep).symm.trans hp
  have hdt : u.node (m ++ [k]) = t.node (m ++ [k]) := ht.ne_none (by simp [hdir])
  obtain ⟨left, -, hle, hth⟩ := last_piece hlast hpt
  rw [enter_dir (hdt.symm.trans hdir), enter_nil, hl] at hle
  cases hle
  refine ⟨m, k, rfl, lstat_entry_name hlast hpt (hdt.symm.trans hdir), hempty, rfl,
    fun b hb => ?_⟩
  rw [hth, List.mem_append] at hb
  rcases hb with hb | hb
  · exact hkeep b hb
  · simp [looks, hdt.symm.trans hdir] at hb
    exact hb ▸ hdt

/-- After `rmdir` nothing is found. -/
theorem rmdir_gone (h : t.rmdir cwd path = .ok u) : u.lstat cwd path = .error .noent := by
  obtain ⟨q, k, hlast, hp, -, -, rfl⟩ := rmdir_ok h
  rcases parent_loses cwd path (t.loses_prune (q := q) (k := k)) with hkeep | hno
  · obtain ⟨left, hl, -, -⟩ := last_piece hlast ((enter_congr hkeep).trans hp)
    rw [hl]
    exact walk_noent (by simp [prune_node])
  · exact (parent_error hlast hno).1

/-- `rmdir` does not miss what `lstat` finds. -/
theorem rmdir_ne_noent (h : t.lstat cwd path = .ok (l, .dir)) :
    t.rmdir cwd path ≠ .error .noent := by
  rcases lstat_dir_cases h with hlast | ⟨q, hp, hlast | hlast | ⟨k, hlast, ⟨hn, -⟩ | ⟨_, hn, -⟩⟩⟩
  · simp [rmdir, hlast]
  · simp [rmdir, hlast, hp]
  · simp [rmdir, hlast, hp]
  · simp only [rmdir, hlast, hp, hn]
    split <;> rintro ⟨⟩
  · simp [rmdir, hlast, hp, hn]

/-- On trees of the same entries `rmdir` does the same. -/
theorem rmdir_congr (cwd : List κ) (path : Path κ) (h : ∀ q, u.node q = t.node q) :
    (∃ u' t', u.rmdir cwd path = .ok u' ∧ t.rmdir cwd path = .ok t' ∧
      ∀ q, u'.node q = t'.node q) ∨
    ∃ e, u.rmdir cwd path = .error e ∧ t.rmdir cwd path = .error e := by
  have hp : u.parent cwd path = t.parent cwd path := enter_congr fun q _ => h q
  have hc : ∀ q, u.children q = [] ↔ t.children q = [] := fun q => by
    simp only [children_eq_nil, h]
  unfold rmdir
  rw [hp]
  cases path.pieces.getLast? with
  | none => exact .inr ⟨_, rfl, rfl⟩
  | some last =>
    cases t.parent cwd path with
    | error e => exact .inr ⟨e, rfl, rfl⟩
    | ok q =>
      cases last with
      | self => exact .inr ⟨_, rfl, rfl⟩
      | up => exact .inr ⟨_, rfl, rfl⟩
      | name k =>
        simp only [h, hc]
        cases t.node (q ++ [k]) with
        | none => exact .inr ⟨_, rfl, rfl⟩
        | some n =>
          cases n with
          | dir =>
            simp only
            split
            · exact .inl ⟨_, _, rfl, rfl, fun p => by simp only [prune_node, h]⟩
            · exact .inr ⟨_, rfl, rfl⟩
          | file b => exact .inr ⟨_, rfl, rfl⟩
          | link target => exact .inr ⟨_, rfl, rfl⟩

/-- Where `lstat` finds a directory, `remove` does what `rmdir` does. -/
theorem remove_of_lstat (h : t.lstat cwd path = .ok (l, .dir)) :
    t.remove cwd path = t.rmdir cwd path := by
  rcases lstat_dir_cases h with
    hlast | ⟨q, hp, hlast | hlast | ⟨k, hlast, ⟨hn, -⟩ | ⟨_, hn, hslash⟩⟩⟩
  · simp [remove, unlink, hlast]
  · simp [remove, unlink, hlast, hp]
  · simp [remove, unlink, hlast, hp]
  · simp [remove, unlink, hlast, hp, hn]
  · simp [remove, unlink, rmdir, hlast, hp, hn, hslash]

/-- A link that `lstat` finds is removed. -/
theorem remove_link {target : Path κ} (h : t.lstat cwd path = .ok (q, .link target)) :
    ∃ left, t.remove cwd path = .ok left := by
  have hslash : path.slash = false := by
    by_contra! hs
    rw [lstat, Path.toPieces, if_pos (by simpa using hs)] at h
    cases walk_slash h
  cases hlast : path.pieces.getLast? with
  | none =>
    rw [List.getLast?_eq_none_iff] at hlast
    simp [lstat, Path.toPieces, hslash, hlast] at h
  | some last =>
    cases hp : t.parent cwd path with
    | error e => cases (parent_error hlast hp).1.symm.trans h
    | ok m =>
      obtain ⟨left, hl, -, -⟩ := last_piece hlast hp
      rw [hl] at h
      simp only [hslash] at h
      cases last with
      | self => simp at h
      | up => simp at h
      | name k =>
        cases hn : t.node (m ++ [k]) with
        | none => cases (walk_noent hn).symm.trans h
        | some n =>
          cases (walk_name hn).symm.trans h
          exact ⟨t.prune m k, by simp [remove, unlink, hlast, hp, hn, hslash]⟩

/-- `remove` brings nothing. -/
theorem remove_loses (h : t.remove cwd path = .ok u) : Loses [] t u := by
  unfold remove at h
  split at h
  · obtain ⟨q, k, -, -, -, -, rfl⟩ := rmdir_ok h
    exact t.loses_prune.mono List.nil_prefix
  · unfold unlink at h
    split at h
    · cases h
    · split at h
      · cases h
      · split at h
        · split at h
          · cases h
          · cases h
          · split at h
            · cases h
            · cases h
              exact t.loses_prune.mono List.nil_prefix
        · cases h

/-- Where the way goes through an entry below the directory, `remove` finds it gone once the
directory is clear, unless what it is called on is a link elsewhere. -/
theorem remove_detour {b : List κ} (h : t.lstat cwd path = .ok (l, .dir))
    (hb : b ∈ t.through cwd path) (hlb : l <+: b) (hne : b ≠ l) :
    (t.clear l).remove cwd path = .error .noent ∨
      ∃ q target, t.lstat cwd path.entry = .ok (q, .link target) ∧
        t.node q = some (.link target) ∧ ¬ (l <+: q ∧ q ≠ l) := by
  rcases lstat_dir_cases h with hlast | ⟨q, hp, hlast⟩
  · rw [List.getLast?_eq_none_iff] at hlast
    simp [through, hlast, looks] at hb
  rcases parent_loses cwd path (t.loses_clear (q := l)) with hkeep | hno
  · have hp' : (t.clear l).parent cwd path = .ok q := (enter_congr hkeep).trans hp
    have hgone {p : List κ} (hp : l <+: p ∧ p ≠ l) : (t.clear l).node p = none := by
      rw [clear_node, if_pos hp]
    -- the entry is not on the way to the last piece, which the cleared tree still goes
    have hbefore : b ∉ looks t maxLinks (path.start cwd) path.pieces.dropLast := fun hmem =>
      looks_exist hp b hmem ((hkeep b hmem).symm.trans (hgone ⟨hlb, hne⟩))
    have hlook {last : Piece κ} (hl : path.pieces.getLast? = some last) :
        ∃ left, b ∈ looks t left q [last] := by
      obtain ⟨left, -, -, hth⟩ := last_piece hl hp
      rw [hth, List.mem_append] at hb
      exact ⟨left, hb.resolve_left hbefore⟩
    rcases hlast with hself | hup | ⟨k, hname, ⟨hn, rfl⟩ | ⟨target, hn, -⟩⟩
    · obtain ⟨left, hb⟩ := hlook hself
      simp [looks] at hb
    · obtain ⟨left, hb⟩ := hlook hup
      simp [looks] at hb
    · obtain ⟨left, hb⟩ := hlook hname
      simp [looks, hn] at hb
      exact absurd hb hne
    · by_cases hq : l <+: q ++ [k] ∧ q ++ [k] ≠ l
      · left
        simp [remove, unlink, hname, hp', hgone hq]
      · exact .inr ⟨q ++ [k], target, lstat_entry_name hname hp hn, hn, hq⟩
  · left
    rcases hlast with hlast | hlast | ⟨k, hlast, -⟩ <;> simp [remove, unlink, hlast, hno]

end

end Tree

end LinkTree
