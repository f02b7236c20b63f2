import FastCppServer.Cache.MyCache

/-!
# What a save does to the disk

A save reaches the disk through path strings, and the kernel resolves the string of the temporary
again at every call. The temporary that was opened is the one that is renamed or removed
(`resolve_of_target`): between, every directory stays one. So a save comes to one of three ends
(`SaveTmpEnds`): the temporary was not opened, it was opened and given up, or its inode now stands
at the target. Directories made on the way hold no file (`ensureParent_sameFiles`).
-/

namespace MyCache

open FileTree Function

/-! ## Resolved paths -/

section
variable {β : Type} {t t' : Tree Entry β}

/-- The entry that a path names is one under a directory that is there. -/
theorem target_some {path : Path} {q : List Entry} :
    target t path = some q ↔ ∃ init d, ∃ e : Entry,
      cString path = init ++ [e.val] ∧ walk t [] init = some d ∧ q = d ++ [e] := by
  unfold target
  rcases List.eq_nil_or_concat (cString path) with hc | ⟨init, c, hc⟩
  · simp [hc]
  rw [List.concat_eq_append] at hc
  rw [hc]
  simp only [List.getLast?_concat, List.dropLast_concat]
  constructor
  · intro h
    split at h
    next ho =>
      obtain ⟨d, hd, rfl⟩ := Option.map_eq_some_iff.1 h
      exact ⟨init, d, ⟨c, ho⟩, rfl, hd, rfl⟩
    next => cases h
  · rintro ⟨init', d, e, he, hd, rfl⟩
    obtain ⟨rfl, hce⟩ := List.append_inj' he rfl
    cases hce
    rw [dif_pos e.2, hd]
    rfl

/-- Where an entry was made, it is found again, on every tree that has at least the directories. -/
theorem resolve_of_target (hdir : ∀ p, t.node p = some .dir → t'.node p = some .dir) {path : Path}
    {q : List Entry} (h : target t path = some q) (hq : t'.node q ≠ none) :
    resolve t' path = some q ∧ target t' path = some q := by
  obtain ⟨init, d, e, hc, hw, rfl⟩ := target_some.1 h
  have hd : t'.node d = some .dir := Tree.dir_of_prefix hq (List.cons_ne_nil e [])
  have hw' : walk t' [] init = some d := walk_mono hdir hw (by simp [hd])
  refine ⟨?_, target_some.2 ⟨init, d, e, hc, hw', rfl⟩⟩
  rw [resolve, hc, walk_append, hw', Option.bind_some, walk, if_pos hd, descend_entry,
    Option.bind_some, walk, if_pos (Option.isSome_iff_ne_none.2 hq)]

/-- A directory stands in a directory. -/
theorem dir_dropLast {p : List Entry} (h : t.node p = some .dir) :
    t.node p.dropLast = some .dir := by
  rcases eq_or_ne p [] with rfl | hp
  · exact t.root_dir
  · exact t.parent_dir hp (by simp [h])

/-- A path that names a regular file ends in an entry. -/
theorem target_of_resolve {path : Path} {q : List Entry} (h : resolve t path = some q)
    (hq : t.IsFile q) : target t path = some q := by
  obtain ⟨i, hi⟩ := hq
  rcases List.eq_nil_or_concat (cString path) with hc | ⟨init, c, hc⟩
  · rw [resolve, hc, walk, t.root_dir] at h
    cases h
    cases hi.symm.trans t.root_dir
  rw [resolve, hc, List.concat_eq_append, walk_append] at h
  obtain ⟨d, hw, hd⟩ := Option.bind_eq_some_iff.1 h
  rw [walk] at hd
  split at hd
  next hdir =>
    obtain ⟨r, hr, hrq⟩ := Option.bind_eq_some_iff.1 hd
    rw [walk] at hrq
    split at hrq <;> cases hrq
    rw [descend] at hr
    -- a dot leads to a directory, so the last piece is an entry
    split_ifs at hr with h1 h2 ho
    · cases hr
      cases hi.symm.trans hdir
    · cases hr
      cases hi.symm.trans (dir_dropLast hdir)
    · cases hr
      exact target_some.2 ⟨init, d, ⟨c, ho⟩, by rw [hc, List.concat_eq_append], hw, rfl⟩
  next => cases hd

/-- The removal of a path that was just made by its name removes it. -/
theorem removePath_of_target (hdir : ∀ p, t.node p = some .dir → t'.node p = some .dir)
    {path : Path} {q : List Entry} (h : target t path = some q) (hq : t'.node q ≠ none) :
    removePath t' path = t'.remove q := by
  obtain ⟨init, d, e, hc, -, -⟩ := target_some.1 h
  have hlast : (cString path).getLast? = some e.val := by rw [hc, List.getLast?_concat]
  rw [removePath, (resolve_of_target hdir h hq).1, hlast]
  split
  next he => exact absurd (Option.some.inj he) e.2.2.1
  next he => exact absurd (Option.some.inj he) e.2.2.2.1
  next => rfl

/-- What is removed is what the path leads to. -/
theorem removePath_some {path : Path} (h : removePath t path = some t') :
    ∃ q, resolve t path = some q ∧ t.remove q = some t' := by
  unfold removePath at h
  split at h
  next => cases h
  next => cases h
  next => exact Option.bind_eq_some_iff.1 h

/-! ## Normal paths -/

/-- A piece that is no dot and holds no slash. -/
def Named (c : List Char) : Prop := c ≠ [] ∧ c ≠ ['.'] ∧ c ≠ ['.', '.'] ∧ '/' ∉ c

/-- Every piece is named, but for what a trailing slash leaves at the end. -/
def Normal (path : Path) : Prop := (∀ c ∈ path, '/' ∉ c) ∧ ∀ c ∈ path.dropLast, Named c

/-- An ordinary name is a name. -/
theorem Ordinary.named {c : List Char} (h : Ordinary c) : Named c :=
  ⟨h.1, h.2.1, h.2.2.1, h.2.2.2.1⟩

/-- A path of names is normal. -/
theorem normal_of_named {path : Path} (h : ∀ c ∈ path, Named c) : Normal path :=
  ⟨fun c hc => (h c hc).2.2.2, fun c hc => h c (List.mem_of_mem_dropLast hc)⟩

/-- Plain entries are a normal path. -/
theorem normal_plain (es : List Entry) : Normal (plain es) :=
  normal_of_named fun _ hc => (ordinary_of_mem_plain hc).named

/-- Normalising leaves names. -/
theorem foldl_normalStep_named {path : Path} (hs : ∀ c ∈ path, '/' ∉ c) {acc : Path}
    (hacc : ∀ c ∈ acc, Named c) : ∀ c ∈ path.foldl normalStep acc, Named c := by
  induction path generalizing acc with
  | nil => exact hacc
  | cons d path ih =>
    refine ih (fun c hc => hs c (List.mem_cons_of_mem d hc)) fun c hc => ?_
    rw [normalStep] at hc
    split_ifs at hc with h1 h2
    · exact hacc c hc
    · exact hacc c (List.mem_of_mem_dropLast hc)
    · rcases List.mem_append.1 hc with hc | hc
      · exact hacc c hc
      · rw [List.mem_singleton.1 hc]
        exact ⟨fun h => h1 (.inl h), fun h => h1 (.inr h), h2, hs d List.mem_cons_self⟩

/-- **What is normalised is normal.** -/
theorem lexicallyNormal_normal {path : Path} (hs : ∀ c ∈ path, '/' ∉ c) :
    Normal path.lexicallyNormal := by
  have hn : ∀ c ∈ path.foldl normalStep [], Named c := foldl_normalStep_named hs (by simp)
  rw [Path.lexicallyNormal]
  split
  · refine ⟨fun c hc => ?_, fun c hc => ?_⟩
    · rcases List.mem_append.1 hc with hc | hc
      · exact (hn c hc).2.2.2
      · simp_all
    · rw [List.dropLast_concat] at hc
      exact hn c hc
  · exact normal_of_named hn

/-- What is left of a path is its end. -/
theorem leading_suffix (p : List Entry) (path : Path) : (leading t p path).2 <:+ path := by
  induction path generalizing p with
  | nil => exact List.suffix_rfl
  | cons c cs ih =>
    rw [leading]
    split
    next q _ => exact (ih q).trans (List.suffix_cons c cs)
    next => exact List.suffix_rfl

/-- A weakly canonical path is normal. -/
theorem weaklyCanonical_normal {path : Path} (hs : ∀ c ∈ path, '/' ∉ c) :
    Normal (weaklyCanonical t path) := by
  rw [weaklyCanonical]
  split
  next p _ => exact normal_plain p
  next =>
    refine lexicallyNormal_normal fun c hc => ?_
    rcases List.mem_append.1 hc with hc | hc
    · exact (ordinary_of_mem_plain hc).2.2.2.1
    · exact hs c ((leading_suffix [] path).subset hc)

/-- What precedes the last piece of the C string is as in the path, and without a NUL. -/
theorem mem_dropLast_cString {path : Path} {c : List Char} (h : c ∈ (cString path).dropLast) :
    c ∈ path.dropLast ∧ nul ∉ c := by
  induction path with
  | nil => simp [cString] at h
  | cons d path ih =>
    rw [cString] at h
    split at h
    next => simp at h
    next hd =>
      rcases eq_or_ne (cString path) [] with hn | hn
      · simp [hn] at h
      have hp : path ≠ [] := by
        rintro rfl
        exact hn rfl
      rw [List.dropLast_cons_of_ne_nil hn] at h
      rw [List.dropLast_cons_of_ne_nil hp]
      rcases List.mem_cons.1 h with rfl | h
      · exact ⟨List.mem_cons_self, hd⟩
      · exact ⟨List.mem_cons_of_mem d (ih h).1, (ih h).2⟩

/-- Pieces that can stand in a directory are entries. -/
theorem exists_plain {path : Path} (h : ∀ c ∈ path, Ordinary c) : ∃ es, plain es = path :=
  ⟨path.pmap Subtype.mk h, by simp [plain, List.map_pmap]⟩

/-- **A normal path is where it says.** What the kernel makes at it is what its string spells. -/
theorem cString_of_target {path : Path} (hn : Normal path) {q : List Entry}
    (h : target t path = some q) : cString path = plain q := by
  obtain ⟨init, d, e, hc, hw, rfl⟩ := target_some.1 h
  obtain ⟨es, rfl⟩ : ∃ es, plain es = init := exists_plain fun c hm => by
    have hm' : c ∈ path.dropLast ∧ nul ∉ c :=
      mem_dropLast_cString (by rwa [hc, List.dropLast_concat])
    have hnamed := hn.2 c hm'.1
    exact ⟨hnamed.1, hnamed.2.1, hnamed.2.2.1, hnamed.2.2.2, hm'.2⟩
  rw [walk_plain] at hw
  split at hw <;> cases hw
  rw [hc, List.nil_append, plain_append]
  rfl

end

/-- There is no slash in a piece. -/
theorem mem_pieces_no_slash {name c : List Char} (h : c ∈ pieces name) : '/' ∉ c := by
  unfold pieces at h
  induction name generalizing c with
  | nil => simp_all
  | cons d name ih =>
    rw [List.splitOn_cons_eq_if_modifyHead] at h
    split at h
    next =>
      rcases List.mem_cons.1 h with rfl | h
      · simp
      · exact ih h
    next hd =>
      obtain ⟨x, xs, hx⟩ := List.exists_cons_of_ne_nil (List.splitOn_ne_nil '/' name)
      rw [hx, List.modifyHead_cons] at h
      rcases List.mem_cons.1 h with rfl | h
      · have hx' := ih (hx ▸ List.mem_cons_self)
        have hd' : '/' ≠ d := fun he => hd (by simp [← he])
        simp [hx', hd']
      · exact ih (hx ▸ List.mem_cons_of_mem x h)

/-- There is no slash in a piece under the root. -/
theorem mem_join_no_slash {root : List Entry} {name c : List Char} (h : c ∈ join root name) :
    '/' ∉ c := by
  rw [join] at h
  split at h
  · exact mem_pieces_no_slash h
  · rcases List.mem_append.1 h with h | h
    · exact (ordinary_of_mem_plain h).2.2.2.1
    · exact mem_pieces_no_slash h

/-- Pieces that are put together come apart again. -/
theorem pieces_unpieces {path : Path} (hs : ∀ c ∈ path, '/' ∉ c) (hne : path ≠ []) :
    pieces (unpieces path) = path := List.splitOn_intercalate _ hs hne

/-- The check of the path compares its text with that of the root. -/
theorem isPathInsideRoot_iff {root path : Path} : isPathInsideRoot root path ↔
    path.string = root.string ∨ root.string ++ ['/'] <+: path.string := by
  rw [isPathInsideRoot, decide_eq_true_iff]

/-- The comparison of strings compares whole pieces. -/
theorem prefix_of_inside {root : List Entry} {path : Path} (hs : ∀ c ∈ path, '/' ∉ c)
    (h : isPathInsideRoot (plain root) path) : plain root <+: path := by
  rcases eq_or_ne root [] with rfl | hroot
  · exact List.nil_prefix
  have hne : plain root ≠ [] := fun he => hroot (List.map_eq_nil_iff.1 he)
  have hr : pieces (unpieces (plain root)) = plain root :=
    pieces_unpieces (fun c hc => (ordinary_of_mem_plain hc).2.2.2.1) hne
  have hpath : path ≠ [] := by
    rintro rfl
    obtain ⟨e, es, rfl⟩ := List.exists_cons_of_ne_nil hroot
    rcases isPathInsideRoot_iff.1 h with h | h
    · -- a root of one empty piece is no entry
      rw [← (List.cons.inj h).2] at hr
      exact e.2.1 (List.cons.inj hr).1.symm
    · have := h.length_le
      simp [Path.string, unpieces] at this
  rw [← hr, ← pieces_unpieces hs hpath]
  rcases isPathInsideRoot_iff.1 h with h | ⟨rest, h⟩
  · rw [(List.cons.inj h).2]
  · have : unpieces path = unpieces (plain root) ++ '/' :: rest := by
      simpa [Path.string] using h.symm
    rw [this, pieces, pieces, List.splitOn_append_cons_self]
    exact List.prefix_append _ _

/-! ## The validated path -/

/-- What `ValidatePath` lets through. -/
theorem validatePath_ok {c : Cache} {name : List Char} {full : Path}
    (h : validatePath c name = .ok full) :
    c.status = .running ∧ full = weaklyCanonical c.tree (join c.root name) ∧
      isPathInsideRoot (plain c.root) full ∧ full ≠ plain c.root := by
  unfold validatePath at h
  split at h
  · cases h
  split at h
  · cases h
  next hs =>
  split at h
  · cases h
  dsimp only at h
  split at h
  · cases h
  next hin =>
  split at h
  · cases h
  next hne =>
  cases h
  exact ⟨not_not.1 hs, rfl, not_not.1 hin, hne⟩

/-- It is normal. -/
theorem validatePath_normal {c : Cache} {name : List Char} {full : Path}
    (h : validatePath c name = .ok full) : Normal full := by
  rw [(validatePath_ok h).2.1]
  exact weaklyCanonical_normal fun _ hc => mem_join_no_slash hc

/-- And it lies below the root. -/
theorem validatePath_below {c : Cache} {name : List Char} {full : Path}
    (h : validatePath c name = .ok full) : plain c.root <+: full :=
  prefix_of_inside (validatePath_normal h).1 (validatePath_ok h).2.2.1

/-- A canonical name is validated to its own path, on every tree. -/
theorem validatePath_canonical {c : Cache} {name : List Char} {full : Path}
    (h : validatePath c name = .ok full) (hn : Canonical name) :
    full = plain (c.root ++ entries name) := by
  rw [(validatePath_ok h).2.1, hn.join, weaklyCanonical_plain]

/-! ## The parent directory -/

/-- A directory that is created is no file. -/
theorem createDirectory_sameFiles {t t' : Files} {path : Path} {created : Bool}
    (h : createDirectory t path = some (t', created)) : t.SameFiles t' := by
  rw [createDirectory] at h
  split at h
  next t₁ hm =>
    cases h
    obtain ⟨q, -, hq⟩ := Option.bind_eq_some_iff.1 hm
    exact Tree.mkdir_sameFiles hq
  next =>
    split at h <;> cases h
    exact Tree.SameFiles.refl t

/-- Nor are several of them. -/
theorem createMissing_sameFiles (t : Files) (created : Bool) (paths : List Path)
    (stops : Option Nat) : t.SameFiles (createMissing t created paths stops).1 := by
  induction paths generalizing t created stops with
  | nil => exact Tree.SameFiles.refl t
  | cons path paths ih =>
    rw [createMissing]
    split
    · exact Tree.SameFiles.refl t
    split
    next => exact Tree.SameFiles.refl t
    next t₁ created' hc => exact (createDirectory_sameFiles hc).trans (ih t₁ created' _)

/-- Nor are those above a file. -/
theorem ensureParent_sameFiles (t : Files) (parent : Path) (stops : Option Nat) :
    t.SameFiles (ensureParent t parent stops).1 := by
  have hc := createMissing_sameFiles t false (parent.inits.filter fun p => ¬ pathExists t p) stops
  rw [ensureParent]
  split
  · exact Tree.SameFiles.refl t
  · rw [createDirectories]
    split
    next t' ht =>
      rw [ht] at hc
      exact hc
    next t' _ _ ht =>
      rw [ht] at hc
      exact hc

/-! ## The temporary -/

/-- How a save ends, from the opening of the temporary on. The temporary is the entry `τ`, its inode
`i`, and the entry at the target is `q`. -/
inductive SaveTmpEnds (t : Files) (full : Path) (data : List UInt8) (f : Faults) :
    Files → CacheResult Unit → Prop where
  | notOpened (hno : f.openFails ∨ ∀ τ, target t full.tmpPath = some τ → ¬ t.IsFile τ) :
      SaveTmpEnds t full data f t (.error .ioError)
  | givenUp {t' τ i} (htmp : target t full.tmpPath = some τ) (hdir : t.node τ ≠ some .dir)
      (hown : ∀ p, t.node p = some (.file i) → p = τ)
      (hnode : t'.node = update t.node τ (if f.removeFails then some (.file i) else none))
      (hinode : ∀ j, j ≠ i → t'.inode j = t.inode j) :
      SaveTmpEnds t full data f t' (.error .ioError)
  | saved {t' τ q i} (htmp : target t full.tmpPath = some τ) (hdir : t.node τ ≠ some .dir)
      (hown : ∀ p, t.node p = some (.file i) → p = τ) (hq : cString full = plain q)
      (hqdir : t.node q ≠ some .dir)
      (hnode : t'.node = update (update t.node τ none) q (some (.file i)))
      (hinode : ∀ j, j ≠ i → t'.inode j = t.inode j)
      (hbytes : (t'.inode i).bytes = data.take (f.flushStops.getD data.length)) :
      SaveTmpEnds t full data f t' (.ok ())

/-- The removal of an opened temporary. -/
theorem removeTmp_opened {t : Files} (t₁ : Files) {tmp : Path} {τ : List Entry} {i : Nat}
    (fails : Bool) (htmp : target t tmp = some τ) (hdir : t.node τ ≠ some .dir)
    (hnode : t₁.node = update t.node τ (some (.file i))) :
    (removeTmp t₁ tmp fails).node = update t.node τ (if fails then some (.file i) else none) ∧
      (removeTmp t₁ tmp fails).inode = t₁.inode := by
  cases fails with
  | true => exact ⟨hnode, rfl⟩
  | false =>
    have hτ : t₁.node τ = some (.file i) := by rw [hnode, update_self]
    have hmono : ∀ p, t.node p = some .dir → t₁.node p = some .dir := by
      rintro p hp
      have hne : p ≠ τ := by
        rintro rfl
        exact hdir hp
      rw [hnode, update_of_ne hne, hp]
    obtain ⟨t₂, h₂⟩ := Tree.remove_file ⟨i, hτ⟩
    have hr := removePath_of_target hmono htmp (by simp [hτ])
    obtain ⟨-, -, hn₂, hi₂⟩ := Tree.remove_some h₂
    simp only [removeTmp, Bool.false_eq_true, if_false, hr, h₂, Option.getD_some]
    exact ⟨by rw [hn₂, hnode, update_idem], hi₂⟩

/-- **What a save leaves on the disk.** -/
theorem saveTmp_ends {t : Files} {full : Path} (hfull : Normal full) (data : List UInt8)
    (f : Faults) (now : Int) :
    SaveTmpEnds t full data f (saveTmp t full data f now).1 (saveTmp t full data f now).2 := by
  rw [saveTmp]
  rcases hopen : if f.openFails then none else openPath t full.tmpPath now with _ | ⟨t₁, i⟩
  · refine .notOpened ?_
    split at hopen
    next h => exact .inl h
    next =>
      refine .inr fun τ hτ hf => ?_
      obtain ⟨r, hr⟩ := Tree.openTrunc_file hf now
      rw [openPath, hτ, Option.bind_some, hr] at hopen
      cases hopen
  split at hopen
  · cases hopen
  obtain ⟨τ, htmp, ho⟩ := Option.bind_eq_some_iff.1 hopen
  obtain ⟨hdir, hown, hnode, hinode⟩ := Tree.openTrunc_some ho
  have hmono : ∀ p, t.node p = some .dir → t₁.node p = some .dir := by
    intro p hp
    have hne : p ≠ τ := by
      rintro rfl
      exact hdir hp
    rw [hnode, update_of_ne hne, hp]
  have hwrite : ∀ bs, (∀ j, j ≠ i → (t₁.write i 0 bs now).inode j = t.inode j) ∧
      ((t₁.write i 0 bs now).inode i).bytes = bs := by
    intro bs
    refine ⟨fun j hj => ?_, ?_⟩
    · simp [Tree.write_inode, hinode, hj]
    · simp [Tree.write_inode, hinode, Tree.overwrite_nil]
  have hgiven : ∀ bs, SaveTmpEnds t full data f
      (removeTmp (t₁.write i 0 bs now) full.tmpPath f.removeFails) (.error .ioError) := by
    intro bs
    obtain ⟨hn, hi⟩ :=
      removeTmp_opened (t₁.write i 0 bs now) f.removeFails htmp hdir hnode
    exact .givenUp htmp hdir hown hn fun j hj => by rw [hi, (hwrite bs).1 j hj]
  cases hw : f.writeStops with
  | some k => exact hgiven _
  | none =>
    generalize hbs : data.take (f.flushStops.getD data.length) = bs
    rcases hrename : if f.renameFails then none else
        renamePath (t₁.write i 0 bs now) full.tmpPath full with _ | t₂
    · simp only [hrename]
      exact hgiven bs
    simp only [hrename]
    split at hrename
    · cases hrename
    obtain ⟨p, hp, hr⟩ := Option.bind_eq_some_iff.1 hrename
    obtain ⟨q, hq, hr⟩ := Option.bind_eq_some_iff.1 hr
    have hτ : (t₁.write i 0 bs now).node τ = some (.file i) := by
      rw [Tree.write_node, hnode, update_self]
    have hmono' : ∀ p, t.node p = some .dir → (t₁.write i 0 bs now).node p = some .dir := hmono
    -- the opened entry is the renamed one
    cases hp.symm.trans (resolve_of_target hmono' htmp (by simp [hτ])).2
    obtain ⟨hqdir, hn, hi⟩ := Tree.rename_file hτ hr
    refine .saved htmp hdir hown (cString_of_target hfull hq) (fun hc => hqdir (hmono q hc)) ?_
      (fun j hj => by rw [hi, (hwrite bs).1 j hj]) (by rw [hi, (hwrite bs).2, hbs])
    rw [hn, Tree.write_node, hnode, update_idem]

end MyCache
