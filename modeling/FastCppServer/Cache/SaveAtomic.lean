import FastCppServer.Cache.SaveRace

/-!
# What a failed save leaves

A save that fails before it changes anything leaves the cache as it is, and one that is rejected
does. After the first missing directory is made there is no way back: none is removed again. The
temporary is removed, so that its failure shows only where a file was there under that name, or
where the removal fails too. The last bytes are written when the stream is closed, after its last
check, and a save that loses them succeeds. `CleanSave` is all of this, and `savesOrNothing_iff`
that it is exact.
-/

namespace MyCache

open FileTree Function

/-! ## What is seen of a disk -/

/-- The same directories, and the same regular files with the same bytes. -/
def SameContents (t t' : Files) : Prop :=
  ∀ p, (t'.node p = some .dir ↔ t.node p = some .dir) ∧ t'.content p = t.content p

/-- A tree has the contents it has. -/
theorem SameContents.refl (t : Files) : SameContents t t := fun _ => ⟨Iff.rfl, rfl⟩

/-- A file can be opened for writing at the path, or renamed onto it. -/
def Writable (t : Files) (path : Path) : Prop :=
  ∃ q, target t path = some q ∧ t.node q.dropLast = some .dir ∧ t.node q ≠ some .dir

/-- The temporary is opened. -/
def Opens (t : Files) (full : Path) (f : Faults) : Prop :=
  f.openFails = false ∧ Writable t full.tmpPath

/-- The temporary is written and renamed. -/
def Completes (t : Files) (full : Path) (f : Faults) : Prop :=
  f.writeStops = none ∧ f.renameFails = false ∧ Writable t full

/-- The bytes that the temporary gets. -/
def written (data : List UInt8) (f : Faults) : List UInt8 :=
  data.take (f.writeStops.getD (f.flushStops.getD data.length))

/-- The bytes are all written, the last ones at the closing too. -/
def Whole (data : List UInt8) (f : Faults) : Prop := data.length ≤ f.flushStops.getD data.length

/-- Giving up leaves nothing behind: nothing was there under the temporary's name, and it is
removed; or it is not, and a file was there with the same bytes. -/
def Traceless (t : Files) (full : Path) (data : List UInt8) (f : Faults) : Prop :=
  ∀ τ, target t full.tmpPath = some τ →
    if f.removeFails then t.content τ = some (written data f) else t.node τ = none

/-- The part from the temporary on does what it says. -/
def CleanTmp (t : Files) (full : Path) (data : List UInt8) (f : Faults) : Prop :=
  Opens t full f →
    (Completes t full f → Whole data f) ∧ (¬ Completes t full f → Traceless t full data f)

/-! ## Opening and renaming -/

/-- A path can be opened for writing exactly when it is writable. -/
theorem openPath_iff {t : Files} {path : Path} (now : Int) :
    (openPath t path now).isSome ↔ Writable t path := by
  rw [openPath, Option.isSome_iff_exists]
  constructor
  · rintro ⟨⟨t', i⟩, h⟩
    obtain ⟨q, hq, hopen⟩ := Option.bind_eq_some_iff.1 h
    refine ⟨q, hq, ?_, (Tree.openTrunc_some hopen).1⟩
    rw [Tree.openTrunc] at hopen
    split at hopen
    · cases hopen
    · next hfile => exact t.parent_dir (Tree.ne_nil_of_file hfile) (by simp [hfile])
    · split at hopen
      · next hparent => exact hparent.2
      · cases hopen
  · rintro ⟨q, hq, hparent, hdir⟩
    have hopen : ∃ r, t.openTrunc q now = some r := by
      have hne : q ≠ [] := by
        rintro rfl
        exact hdir t.root_dir
      rw [Tree.openTrunc]
      split
      · next hd => exact absurd hd hdir
      · exact ⟨_, rfl⟩
      · exact ⟨_, dif_pos ⟨hne, hparent⟩⟩
    obtain ⟨r, hr⟩ := hopen
    exact ⟨r, by rw [hq, Option.bind_some, hr]⟩

/-- The temporary is in the directory of the target, or is the target. -/
theorem target_tmp_cases {full : Path} (hne : full ≠ []) :
    (∀ t : Files, target t full.tmpPath = target t full) ∨
      ∃ last, ∀ (t : Files) (τ : List Entry), target t full.tmpPath = some τ →
        target t full = if h : Ordinary last then some (τ.dropLast ++ [⟨last, h⟩]) else none := by
  by_cases hnul : ∃ c ∈ full, nul ∈ c
  · refine .inl fun t => ?_
    rw [target, target, cString_tmpPath_of_nul hnul]
  · obtain ⟨init, last, hfull⟩ := (List.eq_nil_or_concat full).resolve_left hne
    rw [List.concat_eq_append] at hfull
    refine .inr ⟨last, fun t τ hτ => ?_⟩
    rw [target, cString_tmpPath_of_free hnul, hfull, tmpPath_concat] at hτ
    simp only [List.getLast?_concat, List.dropLast_concat] at hτ
    split at hτ
    · obtain ⟨d, hd, rfl⟩ := Option.map_eq_some_iff.1 hτ
      rw [target, cString_of_free hnul, hfull]
      simp only [List.getLast?_concat, List.dropLast_concat, hd, Option.map_some]
    · cases hτ

/-- The temporary is renamed just if a file can be put at the target. -/
theorem renamePath_iff {t t₂ : Files} {full : Path} {τ : List Entry} {i : Nat} (hne : full ≠ [])
    (hτ : target t full.tmpPath = some τ) (hparent : t.node τ.dropLast = some .dir)
    (hdir : t.node τ ≠ some .dir) (hnode : t₂.node = update t.node τ (some (.file i))) :
    (renamePath t₂ full.tmpPath full).isSome ↔ Writable t full := by
  have hfile : t₂.node τ = some (.file i) := by rw [hnode, update_self]
  have hmono : ∀ p, t.node p = some .dir → t₂.node p = some .dir := by
    intro p hp
    have hpτ : p ≠ τ := by
      rintro rfl
      exact hdir hp
    rw [hnode, update_of_ne hpτ, hp]
  have hτ₂ : target t₂ full.tmpPath = some τ := (resolve_of_target hmono hτ (by simp [hfile])).2
  have hself : (t₂.rename τ τ).isSome := by
    rw [Tree.rename, if_pos rfl, hfile]
    rfl
  rw [renamePath, hτ₂, Option.bind_some]
  rcases target_tmp_cases hne with hsame | ⟨last, hlast⟩
  · rw [← hsame, hτ₂, Option.bind_some]
    exact iff_of_true hself ⟨τ, (hsame t) ▸ hτ, hparent, hdir⟩
  · rw [hlast t₂ τ hτ₂, Writable, hlast t τ hτ]
    by_cases ho : Ordinary last
    · rw [dif_pos ho, Option.bind_some]
      generalize hq : τ.dropLast ++ [(⟨last, ho⟩ : Entry)] = q
      have hqdrop : q.dropLast = τ.dropLast := by rw [← hq, List.dropLast_concat]
      have hqne : q ≠ [] := by
        rw [← hq]
        simp
      by_cases heq : τ = q
      · subst heq
        exact iff_of_true hself ⟨τ, rfl, hparent, hdir⟩
      · have hqnode : t₂.node q = t.node q := by rw [hnode, update_of_ne (Ne.symm heq)]
        have hqparent : t₂.node q.dropLast = some .dir := by rw [hqdrop, hmono _ hparent]
        constructor
        · intro h
          obtain ⟨t', ht'⟩ := Option.isSome_iff_exists.1 h
          exact ⟨q, rfl, by rw [hqdrop, hparent], hqnode ▸ (Tree.rename_file hfile ht').1⟩
        · rintro ⟨q', hq', -, hqdir⟩
          obtain rfl := Option.some.inj hq'
          rw [Tree.rename, if_neg heq]
          split
          · next hnone => cases hnone.symm.trans hfile
          · rw [dif_pos ⟨hqne, hqparent, hqnode ▸ hqdir⟩]
            rfl
          · next hd => cases hd.symm.trans hfile
    · rw [dif_neg ho]
      simp

/-! ## From the temporary on -/

variable {t : Files} {full : Path} {data : List UInt8} {f : Faults} {now : Int}

/-- When the temporary file cannot be opened nothing changes. -/
theorem saveTmp_notOpened (h : ¬ Opens t full f) :
    saveTmp t full data f now = (t, .error .ioError) := by
  have hnone : (if f.openFails then none else openPath t full.tmpPath now) = none := by
    split
    · rfl
    · next hopen =>
      rw [← Option.not_isSome_iff_eq_none, openPath_iff]
      exact fun hw => h ⟨by simpa using hopen, hw⟩
  rw [saveTmp]
  dsimp only
  rw [hnone]

/-- The entry of an opened temporary, and its inode. -/
structure Opened (t : Files) (full : Path) (τ : List Entry) (i : Nat) : Prop where
  target_eq : target t full.tmpPath = some τ
  parent : t.node τ.dropLast = some .dir
  not_dir : t.node τ ≠ some .dir
  own : ∀ p, t.node p = some (.file i) → p = τ

/-- When it can, it is a new or emptied file at the temporary path. -/
theorem Opens.opened (h : Opens t full f) (now : Int) :
    ∃ t₁ τ i, openPath t full.tmpPath now = some (t₁, i) ∧ Opened t full τ i ∧
      t₁.node = update t.node τ (some (.file i)) ∧
        t₁.inode = update t.inode i { mtime := now } := by
  obtain ⟨⟨t₁, i⟩, h₁⟩ := Option.isSome_iff_exists.1 ((openPath_iff now).2 h.2)
  obtain ⟨τ, htmp, ho⟩ := Option.bind_eq_some_iff.1 h₁
  obtain ⟨hdir, hown, hnode, hinode⟩ := Tree.openTrunc_some ho
  obtain ⟨q, hq, hparent, -⟩ := h.2
  obtain rfl := Option.some.inj (htmp.symm.trans hq)
  exact ⟨t₁, τ, i, h₁, ⟨htmp, hparent, hdir, hown⟩, hnode, hinode⟩

/-- When the write or the rename fails, the error is reported, and only the temporary file may be
left. -/
theorem saveTmp_givenUp (hne : full ≠ []) (ho : Opens t full f) (hc : ¬ Completes t full f)
    (data : List UInt8) (now : Int) :
    ∃ τ i, Opened t full τ i ∧ (saveTmp t full data f now).2 = .error .ioError ∧
      (saveTmp t full data f now).1.node =
        update t.node τ (if f.removeFails then some (.file i) else none) ∧
      (∀ j, j ≠ i → (saveTmp t full data f now).1.inode j = t.inode j) ∧
      ((saveTmp t full data f now).1.inode i).bytes = written data f := by
  obtain ⟨t₁, τ, i, h₁, hopened, hnode, hinode⟩ := ho.opened now
  have hgiven : ∀ bs, ((removeTmp (t₁.write i 0 bs now) full.tmpPath f.removeFails).node =
        update t.node τ (if f.removeFails then some (.file i) else none)) ∧
      (∀ j, j ≠ i →
        (removeTmp (t₁.write i 0 bs now) full.tmpPath f.removeFails).inode j = t.inode j) ∧
      ((removeTmp (t₁.write i 0 bs now) full.tmpPath f.removeFails).inode i).bytes = bs := by
    intro bs
    obtain ⟨hn, hi⟩ := removeTmp_opened (t₁.write i 0 bs now) f.removeFails hopened.target_eq
      hopened.not_dir hnode
    refine ⟨hn, fun j hj => ?_, ?_⟩
    · rw [hi, Tree.write_inode, update_of_ne hj, hinode, update_of_ne hj]
    · rw [hi, Tree.write_inode, update_self, hinode, update_self, Tree.overwrite_nil]
  refine ⟨τ, i, hopened, ?_⟩
  rw [saveTmp]
  dsimp only
  rw [ho.1, if_neg (by simp), h₁]
  cases hw : f.writeStops with
  | some k =>
    refine ⟨rfl, ?_⟩
    rw [written, hw]
    exact hgiven (data.take k)
  | none =>
    have hnode' : (t₁.write i 0 (data.take (f.flushStops.getD data.length)) now).node =
        update t.node τ (some (.file i)) := hnode
    have hrename : (if f.renameFails then none else
        renamePath (t₁.write i 0 (data.take (f.flushStops.getD data.length)) now) full.tmpPath
          full) = none := by
      split
      · rfl
      · next hr =>
        rw [← Option.not_isSome_iff_eq_none,
          renamePath_iff hne hopened.target_eq hopened.parent hopened.not_dir hnode']
        exact fun hw' => hc ⟨hw, by simpa using hr, hw'⟩
    dsimp only
    rw [hrename, written, hw]
    exact ⟨rfl, hgiven _⟩

/-- When both succeed, the new contents stand at the target and the temporary path is free. -/
theorem saveTmp_saved (hn : Normal full) (hne : full ≠ []) (ho : Opens t full f)
    (hc : Completes t full f) (data : List UInt8) (now : Int) :
    ∃ τ q i, t.node τ ≠ some .dir ∧ (saveTmp t full data f now).2 = .ok () ∧
      cString full = plain q ∧ t.node q ≠ some .dir ∧
      (saveTmp t full data f now).1.node = update (update t.node τ none) q (some (.file i)) ∧
      ((saveTmp t full data f now).1.inode i).bytes =
        data.take (f.flushStops.getD data.length) := by
  obtain ⟨t₁, τ, i, h₁, hopened, hnode, -⟩ := ho.opened now
  obtain ⟨hw, hr, hfull⟩ := hc
  have hnode' : (t₁.write i 0 (data.take (f.flushStops.getD data.length)) now).node =
      update t.node τ (some (.file i)) := hnode
  obtain ⟨t₂, h₂⟩ := Option.isSome_iff_exists.1
    ((renamePath_iff hne hopened.target_eq hopened.parent hopened.not_dir hnode').2 hfull)
  have hok : (saveTmp t full data f now).2 = .ok () := by
    rw [saveTmp]
    dsimp only
    rw [ho.1, if_neg (by simp), h₁]
    dsimp only
    rw [hw]
    dsimp only
    rw [hr, if_neg (by simp), h₂]
  have hends := saveTmp_ends hn data f now (t := t)
  rw [hok] at hends
  generalize (saveTmp t full data f now).1 = t' at hends ⊢
  cases hends with
  | saved htmp hdir hown hq hqdir hnode hinode hbytes =>
    exact ⟨_, _, _, hdir, hok, hq, hqdir, hnode, hbytes⟩

/-- No directory is lost. -/
theorem saveTmp_dirs (hn : Normal full) {p : List Entry} (hp : t.node p = some .dir) :
    (saveTmp t full data f now).1.node p = some .dir := by
  have hends := saveTmp_ends hn data f now (t := t)
  generalize (saveTmp t full data f now).1 = t' at hends ⊢
  generalize (saveTmp t full data f now).2 = r at hends
  have hne : ∀ {q}, t.node q ≠ some .dir → p ≠ q := by
    intro q hq
    rintro rfl
    exact hq hp
  cases hends with
  | notOpened => exact hp
  | givenUp htmp hdir hown hnode hinode => rw [hnode, update_of_ne (hne hdir), hp]
  | saved htmp hdir hown hq hqdir hnode hinode hbytes =>
    rw [hnode, update_of_ne (hne hqdir), update_of_ne (hne hdir), hp]

/-- What the part from the temporary on is to do: fail and change nothing, or save all bytes. -/
def Does (t : Files) (full : Path) (data : List UInt8) (t' : Files) (r : CacheResult Unit) : Prop :=
  match r with
  | .error _ => SameContents t t'
  | .ok () => ∃ q, resolve t' full = some q ∧ t'.content q = some data

/-- A given up temporary leaves no trace just if nothing was there, or what is there now. -/
theorem traceless_iff {τ : List Entry} {i : Nat} {t' : Files} (ho : Opened t full τ i)
    (hnode : t'.node = update t.node τ (if f.removeFails then some (.file i) else none))
    (hinode : ∀ j, j ≠ i → t'.inode j = t.inode j)
    (hbytes : (t'.inode i).bytes = written data f) :
    SameContents t t' ↔ Traceless t full data f := by
  have hothers : ∀ p, p ≠ τ → (t'.node p = some .dir ↔ t.node p = some .dir) ∧
      t'.content p = t.content p := by
    intro p hp
    have hsame : t'.node p = t.node p := by rw [hnode, update_of_ne hp]
    refine ⟨by rw [hsame], Tree.content_congr hsame fun j hj => hinode j ?_⟩
    rintro rfl
    exact hp (ho.own p hj)
  have htrace : Traceless t full data f ↔
      if f.removeFails then t.content τ = some (written data f) else t.node τ = none := by
    constructor
    · exact fun h => h τ ho.target_eq
    · intro h σ hσ
      obtain rfl := Option.some.inj (ho.target_eq.symm.trans hσ)
      exact h
  rw [htrace]
  have hat : SameContents t t' ↔ t'.content τ = t.content τ := by
    constructor
    · exact fun h => (h τ).2
    · intro h p
      by_cases hp : p = τ
      · subst hp
        refine ⟨iff_of_false ?_ ho.not_dir, h⟩
        rw [hnode, update_self]
        split <;> simp
      · exact hothers p hp
  rw [hat]
  cases hr : f.removeFails with
  | true =>
    have hcontent : t'.content τ = some (written data f) := by
      rw [Tree.content_eq_some]
      exact ⟨i, by rw [hnode, hr, update_self]; rfl, hbytes⟩
    rw [hcontent, if_pos rfl]
    exact eq_comm
  | false =>
    have hcontent : t'.content τ = none := by
      rw [Tree.content, hnode, hr, update_self]
      rfl
    rw [hcontent, if_neg (by simp), eq_comm, ← Option.not_isSome_iff_eq_none, Tree.content_isSome]
    constructor
    · intro h
      cases hnode' : t.node τ with
      | none => rfl
      | some n =>
        cases n with
        | dir => exact absurd hnode' ho.not_dir
        | file j => exact absurd ⟨j, hnode'⟩ h
    · rintro h ⟨j, hj⟩
      rw [h] at hj
      cases hj

/-- What is then at the target is the data exactly when all of it was written. -/
theorem does_saved_iff {q : List Entry} {i : Nat} {t' : Files} (hq : cString full = plain q)
    (hnode : t'.node q = some (.file i))
    (hbytes : (t'.inode i).bytes = data.take (f.flushStops.getD data.length)) :
    (∃ q, resolve t' full = some q ∧ t'.content q = some data) ↔ Whole data f := by
  have hresolve : resolve t' full = some q := by
    rw [resolve_of_cString hq, hnode]
    rfl
  have hcontent : t'.content q = some (data.take (f.flushStops.getD data.length)) :=
    Tree.content_eq_some.2 ⟨i, hnode, hbytes⟩
  rw [Whole, ← List.take_eq_self_iff]
  constructor
  · rintro ⟨p, hp, hdata⟩
    obtain rfl := Option.some.inj (hresolve.symm.trans hp)
    exact Option.some.inj (hcontent.symm.trans hdata)
  · intro hwhole
    exact ⟨q, hresolve, by rw [hcontent, hwhole]⟩

/-- **Saving into a folder that is there** does what it should exactly in the clean cases. -/
theorem saveTmp_clean_iff (hn : Normal full) (hne : full ≠ []) (now : Int) :
    Does t full data (saveTmp t full data f now).1 (saveTmp t full data f now).2 ↔
      CleanTmp t full data f := by
  rw [CleanTmp]
  by_cases ho : Opens t full f
  · by_cases hc : Completes t full f
    · obtain ⟨τ, q, i, -, hok, hq, -, hnode, hbytes⟩ := saveTmp_saved hn hne ho hc data now
      rw [hok, Does, does_saved_iff hq (by rw [hnode, update_self]) hbytes]
      exact ⟨fun h _ => ⟨fun _ => h, fun hnot => absurd hc hnot⟩, fun h => (h ho).1 hc⟩
    · obtain ⟨τ, i, hopened, herror, hnode, hinode, hbytes⟩ :=
        saveTmp_givenUp hne ho hc data now
      rw [herror, Does, traceless_iff hopened hnode hinode hbytes]
      exact ⟨fun h _ => ⟨fun hyes => absurd hyes hc, fun _ => h⟩, fun h => (h ho).2 hc⟩
  · rw [saveTmp_notOpened ho]
    exact iff_of_true (SameContents.refl t) fun h => absurd h ho

/-! ## The parent directory -/

/-- The first directory that is to be made. -/
def firstMissing (t : Files) (parent : Path) : Option Path :=
  (parent.inits.filter fun p => ¬ pathExists t p).head?

/-- No directory is made: the first one is refused. -/
def NoneMade (t : Files) (parent : Path) (stops : Option Nat) : Prop :=
  stops = some 0 ∨ ∀ path, firstMissing t parent = some path → mkdirPath t path = none

/-- Creating a directory leaves the others. -/
theorem createDirectory_dirs {t' : Files} {path : Path} {created : Bool} {p : List Entry}
    (hp : t.node p = some .dir) (h : createDirectory t path = some (t', created)) :
    t'.node p = some .dir := by
  rw [createDirectory] at h
  split at h
  · next t₁ hm =>
    cases h
    obtain ⟨q, -, hq⟩ := Option.bind_eq_some_iff.1 hm
    obtain ⟨hnone, hnode, -⟩ := Tree.mkdir_some hq
    rw [hnode]
    by_cases hpq : p = q
    · rw [hpq, update_self]
    · rw [update_of_ne hpq, hp]
  · split at h <;> cases h
    exact hp

/-- So does creating several. -/
theorem createMissing_dirs {p : List Entry} {created : Bool} {paths : List Path}
    {stops : Option Nat} (hp : t.node p = some .dir) :
    (createMissing t created paths stops).1.node p = some .dir := by
  induction paths generalizing t created stops with
  | nil => exact hp
  | cons path paths ih =>
    rw [createMissing]
    split
    · exact hp
    · split
      · exact hp
      · next hc => exact ih (createDirectory_dirs hp hc)

/-- When the parent is missing, some directory is to be made. -/
theorem missing_ne_nil {parent : Path} (h : ¬ pathExists t parent) :
    (parent.inits.filter fun p => ¬ pathExists t p) ≠ [] := by
  refine List.ne_nil_of_mem (List.mem_filter.2 ⟨(List.mem_inits _ _).2 List.prefix_rfl, ?_⟩)
  simpa using h

/-- Which directories are made. -/
theorem ensureParent_fst {parent : Path} {stops : Option Nat} (h : ¬ pathExists t parent) :
    (ensureParent t parent stops).1 =
      (createMissing t false (parent.inits.filter fun p => ¬ pathExists t p) stops).1 := by
  rw [ensureParent, if_neg h, createDirectories]
  split
  · next heq => rw [heq]
  · next heq => rw [heq]

/-- A refusal at the first directory leaves the disk as it is. -/
theorem ensureParent_noneMade {parent : Path} {stops : Option Nat} (h : ¬ pathExists t parent)
    (hnone : NoneMade t parent stops) : ensureParent t parent stops = (t, false) := by
  have hfirst : createMissing t false (parent.inits.filter fun p => ¬ pathExists t p) stops =
      (t, none) := by
    obtain ⟨path, paths, hpaths⟩ := List.exists_cons_of_ne_nil (missing_ne_nil h)
    have hpath : ¬ pathExists t path := by
      have hmem : path ∈ parent.inits.filter fun p => ¬ pathExists t p := by
        rw [hpaths]
        exact List.mem_cons_self
      simpa using (List.mem_filter.1 hmem).2
    rw [hpaths, createMissing]
    split
    · rfl
    · next hstops =>
      have hmkdir : mkdirPath t path = none :=
        hnone.resolve_left hstops path (by rw [firstMissing, hpaths, List.head?_cons])
      have hdir : ¬ isDirectory t path := by
        intro hdir
        refine hpath ?_
        rw [isDirectory, decide_eq_true_eq] at hdir
        rw [pathExists, hdir]
        rfl
      rw [createDirectory, hmkdir]
      dsimp only
      rw [if_neg hdir]
  rw [ensureParent, if_neg h, createDirectories, hfirst]

/-- What is made is not taken back. -/
theorem ensureParent_made {parent : Path} {stops : Option Nat} (h : ¬ pathExists t parent)
    (hmade : ¬ NoneMade t parent stops) :
    ∃ p, t.node p = none ∧ (ensureParent t parent stops).1.node p = some .dir := by
  rw [NoneMade, not_or] at hmade
  obtain ⟨hstops, hmkdir⟩ := hmade
  obtain ⟨path, paths, hpaths⟩ := List.exists_cons_of_ne_nil (missing_ne_nil h)
  have hsome : mkdirPath t path ≠ none := by
    intro hnone
    refine hmkdir fun p hp => ?_
    rw [firstMissing, hpaths, List.head?_cons] at hp
    rw [← Option.some.inj hp, hnone]
  obtain ⟨t', ht'⟩ := Option.ne_none_iff_exists'.1 hsome
  obtain ⟨q, -, hq⟩ := Option.bind_eq_some_iff.1 ht'
  obtain ⟨hnone, hnode, -⟩ := Tree.mkdir_some hq
  refine ⟨q, hnone, ?_⟩
  rw [ensureParent_fst h, hpaths, createMissing, if_neg hstops, createDirectory, ht']
  exact createMissing_dirs (by rw [hnode, update_self])

/-! ## The whole save -/

/-- A save fails and changes nothing, or it saves all bytes. -/
def SavesOrNothing (c : Cache) (name : List Char) (data : List UInt8) (f : Faults) (now : Int) :
    Prop :=
  match saveFile c name data f now with
  | (c', .error _) => SameContents c.tree c'.tree ∧ c'.index = c.index
  | (c', .ok ()) => ∀ full, validatePath c name = .ok full →
      ∃ q, resolve c'.tree full = some q ∧ c'.tree.content q = some data

/-- No step fails after something is changed. Where the directory of the target is there, that is
for the part from the temporary on to say; where it is not, the first directory is refused, or
nothing fails at all. -/
def CleanSave (c : Cache) (name : List Char) (data : List UInt8) (f : Faults) : Prop :=
  ∀ full, validatePath c name = .ok full → ¬ TooLarge c data →
    if pathExists c.tree full.parentPath then CleanTmp c.tree full data f
    else NoneMade c.tree full.parentPath f.mkdirStops ∨
      ∃ t, ensureParent c.tree full.parentPath f.mkdirStops = (t, true) ∧ Opens t full f ∧
        Completes t full f ∧ Whole data f

/-- A directory where nothing was is a difference. -/
theorem not_sameContents {t t' : Files} {p : List Entry} (hnone : t.node p = none)
    (hdir : t'.node p = some .dir) : ¬ SameContents t t' := by
  intro h
  have hdir' := (h p).1.1 hdir
  rw [hnone] at hdir'
  cases hdir'

/-- What a save comes to that is neither rejected nor too large. -/
theorem savesOrNothing_accepted {c : Cache} {name : List Char}
    (hv : validatePath c name = .ok full) (hl : ¬ TooLarge c data) (now : Int) :
    SavesOrNothing c name data f now ↔
      match ensureParent c.tree full.parentPath f.mkdirStops with
      | (t, false) => SameContents c.tree t
      | (t, true) =>
        match saveTmp t full data f now with
        | (t', .error _) => SameContents c.tree t'
        | (t', .ok ()) => ∃ q, resolve t' full = some q ∧ t'.content q = some data := by
  rw [SavesOrNothing, saveFile, hv]
  dsimp only
  rw [if_neg hl]
  rcases ensureParent c.tree full.parentPath f.mkdirStops with ⟨t, made⟩
  cases made with
  | false => exact and_iff_left rfl
  | true =>
    dsimp only
    rcases saveTmp t full data f now with ⟨t', r⟩
    cases r with
    | error e => exact and_iff_left rfl
    | ok _ =>
      constructor
      · exact fun h => h full rfl
      · intro h full' hfull
        obtain rfl := Except.ok.inj hfull
        exact h

/-- What the part from the temporary on comes to where a directory was made before: it stays, so
that nothing may fail any more. -/
theorem saveTmp_afterMkdir {t₀ t : Files} (hn : Normal full) (hne : full ≠ [])
    {p : List Entry} (hp : t₀.node p = none) (hmade : t.node p = some .dir) (now : Int) :
    (match saveTmp t full data f now with
      | (t', .error _) => SameContents t₀ t'
      | (t', .ok ()) => ∃ q, resolve t' full = some q ∧ t'.content q = some data) ↔
        Opens t full f ∧ Completes t full f ∧ Whole data f := by
  have hstays : (saveTmp t full data f now).1.node p = some .dir := saveTmp_dirs hn hmade
  by_cases ho : Opens t full f
  · by_cases hc : Completes t full f
    · obtain ⟨τ, q, i, -, hok, hq, -, hnode, hbytes⟩ := saveTmp_saved hn hne ho hc data now
      rw [and_iff_right ho, and_iff_right hc]
      rw [← does_saved_iff hq (by rw [hnode, update_self]) hbytes]
      rcases hsave : saveTmp t full data f now with ⟨t', r⟩
      rw [hsave] at hok
      dsimp only at hok
      rw [hok]
    · obtain ⟨τ, i, -, he, -⟩ := saveTmp_givenUp hne ho hc data now
      rcases hsave : saveTmp t full data f now with ⟨t', r⟩
      rw [hsave] at he hstays
      dsimp only at he hstays
      rw [he]
      exact iff_of_false (not_sameContents hp hstays) fun h => hc h.2.1
  · rw [saveTmp_notOpened ho] at hstays ⊢
    exact iff_of_false (not_sameContents hp hstays) fun h => ho h.1

/-- **A save fails and changes nothing, or saves all bytes**, just where no step fails after
something is changed and the last bytes are not lost. -/
theorem savesOrNothing_iff (c : Cache) (name : List Char) (data : List UInt8) (f : Faults)
    (now : Int) : SavesOrNothing c name data f now ↔ CleanSave c name data f := by
  cases hv : validatePath c name with
  | error e =>
    rw [SavesOrNothing, CleanSave, saveFile, hv]
    exact iff_of_true ⟨SameContents.refl _, rfl⟩ fun full h => by cases h
  | ok full =>
    by_cases hl : TooLarge c data
    · rw [SavesOrNothing, CleanSave, saveFile, hv]
      dsimp only
      rw [if_pos hl]
      exact iff_of_true ⟨SameContents.refl _, rfl⟩ fun _ _ hnot => absurd hl hnot
    obtain ⟨hn, hne⟩ := Concurrent.validatePath_proper hv
    have hcond : CleanSave c name data f ↔
        if pathExists c.tree full.parentPath then CleanTmp c.tree full data f
        else NoneMade c.tree full.parentPath f.mkdirStops ∨
          ∃ t, ensureParent c.tree full.parentPath f.mkdirStops = (t, true) ∧ Opens t full f ∧
            Completes t full f ∧ Whole data f := by
      constructor
      · exact fun h => h full hv hl
      · intro h full' hv' _
        obtain rfl := Except.ok.inj (hv.symm.trans hv')
        exact h
    rw [savesOrNothing_accepted hv hl, hcond]
    by_cases hparent : pathExists c.tree full.parentPath
    · -- nothing is made
      rw [if_pos hparent, ensureParent, if_pos hparent, ← saveTmp_clean_iff hn hne now]
      dsimp only
      rcases saveTmp c.tree full data f now with ⟨t', r⟩
      cases r <;> exact Iff.rfl
    rw [if_neg hparent]
    by_cases hnone : NoneMade c.tree full.parentPath f.mkdirStops
    · rw [ensureParent_noneMade hparent hnone]
      exact iff_of_true (SameContents.refl _) (.inl hnone)
    -- a directory is made, and stays
    obtain ⟨p, hp, hmade⟩ := ensureParent_made hparent hnone
    rw [or_iff_right hnone]
    rcases hensure : ensureParent c.tree full.parentPath f.mkdirStops with ⟨t, made⟩
    rw [hensure] at hmade
    cases made with
    | false =>
      refine iff_of_false (not_sameContents hp hmade) ?_
      rintro ⟨t', ht', -⟩
      cases ht'
    | true =>
      have hright : (∃ t', (t, true) = (t', true) ∧ Opens t' full f ∧ Completes t' full f ∧
          Whole data f) ↔ Opens t full f ∧ Completes t full f ∧ Whole data f := by
        constructor
        · rintro ⟨t', ht', h⟩
          obtain rfl := (Prod.mk.inj ht').1
          exact h
        · exact fun h => ⟨t, rfl, h⟩
      rw [hright]
      exact saveTmp_afterMkdir hn hne hp hmade now

/-- A save under a directory that is not there, whose name ends with a slash: the directory is made,
and the temporary in it cannot be renamed onto it. -/
theorem not_savesOrNothing :
    ¬ ∀ (c : Cache) (name : List Char) (data : List UInt8) (f : Faults) (now : Int),
      SavesOrNothing c name data f now := by
  intro h
  have hsave := h emptyCache ['d', '/'] [1] {} 0
  have herror : (saveFile emptyCache ['d', '/'] [1] {} 0).2 = .error .ioError := by decide
  have hdir : (saveFile emptyCache ['d', '/'] [1] {} 0).1.tree.node
      [⟨['c'], by decide⟩, ⟨['d'], by decide⟩] = some .dir := by decide
  rw [SavesOrNothing] at hsave
  rcases hresult : saveFile emptyCache ['d', '/'] [1] {} 0 with ⟨c', r⟩
  rw [hresult] at hsave herror hdir
  obtain rfl : r = .error .ioError := herror
  exact not_sameContents (by decide) hdir hsave.1

end MyCache
