import FastCppServer.Cache.Disk
import FastCppServer.Lib.Transition

/-!
# The index and the disk

`Exists` answers from the index, which a scan keys by the path relative to the root and a save by
the caller's spelling. The two agree on canonical names, and this is what the operations keep
(`InSync`): a canonical name is in the index exactly where a regular file is at its path, and no
other name is. Two kinds of call break it, a call that moves or removes a file under another
spelling of its name (`dotted_save_unseen`), and a save over a file that has the name of its
temporary; `Harmless` leaves these out, and `existsFile_iff` says what `Exists` then answers.
-/

namespace MyCache

open FileTree Function Transition

/-! ## The scan -/

/-- What is in the index after all have been inserted. -/
theorem mem_foldl_insert {α : Type} (key : α → List Char) (info : α → FileInfo) (ps : List α)
    (index : Index) (n : List Char) :
    n ∈ ps.foldl (fun index p => index.insert (key p) (info p)) index ↔
      n ∈ index ∨ ∃ p ∈ ps, key p = n := by
  induction ps generalizing index with
  | nil => simp
  | cons p ps ih =>
    rw [List.foldl_cons, ih, AList.mem_insert]
    simp only [List.mem_cons, exists_eq_or_imp, eq_comm (a := key p)]
    tauto

/-- The files under the root are those with a name. -/
theorem mem_filesUnder {root p : List Entry} {t : Files} :
    p ∈ filesUnder root t ↔ t.IsFile p ∧ ∃ es, es ≠ [] ∧ p = root ++ es := by
  rw [filesUnder, List.mem_filter, Tree.mem_files, decide_eq_true_iff]
  refine and_congr_right fun _ => ?_
  constructor
  · rintro ⟨⟨es, rfl⟩, hne⟩
    exact ⟨es, fun h => hne (by simp [h]), rfl⟩
  · rintro ⟨es, hes, rfl⟩
    exact ⟨List.prefix_append _ _, by simp [hes]⟩

/-- A scan has the canonical names of the regular files. -/
theorem mem_scan {root : List Entry} {t : Files} {n : List Char} :
    n ∈ scan root t ↔ Canonical n ∧ t.IsFile (root ++ entries n) := by
  rw [scan, mem_foldl_insert]
  constructor
  · rintro (h | ⟨p, hp, rfl⟩)
    · simp at h
    obtain ⟨hfile, es, hes, rfl⟩ := mem_filesUnder.1 hp
    rw [relativeName, List.drop_left, entries_nameOf hes]
    exact ⟨canonical_nameOf hes, hfile⟩
  · rintro ⟨hn, hfile⟩
    refine .inr ⟨root ++ entries n, mem_filesUnder.2 ⟨hfile, _, hn.entries_ne_nil, rfl⟩, ?_⟩
    rw [relativeName, List.drop_left, hn.nameOf_entries]

/-! ## The invariant -/

/-- The index has the canonical names of the regular files, and no others. -/
def InSync (c : Cache) : Prop :=
  ∀ n, n ∈ c.index ↔ Canonical n ∧ c.tree.IsFile (c.root ++ entries n)

/-- **A scan brings the index in step** with the files. -/
theorem refreshIndex_inSync (c : Cache) : InSync (refreshIndex c) := fun _ => mem_scan

/-- Directories that come and go leave the index right. -/
theorem InSync.sameFiles {c : Cache} (h : InSync c) {t : Files} (ht : c.tree.SameFiles t) :
    InSync { c with tree := t } := by
  intro n
  rw [h n]
  exact and_congr_right fun _ => (ht.isFile _).symm

section
variable {t t' : Files} {es : List Entry} {e : Entry} {data : List UInt8} {f : Faults}

/-- The temporary of a file stands beside it. -/
theorem target_tmp {τ : List Entry} (h : target t (plain (es ++ [e])).tmpPath = some τ) :
    τ = es ++ [tmpEntry e] := by
  rw [tmpPath_plain, target_plain] at h
  split at h <;> cases h
  rfl

/-- A save that is given up, and whose temporary could be removed, leaves every file in place. -/
theorem SaveTmpEnds.isFile_error {err : CacheErrorCode}
    (h : SaveTmpEnds t (plain (es ++ [e])) data f t' (.error err)) (hrm : f.removeFails = false)
    (hno : ¬ t.IsFile (es ++ [tmpEntry e])) (p : List Entry) : t'.IsFile p ↔ t.IsFile p := by
  cases h with
  | notOpened => rfl
  | givenUp hτ hdir hown hnode hinode =>
    cases target_tmp hτ
    simp only [hrm, Bool.false_eq_true, if_false] at hnode
    rw [Tree.IsFile, hnode, Tree.exists_file_update_none]
    refine and_iff_right_iff_imp.2 ?_
    rintro hp rfl
    exact hno hp

/-- A save that succeeds adds the file at its target. -/
theorem SaveTmpEnds.isFile_ok (h : SaveTmpEnds t (plain (es ++ [e])) data f t' (.ok ()))
    (hno : ¬ t.IsFile (es ++ [tmpEntry e])) (p : List Entry) :
    t'.IsFile p ↔ p = es ++ [e] ∨ t.IsFile p := by
  cases h with
  | saved hτ hdir hown hq hqdir hnode hinode hbytes =>
    cases target_tmp hτ
    rw [cString_plain] at hq
    rw [plain_injective hq, Tree.IsFile, hnode, Tree.exists_file_update_file,
      Tree.exists_file_update_none]
    refine or_congr_right (and_iff_right_iff_imp.2 ?_)
    rintro hp rfl
    exact hno hp

end

/-- A save of a canonical name: the file at its path comes to be, or nothing does. -/
theorem saveFile_inSync {c : Cache} (h : InSync c) {name : List Char} {full : Path}
    (hv : validatePath c name = .ok full) (hn : Canonical name)
    (htmp : ¬ isRegularFile c.tree full.tmpPath) (data : List UInt8) {f : Faults}
    (hrm : f.removeFails = false) (now : Int) : InSync (saveFile c name data f now).1 := by
  obtain ⟨es, e, he⟩ : ∃ es e, c.root ++ entries name = es ++ [e] := by
    rcases List.eq_nil_or_concat (c.root ++ entries name) with hc | ⟨es, e, hc⟩
    · exact absurd (List.append_eq_nil_iff.1 hc).2 hn.entries_ne_nil
    · exact ⟨es, e, by rw [hc, List.concat_eq_append]⟩
  have hfull : full = plain (es ++ [e]) := by rw [validatePath_canonical hv hn, he]
  have hnofile : ¬ c.tree.IsFile (es ++ [tmpEntry e]) := by
    rwa [hfull, tmpPath_plain, isRegularFile_plain] at htmp
  have hparent := ensureParent_sameFiles c.tree full.parentPath f.mkdirStops
  rw [saveFile, hv]
  dsimp only
  split
  · exact h
  split
  next t ht =>
    rw [ht] at hparent
    exact h.sameFiles hparent
  next t ht =>
  rw [ht] at hparent
  have hends := saveTmp_ends (t := t) (validatePath_normal hv) data f now
  have hno : ¬ t.IsFile (es ++ [tmpEntry e]) := fun hc => hnofile ((hparent.isFile _).1 hc)
  rw [hfull] at hends
  split
  next t' err hs =>
    rw [hfull] at hs
    rw [hs] at hends
    intro n
    rw [h n]
    exact and_congr_right fun _ =>
      ((hends.isFile_error hrm hno _).trans (hparent.isFile _)).symm
  next t' hs =>
    rw [hfull] at hs
    rw [hs] at hends
    intro n
    rw [AList.mem_insert, h n]
    refine Iff.trans ?_ (and_congr_right fun _ => (hends.isFile_ok hno _).symm)
    rw [← he, List.append_cancel_left_eq, hparent.isFile]
    constructor
    · rintro (rfl | ⟨hc, hfile⟩)
      · exact ⟨hn, .inl rfl⟩
      · exact ⟨hc, .inr hfile⟩
    · rintro ⟨hc, heq | hfile⟩
      · exact .inl (hc.ext hn heq)
      · exact .inr ⟨hc, hfile⟩

/-- A deletion takes away the file at the path of a canonical name, or nothing that an index has. -/
theorem deleteFile_inSync {c : Cache} (h : InSync c) {name : List Char} {full : Path}
    (hv : validatePath c name = .ok full) (hn : Canonical name ∨ ¬ isRegularFile c.tree full)
    (removeFails : Bool) : InSync (deleteFile c name removeFails).1 := by
  rw [deleteFile, hv]
  dsimp only
  split
  · exact h
  split
  next => exact h
  next t hr =>
  split at hr
  · cases hr
  obtain ⟨q, hq, hrem⟩ := removePath_some hr
  intro n
  rw [AList.mem_erase, h n, Tree.remove_isFile hrem]
  rcases hn with hn | hn
  · rw [validatePath_canonical hv hn, resolve_plain] at hq
    split at hq <;> cases hq
    rw [ne_eq, ne_eq, List.append_cancel_left_eq]
    constructor
    · rintro ⟨hne, hc, hfile⟩
      exact ⟨hc, fun he => hne (hc.ext hn he), hfile⟩
    · rintro ⟨hc, hne, hfile⟩
      exact ⟨fun he => hne (by rw [he]), hc, hfile⟩
  · have hnq : ¬ c.tree.IsFile q := by
      rintro ⟨i, hi⟩
      exact hn (by simp [isRegularFile, status, hq, hi])
    constructor
    · rintro ⟨-, hc, hfile⟩
      exact ⟨hc, fun he => hnq (he ▸ hfile), hfile⟩
    · rintro ⟨hc, -, hfile⟩
      refine ⟨?_, hc, hfile⟩
      rintro rfl
      rw [validatePath_canonical hv hc, isRegularFile_plain] at hn
      exact hn hfile

/-- Creating a directory changes no file. -/
theorem createSubdirectory_sameFiles (c : Cache) (folder newFolder : List Char)
    (mkdirFails : Bool) :
    ∃ t, c.tree.SameFiles t ∧
      (createSubdirectory c folder newFolder mkdirFails).1 = { c with tree := t } := by
  have hrefl : ∃ t, c.tree.SameFiles t ∧ c = { c with tree := t } :=
    ⟨c.tree, Tree.SameFiles.refl _, rfl⟩
  unfold createSubdirectory
  split
  · exact hrefl
  split
  · exact hrefl
  split
  · exact hrefl
  split
  · exact hrefl
  split
  · exact hrefl
  split
  · exact hrefl
  dsimp only
  split
  · exact hrefl
  split
  · exact hrefl
  split
  next t hc =>
    split at hc
    · cases hc
    · exact ⟨t, createDirectory_sameFiles hc, rfl⟩
  next t hc =>
    split at hc
    · cases hc
    · exact ⟨t, createDirectory_sameFiles hc, rfl⟩
  next => exact hrefl

/-! ## Runs -/

/-- A call or a completed scan. -/
inductive Op where
  | save (name : List Char) (data : List UInt8) (f : Faults) (now : Int)
  | delete (name : List Char) (removeFails : Bool)
  | createSubdirectory (folder newFolder : List Char) (mkdirFails : Bool)
  | refresh

/-- What an operation leaves of the cache. -/
def Cache.apply (c : Cache) : Op → Cache
  | .save name data f now => (saveFile c name data f now).1
  | .delete name removeFails => (deleteFile c name removeFails).1
  | .createSubdirectory folder newFolder mkdirFails =>
    (MyCache.createSubdirectory c folder newFolder mkdirFails).1
  | .refresh => refreshIndex c

/-- Every operation returns. -/
def step (c : Cache) (op : Op) : Option Cache := some (c.apply op)

/-- What a call that reaches a regular file has to respect: the canonical spelling; and a save, that
no regular file has the name of its temporary, and that a temporary can be removed. -/
inductive Harmless (c : Cache) : Op → Prop where
  | rejected {name data f now e} (h : validatePath c name = .error e) :
      Harmless c (.save name data f now)
  | tooLarge {name data f now} (h : TooLarge c data) : Harmless c (.save name data f now)
  | save {name data f now} (full : Path) (h : validatePath c name = .ok full) (hn : Canonical name)
      (htmp : ¬ isRegularFile c.tree full.tmpPath) (hrm : f.removeFails = false) :
      Harmless c (.save name data f now)
  | notDeleted {name removeFails e} (h : validatePath c name = .error e) :
      Harmless c (.delete name removeFails)
  | delete {name removeFails} (full : Path) (h : validatePath c name = .ok full)
      (hn : Canonical name ∨ ¬ isRegularFile c.tree full) : Harmless c (.delete name removeFails)
  | createSubdirectory {folder newFolder mkdirFails} :
      Harmless c (.createSubdirectory folder newFolder mkdirFails)
  | refresh : Harmless c .refresh

/-- Too large a file changes nothing. -/
theorem saveFile_tooLarge {c : Cache} {data : List UInt8} (h : TooLarge c data) (name : List Char)
    (f : Faults) (now : Int) : (saveFile c name data f now).1 = c := by
  rw [saveFile]
  split
  · rfl
  · rw [if_pos h]

/-- Every harmless operation keeps the index in step. -/
theorem apply_inSync {c : Cache} (h : InSync c) {op : Op} (hop : Harmless c op) :
    InSync (c.apply op) := by
  cases hop with
  | rejected he =>
    rw [Cache.apply, saveFile, he]
    exact h
  | tooLarge hl =>
    rw [Cache.apply, saveFile_tooLarge hl]
    exact h
  | save full hv hn htmp hrm => exact saveFile_inSync h hv hn htmp _ hrm _
  | notDeleted he =>
    rw [Cache.apply, deleteFile, he]
    exact h
  | delete full hv hn => exact deleteFile_inSync h hv hn _
  | createSubdirectory =>
    obtain ⟨t, ht, hc⟩ := createSubdirectory_sameFiles c _ _ _
    rw [Cache.apply, hc]
    exact h.sameFiles ht
  | refresh => exact refreshIndex_inSync c

/-- So does every run of them. -/
theorem run_inSync {c c' : Cache} (h : InSync c) {ops : List Op} (hrun : run step c ops = some c')
    (hops : Along step Harmless c ops) : InSync c' := by
  refine run_along (P := InSync) (fun c op c' hop hc hs => ?_) h hops hrun
  cases hs
  exact apply_inSync hc hop

/-- What `Exists` answers while the index is right: the truth for a canonical name, and that there
is no file for every other. -/
theorem InSync.existsFile {c : Cache} (h : InSync c) {name : List Char} {full : Path}
    (hv : validatePath c name = .ok full) :
    existsFile c name = .ok (decide (Canonical name ∧ isRegularFile c.tree full)) := by
  rw [MyCache.existsFile, hv]
  have hiff : name ∈ c.index ↔ Canonical name ∧ isRegularFile c.tree full := by
    rw [h name]
    refine and_congr_right fun hn => ?_
    rw [validatePath_canonical hv hn, isRegularFile_plain]
  simp [hiff]

/-- **The index agrees with the disk.** In every run of saves, deletions, new directories and scans
in which a call that reaches a regular file spells its name canonically, and a save finds no regular
file under the name of its temporary and can remove the temporary: `Exists` of an accepted name
tells whether a regular file is at its path, exactly where the name is spelled canonically or there
is none; and two such names of one file get one answer. -/
theorem existsFile_iff {root : List Entry} {maxFileSize : Nat} {retention : Int} {t : Files}
    {ops : List Op} {c : Cache}
    (hrun : run step (initialised root maxFileSize retention t) ops = some c)
    (hops : Along step Harmless (initialised root maxFileSize retention t) ops) :
    (∀ name full, validatePath c name = .ok full →
      ((existsFile c name = .ok true ↔ isRegularFile c.tree full) ↔
        Canonical name ∨ ¬ isRegularFile c.tree full)) ∧
    ∀ m n full, validatePath c m = .ok full → validatePath c n = .ok full →
      (Canonical m ∨ ¬ isRegularFile c.tree full) → (Canonical n ∨ ¬ isRegularFile c.tree full) →
      existsFile c m = existsFile c n := by
  have h := run_inSync (refreshIndex_inSync _) hrun hops
  constructor
  · intro name full hv
    rw [h.existsFile hv]
    by_cases hreg : isRegularFile c.tree full <;> by_cases hn : Canonical name <;> simp [hreg, hn]
  · intro m n full hm hn hm' hn'
    rw [h.existsFile hm, h.existsFile hn]
    by_cases hreg : isRegularFile c.tree full <;> simp_all

/-! ## Spellings -/

/-- The file system with an empty directory `/c`. -/
def emptyRoot : Files := (Tree.empty.mkdir [⟨['c'], by decide⟩]).getD Tree.empty

/-- The cache on it. -/
def emptyCache : Cache := initialised [⟨['c'], by decide⟩] 0 0 emptyRoot

/-- A save of `a`, its deletion, a deletion under another spelling once it is gone, and a save
again. -/
def plainOps : List Op :=
  [.save ['a'] [1] {} 0, .delete ['a'] false, .delete ['.', '/', 'a'] false, .save ['a'] [2] {} 1]

/-- A run of harmless operations. -/
theorem harmless_plainOps : Along step Harmless emptyCache plainOps := by
  refine ⟨.save [['c'], ['a']] (by decide) (by decide) (by decide) rfl, fun c h => ?_⟩
  cases h
  refine ⟨.delete [['c'], ['a']] (by decide) (.inl (by decide)), fun c h => ?_⟩
  cases h
  refine ⟨.delete [['c'], ['a']] (by decide) (.inr (by decide)), fun c h => ?_⟩
  cases h
  exact ⟨.save [['c'], ['a']] (by decide) (by decide) (by decide) rfl, fun _ _ => trivial⟩

/-- Behind it the index and the disk agree on the file. -/
theorem existsFile_iff_plainOps : ∃ c, run step emptyCache plainOps = some c ∧
    (existsFile c ['a'] = .ok true ↔ isRegularFile c.tree [['c'], ['a']]) := by
  obtain ⟨h, -⟩ := existsFile_iff (c := ((((emptyCache.apply (.save ['a'] [1] {} 0)).apply
    (.delete ['a'] false)).apply (.delete ['.', '/', 'a'] false)).apply (.save ['a'] [2] {} 1)))
    rfl harmless_plainOps
  exact ⟨_, rfl, (h ['a'] [['c'], ['a']] (by decide)).2 (.inl (by decide))⟩

/-- **A save under another spelling is not seen.** `./a` is saved, and `a`, the same file, does not
exist. -/
theorem dotted_save_unseen :
    ¬ ∀ (root : List Entry) (maxFileSize : Nat) (retention : Int) (t : Files) (ops : List Op)
      (c : Cache), run step (initialised root maxFileSize retention t) ops = some c →
      ∀ name full, validatePath c name = .ok full →
        (existsFile c name = .ok true ↔ isRegularFile c.tree full) := by
  intro h
  have hiff := h [⟨['c'], by decide⟩] 0 0 emptyRoot [.save ['.', '/', 'a'] [1] {} 0] _ rfl ['a']
    [['c'], ['a']] (by decide)
  have hno : existsFile (emptyCache.apply (.save ['.', '/', 'a'] [1] {} 0)) ['a'] = .ok false := by
    decide
  have hfile : isRegularFile (emptyCache.apply (.save ['.', '/', 'a'] [1] {} 0)).tree
      [['c'], ['a']] := by decide
  cases hno.symm.trans (hiff.2 hfile)

end MyCache
