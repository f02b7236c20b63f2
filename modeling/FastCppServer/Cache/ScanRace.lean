import FastCppServer.Cache.Concurrent
import FastCppServer.Cache.Index

/-!
# Calls against the scan

A scan collects a new index while the calls go on, and swaps it in at its end; what a call has put
in the old index meanwhile is gone (`scan_loses_save`). What keeps `Exists` true to the calls is
that no rename and no removal happens between the begin of a scan and its swap, and that between the
disk step of a call and its index step no call of the other kind, and no sweep, takes its disk step
on the name (`Orderly`). The names in use are canonical, and none is the temporary of another
(`Apart`).

Under this condition a name settled to be there has its file and is in the index, and one settled to
be gone has neither (`Inv`). Every step of a call is one of five effects on the names in use
(`acts_effect`), and the invariant is kept effect by effect.
-/

namespace MyCache.Concurrent

open FileTree Function Transition

/-! ## The entries of a name -/

/-- The entry of a name. -/
def fileOf (root : List Entry) (name : List Char) : List Entry := root ++ entries name

/-- The entry of its temporary. -/
def tmpOf (root : List Entry) (name : List Char) : List Entry :=
  (fileOf root name).dropLast ++ (fileOf root name).getLast?.toList.map tmpEntry

/-- The names in use are canonical; none is the temporary of a name in use, or lies under it. -/
structure Apart (U : List Char → Prop) : Prop where
  canonical : ∀ n, U n → Canonical n
  tmp : ∀ m n, U m → U n → ¬ (pieces m : Path).tmpPath <+: pieces n

section
variable {U : List Char → Prop} {root : List Entry} {m n : List Char}

/-- The temporary of a name is where its file is, under another entry. -/
theorem fileOf_concat (root : List Entry) (hn : Canonical n) :
    ∃ es e, fileOf root n = es ++ [e] ∧ tmpOf root n = es ++ [tmpEntry e] := by
  rcases List.eq_nil_or_concat (fileOf root n) with hc | ⟨es, e, hc⟩
  · exact absurd (List.append_eq_nil_iff.1 hc).2 hn.entries_ne_nil
  · rw [List.concat_eq_append] at hc
    exact ⟨es, e, hc, by rw [tmpOf, hc]; simp⟩

/-- Two canonical names with one file are one name. -/
theorem fileOf_inj (hm : Canonical m) (hn : Canonical n) (h : fileOf root m = fileOf root n) :
    m = n := hm.ext hn (List.append_cancel_left h)

/-- The path of a temporary, by that of its file. -/
theorem plain_tmpOf (hn : Canonical n) :
    plain (tmpOf root n) = (plain (fileOf root n)).tmpPath := by
  obtain ⟨es, e, hf, ht⟩ := fileOf_concat root hn
  rw [hf, ht, tmpPath_plain]

/-- The temporary of a longer path. -/
theorem tmpPath_append {p q : Path} (hq : q ≠ []) : (p ++ q : Path).tmpPath = p ++ q.tmpPath := by
  rw [Path.tmpPath, List.dropLast_append_of_ne_nil hq, List.getLast?_append_of_ne_nil _ hq,
    List.append_assoc]
  rfl

/-- No name in use lies under a temporary of another. -/
theorem Apart.not_prefix (hU : Apart U) (root : List Entry) (hm : U m) (hn : U n) :
    ¬ tmpOf root m <+: fileOf root n := by
  intro h
  have hp : plain (tmpOf root m) <+: plain (fileOf root n) := h.map Subtype.val
  rw [plain_tmpOf (hU.canonical m hm), fileOf, fileOf, plain_append, plain_append,
    (hU.canonical m hm).plain_entries, (hU.canonical n hn).plain_entries,
    tmpPath_append (pieces_ne_nil m)] at hp
  exact hU.tmp m n hm hn ((List.prefix_append_right_inj _).1 hp)

/-- No name in use is a temporary of another. -/
theorem Apart.ne (hU : Apart U) (root : List Entry) (hm : U m) (hn : U n) :
    fileOf root n ≠ tmpOf root m := by
  intro h
  refine hU.not_prefix root hm hn ?_
  rw [h]

end

/-! ## What a step does to the names in use -/

section
variable {U : List Char → Prop} {root : List Entry} {t t' : Files}

/-- The files of the names in use after a step that has done this. -/
def TreeEffect (U : List Char → Prop) (root : List Entry) (t t' : Files) : Option Event → Prop
  | some (.stored m) => ∀ n, U n → (t'.IsFile (fileOf root n) ↔ n = m ∨ t.IsFile (fileOf root n))
  | some (.removed m) => ∀ n, U n → (t'.IsFile (fileOf root n) ↔ n ≠ m ∧ t.IsFile (fileOf root n))
  | _ => ∀ n, U n → ∀ i, t'.node (fileOf root n) = some (.file i) ↔
      t.node (fileOf root n) = some (.file i)

/-- No temporary has become a directory. -/
def TmpsKept (U : List Char → Prop) (root : List Entry) (t t' : Files) : Prop :=
  ∀ n, U n → t.node (tmpOf root n) ≠ some .dir → t'.node (tmpOf root n) ≠ some .dir

/-- The index after a step that has done this. -/
def IndexEffect (index index' : Index) : Option Event → Prop
  | some (.saved m) => ∀ n, n ∈ index' ↔ n = m ∨ n ∈ index
  | some (.deleted m) => ∀ n, n ∈ index' ↔ n ≠ m ∧ n ∈ index
  | _ => index' = index

/-- The path of a call is that of its name, which is in use. -/
def Known (U : List Char → Prop) (root : List Entry) (name : List Char) (full : Path) : Prop :=
  U name ∧ full = plain (fileOf root name)

/-- What a client relies on between its steps: with a temporary open, that it has not become a
directory; between the disk step and the index step, that the disk is still as it left it. -/
def PhaseOk (U : List Char → Prop) (root : List Entry) (t : Files) : Phase → Prop
  | .returned _ _ => True
  | .saveCheck name _ | .deleteCheck name => U name
  | .saveParent w | .saveOpen w | .saveRemove w => Known U root w.name w.full
  | .saveMkdir w missing _ => Known U root w.name w.full ∧ ∀ p ∈ missing, p <+: w.full.parentPath
  | .saveWrite w _ _ | .saveClose w _ _ | .saveRename w _ _ =>
    Known U root w.name w.full ∧ t.node (tmpOf root w.name) ≠ some .dir
  | .saveInfo w | .saveIndex w _ => Known U root w.name w.full ∧ t.IsFile (fileOf root w.name)
  | .deleteExists name full | .deleteRemove name full => Known U root name full
  | .deleteIndex name full => Known U root name full ∧ ¬ t.IsFile (fileOf root name)

/-- The path of a call leads to the file of its name. -/
theorem Known.target_full {name : List Char} {full : Path} (h : Known U root name full)
    (hU : Apart U) {q : List Entry} (hq : target t full = some q) : q = fileOf root name := by
  obtain ⟨es, e, hf, -⟩ := fileOf_concat root (hU.canonical name h.1)
  rw [h.2, hf, target_plain] at hq
  split at hq <;> cases hq
  rw [hf]

/-- And its temporary to that of the name. -/
theorem Known.target_tmp {name : List Char} {full : Path} (h : Known U root name full)
    (hU : Apart U) {q : List Entry} (hq : target t full.tmpPath = some q) :
    q = tmpOf root name := by
  obtain ⟨es, e, hf, ht⟩ := fileOf_concat root (hU.canonical name h.1)
  rw [h.2, hf] at hq
  rw [MyCache.target_tmp hq, ht]

/-- A change elsewhere has no effect on the names in use. -/
theorem TreeEffect.of_update {p : List Entry} {o : Option Node}
    (hp : ∀ n, U n → fileOf root n ≠ p) (h : t'.node = update t.node p o) :
    TreeEffect U root t t' none := by
  intro n hn i
  rw [h, update_of_ne (hp n hn)]

/-- A change that makes no directory keeps the temporaries. -/
theorem TmpsKept.of_update {p : List Entry} {o : Option Node} (ho : o ≠ some .dir)
    (h : t'.node = update t.node p o) : TmpsKept U root t t' := by
  intro n _ hdir
  rw [h]
  rcases eq_or_ne (tmpOf root n) p with rfl | hne
  · rwa [update_self]
  · rwa [update_of_ne hne]

/-- A missing parent that is made is above the entry of the name. -/
theorem mkdir_effect (hU : Apart U) {w : Save} (hw : Known U root w.name w.full) {path : Path}
    (hpath : path <+: w.full.parentPath) {created : Bool}
    (h : createDirectory t path = some (t', created)) :
    TreeEffect U root t t' none ∧ TmpsKept U root t t' := by
  refine ⟨fun n _ i => (createDirectory_sameFiles h).2 _ i, fun m hm hdir => ?_⟩
  rw [createDirectory] at h
  split at h
  next t₁ hmk =>
    cases h
    obtain ⟨q, hq, hput⟩ := Option.bind_eq_some_iff.1 hmk
    obtain ⟨es, e, hf, -⟩ := fileOf_concat root (hU.canonical w.name hw.1)
    rw [hw.2, hf, parentPath_plain] at hpath
    obtain ⟨fs, hfs, rfl⟩ := List.prefix_map_iff.1 hpath
    have hqfs := cString_of_target (normal_plain fs) hq
    rw [cString_plain] at hqfs
    have hne : tmpOf root m ≠ q := by
      rintro rfl
      refine hU.not_prefix root hm hw.1 ?_
      rw [hf, ← plain_injective hqfs]
      exact hfs.trans (List.prefix_append es [e])
    rwa [(Tree.mkdir_some hput).2.1, update_of_ne hne]
  next =>
    split at h <;> cases h
    exact hdir

/-- The opened temporary is the one of the name. -/
theorem open_effect (hU : Apart U) {w : Save} (hw : Known U root w.name w.full) {now : Int}
    {inode : Nat} (h : openPath t w.full.tmpPath now = some (t', inode)) :
    TreeEffect U root t t' none ∧ TmpsKept U root t t' ∧
      t'.node (tmpOf root w.name) ≠ some .dir := by
  obtain ⟨q, hq, ho⟩ := Option.bind_eq_some_iff.1 h
  obtain ⟨-, -, hnode, -⟩ := Tree.openTrunc_some ho
  cases hw.target_tmp hU hq
  refine ⟨.of_update (fun n hn => hU.ne root hw.1 hn) hnode, .of_update (by simp) hnode, ?_⟩
  simp [hnode]

/-- The temporary, no directory, is moved to the entry of the name. -/
theorem rename_effect (hU : Apart U) {w : Save} (hw : Known U root w.name w.full)
    (hdir : t.node (tmpOf root w.name) ≠ some .dir)
    (h : renamePath t w.full.tmpPath w.full = some t') :
    TreeEffect U root t t' (some (.stored w.name)) ∧ TmpsKept U root t t' := by
  obtain ⟨p, hp, h⟩ := Option.bind_eq_some_iff.1 h
  obtain ⟨q, hq, h⟩ := Option.bind_eq_some_iff.1 h
  cases hw.target_tmp hU hp
  cases hw.target_full hU hq
  obtain ⟨i, hi⟩ : t.IsFile (tmpOf root w.name) := by
    cases hn : t.node (tmpOf root w.name) with
    | none => exact absurd hn (Tree.rename_source h)
    | some node =>
      cases node with
      | dir => exact absurd hn hdir
      | file i => exact ⟨i, hn⟩
  obtain ⟨-, hnode, -⟩ := Tree.rename_file hi h
  constructor
  · intro n hn
    rw [Tree.IsFile, hnode, Tree.exists_file_update_file, Tree.exists_file_update_none]
    refine or_congr ⟨fileOf_inj (hU.canonical n hn) (hU.canonical _ hw.1), fun he => by rw [he]⟩ ?_
    exact and_iff_right (hU.ne root hw.1 hn)
  · intro n _ hn
    rw [hnode]
    rcases eq_or_ne (tmpOf root n) (fileOf root w.name) with he | he
    · simp [he]
    rw [update_of_ne he]
    rcases eq_or_ne (tmpOf root n) (tmpOf root w.name) with he | he
    · simp [he]
    · rwa [update_of_ne he]

/-- Removing a temporary has no effect on the names in use. -/
theorem removeTmp_effect (hU : Apart U) {w : Save} (hw : Known U root w.name w.full)
    (fails : Bool) :
    TreeEffect U root t (removeTmp t w.full.tmpPath fails) none ∧
      TmpsKept U root t (removeTmp t w.full.tmpPath fails) := by
  have hrefl : TreeEffect U root t t none ∧ TmpsKept U root t t :=
    ⟨fun _ _ _ => Iff.rfl, fun _ _ h => h⟩
  rw [removeTmp]
  split
  · exact hrefl
  cases hr : removePath t w.full.tmpPath with
  | none => exact hrefl
  | some t₁ =>
    obtain ⟨q, hq, hrem⟩ := removePath_some hr
    have hnode := (Tree.remove_some hrem).2.2.1
    rw [hw.2, ← plain_tmpOf (hU.canonical _ hw.1), resolve_plain] at hq
    split at hq <;> cases hq
    exact ⟨.of_update (fun n hn => hU.ne root hw.1 hn) hnode, .of_update (by simp) hnode⟩

/-- Removing the file of a name takes that file away. -/
theorem remove_effect (hU : Apart U) {name : List Char} (hn : Canonical name) {path : Path}
    (hpath : path = plain (fileOf root name)) (h : removePath t path = some t') :
    TreeEffect U root t t' (some (.removed name)) ∧ TmpsKept U root t t' ∧
      ¬ t'.IsFile (fileOf root name) := by
  obtain ⟨q, hq, hrem⟩ := removePath_some h
  have hnode := (Tree.remove_some hrem).2.2.1
  rw [hpath, resolve_plain] at hq
  split at hq <;> cases hq
  refine ⟨fun n hu => ?_, .of_update (by simp) hnode, fun hf => ?_⟩
  · rw [Tree.remove_isFile hrem]
    exact and_congr_left fun _ =>
      not_congr ⟨fileOf_inj (hU.canonical n hu) hn, fun he => by rw [he]⟩
  · exact ((Tree.remove_isFile hrem).1 hf).1 rfl

/-- **The effects of a call.** A step of a call does to the names in use what its event says, and
the client may go on to rely on what it has done. -/
theorem acts_effect (hU : Apart U) {c c' : Cache} {d : Choice} {phase phase' : Phase}
    (h : Acts c d phase c' phase') (hok : PhaseOk U c.root c.tree phase) :
    c'.root = c.root ∧ TreeEffect U c.root c.tree c'.tree (phase'.event phase) ∧
      TmpsKept U c.root c.tree c'.tree ∧ IndexEffect c.index c'.index (phase'.event phase) ∧
      PhaseOk U c.root c'.tree phase' := by
  have hsame : TreeEffect U c.root c.tree c.tree none := fun _ _ _ => Iff.rfl
  have hkept : TmpsKept U c.root c.tree c.tree := fun _ _ h => h
  have hfull : ∀ name full, U name → validatePath c name = .ok full → Known U c.root name full :=
    fun name full hu hv => ⟨hu, validatePath_canonical hv (hU.canonical name hu)⟩
  cases h with
  | rest | saveRejected | notMade | notOpened | deleteRejected | deleteNotFound | notRemoved =>
    exact ⟨rfl, hsame, hkept, rfl, trivial⟩
  | saveChecked hv | deleteChecked hv => exact ⟨rfl, hsame, hkept, rfl, hfull _ _ hok hv⟩
  | parentThere | written | closing | closed | infoRead | deleteFound =>
    exact ⟨rfl, hsame, hkept, rfl, hok⟩
  | parentMade | notWritten | notRenamed => exact ⟨rfl, hsame, hkept, rfl, hok.1⟩
  | parentMissing hm => exact ⟨rfl, hsame, hkept, rfl, hok, hm⟩
  | made hmk =>
    obtain ⟨htree, htmps⟩ := mkdir_effect hU hok.1 (hok.2 _ List.mem_cons_self) hmk
    exact ⟨rfl, htree, htmps, rfl, hok.1, fun p hp => hok.2 p (List.mem_cons_of_mem _ hp)⟩
  | opened ho =>
    obtain ⟨htree, htmps, hdir⟩ := open_effect hU hok ho
    exact ⟨rfl, htree, htmps, rfl, hok, hdir⟩
  | wrote | flushed =>
    -- a write changes no node
    exact ⟨rfl, fun _ _ _ => Iff.rfl, fun _ _ h => h, rfl, hok⟩
  | renamed hr =>
    obtain ⟨htree, htmps⟩ := rename_effect hU hok.1 hok.2 hr
    exact ⟨rfl, htree, htmps, rfl, hok.1, (htree _ hok.1.1).2 (.inl rfl)⟩
  | tmpRemoved fails =>
    obtain ⟨htree, htmps⟩ := removeTmp_effect hU hok fails
    exact ⟨rfl, htree, htmps, rfl, trivial⟩
  | indexed => exact ⟨rfl, hsame, hkept, fun n => AList.mem_insert _, trivial⟩
  | removed hr =>
    obtain ⟨htree, htmps, hno⟩ := remove_effect hU (hU.canonical _ hok.1) hok.2 hr
    exact ⟨rfl, htree, htmps, rfl, hok, hno⟩
  | erased => exact ⟨rfl, hsame, hkept, fun n => AList.mem_erase, trivial⟩

end

/-! ## The order of the steps -/

section
variable {ι : Type}

/-- A save has put its file in place and has not entered it in the index. -/
def Storing (s : System ι) (name : List Char) : Prop :=
  ∃ i w, w.name = name ∧ (s.client i = .saveInfo w ∨ ∃ info, s.client i = .saveIndex w info)

/-- A deletion or the sweep has removed the file and has not erased it from the index. -/
def Erasing (s : System ι) (name : List Char) : Prop :=
  (∃ i full, s.client i = .deleteIndex name full) ∨
    ∃ now expired, s.scanner = .erasing now name expired

/-- A scan has begun and has not swapped in its index. -/
def Scanner.IsScanning : Scanner → Prop
  | .scanning _ _ => True
  | _ => False

/-- The steps that keep `Exists` true: calls are for names in use; a call renames or removes only
while no scan is under way; and no disk step falls between the disk step and the index step of the
other kind on its name. -/
def Orderly (U : List Char → Prop) (s : System ι) : Label ι → Prop
  | .save _ name _ | .delete _ name => U name
  | .act i _ => match s.client i with
    | .saveRename w _ _ => ¬ s.scanner.IsScanning ∧ ¬ Erasing s w.name
    | .deleteRemove name _ => ¬ s.scanner.IsScanning ∧ ¬ Storing s name
    | _ => True
  | .scan _ => match s.scanner with
    | .sweeping _ (name :: _) => ¬ Storing s name
    | _ => True

end

/-! ## The invariant -/

section
variable {U : List Char → Prop} {root : List Entry} {t t' : Files} {index index' : Index}
  {log : List Event} {e : Option Event}

/-- A name settled to be there has its file and is in the index; one settled to be gone has none. -/
structure Settles (U : List Char → Prop) (root : List Entry) (t : Files) (index : Index)
    (log : List Event) : Prop where
  present : ∀ n, settled n log = some true → U n ∧ t.IsFile (fileOf root n) ∧ n ∈ index
  absent : ∀ n, settled n log = some false → U n ∧ ¬ t.IsFile (fileOf root n) ∧ n ∉ index

/-- What the scan thread relies on. While it scans, the names in use that it has found are there,
and those that are there it has found or has still to meet. -/
def ScannerOk (U : List Char → Prop) (root : List Entry) (t : Files) : Scanner → Prop
  | .idle | .swapped => True
  | .scanning pending found => (∀ n ∈ found, Canonical n) ∧ ∀ n, U n →
      (n ∈ found → t.IsFile (fileOf root n)) ∧
      ∀ i, t.node (fileOf root n) = some (.file i) → n ∈ found ∨ (fileOf root n, i) ∈ pending
  | .collecting _ names expired => ∀ n ∈ names ++ expired, Canonical n
  | .sweeping _ expired => ∀ n ∈ expired, Canonical n
  | .erasing _ name expired =>
    (U name → ¬ t.IsFile (fileOf root name)) ∧ Canonical name ∧ ∀ n ∈ expired, Canonical n

/-- A file that has not been removed is still there. -/
theorem TreeEffect.isFile (h : TreeEffect U root t t' e) {n : List Char} (hn : U n)
    (he : e ≠ some (.removed n)) (hf : t.IsFile (fileOf root n)) : t'.IsFile (fileOf root n) := by
  rcases e with _ | ev
  · exact hf.imp fun i => (h n hn i).2
  cases ev with
  | stored m => exact (h n hn).2 (.inr hf)
  | removed m => exact (h n hn).2 ⟨fun hm => he (by rw [hm]), hf⟩
  | saved | deleted => exact hf.imp fun i => (h n hn i).2

/-- A file that has not been stored is still missing. -/
theorem TreeEffect.not_isFile (h : TreeEffect U root t t' e) {n : List Char} (hn : U n)
    (he : e ≠ some (.stored n)) (hf : ¬ t.IsFile (fileOf root n)) :
    ¬ t'.IsFile (fileOf root n) := by
  intro hf'
  rcases e with _ | ev
  · exact hf (hf'.imp fun i => (h n hn i).1)
  cases ev with
  | stored m =>
    rcases (h n hn).1 hf' with hm | hm
    · exact he (by rw [hm])
    · exact hf hm
  | removed m => exact hf ((h n hn).1 hf').2
  | saved | deleted => exact hf (hf'.imp fun i => (h n hn i).1)

/-- What a client relies on is kept by a step of another that does not undo it. -/
theorem PhaseOk.keep {phase : Phase} (h : PhaseOk U root t phase) (ht : TreeEffect U root t t' e)
    (hk : TmpsKept U root t t')
    (hs : ∀ w, (phase = .saveInfo w ∨ ∃ info, phase = .saveIndex w info) →
      e ≠ some (.removed w.name))
    (he : ∀ name full, phase = .deleteIndex name full → e ≠ some (.stored name)) :
    PhaseOk U root t' phase := by
  cases phase with
  | returned | saveCheck | saveParent | saveMkdir | saveOpen | saveRemove | deleteCheck
  | deleteExists | deleteRemove => exact h
  | saveWrite | saveClose | saveRename => exact ⟨h.1, hk _ h.1.1 h.2⟩
  | saveInfo w => exact ⟨h.1, ht.isFile h.1.1 (hs w (.inl rfl)) h.2⟩
  | saveIndex w info => exact ⟨h.1, ht.isFile h.1.1 (hs w (.inr ⟨info, rfl⟩)) h.2⟩
  | deleteIndex name full => exact ⟨h.1, ht.not_isFile h.1.1 (he name full rfl) h.2⟩

/-- A name that has not been erased is still in the index. -/
theorem IndexEffect.mem (h : IndexEffect index index' e) {n : List Char}
    (he : e ≠ some (.deleted n)) (hn : n ∈ index) : n ∈ index' := by
  rcases e with _ | ev
  · exact h ▸ hn
  cases ev with
  | stored | removed => exact h ▸ hn
  | saved m => exact (h n).2 (.inr hn)
  | deleted m => exact (h n).2 ⟨fun hm => he (by rw [hm]), hn⟩

/-- A name that has not been entered is still not in it. -/
theorem IndexEffect.notMem (h : IndexEffect index index' e) {n : List Char}
    (he : e ≠ some (.saved n)) (hn : n ∉ index) : n ∉ index' := by
  intro hn'
  rcases e with _ | ev
  · exact hn (h ▸ hn')
  cases ev with
  | stored | removed => exact hn (h ▸ hn')
  | saved m =>
    rcases (h n).1 hn' with hm | hm
    · exact he (by rw [hm])
    · exact hn hm
  | deleted m => exact hn ((h n).1 hn').2

/-- A name comes to be settled as there by a save, and stays so until its file is removed. -/
theorem settled_true {n : List Char} (h : settled n (e.toList ++ log) = some true) :
    e = some (.saved n) ∨
      settled n log = some true ∧ e ≠ some (.removed n) ∧ e ≠ some (.deleted n) := by
  rcases e with _ | ev
  · exact .inr ⟨h, by simp, by simp⟩
  rw [Option.toList_some, List.singleton_append] at h
  cases ev with
  | stored m =>
    rw [settled] at h
    split at h
    · exact .inr ⟨(Option.filter_eq_some_iff.1 h).1, by simp, by simp⟩
    · exact .inr ⟨h, by simp, by simp⟩
  | saved m =>
    rw [settled] at h
    split at h
    next hm => exact .inl (by rw [hm])
    next => exact .inr ⟨h, by simp, by simp⟩
  | removed m | deleted m =>
    rw [settled] at h
    split at h
    next => cases h
    next hm => exact .inr ⟨h, by simp [hm], by simp [hm]⟩

/-- A name is settled as gone by a deletion, and stays so until a save puts a file there. -/
theorem settled_false {n : List Char} (h : settled n (e.toList ++ log) = some false) :
    e = some (.deleted n) ∨
      settled n log = some false ∧ e ≠ some (.stored n) ∧ e ≠ some (.saved n) := by
  rcases e with _ | ev
  · exact .inr ⟨h, by simp, by simp⟩
  rw [Option.toList_some, List.singleton_append] at h
  cases ev with
  | stored m =>
    rw [settled] at h
    split at h
    · cases (Option.filter_eq_some_iff.1 h).2
    next hm => exact .inr ⟨h, by simp [hm], by simp⟩
  | saved m | removed m =>
    rw [settled] at h
    split at h
    next => cases h
    next hm => exact .inr ⟨h, by simp, by simp [hm]⟩
  | deleted m =>
    rw [settled] at h
    split at h
    next hm => exact .inl (by rw [hm])
    next => exact .inr ⟨h, by simp, by simp⟩

/-- **Settled names stay settled.** A step that does to the disk and to the index what its event
says, and settles only what is so. -/
theorem Settles.step (h : Settles U root t index log) (ht : TreeEffect U root t t' e)
    (hi : IndexEffect index index' e)
    (hsaved : ∀ m, e = some (.saved m) → U m ∧ t.IsFile (fileOf root m))
    (hdeleted : ∀ m, e = some (.deleted m) → U m ∧ ¬ t.IsFile (fileOf root m)) :
    Settles U root t' index' (e.toList ++ log) := by
  constructor
  · intro n hn
    rcases settled_true hn with he | ⟨hn, hr, hd⟩
    · obtain ⟨hu, hf⟩ := hsaved n he
      subst he
      exact ⟨hu, ht.isFile hu (by simp) hf, (hi n).2 (.inl rfl)⟩
    · obtain ⟨hu, hf, hm⟩ := h.present n hn
      exact ⟨hu, ht.isFile hu hr hf, hi.mem hd hm⟩
  · intro n hn
    rcases settled_false hn with he | ⟨hn, hs, hd⟩
    · obtain ⟨hu, hf⟩ := hdeleted n he
      subst he
      exact ⟨hu, ht.not_isFile hu (by simp) hf, fun hc => ((hi n).1 hc).1 rfl⟩
    · obtain ⟨hu, hf, hm⟩ := h.absent n hn
      exact ⟨hu, ht.not_isFile hu hs hf, hi.notMem hd hm⟩

/-- A step that neither puts a file in place nor removes one leaves the files as they are. -/
theorem TreeEffect.node (h : TreeEffect U root t t' e) (hs : ∀ m, e ≠ some (.stored m))
    (hr : ∀ m, e ≠ some (.removed m)) {n : List Char} (hn : U n) (i : Nat) :
    t'.node (fileOf root n) = some (.file i) ↔ t.node (fileOf root n) = some (.file i) := by
  rcases e with _ | ev
  · exact h n hn i
  cases ev with
  | stored m => exact absurd rfl (hs m)
  | removed m => exact absurd rfl (hr m)
  | saved | deleted => exact h n hn i

/-- What the scan thread relies on is kept by a step of a call that does not undo it. -/
theorem ScannerOk.keep {scanner : Scanner} (h : ScannerOk U root t scanner)
    (ht : TreeEffect U root t t' e)
    (hs : ∀ m, e = some (.stored m) →
      ¬ scanner.IsScanning ∧ ∀ now expired, scanner ≠ .erasing now m expired)
    (hr : ∀ m, e = some (.removed m) → ¬ scanner.IsScanning) : ScannerOk U root t' scanner := by
  cases scanner with
  | idle | swapped | collecting | sweeping => exact h
  | scanning pending found =>
    have hnode : ∀ n, U n → ∀ i, t'.node (fileOf root n) = some (.file i) ↔
        t.node (fileOf root n) = some (.file i) :=
      fun n hn i => ht.node (fun m hm => (hs m hm).1 trivial) (fun m hm => hr m hm trivial) hn i
    refine ⟨h.1, fun n hn => ⟨fun hf => ((h.2 n hn).1 hf).imp fun i => (hnode n hn i).2, ?_⟩⟩
    intro i hi
    exact (h.2 n hn).2 i ((hnode n hn i).1 hi)
  | erasing now name expired =>
    refine ⟨fun hn => ht.not_isFile hn (fun he => (hs name he).2 now expired rfl) (h.1 hn), h.2⟩

/-- A file is stored by a save that renames. -/
theorem event_stored {phase phase' : Phase} {n : List Char}
    (h : phase'.event phase = some (.stored n)) :
    ∃ w i off, phase = .saveRename w i off ∧ w.name = n := by
  cases phase <;> cases phase' <;> cases h
  exact ⟨_, _, _, rfl, rfl⟩

/-- A file is removed by a deletion. -/
theorem event_removed {phase phase' : Phase} {n : List Char}
    (h : phase'.event phase = some (.removed n)) : ∃ full, phase = .deleteRemove n full := by
  cases phase <;> cases phase' <;> cases h
  exact ⟨_, rfl⟩

/-- A name is entered by the save of it. -/
theorem event_saved {phase phase' : Phase} {n : List Char}
    (h : phase'.event phase = some (.saved n)) :
    ∃ w info, phase = .saveIndex w info ∧ w.name = n := by
  cases phase <;> cases phase' <;> cases h <;> exact ⟨_, _, rfl, rfl⟩

/-- A name is erased by the deletion of it. -/
theorem event_deleted {phase phase' : Phase} {n : List Char}
    (h : phase'.event phase = some (.deleted n)) : ∃ full, phase = .deleteIndex n full := by
  cases phase <;> cases phase' <;> cases h <;> exact ⟨_, rfl⟩

end

section
variable {ι : Type} {U : List Char → Prop} {root : List Entry} {s s' : System ι}

/-- The invariant of the system. -/
structure Inv (U : List Char → Prop) (root : List Entry) (s : System ι) : Prop where
  root_eq : s.cache.root = root
  clients : ∀ i, PhaseOk U root s.cache.tree (s.client i)
  scanner : ScannerOk U root s.cache.tree s.scanner
  index : ∀ n ∈ s.cache.index, Canonical n
  settles : Settles U root s.cache.tree s.cache.index s.log

/-- At first nothing has been settled. -/
theorem start_inv (U : List Char → Prop) (root : List Entry) (maxFileSize : Nat) (retention : Int)
    (t : Files) : Inv U root (start (initialised root maxFileSize retention t) : System ι) where
  root_eq := rfl
  clients _ := trivial
  scanner := trivial
  index _ hn := (mem_scan.1 hn).1
  settles := ⟨fun _ hn => (nomatch hn), fun _ hn => (nomatch hn)⟩

/-- A scan has yet to meet each file that is there. -/
theorem mem_pendingFiles {c : Cache} {p : List Entry} {i : Nat}
    (h : p ∈ filesUnder c.root c.tree) (hi : c.tree.node p = some (.file i)) :
    (p, i) ∈ pendingFiles c :=
  List.mem_filterMap.2 ⟨p, h, by simp [hi]⟩

/-- The iteration: an entry it meets is found if it is there, and one that is there is not passed
over unless it was replaced. -/
theorem scanning_ok (hU : Apart U) {c : Cache} {pending : List (List Entry × Nat)} {found : Index}
    (h : ScannerOk U c.root c.tree (.scanning pending found)) (d : Choice) (p : List Entry)
    (hd : d.meets = some p) :
    ∃ pending' found', scanAct c d (.scanning pending found) = (c, .scanning pending' found') ∧
      ScannerOk U c.root c.tree (.scanning pending' found') := by
  rw [scanAct, hd]
  dsimp only
  -- what is still to be met after `p`, if `p` itself is no file of a name that is not found
  have hrest : ∀ found' : Index, (∀ n, n ∈ found → n ∈ found') → (∀ n ∈ found', Canonical n) →
      (∀ n, U n → n ∈ found' → c.tree.IsFile (fileOf c.root n)) →
      (∀ n, U n → fileOf c.root n = p → ∀ i, c.tree.node p = some (.file i) →
        (p, i) ∈ pending → n ∈ found') →
      ScannerOk U c.root c.tree (.scanning (pending.filter (·.1 ≠ p)) found') := by
    intro found' hsub hcan hfile hmet
    refine ⟨hcan, fun n hn => ⟨hfile n hn, fun i hi => ?_⟩⟩
    rcases (h.2 n hn).2 i hi with hf | hpend
    · exact .inl (hsub n hf)
    rcases eq_or_ne (fileOf c.root n) p with he | he
    · exact .inl (hmet n hn he i (he ▸ hi) (he ▸ hpend))
    · exact .inr (List.mem_filter.2 ⟨hpend, by simpa using he⟩)
  split
  · split
    next => exact ⟨_, _, rfl, h⟩
    next hne =>
      refine ⟨_, _, rfl, hrest found (fun _ hf => hf) h.1 (fun n hn => (h.2 n hn).1) ?_⟩
      intro n hn he i hi hpend
      exact absurd ⟨(p, i), hpend, rfl, hi⟩ hne
  split
  next hp =>
    obtain ⟨hpf, es, hes, rfl⟩ := mem_filesUnder.1 hp
    have hname : relativeName c.root (c.root ++ es) = nameOf es := by
      rw [relativeName, List.drop_left]
    refine ⟨_, _, rfl, hrest _ (fun n hf => (AList.mem_insert _).2 (.inr hf)) ?_ ?_ ?_⟩
    · intro n hn
      rcases (AList.mem_insert _).1 hn with rfl | hn
      · rw [hname]
        exact canonical_nameOf hes
      · exact h.1 n hn
    · intro n hu hn
      rcases (AList.mem_insert _).1 hn with rfl | hn
      · rwa [hname, fileOf, entries_nameOf hes]
      · exact (h.2 n hu).1 hn
    · intro n hn he i hi hpend
      refine (AList.mem_insert _).2 (.inl ?_)
      rw [hname, ← List.append_cancel_left he, (hU.canonical n hn).nameOf_entries]
  next hp =>
    refine ⟨_, _, rfl, hrest found (fun _ hf => hf) h.1 (fun n hn => (h.2 n hn).1) ?_⟩
    intro n hn he i hi hpend
    exact absurd
      (mem_filesUnder.2 ⟨⟨i, hi⟩, entries n, (hU.canonical n hn).entries_ne_nil, he.symm⟩) hp

/-- A step of the scan thread that changes neither the disk nor the log. -/
theorem Inv.scanned (h : Inv U root s) {index : Index} {scanner : Scanner}
    (hsc : ScannerOk U root s.cache.tree scanner) (hcan : ∀ n ∈ index, Canonical n)
    (hin : ∀ n, U n → s.cache.tree.IsFile (fileOf root n) → n ∈ s.cache.index → n ∈ index)
    (hout : ∀ n, U n → ¬ s.cache.tree.IsFile (fileOf root n) → n ∉ s.cache.index → n ∉ index) :
    Inv U root { s with cache := { s.cache with index }, scanner } where
  root_eq := h.root_eq
  clients := h.clients
  scanner := hsc
  index := hcan
  settles :=
    { present := fun n hn => by
        obtain ⟨hu, hf, hm⟩ := h.settles.present n hn
        exact ⟨hu, hf, hin n hu hf hm⟩
      absent := fun n hn => by
        obtain ⟨hu, hf, hm⟩ := h.settles.absent n hn
        exact ⟨hu, hf, hout n hu hf hm⟩ }

/-- A step of the scan thread that changes its own state only. -/
theorem Inv.moved (h : Inv U root s) {scanner : Scanner}
    (hsc : ScannerOk U root s.cache.tree scanner) : Inv U root { s with scanner } :=
  h.scanned hsc h.index (fun _ _ _ hn => hn) fun _ _ _ hn => hn

variable [DecidableEq ι]

/-- A call keeps it. -/
theorem call_inv (h : Inv U root s) {i : ι} {phase : Phase} (hp : PhaseOk U root s.cache.tree phase)
    (hs : call s i phase = some s') : Inv U root s' := by
  rw [call] at hs
  split at hs <;> cases hs
  refine ⟨h.root_eq, fun j => ?_, h.scanner, h.index, h.settles⟩
  rcases eq_or_ne j i with rfl | hj
  · simpa using hp
  · simpa [hj] using h.clients j

/-- **A step of a client keeps it**, if it is orderly. -/
theorem act_inv (hU : Apart U) (h : Inv U root s) {i : ι} {d : Choice}
    (hord : Orderly U s (.act i d)) (hs : step s (.act i d) = some s') : Inv U root s' := by
  obtain rfl := h.root_eq
  obtain rfl := Option.some.inj ((step_act s i d).symm.trans hs)
  have hacts := act_acts s.cache d (s.client i)
  obtain ⟨hroot, htree, htmps, hindex, hok⟩ := acts_effect hU hacts (h.clients i)
  have hstored : ∀ m, (act s.cache d (s.client i)).2.event (s.client i) = some (.stored m) →
      ¬ s.scanner.IsScanning ∧ ¬ Erasing s m := by
    intro m hm
    obtain ⟨w, _, _, hp, rfl⟩ := event_stored hm
    simp only [Orderly, hp] at hord
    exact hord
  have hremoved : ∀ m, (act s.cache d (s.client i)).2.event (s.client i) = some (.removed m) →
      ¬ s.scanner.IsScanning ∧ ¬ Storing s m := by
    intro m hm
    obtain ⟨_, hp⟩ := event_removed hm
    simp only [Orderly, hp] at hord
    exact hord
  refine ⟨hroot, fun j => ?_, ?_, fun n hn => ?_, ?_⟩
  · rcases eq_or_ne j i with rfl | hj
    · simpa using hok
    · simp only [update_of_ne hj]
      refine (h.clients j).keep htree htmps (fun w hw he => ?_) fun name full hp he => ?_
      · exact (hremoved _ he).2 ⟨j, w, rfl, hw⟩
      · exact (hstored _ he).2 (.inl ⟨j, full, hp⟩)
  · refine h.scanner.keep htree (fun m hm => ⟨(hstored m hm).1, fun now expired hp => ?_⟩)
      fun m hm => (hremoved m hm).1
    exact (hstored m hm).2 (.inr ⟨now, expired, hp⟩)
  · by_contra hc
    refine hindex.notMem (fun he => ?_) (fun hm => hc (h.index n hm)) hn
    obtain ⟨w, info, hp, rfl⟩ := event_saved he
    have hw := h.clients i
    rw [hp] at hw
    exact hc (hU.canonical _ hw.1.1)
  · refine h.settles.step htree hindex (fun m he => ?_) fun m he => ?_
    · obtain ⟨w, info, hp, rfl⟩ := event_saved he
      have hw := h.clients i
      rw [hp] at hw
      exact ⟨hw.1.1, hw.2⟩
    · obtain ⟨full, hp⟩ := event_deleted he
      have hw := h.clients i
      rw [hp] at hw
      exact ⟨hw.1.1, hw.2⟩

/-- **A step of the scan keeps it**, if it is orderly. -/
theorem scan_inv (hU : Apart U) (h : Inv U root s) {d : Choice} (hord : Orderly U s (.scan d))
    (hs : step s (.scan d) = some s') : Inv U root s' := by
  obtain rfl := h.root_eq
  have hsc := h.scanner
  obtain rfl := Option.some.inj ((step_scan s d).symm.trans hs)
  cases hp : s.scanner with
  | idle =>
    refine h.moved ⟨fun n hn => absurd hn (AList.notMem_empty n), fun n hn => ⟨?_, fun i hi => ?_⟩⟩
    · exact fun hf => absurd hf (AList.notMem_empty n)
    · exact .inr (mem_pendingFiles
        (mem_filesUnder.2 ⟨⟨i, hi⟩, _, (hU.canonical n hn).entries_ne_nil, rfl⟩) hi)
  | scanning pending found =>
    rw [hp] at hsc
    cases hd : d.meets with
    | some p =>
      obtain ⟨pending', found', he, hsc'⟩ := scanning_ok hU hsc d p hd
      rw [he]
      exact h.moved hsc'
    | none =>
      rw [scanAct, hd]
      dsimp only
      split
      next hempty =>
        -- the swap: what was to be met has been met
        subst hempty
        refine h.scanned trivial hsc.1 (fun n hn hf _ => ?_) fun n hn hf _ hm => ?_
        · obtain ⟨i, hi⟩ := hf
          exact ((hsc.2 n hn).2 i hi).resolve_right List.not_mem_nil
        · exact hf ((hsc.2 n hn).1 hm)
      next => exact h.moved hsc
  | swapped =>
    rw [scanAct]
    split
    next => exact h.moved trivial
    next =>
      refine h.moved fun n hn => h.index n ?_
      rw [List.append_nil] at hn
      exact AList.mem_keys.2 hn
  | collecting now names expired =>
    rw [hp] at hsc
    cases names with
    | nil => exact h.moved hsc
    | cons name names =>
      refine h.moved fun n hn => hsc n ?_
      split at hn
      · simp only [List.mem_append, List.mem_cons, List.not_mem_nil, or_false] at hn ⊢
        tauto
      · rw [List.cons_append]
        exact List.mem_cons_of_mem name hn
  | sweeping now expired =>
    rw [hp] at hsc
    cases expired with
    | nil => exact h.moved trivial
    | cons name expired =>
      have hcan : Canonical name := hsc name List.mem_cons_self
      have hrest : ∀ n ∈ expired, Canonical n := fun n hn => hsc n (List.mem_cons_of_mem name hn)
      rw [scanAct]
      rcases hr : if d.fails then none else removePath s.cache.tree (join s.cache.root name)
        with _ | t
      · exact h.moved hrest
      split at hr
      · cases hr
      obtain ⟨htree, htmps, hno⟩ := remove_effect hU hcan (hcan.join s.cache.root) hr
      have hstoring : ¬ Storing s name := by
        simp only [Orderly, hp] at hord
        exact hord
      refine ⟨rfl, fun i => (h.clients i).keep htree htmps (fun w hw he => ?_) (by simp),
        ⟨fun _ => hno, hcan, hrest⟩, h.index, ?_⟩
      · cases he
        exact hstoring ⟨i, w, rfl, hw⟩
      · exact h.settles.step htree rfl (fun _ hm => by cases hm) fun _ hm => by cases hm
  | erasing now name expired =>
    rw [hp] at hsc
    refine h.scanned hsc.2.2 (fun n hn => h.index n (AList.mem_erase.1 hn).2)
      (fun n hu hf hn => AList.mem_erase.2 ⟨?_, hn⟩) fun n _ _ hn hc => hn (AList.mem_erase.1 hc).2
    rintro rfl
    exact hsc.1 hu hf

/-- **Every orderly step keeps it.** -/
theorem step_inv (hU : Apart U) {l : Label ι} (hord : Orderly U s l) (h : Inv U root s)
    (hs : step s l = some s') : Inv U root s' := by
  cases l with
  | save i name data =>
    have hu : PhaseOk U root s.cache.tree (.saveCheck name data) := hord
    exact call_inv h hu hs
  | delete i name =>
    have hu : PhaseOk U root s.cache.tree (.deleteCheck name) := hord
    exact call_inv h hu hs
  | act i d => exact act_inv hU h hord hs
  | scan d => exact scan_inv hU h hord hs

/-- **Scans lose nothing that was in order.** In every interleaving of saves, deletions, scans and
sweeps whose steps are all `Orderly`: from the return of a save until the file is removed `Exists`
never answers that it is not there, and from the return of a deletion until a save puts a file in
place it never answers that it is. -/
theorem existsFile_settled (hU : Apart U) {root : List Entry} {maxFileSize : Nat} {retention : Int}
    {t : Files} {ls : List (Label ι)} {s : System ι}
    (hrun : run step (start (initialised root maxFileSize retention t)) ls = some s)
    (hord : Along step (Orderly U) (start (initialised root maxFileSize retention t)) ls)
    (n : List Char) :
    (settled n s.log = some true → existsFile s.cache n ≠ .ok false) ∧
      (settled n s.log = some false → existsFile s.cache n ≠ .ok true) := by
  have h : Inv U root s := run_along (fun _ _ _ ho hi hs => step_inv hU ho hi hs)
    (start_inv U root maxFileSize retention t) hord hrun
  rw [existsFile]
  constructor
  · intro hn
    have hm := (h.settles.present n hn).2.2
    split <;> simp [hm]
  · intro hn
    have hm := (h.settles.absent n hn).2.2
    split <;> simp [hm]

end

/-- The steps of a save of one byte that nothing goes wrong in. -/
def saveSteps : List Choice := [{}, {}, {}, { size := 1 }, {}, {}, {}, {}, {}]

/-- One client, while no scan is under way, is in nobody's way. -/
theorem along_alone {U : List Char → Prop} {s : System Unit} (hs : s.scanner = .idle)
    (ds : List Choice) : Along step (Orderly U) s (ds.map (Label.act ())) := by
  induction ds generalizing s with
  | nil => trivial
  | cons d ds ih =>
    constructor
    · simp only [Orderly]
      split
      next w _ _ hp =>
        refine ⟨by rw [hs]; exact id, ?_⟩
        rintro (⟨_, _, hc⟩ | ⟨_, _, hc⟩)
        · cases hp.symm.trans hc
        · cases hs.symm.trans hc
      next name _ hp =>
        refine ⟨by rw [hs]; exact id, ?_⟩
        rintro ⟨_, _, _, hc | ⟨_, hc⟩⟩ <;> cases hp.symm.trans hc
      next => trivial
    · intro s' h
      obtain rfl := Option.some.inj ((step_act s () d).symm.trans h)
      exact ih hs

/-- A scan, and a save after its swap. -/
def scanThenSave : List (Label Unit) :=
  [.scan {}, .scan {}, .scan {}, .save () ['a'] [1]] ++ saveSteps.map (Label.act ())

/-- A file that is saved after the scan has swapped is there. -/
theorem existsFile_settled_scanThenSave : ∃ s : System Unit,
    run step (start emptyCache) scanThenSave = some s ∧ settled ['a'] s.log = some true ∧
      existsFile s.cache ['a'] ≠ .ok false := by
  have hU : Apart (· = ['a']) := by
    refine ⟨?_, ?_⟩
    · rintro n rfl
      decide
    · rintro m n rfl rfl
      decide
  have hord : Along step (Orderly (· = ['a'])) (start emptyCache) scanThenSave := by
    refine ⟨trivial, fun s h => ?_⟩
    cases h
    refine ⟨trivial, fun s h => ?_⟩
    cases h
    refine ⟨trivial, fun s h => ?_⟩
    cases h
    refine ⟨rfl, fun s h => ?_⟩
    cases h
    exact along_alone rfl saveSteps
  have hrun : (run step (start emptyCache) scanThenSave).map
      (fun s => settled ['a'] s.log) = some (some true) := by decide
  obtain ⟨s, hs, hset⟩ := Option.map_eq_some_iff.1 hrun
  exact ⟨s, hs, hset, (existsFile_settled hU hs hord ['a']).1 hset⟩

/-- A scan begins, a save goes through, and the scan swaps in what it has found. -/
def saveDuringScan : List (Label Unit) :=
  [.scan {}, .save () ['a'] [1]] ++ saveSteps.map (Label.act ()) ++ [.scan {}]

/-- **A scan can lose a save.** The save of `a` has returned, nothing has removed the file, and `a`
does not exist. -/
theorem scan_loses_save :
    ¬ ∀ (ls : List (Label Unit)) (s : System Unit), run step (start emptyCache) ls = some s →
      ∀ n, settled n s.log = some true → existsFile s.cache n ≠ .ok false := by
  intro h
  have hrun : (run step (start emptyCache) saveDuringScan).map
      (fun s => (settled ['a'] s.log, existsFile s.cache ['a'])) =
      some (some true, .ok false) := by decide
  obtain ⟨s, hs, he⟩ := Option.map_eq_some_iff.1 hrun
  obtain ⟨hset, hex⟩ := Prod.mk.inj he
  exact h _ s hs ['a'] hset hex

end MyCache.Concurrent
