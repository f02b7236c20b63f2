import FastCppServer.Cache.ScanRace
import Mathlib.Data.Bool.Basic

/-!
# A save and the other files

A save writes through a temporary, the target's path with `.tmp` behind it, and nothing keeps a
client from giving that name to a file of its own. Alone, a save leaves every other file as it is
exactly when no other file is at its temporary (`saveFile_frame`). Two saves that overlap and both
succeed leave at each target the bytes of a call for it, as long as neither target is the other's
temporary and no flush fails unseen (`saves_keep`).

For two saves of one file the argument is about the temporary they share: whoever renames it first
takes it away from the other, whose rename then fails, unless the other opened it only later, and
then it holds the other's bytes alone (`Shared`). For two saves of different files each has a
temporary of its own (`Own`).
-/

namespace MyCache

open FileTree Function

/-! ## The temporary's path -/

section
variable {β : Type} {t : Tree Entry β}

/-- The temporary of a normal path is normal. -/
theorem tmpPath_normal {path : Path} (h : Normal path) : Normal path.tmpPath := by
  refine ⟨fun c hc => ?_, fun c hc => ?_⟩
  · rcases List.mem_append.1 hc with hc | hc
    · exact h.1 c (List.mem_of_mem_dropLast hc)
    · rw [List.mem_singleton.1 hc]
      cases hl : path.getLast? with
      | none => simp
      | some l => simp [h.1 l (List.mem_of_getLast? hl)]
  · rw [Path.tmpPath, List.dropLast_concat] at hc
    exact h.2 c hc

/-- What stands before a NUL is read as it is. -/
theorem cString_append {path : Path} (h : ∀ c ∈ path, nul ∉ c) (rest : Path) :
    cString (path ++ rest) = path ++ cString rest := by
  induction path with
  | nil => rfl
  | cons c path ih =>
    rw [List.cons_append, cString, if_neg (h c List.mem_cons_self),
      ih fun d hd => h d (List.mem_cons_of_mem c hd), List.cons_append]

/-- A path is cut at its first NUL, and none is in plain entries. -/
theorem cString_plain_append (es : List Entry) (path : Path) :
    cString (plain es ++ path) = plain es ++ cString path :=
  cString_append (fun _ hc => (ordinary_of_mem_plain hc).2.2.2.2) path

/-- What stands behind a NUL is not read. -/
theorem cString_append_of_nul {path : Path} (h : ∃ c ∈ path, nul ∈ c) (rest : Path) :
    cString (path ++ rest) = cString path := by
  induction path with
  | nil => simp at h
  | cons d path ih =>
    rw [List.cons_append, cString, cString]
    split
    next => rfl
    next hd =>
      rw [ih]
      obtain ⟨c, hc, hnul⟩ := h
      rcases List.mem_cons.1 hc with rfl | hc
      · exact absurd hnul hd
      · exact ⟨c, hc, hnul⟩

/-- What follows the first NUL does not matter. -/
theorem takeWhile_append_of_mem {l : List Char} (h : nul ∈ l) (r : List Char) :
    (l ++ r).takeWhile (· ≠ nul) = l.takeWhile (· ≠ nul) := by
  induction l with
  | nil => cases h
  | cons c l ih =>
    rw [List.cons_append, List.takeWhile_cons, List.takeWhile_cons]
    split
    next hc =>
      rcases List.mem_cons.1 h with rfl | h
      · simp at hc
      · rw [ih h]
    next => rfl

/-- The temporary of a path has its last entry lengthened. -/
theorem tmpPath_concat (init : Path) (last : List Char) :
    (init ++ [last] : Path).tmpPath = init ++ [last ++ ['.', 't', 'm', 'p']] := by
  simp [Path.tmpPath]

/-- With a NUL in the path its temporary is the target itself. -/
theorem cString_tmpPath_of_nul {path : Path} (h : ∃ c ∈ path, nul ∈ c) :
    cString path.tmpPath = cString path := by
  rcases List.eq_nil_or_concat path with rfl | ⟨init, last, rfl⟩
  · simp at h
  rw [List.concat_eq_append] at h ⊢
  rw [tmpPath_concat]
  by_cases hi : ∃ c ∈ init, nul ∈ c
  · rw [cString_append_of_nul hi, cString_append_of_nul hi]
  · have hfree : ∀ c ∈ init, nul ∉ c := fun c hc hn => hi ⟨c, hc, hn⟩
    have hlast : nul ∈ last := by
      obtain ⟨c, hc, hn⟩ := h
      rcases List.mem_append.1 hc with hc | hc
      · exact absurd hn (hfree c hc)
      · rwa [← List.mem_singleton.1 hc]
    have hcut : ∀ c : List Char, nul ∈ c → cString [c] = [c.takeWhile (· ≠ nul)] := by
      intro c hc
      rw [cString, if_pos hc]
    rw [cString_append hfree, cString_append hfree, hcut last hlast,
      hcut _ (List.mem_append_left _ hlast), takeWhile_append_of_mem hlast]

/-- A path without a NUL is not cut. -/
theorem cString_of_free {path : Path} (h : ¬ ∃ c ∈ path, nul ∈ c) : cString path = path := by
  have := cString_append (fun c hc hn => h ⟨c, hc, hn⟩) ([] : Path)
  rwa [cString, List.append_nil] at this

/-- Nor is its temporary. -/
theorem cString_tmpPath_of_free {path : Path} (h : ¬ ∃ c ∈ path, nul ∈ c) :
    cString path.tmpPath = path.tmpPath := by
  refine cString_of_free ?_
  rintro ⟨c, hc, hn⟩
  rcases List.mem_append.1 hc with hc | hc
  · exact h ⟨c, List.mem_of_mem_dropLast hc, hn⟩
  · rw [List.mem_singleton.1 hc] at hn
    rcases List.mem_append.1 hn with hn | hn
    · cases hl : path.getLast? with
      | none => simp [hl] at hn
      | some l =>
        rw [hl, Option.getD_some] at hn
        exact h ⟨l, List.mem_of_getLast? hl, hn⟩
    · exact absurd hn (by decide)

/-- Nor is the temporary of plain entries. -/
theorem cString_tmpPath_plain (es : List Entry) :
    cString (plain es).tmpPath = (plain es).tmpPath :=
  cString_tmpPath_of_free fun ⟨_, hc, hn⟩ => (ordinary_of_mem_plain hc).2.2.2.2 hn

/-- Two paths with one temporary are one path. -/
theorem tmpPath_inj {p q : Path} (hp : p ≠ []) (hq : q ≠ []) (h : p.tmpPath = q.tmpPath) :
    p = q := by
  obtain ⟨init, last, rfl⟩ := (List.eq_nil_or_concat p).resolve_left hp
  obtain ⟨init', last', rfl⟩ := (List.eq_nil_or_concat q).resolve_left hq
  rw [List.concat_eq_append, List.concat_eq_append] at h ⊢
  rw [tmpPath_concat, tmpPath_concat] at h
  obtain ⟨rfl, hl⟩ := List.append_inj' h rfl
  rw [List.append_cancel_right (List.cons.inj hl).1]

/-- Two paths neither of which is the temporary of the other: if their temporaries or their files
are one, they are one path. -/
theorem eq_of_apart {p q : Path} (hp : p ≠ []) (hq : q ≠ []) (hpq : cString p ≠ cString q.tmpPath)
    (hqp : cString q ≠ cString p.tmpPath)
    (h : cString p = cString q ∨ cString p.tmpPath = cString q.tmpPath) : p = q := by
  by_cases hpn : ∃ c ∈ p, nul ∈ c
  · rw [cString_tmpPath_of_nul hpn] at h hqp
    exact h.elim (fun h => absurd h.symm hqp) fun h => absurd h hpq
  by_cases hqn : ∃ c ∈ q, nul ∈ c
  · rw [cString_tmpPath_of_nul hqn] at h hpq
    exact h.elim (fun h => absurd h hpq) fun h => absurd h.symm hqp
  rw [cString_of_free hpn, cString_of_free hqn, cString_tmpPath_of_free hpn,
    cString_tmpPath_of_free hqn] at h
  exact h.elim id (tmpPath_inj hp hq)

/-- Where the path of a C string leads. -/
theorem resolve_of_cString {path : Path} {p : List Entry} (h : cString path = plain p) :
    resolve t path = if (t.node p).isSome then some p else none := by
  rw [resolve, h, walk_plain, List.nil_append]

/-- The path of a regular file is its own. -/
theorem cString_of_file {path : Path} (hn : Normal path) {p : List Entry}
    (h : resolve t path = some p) (hp : t.IsFile p) : cString path = plain p :=
  cString_of_target hn (target_of_resolve h hp)

end

/-! ## A save alone -/

/-- The disk after a save that is not rejected. -/
theorem saveFile_tree {c : Cache} {name : List Char} {full : Path}
    (hv : validatePath c name = .ok full) {data : List UInt8} (hl : ¬ TooLarge c data) (f : Faults)
    (now : Int) :
    (saveFile c name data f now).1.tree =
      if (ensureParent c.tree full.parentPath f.mkdirStops).2 then
        (saveTmp (ensureParent c.tree full.parentPath f.mkdirStops).1 full data f now).1
      else (ensureParent c.tree full.parentPath f.mkdirStops).1 := by
  rw [saveFile, hv]
  dsimp only
  rw [if_neg hl]
  rcases ensureParent c.tree full.parentPath f.mkdirStops with ⟨t, made⟩
  cases made with
  | false => rfl
  | true =>
    dsimp only
    rcases saveTmp t full data f now with ⟨t', r⟩
    cases r <;> rfl

/-- What a save writes is its temporary and its target. -/
theorem SaveTmpEnds.content {t t' : Files} {full : Path} {data : List UInt8} {f : Faults}
    {r : CacheResult Unit} (h : SaveTmpEnds t full data f t' r) (hn : Normal full) {p : List Entry}
    (hτ : cString full.tmpPath ≠ plain p) (hq : cString full ≠ plain p) :
    t'.content p = t.content p := by
  cases h with
  | notOpened => rfl
  | @givenUp _ τ i htmp hdir hown hnode hinode =>
    have hne : p ≠ τ := by
      rintro rfl
      exact hτ (cString_of_target (tmpPath_normal hn) htmp)
    refine Tree.content_congr (by rw [hnode, update_of_ne hne]) fun j hj => hinode j ?_
    rintro rfl
    exact hne (hown p hj)
  | @saved _ τ q i htmp hdir hown hq' hqdir hnode hinode hbytes =>
    have hne : p ≠ τ := by
      rintro rfl
      exact hτ (cString_of_target (tmpPath_normal hn) htmp)
    have hneq : p ≠ q := by
      rintro rfl
      exact hq hq'
    refine Tree.content_congr (by rw [hnode, update_of_ne hneq, update_of_ne hne]) fun j hj =>
      hinode j ?_
    rintro rfl
    exact hne (hown p hj)

/-- A regular file under the name of the temporary that is not the target: its directory is the
target's, it is under the root, and it is what the temporary is opened on. -/
theorem parent_of_tmp {c : Cache} {name : List Char} {full : Path}
    (hv : validatePath c name = .ok full) {p : List Entry}
    (hp : resolve c.tree full.tmpPath = some p) (hf : c.tree.IsFile p)
    (hne : resolve c.tree full ≠ some p) :
    c.root <+: p ∧ pathExists c.tree full.parentPath := by
  have hnormal := validatePath_normal hv
  have htmp := cString_of_file (tmpPath_normal hnormal) hp hf
  obtain ⟨rest, hrest⟩ := validatePath_below hv
  have hrest_ne : rest ≠ [] := by
    rintro rfl
    exact (validatePath_ok hv).2.2.2 (by rw [← hrest, List.append_nil])
  obtain ⟨last, hlast⟩ : ∃ last, rest.getLast? = some last :=
    ⟨_, List.getLast?_eq_some_getLast hrest_ne⟩
  have hfull : full = full.dropLast ++ [last] := by
    have h : full.getLast? = some last := by
      rw [← hrest, List.getLast?_append_of_ne_nil _ hrest_ne, hlast]
    exact (List.dropLast_append_getLast? last h).symm
  have hpath : full.tmpPath = full.dropLast ++ [last ++ ['.', 't', 'm', 'p']] := by
    rw [← tmpPath_concat, ← hfull]
  constructor
  · rw [hpath, ← hrest, List.dropLast_append_of_ne_nil hrest_ne, List.append_assoc,
      cString_plain_append] at htmp
    exact (List.prefix_map_iff_of_injective Subtype.val_injective).1 ⟨_, htmp⟩
  · -- a NUL in the directory would make the temporary and the target one path
    have hnul : ¬ ∃ d ∈ full.dropLast, nul ∈ d := by
      intro hnul
      rw [hpath, cString_append_of_nul hnul] at htmp
      refine hne ?_
      have hc : cString full = plain p := by rw [hfull, cString_append_of_nul hnul, htmp]
      rw [resolve_of_cString hc]
      obtain ⟨i, hi⟩ := hf
      simp [hi]
    obtain ⟨es, hes⟩ : ∃ es, plain es = full.dropLast := exists_plain fun d hd => by
      have hnamed := hnormal.2 d hd
      exact ⟨hnamed.1, hnamed.2.1, hnamed.2.2.1, hnamed.2.2.2, fun hc => hnul ⟨d, hd, hc⟩⟩
    rw [hpath, ← hes, cString_plain_append] at htmp
    obtain ⟨i, hi⟩ := hf
    have hprefix : es <+: p :=
      (List.prefix_map_iff_of_injective Subtype.val_injective).1 ⟨_, htmp⟩
    obtain ⟨ds, rfl⟩ := hprefix
    have hds : ds ≠ [] := by
      rintro rfl
      rw [List.append_nil] at htmp
      have hlen := congrArg List.length htmp
      have hc : cString [last ++ ['.', 't', 'm', 'p']] ≠ [] := by
        rw [cString]
        split <;> simp
      have := List.length_pos_iff.2 hc
      rw [List.length_append] at hlen
      omega
    rw [Path.parentPath, ← hes, pathExists, status_plain,
      Tree.dir_of_prefix (by simp [hi]) hds]
    rfl

/-- **A save alone leaves the other files as they are**, whatever fails, exactly when no regular
file but the target is at its temporary. -/
theorem saveFile_frame (c : Cache) (name : List Char) (data : List UInt8) :
    (∀ f now p bs, c.root <+: p → c.tree.content p = some bs →
      (∀ full, validatePath c name = .ok full → resolve c.tree full ≠ some p) →
      (saveFile c name data f now).1.tree.content p = some bs) ↔
    ∀ full, validatePath c name = .ok full → ¬ TooLarge c data →
      ∀ p, resolve c.tree full.tmpPath = some p → c.tree.IsFile p →
        resolve c.tree full = some p := by
  constructor
  · intro h full hv hl p hp hf
    by_contra hne
    obtain ⟨hroot, hparent⟩ := parent_of_tmp hv hp hf hne
    obtain ⟨bs, hbs⟩ := hf.content
    have hafter := h {} 0 p bs hroot hbs (fun full' hv' => by
      cases hv.symm.trans hv'
      exact hne)
    have hcp := cString_of_file (tmpPath_normal (validatePath_normal hv)) hp hf
    rw [saveFile_tree hv hl, ensureParent, if_pos hparent, if_pos rfl] at hafter
    have hends := saveTmp_ends (t := c.tree) (validatePath_normal hv) data {} 0
    -- nothing fails, and still the file is gone
    have hgone : ¬ (saveTmp c.tree full data {} 0).1.IsFile p := by
      generalize (saveTmp c.tree full data {} 0).1 = t' at hends
      generalize (saveTmp c.tree full data {} 0).2 = r at hends
      cases hends with
      | notOpened hno =>
        rcases hno with hno | hno
        · cases hno
        · exact absurd hf (hno p (target_of_resolve hp hf))
      | @givenUp _ τ i htmp hdir hown hnode hinode =>
        have hτ := cString_of_target (tmpPath_normal (validatePath_normal hv)) htmp
        cases plain_injective (hcp.symm.trans hτ)
        rw [Tree.IsFile, hnode]
        simp
      | @saved _ τ q i htmp hdir hown hq hqdir hnode hinode hbytes =>
        have hτ := cString_of_target (tmpPath_normal (validatePath_normal hv)) htmp
        cases plain_injective (hcp.symm.trans hτ)
        have hpq : p ≠ q := by
          rintro rfl
          obtain ⟨j, hj⟩ := hf
          exact hne (by rw [resolve_of_cString hq]; simp [hj])
        rw [Tree.IsFile, hnode, update_of_ne hpq]
        simp
    exact hgone (Tree.content_isSome.1 (by rw [hafter]; rfl))
  · intro h f now p bs _ hbs hne
    have hf : c.tree.IsFile p := Tree.content_isSome.1 (by rw [hbs]; rfl)
    cases hv : validatePath c name with
    | error e =>
      rw [saveFile, hv]
      exact hbs
    | ok full =>
      by_cases hl : TooLarge c data
      · rw [saveFile, hv]
        dsimp only
        rwa [if_pos hl]
      have hsome : ∀ path, cString path = plain p → resolve c.tree path = some p := by
        intro path hpath
        obtain ⟨i, hi⟩ := hf
        rw [resolve_of_cString hpath]
        simp [hi]
      have hq : cString full ≠ plain p := fun hc => hne full hv (hsome _ hc)
      have hτ : cString full.tmpPath ≠ plain p := fun hc =>
        hne full hv (h full hv hl p (hsome _ hc) hf)
      have hsame := ensureParent_sameFiles c.tree full.parentPath f.mkdirStops
      rw [saveFile_tree hv hl]
      split
      · rw [
          (saveTmp_ends (validatePath_normal hv) data f now).content (validatePath_normal hv) hτ hq,
          hsame.content, hbs]
      · rw [hsame.content, hbs]

namespace Concurrent

open Transition

/-! ## The stages of a save -/

/-- How far a save has come: it has not opened its temporary, it holds the inode of its temporary
and has written so much of it, it has renamed it, or it has failed. -/
inductive Stage where
  | before
  | holding (inode off : Nat)
  | done
  | failed

/-- The stage of a save, by where it stands. -/
def Phase.stage : Phase → Stage
  | .saveCheck _ _ | .saveParent _ | .saveMkdir _ _ _ | .saveOpen _ => .before
  | .saveWrite _ i off | .saveClose _ i off | .saveRename _ i off => .holding i off
  | .saveInfo _ | .saveIndex _ _ | .returned _ (.ok _) => .done
  | _ => .failed

/-- The path a call has been validated to. -/
def Phase.path : Phase → Option Path
  | .saveParent w | .saveMkdir w _ _ | .saveOpen w | .saveWrite w _ _ | .saveClose w _ _
  | .saveRename w _ _ | .saveRemove w | .saveInfo w | .saveIndex w _ => some w.full
  | .returned full _ => full
  | _ => none

/-- A path that a call can have been validated to. -/
def Proper (full : Path) : Prop := Normal full ∧ full ≠ []

/-- What `ValidatePath` accepts is proper. -/
theorem validatePath_proper {c : Cache} {name : List Char} {full : Path}
    (h : validatePath c name = .ok full) : Proper full := by
  refine ⟨validatePath_normal h, ?_⟩
  rintro rfl
  have hroot := List.prefix_nil.1 (validatePath_below h)
  exact (validatePath_ok h).2.2.2 hroot.symm

/-- The phase is one of a save of the data. When it renames, all of it has been written. -/
def IsSave (data : List UInt8) : Phase → Prop
  | .saveCheck _ bytes => bytes = data
  | .saveParent w | .saveMkdir w _ _ | .saveOpen w | .saveWrite w _ _ | .saveClose w _ _
  | .saveRemove w | .saveInfo w | .saveIndex w _ => w.data = data ∧ Proper w.full
  | .saveRename w _ off => w.data = data ∧ Proper w.full ∧ data.length ≤ off
  | .returned (some full) (.ok _) => Proper full
  | .returned _ _ => True
  | _ => False

/-- What a step of a save to the path does to its stage and to the disk. -/
inductive StageStep (data : List UInt8) (full : Path) (t : Files) :
    Stage → Files → Stage → Prop where
  | stay {stage} : StageStep data full t stage t stage
  | fail {stage} : StageStep data full t stage t .failed
  | mkdir {t'} (h : t.SameFiles t') : StageStep data full t .before t' .before
  | opened {t' τ i} (hτ : cString full.tmpPath = plain τ)
      (hown : ∀ p, t.node p = some (.file i) → p = τ)
      (hnode : t'.node = update t.node τ (some (.file i)))
      (hbytes : (t'.inode i).bytes = []) (hinode : ∀ j, j ≠ i → t'.inode j = t.inode j) :
      StageStep data full t .before t' (.holding i 0)
  | wrote {i off} (size : Nat) (now : Int) :
      StageStep data full t (.holding i off) (t.write i off ((data.drop off).take size) now)
        (.holding i (off + ((data.drop off).take size).length))
  | renamed {t' i off τ q} (hτ : cString full.tmpPath = plain τ) (hq : cString full = plain q)
      (h : t.rename τ q = some t') (hoff : data.length ≤ off) :
      StageStep data full t (.holding i off) t' .done
  | removed {t' τ} (hτ : cString full.tmpPath = plain τ) (hnode : t'.node = update t.node τ none)
      (hinode : t'.inode = t.inode) : StageStep data full t .failed t' .failed
  | removedDir {t'} (h : t.SameFiles t') : StageStep data full t .failed t' .failed

/-- A removal by a normal path takes away its own file, or a directory. -/
theorem removeTmp_cases {t : Files} {path : Path} (hn : Normal path) (fails : Bool) :
    t.SameFiles (removeTmp t path fails) ∨ ∃ τ, cString path = plain τ ∧
      (removeTmp t path fails).node = update t.node τ none ∧
      (removeTmp t path fails).inode = t.inode := by
  rw [removeTmp]
  split
  · exact .inl (Tree.SameFiles.refl t)
  cases hr : removePath t path with
  | none => exact .inl (Tree.SameFiles.refl t)
  | some t' =>
    rw [Option.getD_some]
    obtain ⟨q, hq, hrem⟩ := removePath_some hr
    obtain ⟨hne, -, hnode, hinode⟩ := Tree.remove_some hrem
    cases hnq : t.node q with
    | none => exact absurd hnq hne
    | some node =>
      cases node with
      | file i => exact .inr ⟨q, cString_of_file hn hq ⟨i, hnq⟩, hnode, hinode⟩
      | dir =>
        refine .inl ⟨hinode, fun p i => ?_⟩
        rw [hnode]
        rcases eq_or_ne p q with rfl | hp
        · simp [hnq]
        · rw [update_of_ne hp]

/-- A step of a save is one of a save of its data. -/
theorem acts_isSave {c c' : Cache} {d : Choice} {phase phase' : Phase} {data : List UInt8}
    (h : Acts c d phase c' phase') (hs : IsSave data phase)
    (hd : ∀ w i off, phase = .saveClose w i off → d.fails = false) : IsSave data phase' := by
  cases h with
  | @saveRejected _ _ full _ => cases full <;> trivial
  | notMade | notOpened | tmpRemoved => trivial
  | saveChecked hv => exact ⟨hs, validatePath_proper hv⟩
  | rest | parentThere | parentMissing | parentMade | written | closing | infoRead | made | opened
  | notWritten | wrote | flushed => exact hs
  | notRenamed | renamed => exact ⟨hs.1, hs.2.1⟩
  | closed hc =>
    refine ⟨hs.1, hs.2, ?_⟩
    rcases hc with hc | hc
    · rw [hd _ _ _ rfl] at hc
      cases hc
    · exact hs.1 ▸ hc
  | indexed => exact hs.2
  | deleteRejected | deleteChecked | deleteFound | deleteNotFound | removed | notRemoved | erased =>
    exact hs.elim

/-- The path of a call stays. -/
theorem acts_path {c c' : Cache} {d : Choice} {phase phase' : Phase} {data : List UInt8}
    (h : Acts c d phase c' phase') (hs : IsSave data phase) {p : Path} (hp : phase.path = some p) :
    phase'.path = some p := by
  cases h with
  | saveRejected | saveChecked => cases hp
  | deleteRejected | deleteChecked | deleteFound | deleteNotFound | removed | notRemoved | erased =>
    exact hs.elim
  | rest | parentThere | parentMissing | made | parentMade | notMade | opened | notOpened | wrote
  | notWritten | written | flushed | closing | closed | renamed | notRenamed | tmpRemoved
  | infoRead | indexed => exact hp

/-- The check gives a call the path that its name is validated to. -/
theorem act_saveCheck_path {c : Cache} {d : Choice} {name : List Char} {bytes : List UInt8}
    {p : Path} (h : (act c d (.saveCheck name bytes)).2.path = some p) :
    validatePath c name = .ok p := by
  rw [act] at h
  split at h
  next => cases h
  next full hv =>
    split at h
    all_goals
      cases h
      exact hv

/-- Behind the check a call has the path it had. -/
theorem acts_path_old {c c' : Cache} {d : Choice} {phase phase' : Phase} {data : List UInt8}
    (h : Acts c d phase c' phase') (hs : IsSave data phase)
    (hcheck : ∀ name bytes, phase ≠ .saveCheck name bytes) {p : Path} (hp : phase'.path = some p) :
    phase.path = some p := by
  cases h with
  | saveRejected | saveChecked => exact absurd rfl (hcheck _ _)
  | deleteRejected | deleteChecked | deleteFound | deleteNotFound | removed | notRemoved | erased =>
    exact hs.elim
  | rest | parentThere | parentMissing | made | parentMade | notMade | opened | notOpened | wrote
  | notWritten | written | flushed | closing | closed | renamed | notRenamed | tmpRemoved
  | infoRead | indexed => exact hp

/-- A save gets its path when it is validated. -/
theorem act_path_new {c : Cache} {d : Choice} {phase : Phase} {data : List UInt8}
    (hs : IsSave data phase) {p : Path} (hp : (act c d phase).2.path = some p) :
    phase.path = some p ∨
      ∃ name bytes, phase = .saveCheck name bytes ∧ validatePath c name = .ok p := by
  by_cases hcheck : ∃ name bytes, phase = .saveCheck name bytes
  · obtain ⟨name, bytes, rfl⟩ := hcheck
    exact .inr ⟨name, bytes, rfl, act_saveCheck_path hp⟩
  · exact .inl
      (acts_path_old (act_acts c d phase) hs (fun name bytes h => hcheck ⟨name, bytes, h⟩) hp)

/-- **The stages.** A step of a save to the path is a step of its stage. -/
theorem acts_stage {c c' : Cache} {d : Choice} {phase phase' : Phase} {data : List UInt8}
    {full : Path} (h : Acts c d phase c' phase') (hs : IsSave data phase)
    (hpath : ∀ p, phase.path = some p → p = full) :
    StageStep data full c.tree phase.stage c'.tree phase'.stage := by
  cases h with
  | rest | saveChecked | parentThere | parentMissing | parentMade | written | closing | closed
  | infoRead
  | indexed => exact .stay
  | saveRejected | notMade | notOpened | notWritten | notRenamed => exact .fail
  | made hmk => exact .mkdir (createDirectory_sameFiles hmk)
  | opened ho =>
    obtain rfl := hpath _ rfl
    obtain ⟨τ, hτ, ho⟩ := Option.bind_eq_some_iff.1 ho
    obtain ⟨-, hown, hnode, hinode⟩ := Tree.openTrunc_some ho
    exact .opened (cString_of_target (tmpPath_normal hs.2.1) hτ) hown hnode (by simp [hinode])
      fun j hj => by simp [hinode, hj]
  | wrote | flushed =>
    obtain ⟨rfl, -⟩ := hs
    exact .wrote d.size d.now
  | renamed hr =>
    obtain rfl := hpath _ rfl
    obtain ⟨τ, hτ, hr⟩ := Option.bind_eq_some_iff.1 hr
    obtain ⟨q, hq, hr⟩ := Option.bind_eq_some_iff.1 hr
    exact .renamed (cString_of_target (tmpPath_normal hs.2.1.1) hτ)
      (cString_of_target hs.2.1.1 hq) hr hs.2.2
  | tmpRemoved fails =>
    obtain rfl := hpath _ rfl
    rcases removeTmp_cases (t := c.tree) (tmpPath_normal hs.2.1) fails with h | ⟨τ, hτ, hn, hi⟩
    · exact .removedDir h
    · exact .removed hτ hn hi
  | deleteRejected | deleteChecked | deleteFound | deleteNotFound | removed | notRemoved | erased =>
    exact hs.elim

/-! ## What a save relies on -/

section
variable {data data' : List UInt8} {full full' : Path} {t t' : Files} {stage stage' : Stage}

/-- The inode of a stream stands at the path, with what has been written and no more. -/
def Held (data : List UInt8) (path : Path) (t : Files) (i off : Nat) : Prop :=
  ∃ τ, cString path = plain τ ∧ t.node τ = some (.file i) ∧ (t.inode i).bytes = data.take off ∧
    off ≤ data.length

/-- A save that nobody disturbs holds its temporary, and then its data is at its target. -/
def Own (data : List UInt8) (full : Path) (t : Files) : Stage → Prop
  | .holding i off => Held data full.tmpPath t i off
  | .done => ∃ q, cString full = plain q ∧ t.content q = some data
  | _ => True

/-- The file at the path, if there is one, is untouched. -/
def Spares (t t' : Files) (path : Path) : Prop :=
  ∀ p i, cString path = plain p → t.node p = some (.file i) →
    t'.node p = some (.file i) ∧ t'.inode i = t.inode i

/-- What spares the temporary and the target leaves a save as it is. -/
theorem Own.keep (h : Own data full t stage) (htmp : Spares t t' full.tmpPath)
    (hfull : Spares t t' full) : Own data full t' stage := by
  cases stage with
  | before | failed => trivial
  | holding i off =>
    obtain ⟨τ, hτ, hnode, hbytes, hoff⟩ := h
    obtain ⟨hnode', hinode⟩ := htmp τ i hτ hnode
    exact ⟨τ, hτ, hnode', by rw [hinode, hbytes], hoff⟩
  | done =>
    obtain ⟨q, hq, hc⟩ := h
    obtain ⟨i, hi, hbytes⟩ := Tree.content_eq_some.1 hc
    obtain ⟨hnode', hinode⟩ := hfull q i hq hi
    exact ⟨q, hq, Tree.content_eq_some.2 ⟨i, hnode', by rw [hinode, hbytes]⟩⟩

/-- Where the files stay the same every path is spared. -/
theorem spares_of_sameFiles (h : t.SameFiles t') (path : Path) : Spares t t' path :=
  fun p i _ hi => ⟨(h.2 p i).2 hi, by rw [h.1]⟩

/-- A write at the end of what has been written. -/
theorem write_bytes {i off : Nat} (hbytes : (t.inode i).bytes = data.take off)
    (hoff : off ≤ data.length) (size : Nat) (now : Int) :
    ((t.write i off ((data.drop off).take size) now).inode i).bytes =
        data.take (off + ((data.drop off).take size).length) ∧
      off + ((data.drop off).take size).length ≤ data.length := by
  have hlen : (data.take off).length = off := by rw [List.length_take, Nat.min_eq_left hoff]
  refine ⟨?_, ?_⟩
  · rw [Tree.write_inode, update_self, hbytes, Tree.overwrite_append hlen, List.take_add,
      List.length_take, ← List.take_eq_take_min]
  · rw [List.length_take, List.length_drop]
    omega

/-- A step of a save keeps what it relies on. -/
theorem own_step (h : StageStep data full t stage t' stage') (ho : Own data full t stage) :
    Own data full t' stage' := by
  cases h with
  | stay => exact ho
  | fail | mkdir | removed | removedDir => trivial
  | opened hτ hown hnode hbytes hinode =>
    exact ⟨_, hτ, by rw [hnode, update_self], by rw [hbytes, List.take_zero], Nat.zero_le _⟩
  | wrote size now =>
    obtain ⟨τ, hτ, hnode, hbytes, hoff⟩ := ho
    obtain ⟨hb, hl⟩ := write_bytes hbytes hoff size now
    exact ⟨τ, hτ, hnode, hb, hl⟩
  | renamed hτ hq h hoff =>
    obtain ⟨τ, hτ', hnode, hbytes, -⟩ := ho
    cases plain_injective (hτ.symm.trans hτ')
    obtain ⟨-, hn, hi⟩ := Tree.rename_file hnode h
    refine ⟨_, hq, Tree.content_eq_some.2 ⟨_, by rw [hn, update_self], ?_⟩⟩
    rw [hi, hbytes, List.take_of_length_le hoff]

/-- A step of a save spares every path but its temporary and its target. -/
theorem step_spares (h : StageStep data full t stage t' stage') (ho : Own data full t stage)
    {path : Path} (htmp : cString full.tmpPath ≠ cString path)
    (hfull : cString full ≠ cString path) :
    Spares t t' path := by
  intro p i hp hi
  have hne : ∀ τ, cString full.tmpPath = plain τ → p ≠ τ := by
    rintro τ hτ rfl
    exact htmp (hτ.trans hp.symm)
  cases h with
  | stay | fail => exact ⟨hi, rfl⟩
  | mkdir h | removedDir h => exact spares_of_sameFiles h path p i hp hi
  | opened hτ hown hnode hbytes hinode =>
    refine ⟨by rw [hnode, update_of_ne (hne _ hτ), hi], hinode i ?_⟩
    rintro rfl
    exact hne _ hτ (hown p hi)
  | wrote size now =>
    obtain ⟨τ, hτ, hnode, -, -⟩ := ho
    refine ⟨hi, ?_⟩
    rw [Tree.write_inode]
    refine update_of_ne ?_ _ _
    rintro rfl
    exact hne τ hτ (t.inode_inj hi hnode)
  | @renamed _ _ _ τ q hτ hq h hoff =>
    obtain ⟨τ', hτ', hnode, -, -⟩ := ho
    cases plain_injective (hτ.symm.trans hτ')
    obtain ⟨-, hn, hin⟩ := Tree.rename_file hnode h
    have hpq : p ≠ q := by
      rintro rfl
      exact hfull (hq.trans hp.symm)
    exact ⟨by rw [hn, update_of_ne hpq, update_of_ne (hne _ hτ), hi], by rw [hin]⟩
  | removed hτ hnode hinode =>
    exact ⟨by rw [hnode, update_of_ne (hne _ hτ), hi], by rw [hinode]⟩

end

/-! ## Two saves of one file -/

section
variable {data : Bool → List UInt8} {full : Path} {t t' : Files} {stages : Bool → Stage}

/-- How two saves of one path can stand to each other. -/
inductive Shared (data : Bool → List UInt8) (full : Path) (t : Files) (stages : Bool → Stage) :
    Prop where
  /-- One has failed. -/
  | failed (b) (h : stages b = .failed)
  /-- One has not opened the temporary, so the other has it to itself. -/
  | alone (b) (h : stages b = .before) (ho : Own (data !b) full t (stages !b))
  /-- Both have opened it, and it has not been renamed. -/
  | both {τ i} (h : ∀ b, ∃ i off, stages b = .holding i off) (hτ : cString full.tmpPath = plain τ)
      (hn : t.node τ = some (.file i))
  /-- One has renamed it, and the other has opened a new one since. -/
  | second (b) {i off} (h : stages b = .done) (h' : stages (!b) = .holding i off)
      (ho : Held (data !b) full.tmpPath t i off)
  /-- One has renamed it, and the other had opened it before: its rename is going to fail. -/
  | lost (b) {τ i off} (h : stages b = .done) (h' : stages (!b) = .holding i off)
      (hτ : cString full.tmpPath = plain τ) (hn : t.node τ = none)
  /-- Both have renamed theirs; the last one's data is at the target. -/
  | finished (b) {q} (h : ∀ b, stages b = .done) (hq : cString full = plain q)
      (hc : t.content q = some (data b))

/-- A save that is done stays done, and touches the disk no more. -/
theorem stageStep_done {stage' : Stage} {bytes : List UInt8}
    (h : StageStep bytes full t .done t' stage') :
    (t' = t ∧ stage' = .done) ∨ stage' = .failed := by
  cases h with
  | stay => exact .inl ⟨rfl, rfl⟩
  | fail => exact .inr rfl

/-- A save that has failed stays so. -/
theorem stageStep_failed {stage' : Stage} {bytes : List UInt8}
    (h : StageStep bytes full t .failed t' stage') : stage' = .failed := by
  cases h <;> rfl

/-- Setting one of two stages leaves the other. -/
theorem update_not (b : Bool) (stage : Stage) : update stages b stage (!b) = stages !b :=
  update_of_ne (by simp) _ _

/-- Setting the other of two stages leaves the one. -/
theorem update_not' (b : Bool) (stage : Stage) : update stages (!b) stage b = stages b :=
  update_of_ne (by simp) _ _

/-- A step of the save that is alone with the temporary, or of the one that has not opened it. -/
theorem shared_alone {a b : Bool} {stage' : Stage} (hb : stages b = .before)
    (ho : Own (data !b) full t (stages !b))
    (h : StageStep (data a) full t (stages a) t' stage') :
    Shared data full t' (update stages a stage') := by
  rcases Bool.eq_or_eq_not a b with rfl | rfl
  · rw [hb] at h
    cases h with
    | stay => exact .alone a (update_self _ _ _) (by rwa [update_not])
    | fail => exact .failed a (update_self _ _ _)
    | mkdir hs =>
      refine .alone a (update_self _ _ _) ?_
      rw [update_not]
      exact ho.keep (spares_of_sameFiles hs _) (spares_of_sameFiles hs _)
    | @opened _ τ i hτ hown hnode hbytes hinode =>
      have hheld : Held (data a) full.tmpPath t' i 0 :=
        ⟨τ, hτ, by rw [hnode, update_self], by rw [hbytes, List.take_zero], Nat.zero_le _⟩
      cases hstage : stages !a with
      | before =>
        refine .alone (!a) (by rw [update_not, hstage]) ?_
        rw [Bool.not_not, update_self]
        exact hheld
      | holding i' off' =>
        refine .both (fun c => ?_) hτ (by rw [hnode, update_self])
        rcases Bool.eq_or_eq_not c a with rfl | rfl
        · exact ⟨i, 0, update_self _ _ _⟩
        · exact ⟨i', off', by rw [update_not, hstage]⟩
      | done =>
        refine .second (!a) (by rw [update_not, hstage]) (by rw [Bool.not_not, update_self]) ?_
        rw [Bool.not_not]
        exact hheld
      | failed => exact .failed (!a) (by rw [update_not, hstage])
  · refine .alone b (by rw [update_not', hb]) ?_
    rw [update_self]
    exact own_step h ho

/-- A step of a save that shares the temporary with the other. -/
theorem shared_both {a : Bool} {stage' : Stage} {τ : List Entry} {i : Nat}
    (hstages : ∀ b, ∃ i off, stages b = .holding i off) (hτ : cString full.tmpPath = plain τ)
    (hn : t.node τ = some (.file i)) (hne : cString full ≠ cString full.tmpPath)
    (h : StageStep (data a) full t (stages a) t' stage') :
    Shared data full t' (update stages a stage') := by
  obtain ⟨ia, offa, ha⟩ := hstages a
  obtain ⟨ib, offb, hb⟩ := hstages !a
  have hboth : ∀ off, ∀ c, ∃ i off', update stages a (.holding ia off) c = .holding i off' := by
    intro off c
    rcases Bool.eq_or_eq_not c a with rfl | rfl
    · exact ⟨ia, off, update_self _ _ _⟩
    · exact ⟨ib, offb, by rw [update_not, hb]⟩
  rw [ha] at h
  cases h with
  | stay => exact .both (hboth _) hτ hn
  | fail => exact .failed a (update_self _ _ _)
  | wrote size now => exact .both (hboth _) hτ hn
  | @renamed _ _ _ τ' q hτ' hq hr hoff =>
    cases plain_injective (hτ.symm.trans hτ')
    obtain ⟨-, hnode, -⟩ := Tree.rename_file hn hr
    have hqτ : τ ≠ q := by
      rintro rfl
      exact hne (hq.trans hτ.symm)
    refine .lost a (update_self _ _ _) (by rw [update_not, hb]) hτ ?_
    rw [hnode, update_of_ne hqτ, update_self]

/-- **Two saves of one file.** -/
theorem shared_step {a : Bool} {stage' : Stage} (hs : Shared data full t stages)
    (hne : cString full ≠ cString full.tmpPath)
    (h : StageStep (data a) full t (stages a) t' stage') :
    Shared data full t' (update stages a stage') := by
  cases hs with
  | failed b hb =>
    rcases Bool.eq_or_eq_not a b with rfl | rfl
    · rw [hb] at h
      exact .failed a (by rw [update_self, stageStep_failed h])
    · exact .failed b (by rw [update_not', hb])
  | alone b hb ho => exact shared_alone hb ho h
  | both hstages hτ hn => exact shared_both hstages hτ hn hne h
  | second b hb hb' ho =>
    rcases Bool.eq_or_eq_not a b with rfl | rfl
    · rw [hb] at h
      rcases stageStep_done h with ⟨rfl, rfl⟩ | rfl
      · exact .second a (update_self _ _ _) (by rw [update_not, hb']) ho
      · exact .failed a (update_self _ _ _)
    · rw [hb'] at h
      have ho' := own_step h ho
      cases h with
      | stay => exact .second b (by rw [update_not', hb]) (update_self _ _ _) ho'
      | fail => exact .failed (!b) (update_self _ _ _)
      | wrote size now => exact .second b (by rw [update_not', hb]) (update_self _ _ _) ho'
      | renamed hτ hq hr hoff =>
        obtain ⟨q, hq, hc⟩ := ho'
        refine .finished (!b) (fun c => ?_) hq hc
        rcases Bool.eq_or_eq_not c b with rfl | rfl
        · rw [update_not', hb]
        · exact update_self _ _ _
  | lost b hb hb' hτ hn =>
    rcases Bool.eq_or_eq_not a b with rfl | rfl
    · rw [hb] at h
      rcases stageStep_done h with ⟨rfl, rfl⟩ | rfl
      · exact .lost a (update_self _ _ _) (by rw [update_not, hb']) hτ hn
      · exact .failed a (update_self _ _ _)
    · rw [hb'] at h
      cases h with
      | stay => exact .lost b (by rw [update_not', hb]) (update_self _ _ _) hτ hn
      | fail => exact .failed (!b) (update_self _ _ _)
      | wrote size now => exact .lost b (by rw [update_not', hb]) (update_self _ _ _) hτ hn
      | renamed hτ' hq hr hoff =>
        cases plain_injective (hτ.symm.trans hτ')
        exact absurd hn (Tree.rename_source hr)
  | finished b hstages hq hc =>
    rw [hstages a] at h
    rcases stageStep_done h with ⟨rfl, rfl⟩ | rfl
    · refine .finished b (fun c => ?_) hq hc
      rcases Bool.eq_or_eq_not c a with rfl | rfl
      · exact update_self _ _ _
      · rw [update_not, hstages]
    · exact .failed a (update_self _ _ _)

end

/-! ## Runs of two saves -/

/-- Only the two calls take steps, no flush fails unseen, and no call is validated to a path that is
the temporary of the other, or the other way round. -/
def Calm (s : System Bool) : Label Bool → Prop
  | .act b d => (∀ w i off, s.client b = .saveClose w i off → d.fails = false) ∧
      ∀ name data full full', s.client b = .saveCheck name data →
        validatePath s.cache name = .ok full → (s.client !b).path = some full' →
        cString full ≠ cString full'.tmpPath ∧ cString full' ≠ cString full.tmpPath
  | _ => False

/-- The paths that the calls have been validated to by now are not each other's temporaries. -/
def PathsApart (s : System Bool) : Prop :=
  ∀ b p p', (s.client b).path = some p → (s.client !b).path = some p' →
    cString p ≠ cString p'.tmpPath

section
variable {s₀ s : System Bool} {name : Bool → List Char} {data : Bool → List UInt8}
  {full : Bool → Path} {ls : List (Label Bool)}

/-- Over a calm step both calls stay saves of their data. -/
theorem isSave_step {l : Label Bool} {s' : System Bool} (hc : Calm s l)
    (h : ∀ b, IsSave (data b) (s.client b)) (hs : step s l = some s') (b : Bool) :
    IsSave (data b) (s'.client b) := by
  cases l with
  | save | delete | scan => exact hc.elim
  | act a d =>
    obtain rfl := Option.some.inj ((step_act s a d).symm.trans hs)
    rcases eq_or_ne b a with rfl | hb
    · simp only [update_self]
      exact acts_isSave (act_acts s.cache d (s.client b)) (h b) hc.1
    · simp only [update_of_ne hb]
      exact h b

/-- Over a calm step the paths stay apart. -/
theorem apart_step {l : Label Bool} {s' : System Bool} (hc : Calm s l)
    (hsave : ∀ b, IsSave (data b) (s.client b)) (h : PathsApart s) (hs : step s l = some s') :
    PathsApart s' := by
  cases l with
  | save | delete | scan => exact hc.elim
  | act a d =>
    obtain rfl := Option.some.inj ((step_act s a d).symm.trans hs)
    have hnew : ∀ p, (act s.cache d (s.client a)).2.path = some p → _ :=
      fun _ => act_path_new (hsave a)
    intro b p p' hp hp'
    dsimp only at hp hp'
    rcases Bool.eq_or_eq_not b a with rfl | rfl
    · rw [update_self] at hp
      rw [update_of_ne (by simp)] at hp'
      rcases hnew p hp with hp | ⟨n, bytes, hcheck, hv⟩
      · exact h b p p' hp hp'
      · exact (hc.2 n bytes p p' hcheck hv hp').1
    · rw [update_of_ne (by simp)] at hp
      rw [Bool.not_not, update_self] at hp'
      rcases hnew p' hp' with hp' | ⟨n, bytes, hcheck, hv⟩
      · exact h (!a) p p' hp (by rwa [Bool.not_not])
      · exact (hc.2 n bytes p' p hcheck hv hp).2

/-- What every step of a stage keeps holds at the end of a run, for the paths the calls turn out to
have been validated to. -/
theorem stages_run {Q : Files → (Bool → Stage) → Prop}
    (keep : ∀ a t stages t' stage', Q t stages →
      StageStep (data a) (full a) t (stages a) t' stage' →
      Q t' (update stages a stage'))
    (h₀ : ∀ b, s₀.client b = .saveCheck (name b) (data b))
    (hQ : Q s₀.cache.tree fun _ => .before) (hrun : run step s₀ ls = some s)
    (hcalm : Along step Calm s₀ ls)
    (hpath : ∀ b p, (s.client b).path = some p → p = full b) :
    Q s.cache.tree fun b => (s.client b).stage := by
  let I (s : System Bool) : Prop := (∀ b, IsSave (data b) (s.client b)) ∧
    ((∀ b p, (s.client b).path = some p → p = full b) →
      Q s.cache.tree fun b => (s.client b).stage)
  have hI : I s := by
    refine run_along (C := Calm) (P := I) ?_ ⟨fun b => ?_, fun _ => ?_⟩ hcalm hrun
    · rintro s l s' hc ⟨hsave, hstages⟩ hs
      refine ⟨isSave_step hc hsave hs, fun hpath => ?_⟩
      cases l with
      | save | delete | scan => exact hc.elim
      | act a d =>
        obtain rfl := Option.some.inj ((step_act s a d).symm.trans hs)
        have hacts := act_acts s.cache d (s.client a)
        -- a path that a call has now it still has after the step
        have hpath' : ∀ b p, (s.client b).path = some p → p = full b := by
          intro b p hp
          refine hpath b p ?_
          rcases eq_or_ne b a with rfl | hb
          · simp only [update_self]
            exact acts_path hacts (hsave b) hp
          · simpa only [update_of_ne hb] using hp
        have hnext := keep a _ _ _ _ (hstages hpath') (acts_stage hacts (hsave a) (hpath' a))
        have hupdate := comp_update Phase.stage s.client a (act s.cache d (s.client a)).2
        rw [comp_def, comp_def] at hupdate
        dsimp only
        rw [hupdate]
        exact hnext
    · rw [h₀]
      exact rfl
    · have hstage : (fun b => (s₀.client b).stage) = fun _ => Stage.before := by
        funext b
        rw [h₀]
        rfl
      rw [hstage]
      exact hQ
  exact hI.2 hpath

/-- The calls of a run stay saves, and their paths apart. -/
theorem saves_run (h₀ : ∀ b, s₀.client b = .saveCheck (name b) (data b))
    (hrun : run step s₀ ls = some s) (hcalm : Along step Calm s₀ ls) :
    (∀ b, IsSave (data b) (s.client b)) ∧ PathsApart s := by
  let I (s : System Bool) : Prop := (∀ b, IsSave (data b) (s.client b)) ∧ PathsApart s
  refine run_along (C := Calm) (P := I) ?_ ⟨fun b => ?_, fun b p p' hp _ => ?_⟩ hcalm hrun
  · rintro s l s' hc ⟨hsave, hapart⟩ hs
    exact ⟨isSave_step hc hsave hs, apart_step hc hsave hapart hs⟩
  · rw [h₀]
    exact rfl
  · rw [h₀] at hp
    cases hp

/-- **Two saves that both succeed.** However they interleave: unless one target is the other's
temporary, or a flush failed unseen, each target holds the bytes of one of the calls for it. -/
theorem saves_end (h₀ : ∀ b, s₀.client b = .saveCheck (name b) (data b))
    (hrun : run step s₀ ls = some s) (hcalm : Along step Calm s₀ ls)
    (hret : ∀ b, s.client b = .returned (some (full b)) (.ok ())) (b : Bool) :
    ∃ b', cString (full b') = cString (full b) ∧
      ∃ p, resolve s.cache.tree (full b) = some p ∧ s.cache.tree.content p = some (data b') := by
  obtain ⟨hsave, hapart⟩ := saves_run h₀ hrun hcalm
  have hproper : ∀ b, Proper (full b) := by
    intro b
    have h := hsave b
    rwa [hret] at h
  have hsep : ∀ b, cString (full b) ≠ cString (full !b).tmpPath := fun b =>
    hapart b _ _ (by rw [hret]; rfl) (by rw [hret]; rfl)
  have hpath : ∀ b p, (s.client b).path = some p → p = full b := by
    intro b p hp
    rw [hret] at hp
    exact (Option.some.inj hp).symm
  have hresolve : ∀ {b b' q}, cString (full b) = plain q →
      s.cache.tree.content q = some (data b') →
      ∃ p, resolve s.cache.tree (full b) = some p ∧ s.cache.tree.content p = some (data b') := by
    intro b b' q hq hc
    obtain ⟨i, hi⟩ := Tree.content_isSome.1 (by rw [hc]; rfl)
    exact ⟨q, by rw [resolve_of_cString hq]; simp [hi], hc⟩
  by_cases heq : full true = full false
  · -- one file: the temporary is shared
    have hfull : ∀ b, full b = full false := by
      intro b
      cases b with
      | false => rfl
      | true => exact heq
    have hne : cString (full false) ≠ cString (full false).tmpPath := by
      have := hsep false
      rwa [hfull (!false)] at this
    have hshared : Shared data (full false) s.cache.tree fun b => (s.client b).stage :=
      stages_run (fun a _ _ _ _ hq hstep => shared_step hq hne (hfull a ▸ hstep)) h₀
        (.alone false rfl trivial) hrun hcalm hpath
    have hdone : ∀ b, (s.client b).stage = .done := by
      intro b
      rw [hret]
      rfl
    cases hshared with
    | failed b' h => cases h.symm.trans (hdone b')
    | alone b' h => cases h.symm.trans (hdone b')
    | both h =>
      obtain ⟨_, _, h⟩ := h b
      cases h.symm.trans (hdone b)
    | second b' _ h => cases h.symm.trans (hdone !b')
    | lost b' _ h => cases h.symm.trans (hdone !b')
    | finished b' _ hq hc =>
      exact ⟨b', by rw [hfull b', hfull b], hresolve (by rw [hfull b, hq]) hc⟩
  · -- two files: each save has its own temporary
    have hback : ∀ a, cString (full !a) ≠ cString (full a).tmpPath := by
      intro a
      have := hsep !a
      rwa [Bool.not_not] at this
    have hdisjoint : ∀ a, cString (full a) ≠ cString (full !a) ∧
        cString (full a).tmpPath ≠ cString (full !a).tmpPath := by
      intro a
      have hneq : full a ≠ full !a := by
        cases a with
        | false => exact fun h => heq h.symm
        | true => exact heq
      have happly := eq_of_apart (hproper a).2 (hproper !a).2 (hsep a) (hback a)
      exact ⟨fun h => hneq (happly (.inl h)), fun h => hneq (happly (.inr h))⟩
    have hown : ∀ b, Own (data b) (full b) s.cache.tree (s.client b).stage := by
      let Q (t : Files) (stages : Bool → Stage) : Prop := ∀ b, Own (data b) (full b) t (stages b)
      refine stages_run (Q := Q) ?_ h₀ (fun _ => trivial) hrun hcalm hpath
      intro a t stages t' stage' ho hstep c
      rcases Bool.eq_or_eq_not c a with rfl | rfl
      · rw [update_self]
        exact own_step hstep (ho c)
      · rw [update_not]
        exact (ho !a).keep (step_spares hstep (ho a) (hdisjoint a).2 (hsep a))
          (step_spares hstep (ho a) (hback a).symm (hdisjoint a).1)
    have h := hown b
    rw [hret] at h
    obtain ⟨q, hq, hc⟩ := h
    exact ⟨b, rfl, hresolve hq hc⟩

/-! ## Names in canonical spelling -/

/-- No step moves the root. -/
theorem acts_root {c c' : Cache} {d : Choice} {phase phase' : Phase}
    (h : Acts c d phase c' phase') : c'.root = c.root := by
  cases h <;> rfl

/-- No step comes back to the check of the name. -/
theorem acts_ne_saveCheck {c c' : Cache} {d : Choice} {phase phase' : Phase}
    (h : Acts c d phase c' phase') (n : List Char) (bytes : List UInt8) :
    phase' ≠ .saveCheck n bytes := by
  rintro rfl
  cases h

/-- Saves of canonical names, and where they can have been validated to. -/
structure CanonicalSaves (root : List Entry) (name : Bool → List Char) (data : Bool → List UInt8)
    (s : System Bool) : Prop where
  root_eq : s.cache.root = root
  isSave : ∀ b, IsSave (data b) (s.client b)
  name_eq : ∀ b n bytes, s.client b = .saveCheck n bytes → n = name b
  path_eq : ∀ b p, (s.client b).path = some p → p = plain (root ++ entries (name b))

/-- For canonical names the condition is one on the names: no step of two saves whose flushes do not
fail is in the way of the other. -/
theorem along_calm {root : List Entry} (hname : ∀ b, Canonical (name b))
    (hne : ∀ b, plain (root ++ entries (name b)) ≠ (plain (root ++ entries (name !b))).tmpPath)
    (h : CanonicalSaves root name data s)
    (hls : ∀ l ∈ ls, ∃ b d, l = .act b d ∧ d.fails = false) : Along step Calm s ls := by
  induction ls generalizing s with
  | nil => trivial
  | cons l ls ih =>
    obtain ⟨a, d, rfl, hd⟩ := hls l List.mem_cons_self
    have hvalid : ∀ n bytes p, s.client a = .saveCheck n bytes → validatePath s.cache n = .ok p →
        p = plain (root ++ entries (name a)) := by
      intro n bytes p hcheck hv
      obtain rfl := h.name_eq a n bytes hcheck
      rw [validatePath_canonical hv (hname a), h.root_eq]
    have hcalm : Calm s (.act a d) := by
      refine ⟨fun _ _ _ _ => hd, fun n bytes p p' hcheck hv hp' => ?_⟩
      obtain rfl := hvalid n bytes p hcheck hv
      obtain rfl := h.path_eq _ p' hp'
      have hback := hne !a
      rw [Bool.not_not] at hback
      rw [cString_plain, cString_plain, cString_tmpPath_plain, cString_tmpPath_plain]
      exact ⟨hne a, hback⟩
    refine ⟨hcalm, fun s' hs => ih ?_ fun l hl => hls l (List.mem_cons_of_mem _ hl)⟩
    have hsave := isSave_step hcalm h.isSave hs
    obtain rfl := Option.some.inj ((step_act s a d).symm.trans hs)
    have hacts := act_acts s.cache d (s.client a)
    refine ⟨(acts_root hacts).trans h.root_eq, hsave, fun b n bytes hcheck => ?_, fun b p hp => ?_⟩
    · rcases eq_or_ne b a with rfl | hb
      · simp only [update_self] at hcheck
        exact absurd hcheck (acts_ne_saveCheck hacts n bytes)
      · simp only [update_of_ne hb] at hcheck
        exact h.name_eq b n bytes hcheck
    · rcases eq_or_ne b a with rfl | hb
      · simp only [update_self] at hp
        rcases act_path_new (h.isSave b) hp with hp | ⟨n, bytes, hcheck, hv⟩
        · exact h.path_eq b p hp
        · exact hvalid n bytes p hcheck hv
      · simp only [update_of_ne hb] at hp
        exact h.path_eq b p hp

end

/-- **Saving one file and the others.** Alone, a save leaves every other file as it is, whatever
fails, exactly when no regular file but the target is at its temporary. Two saves that both succeed,
interleaved in any way, leave at each target the bytes of one of the calls for it, when every step
is calm. -/
theorem saves_keep (c : Cache) (name : List Char) (data : List UInt8) :
    ((∀ f now p bs, c.root <+: p → c.tree.content p = some bs →
        (∀ full, validatePath c name = .ok full → resolve c.tree full ≠ some p) →
        (saveFile c name data f now).1.tree.content p = some bs) ↔
      ∀ full, validatePath c name = .ok full → ¬ TooLarge c data →
        ∀ p, resolve c.tree full.tmpPath = some p → c.tree.IsFile p →
          resolve c.tree full = some p) ∧
    ∀ (s₀ s : System Bool) (name : Bool → List Char) (data : Bool → List UInt8) (full : Bool → Path)
      (ls : List (Label Bool)), (∀ b, s₀.client b = .saveCheck (name b) (data b)) →
      run step s₀ ls = some s → Along step Calm s₀ ls →
      (∀ b, s.client b = .returned (some (full b)) (.ok ())) →
      ∀ b, ∃ b', cString (full b') = cString (full b) ∧
        ∃ p, resolve s.cache.tree (full b) = some p ∧ s.cache.tree.content p = some (data b') :=
  ⟨saveFile_frame c name data,
    fun _ _ _ _ _ _ h₀ hrun hcalm hret => saves_end h₀ hrun hcalm hret⟩

/-- Saves of `a` and of `b` on the empty cache. -/
def twoSaves : System Bool where
  cache := emptyCache
  client b := .saveCheck [if b then 'a' else 'b'] [if b then 1 else 2]

/-- The two saves, step by step in turn. -/
def inTurn : List (Label Bool) := saveSteps.flatMap fun d => [.act true d, .act false d]

/-- Of two saves that take their steps in turn each has its data at its target. -/
theorem saves_keep_inTurn : ∃ s, run step twoSaves inTurn = some s ∧
    ∃ p, resolve s.cache.tree [['c'], ['a']] = some p ∧ s.cache.tree.content p = some [1] := by
  have hsaves : CanonicalSaves emptyCache.root (fun b => [if b then 'a' else 'b'])
      (fun b => [if b then 1 else 2]) twoSaves := by
    refine ⟨rfl, fun _ => rfl, fun b n bytes h => ?_, fun b p h => ?_⟩
    · cases h
      rfl
    · cases h
  have hcalm : Along step Calm twoSaves inTurn := by
    refine along_calm (by decide) (by decide) hsaves fun l hl => ?_
    obtain ⟨d, hd, hl⟩ := List.mem_flatMap.1 hl
    have hfails : ∀ d ∈ saveSteps, d.fails = false := by decide
    rcases List.mem_cons.1 hl with rfl | hl
    · exact ⟨true, d, rfl, hfails d hd⟩
    · exact ⟨false, d, List.mem_singleton.1 hl, hfails d hd⟩
  have hrun : ∃ s, run step twoSaves inTurn = some s ∧ ∀ b, s.client b =
      .returned (some [['c'], [if b then 'a' else 'b']]) (.ok ()) := by
    refine ⟨_, rfl, fun b => ?_⟩
    cases b <;> rfl
  obtain ⟨s, hs, hret⟩ := hrun
  obtain ⟨b, hb, h⟩ := (saves_keep emptyCache ['a'] [1]).2 twoSaves s
    (fun b => [if b then 'a' else 'b']) (fun b => [if b then 1 else 2])
    (fun b => [['c'], [if b then 'a' else 'b']]) inTurn (fun _ => rfl) hs hcalm hret true
  cases b with
  | false => exact absurd hb (by decide)
  | true => exact ⟨s, hs, h⟩

/-- **A save can destroy a file.** A file is saved as `a.tmp`; a save of `a` moves it away. -/
theorem tmp_save_lost :
    ¬ ∀ (root : List Entry) (maxFileSize : Nat) (retention : Int) (t : Files) (ops : List Op)
      (c : Cache), run MyCache.step (initialised root maxFileSize retention t) ops = some c →
      ∀ name data f now p bs, root <+: p → c.tree.content p = some bs →
        (∃ full, validatePath c name = .ok full ∧ resolve c.tree full ≠ some p) →
        (saveFile c name data f now).1.tree.content p = some bs := by
  intro h
  have hlost :=
    h [⟨['c'], by decide⟩] 0 0 emptyRoot [.save ['a', '.', 't', 'm', 'p'] [1] {} 0] _ rfl
    ['a'] [2] {} 1 [⟨['c'], by decide⟩, ⟨['a', '.', 't', 'm', 'p'], by decide⟩] [1] (by decide)
    (by decide) ⟨[['c'], ['a']], by decide, by decide⟩
  revert hlost
  decide

end Concurrent

end MyCache
