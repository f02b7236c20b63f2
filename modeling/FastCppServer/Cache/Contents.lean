import FastCppServer.Cache.FileList

/-!
# What the cache stores

The purpose of the cache, without the disk: a store from canonical names to bytes. Seen that way a
save that succeeds puts its bytes under its name, a deletion that succeeds takes its name away, and
every call that fails, like every new directory and every scan, leaves the store as it is
(`contents_apply`). The disk in between has more to it, directories made for a save that then fails
and temporaries that come and go, and none of that is to be seen.
-/

namespace MyCache

open FileTree Function Transition

/-- The stored bytes, by name. -/
abbrev Store := List Char → Option (List UInt8)

/-- The store that a cache presents. -/
def contents (c : Cache) : Store := fun n =>
  if Canonical n then c.tree.content (c.root ++ entries n) else none

/-- What a call does to the store, by the error code it returns. -/
def Store.after (store : Store) : Op → CacheResult Unit → Store
  | .save name data _ _, .ok () => update store name (some data)
  | .delete name _, .ok () => update store name none
  | _, _ => store

/-- What a call returns, without its value. -/
def Cache.returns (c : Cache) : Op → CacheResult Unit
  | .save name data f now => (saveFile c name data f now).2
  | .delete name removeFails => (deleteFile c name removeFails).2
  | .createSubdirectory folder newFolder mkdirFails =>
    (MyCache.createSubdirectory c folder newFolder mkdirFails).2.map fun _ => ()
  | .refresh => .ok ()

/-- The last bytes of a save are not lost at its closing, which nobody checks. -/
def Flushes : Op → Prop
  | .save _ data f _ => data.length ≤ f.flushStops.getD data.length
  | _ => True

/-! ## Names and files -/

variable {c : Cache} {n : List Char}

theorem contents_isSome :
    (contents c n).isSome ↔ Canonical n ∧ c.tree.IsFile (c.root ++ entries n) := by
  rw [contents]
  split
  · next hn => rw [Tree.content_isSome, and_iff_right hn]
  · next hn => exact iff_of_false (by simp) fun h => hn h.1

theorem contents_of_canonical (hn : Canonical n) :
    contents c n = c.tree.content (c.root ++ entries n) := if_pos hn

/-- Trees with the same files present the same store. -/
theorem contents_sameFiles {t : Files} (h : c.tree.SameFiles t) :
    contents { c with tree := t } = contents c := by
  funext n
  rw [contents, contents]
  split
  · exact h.content _
  · rfl

/-- A file that comes to stand at the path of a name is the one the store gets. -/
theorem contents_update {t : Files} {name : List Char} (hname : Canonical name)
    {r : Option (List UInt8)} (hat : t.content (c.root ++ entries name) = r)
    (hother : ∀ p, p ≠ c.root ++ entries name → t.content p = c.tree.content p) (index : Index) :
    contents { c with tree := t, index := index } = update (contents c) name r := by
  funext n
  rcases eq_or_ne n name with rfl | hne
  · rw [update_self, contents_of_canonical hname]
    exact hat
  · rw [update_of_ne hne, contents, contents]
    split
    · next hn =>
      refine hother _ fun heq => hne (hn.ext hname ?_)
      exact List.append_cancel_left heq
    · rfl

/-! ## Saves -/

/-- The path of a canonical name has a last entry. -/
theorem exists_last (root : List Entry) {name : List Char} (hn : Canonical name) :
    ∃ es e, root ++ entries name = es ++ [e] := by
  rcases List.eq_nil_or_concat (root ++ entries name) with hc | ⟨es, e, hc⟩
  · exact absurd (List.append_eq_nil_iff.1 hc).2 hn.entries_ne_nil
  · exact ⟨es, e, by rw [hc, List.concat_eq_append]⟩

section
variable {t t' : Files} {es : List Entry} {e : Entry} {data : List UInt8} {f : Faults}

/-- A given up save whose temporary was not there before: every file keeps its bytes. -/
theorem SaveTmpEnds.content_error {err : CacheErrorCode}
    (h : SaveTmpEnds t (plain (es ++ [e])) data f t' (.error err)) (hrm : f.removeFails = false)
    (hno : ¬ t.IsFile (es ++ [tmpEntry e])) (p : List Entry) : t'.content p = t.content p := by
  cases h with
  | notOpened => rfl
  | @givenUp t' τ i hτ hdir hown hnode hinode =>
    cases target_tmp hτ
    simp only [hrm, Bool.false_eq_true, if_false] at hnode
    rcases eq_or_ne p (es ++ [tmpEntry e]) with rfl | hne
    · have hnone : t.content (es ++ [tmpEntry e]) = none := by
        rw [← Option.not_isSome_iff_eq_none, Tree.content_isSome]
        exact hno
      rw [hnone, Tree.content, hnode, update_self]
    · refine Tree.content_congr (by rw [hnode, update_of_ne hne]) fun j hj => hinode j ?_
      rintro rfl
      exact hne (hown p hj)

/-- A save that succeeds: its file has the bytes, every other keeps its own. -/
theorem SaveTmpEnds.content_ok (h : SaveTmpEnds t (plain (es ++ [e])) data f t' (.ok ()))
    (hno : ¬ t.IsFile (es ++ [tmpEntry e])) (hflush : data.length ≤ f.flushStops.getD data.length) :
    t'.content (es ++ [e]) = some data ∧
      ∀ p, p ≠ es ++ [e] → t'.content p = t.content p := by
  cases h with
  | @saved t' τ q i hτ hdir hown hq hqdir hnode hinode hbytes =>
    cases target_tmp hτ
    rw [cString_plain] at hq
    obtain rfl := plain_injective hq
    refine ⟨?_, fun p hp => ?_⟩
    · exact Tree.content_eq_some.2
        ⟨i, by rw [hnode, update_self], by rw [hbytes, List.take_of_length_le hflush]⟩
    · rcases eq_or_ne p (es ++ [tmpEntry e]) with rfl | hne
      · have hnone : t.content (es ++ [tmpEntry e]) = none := by
          rw [← Option.not_isSome_iff_eq_none, Tree.content_isSome]
          exact hno
        rw [hnone, Tree.content, hnode, update_of_ne hp, update_self]
      · refine Tree.content_congr (by rw [hnode, update_of_ne hp, update_of_ne hne])
          fun j hj => hinode j ?_
        rintro rfl
        exact hne (hown p hj)

end

theorem contents_saveFile {name : List Char} {full : Path}
    (hv : validatePath c name = .ok full) (hn : Canonical name)
    (htmp : ¬ isRegularFile c.tree full.tmpPath) {data : List UInt8} {f : Faults}
    (hrm : f.removeFails = false) (hflush : data.length ≤ f.flushStops.getD data.length)
    (now : Int) :
    contents (saveFile c name data f now).1 =
      (contents c).after (.save name data f now) (saveFile c name data f now).2 := by
  obtain ⟨es, e, he⟩ := exists_last c.root hn
  have hfull : full = plain (es ++ [e]) := by rw [validatePath_canonical hv hn, he]
  have hnofile : ¬ c.tree.IsFile (es ++ [tmpEntry e]) := by
    rwa [hfull, tmpPath_plain, isRegularFile_plain] at htmp
  have hparent := ensureParent_sameFiles c.tree full.parentPath f.mkdirStops
  rw [saveFile, hv]
  dsimp only
  split
  · rfl
  split
  next t ht =>
    rw [ht] at hparent
    exact contents_sameFiles hparent
  next t ht =>
  rw [ht] at hparent
  have hends := saveTmp_ends (t := t) (validatePath_normal hv) data f now
  have hno : ¬ t.IsFile (es ++ [tmpEntry e]) := fun hc => hnofile ((hparent.isFile _).1 hc)
  rw [hfull] at hends
  split
  next t' err hs =>
    rw [hfull] at hs
    rw [hs] at hends
    funext m
    show _ = contents c m
    rw [← contents_sameFiles hparent, contents, contents]
    split
    · exact hends.content_error hrm hno _
    · rfl
  next t' hs =>
    rw [hfull] at hs
    rw [hs] at hends
    obtain ⟨hat, hother⟩ := hends.content_ok hno hflush
    rw [Store.after]
    refine contents_update hn (he ▸ hat) (fun p hp => ?_) _
    rw [hother p (he ▸ hp), hparent.content]

/-! ## Deletions -/

/-- Taking away what is no file changes no bytes. -/
theorem content_remove {t t' : Files} {q : List Entry} (h : t.remove q = some t')
    (hq : ¬ t.IsFile q) (p : List Entry) : t'.content p = t.content p := by
  obtain ⟨_, _, hnode, hinode⟩ := Tree.remove_some h
  rcases eq_or_ne p q with rfl | hne
  · have hnone : t.content p = none := by
      rw [← Option.not_isSome_iff_eq_none, Tree.content_isSome]
      exact hq
    rw [hnone, Tree.content, hnode, update_self]
  · exact Tree.content_congr (by rw [hnode, update_of_ne hne]) fun j _ => by rw [hinode]

theorem contents_deleteFile {name : List Char} {full : Path}
    (hv : validatePath c name = .ok full) (hn : Canonical name ∨ ¬ isRegularFile c.tree full)
    (removeFails : Bool) :
    contents (deleteFile c name removeFails).1 =
      (contents c).after (.delete name removeFails) (deleteFile c name removeFails).2 := by
  rw [deleteFile, hv]
  dsimp only
  split
  · rfl
  split
  next => rfl
  next t hr =>
  split at hr
  · cases hr
  obtain ⟨q, hq, hrem⟩ := removePath_some hr
  rw [Store.after]
  by_cases hname : Canonical name
  · obtain ⟨_, _, hnode, hinode⟩ := Tree.remove_some hrem
    rw [validatePath_canonical hv hname, resolve_plain] at hq
    split at hq <;> cases hq
    refine contents_update hname ?_ (fun p hp => ?_) _
    · rw [Tree.content, hnode, update_self]
    · exact Tree.content_congr (by rw [hnode, update_of_ne hp]) fun j _ => by rw [hinode]
  · -- no name of the store is meant, and what goes is no file
    have hfile : ¬ c.tree.IsFile q := by
      intro h
      obtain ⟨i, hi⟩ := h
      exact hn.elim hname fun h => h (by simp [isRegularFile, status, hq, hi])
    have hnone : contents c name = none := if_neg hname
    rw [← hnone, update_eq_self]
    funext m
    rw [contents, contents]
    split
    · exact content_remove hrem hfile _
    · rfl

/-! ## Every call -/

/-- What a call that gets to a file has to respect, as for the index, and its last bytes. -/
def Careful (c : Cache) (op : Op) : Prop := Harmless c op ∧ Flushes op

/-- **The store sees the calls that succeed.** -/
theorem contents_apply {op : Op} (hop : Careful c op) :
    contents (c.apply op) = (contents c).after op (c.returns op) := by
  obtain ⟨hharmless, hflush⟩ := hop
  cases hharmless with
  | rejected he =>
    rw [Cache.apply, Cache.returns, saveFile, he]
    rfl
  | @tooLarge name data f now hl =>
    rw [Cache.apply, saveFile_tooLarge hl, Cache.returns, saveFile]
    split
    · rfl
    · rw [if_pos hl]
      rfl
  | save full hv hn htmp hrm => exact contents_saveFile hv hn htmp hrm hflush _
  | notDeleted he =>
    rw [Cache.apply, Cache.returns, deleteFile, he]
    rfl
  | delete full hv hn => exact contents_deleteFile hv hn _
  | @createSubdirectory folder newFolder mkdirFails =>
    obtain ⟨t, ht, hc⟩ := createSubdirectory_sameFiles c folder newFolder mkdirFails
    rw [Cache.apply, hc, contents_sameFiles ht]
    cases c.returns (.createSubdirectory folder newFolder mkdirFails) <;> rfl
  | refresh => rfl

end MyCache
