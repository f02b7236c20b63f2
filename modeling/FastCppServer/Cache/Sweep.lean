import FastCppServer.Cache.Concurrent
import FastCppServer.Cache.Index
import FastCppServer.Cache.PathCheck

/-!
# What the sweep removes

`CleanExpiredFiles` collects the expired names under the read lock, and removes them afterwards one
by one, without another look at their last writes. So it can remove a file that a client has just
put in place (`sweep_removes_saved`). What keeps it to expired files is that no client writes to a
collected name before its removal, that the clock is not set back in between, and that the two
clocks of the conversion agree to the second (`Undisturbed`): the names held are `Aged` then, in
every state of the run.

Left to itself the sweep takes each file that it removes out of the index under the key that it
collected. A file can have several keys, since `SaveFile` keeps the caller's spelling, and the
others stay (`swept_iff`).
-/

namespace MyCache.Concurrent

open FileTree Function Transition

/-! ## Where a path leads -/

/-- The entry that a path leads to on every tree where it leads somewhere. -/
def lead (path : Path) : Option (List Entry) := (cString path).foldlM descend []

section
variable {t t' : Files} {q : List Entry}

/-- A walk goes down the path, whatever stands on the way. -/
theorem walk_foldlM {p : List Entry} {path : Path} (h : walk t p path = some q) :
    path.foldlM descend p = some q := by
  induction path generalizing p with
  | nil =>
    rw [walk] at h
    split at h <;> cases h
    rfl
  | cons c path ih =>
    rw [walk] at h
    split at h
    next =>
      obtain ⟨r, hr, hw⟩ := Option.bind_eq_some_iff.1 h
      rw [List.foldlM_cons, hr]
      exact ih hw
    next => cases h

/-- Where a path leads it leads on every tree. -/
theorem resolve_lead {path : Path} (h : resolve t path = some q) : lead path = some q :=
  walk_foldlM h

/-- A file that is at the entry afterwards was there before, and nothing has been written to it. -/
def FileKept (q : List Entry) (t t' : Files) : Prop :=
  ∀ i, t'.node q = some (.file i) → t.node q = some (.file i) ∧ t'.inode i = t.inode i

/-- Where nothing happens every file is kept. -/
theorem FileKept.refl (q : List Entry) (t : Files) : FileKept q t t := fun _ h => ⟨h, rfl⟩

/-- What is left of a tree has been kept. -/
theorem FileKept.of_shrinks (h : t.Shrinks t') (q : List Entry) : FileKept q t t' := by
  intro i hi
  refine ⟨?_, by rw [h.1]⟩
  rw [← h.node (by simp [hi]), hi]

/-- Where the files stay the same every file is kept. -/
theorem FileKept.of_sameFiles (h : t.SameFiles t') (q : List Entry) : FileKept q t t' :=
  fun i hi => ⟨(h.2 q i).1 hi, by rw [h.1]⟩

/-- Removing a path brings nothing. -/
theorem removePath_shrinks {path : Path} (h : removePath t path = some t') : t.Shrinks t' := by
  obtain ⟨p, -, hp⟩ := removePath_some h
  exact Tree.remove_shrinks hp

/-- Removing a temporary brings nothing. -/
theorem removeTmp_shrinks (t : Files) (tmp : Path) (fails : Bool) :
    t.Shrinks (removeTmp t tmp fails) := by
  rw [removeTmp]
  split
  · exact .refl t
  · cases h : removePath t tmp with
    | none => exact .refl t
    | some t' => exact removePath_shrinks h

end

/-! ## The clients -/

/-- The step puts a file at the entry, or above it, or writes to the file there. -/
def Writes (t : Files) (q : List Entry) : Phase → Prop
  | .saveOpen w => target t w.full.tmpPath = some q
  | .saveWrite _ inode _ | .saveClose _ inode _ => t.node q = some (.file inode)
  | .saveRename w _ _ => ∃ p, target t w.full = some p ∧ p <+: q
  | _ => False

/-- A step that fails changes no file. -/
theorem act_fails {d : Choice} (hd : d.fails = true) (c : Cache) (phase : Phase) :
    (act c d phase).1.tree = c.tree := by
  cases phase with
  | saveCheck name data =>
    rw [act]
    split
    · rfl
    · split <;> rfl
  | saveParent w =>
    rw [act]
    split <;> rfl
  | saveMkdir w missing created =>
    cases missing with
    | nil => rfl
    | cons path missing => simp [act, hd]
  | saveOpen w => simp [act, hd]
  | saveWrite w inode off => simp [act, hd]
  | saveClose w inode off => simp [act, hd]
  | saveRename w inode off => simp [act, hd]
  | saveRemove w => simp [act, hd, removeTmp]
  | deleteCheck name =>
    rw [act]
    split <;> rfl
  | deleteExists name full =>
    rw [act]
    split <;> rfl
  | deleteRemove name full => simp [act, hd]
  | returned | saveInfo | saveIndex | deleteIndex => rfl

/-- A step that writes nothing to an entry keeps the file there, or takes it away. -/
theorem act_fileKept {c : Cache} {d : Choice} {phase : Phase} {q : List Entry}
    (h : ¬ Writes c.tree q phase) : FileKept q c.tree (act c d phase).1.tree := by
  have hacts := act_acts c d phase
  generalize (act c d phase).1 = c' at hacts ⊢
  generalize (act c d phase).2 = phase' at hacts
  cases hacts with
  | made hmade => exact .of_sameFiles (createDirectory_sameFiles hmade) q
  | @opened w now t inode hopen =>
    obtain ⟨p, hp, ho⟩ := Option.bind_eq_some_iff.1 hopen
    obtain ⟨-, hown, hnode, hinode⟩ := Tree.openTrunc_some ho
    have hne : q ≠ p := by
      rintro rfl
      exact h hp
    intro i hi
    have hq : c.tree.node q = some (.file i) := by
      change t.node q = _ at hi
      rwa [hnode, update_of_ne hne] at hi
    refine ⟨hq, ?_⟩
    change t.inode i = _
    rw [hinode, update_of_ne]
    rintro rfl
    exact hne (hown q hq)
  | @wrote w inode off | @flushed w inode off =>
    intro i hi
    have hq : c.tree.node q = some (.file i) := hi
    refine ⟨hq, ?_⟩
    rw [writeNext, Tree.write_inode, update_of_ne]
    rintro rfl
    exact h hq
  | @renamed w inode off t hrename =>
    obtain ⟨p, -, hrename⟩ := Option.bind_eq_some_iff.1 hrename
    obtain ⟨p', hp', hrename⟩ := Option.bind_eq_some_iff.1 hrename
    obtain ⟨hinode, hnode⟩ := Tree.rename_away hrename
    have hq : ¬ p' <+: q := fun hpre => h ⟨p', hp', hpre⟩
    intro i hi
    refine ⟨?_, congrFun hinode i⟩
    rcases hnode q hq with he | he
    · rw [← he]
      exact hi
    · cases he.symm.trans hi
  | tmpRemoved fails => exact .of_shrinks (removeTmp_shrinks c.tree _ fails) q
  | removed hremove => exact .of_shrinks (removePath_shrinks hremove) q
  | _ => exact .refl q c.tree

/-- A step moves neither the root nor the retention time. -/
theorem act_keeps (c : Cache) (d : Choice) (phase : Phase) :
    (act c d phase).1.root = c.root ∧
      (act c d phase).1.maxRetentionSeconds = c.maxRetentionSeconds := by
  have hacts := act_acts c d phase
  generalize (act c d phase).1 = c' at hacts ⊢
  generalize (act c d phase).2 = phase' at hacts
  cases hacts <;> exact ⟨rfl, rfl⟩

/-! ## The scan thread -/

/-- The name has been collected as expired at that time, and is still to be removed. -/
inductive Scanner.Holds (now : Int) (name : List Char) : Scanner → Prop where
  | collecting {names expired} (h : name ∈ expired) : Holds now name (.collecting now names expired)
  | sweeping {expired} (h : name ∈ expired) : Holds now name (.sweeping now expired)
  | erasing {other expired} (h : name ∈ expired) : Holds now name (.erasing now other expired)

/-- What takes a file away: a removal of the sweep, at a name that is held. -/
theorem Scans.gone {c c' : Cache} {d : Choice} {scanner scanner' : Scanner} {q : List Entry}
    (h : Scans c d scanner c' scanner') (hq : c.tree.node q ≠ none)
    (hgone : c'.tree.node q = none) :
    ∃ now name expired, scanner = .sweeping now (name :: expired) ∧
      resolve c.tree (join c.root name) = some q := by
  cases h with
  | @removed now name expired t hremove =>
    refine ⟨now, name, expired, rfl, ?_⟩
    obtain ⟨p, hp, hremoved⟩ := removePath_some hremove
    obtain ⟨-, -, hnode, -⟩ := Tree.remove_some hremoved
    rcases eq_or_ne q p with rfl | hne
    · exact hp
    · change t.node q = none at hgone
      rw [hnode, update_of_ne hne] at hgone
      exact absurd hgone hq
  | _ => exact absurd hgone hq

/-- The scan thread makes no file, and sets neither the root nor the retention time. -/
theorem Scans.keeps {c c' : Cache} {d : Choice} {scanner scanner' : Scanner}
    (h : Scans c d scanner c' scanner') :
    c'.root = c.root ∧ c'.maxRetentionSeconds = c.maxRetentionSeconds ∧
      c.tree.Shrinks c'.tree := by
  cases h with
  | removed hremove => exact ⟨rfl, rfl, removePath_shrinks hremove⟩
  | _ => exact ⟨rfl, rfl, .refl c.tree⟩

/-- What makes a name held: the look at its last write. -/
theorem Scans.holds {c c' : Cache} {d : Choice} {scanner scanner' : Scanner} {now : Int}
    {name : List Char} (h : Scans c d scanner c' scanner') (hholds : scanner'.Holds now name) :
    scanner.Holds now name ∨
      ∃ names expired,
        scanner = .collecting now (name :: names) expired ∧ isExpired c d now name := by
  cases h with
  | @expired _ next names expired hexpired =>
    cases hholds with
    | collecting hmem =>
      rcases List.mem_append.1 hmem with hmem | hmem
      · exact .inl (.collecting hmem)
      · obtain rfl := List.mem_singleton.1 hmem
        exact .inr ⟨names, expired, rfl, hexpired⟩
  | clock =>
    cases hholds with
    | collecting hmem => cases hmem
  | notExpired =>
    cases hholds with
    | collecting hmem => exact .inl (.collecting hmem)
  | collected =>
    cases hholds with
    | sweeping hmem => exact .inl (.collecting hmem)
  | removed =>
    cases hholds with
    | erasing hmem => exact .inl (.sweeping (List.mem_cons_of_mem _ hmem))
  | notRemoved =>
    cases hholds with
    | sweeping hmem => exact .inl (.sweeping (List.mem_cons_of_mem _ hmem))
  | erased =>
    cases hholds with
    | sweeping hmem => exact .inl (.erasing hmem)
  | _ => cases hholds

/-- Names are collected only where there is a retention time. -/
theorem Scans.positive {c c' : Cache} {d : Choice} {scanner : Scanner} {now : Int}
    {names expired : List (List Char)} (h : Scans c d scanner c' (.collecting now names expired))
    (hc : ∀ now names expired, scanner = .collecting now names expired →
      0 < c.maxRetentionSeconds) : 0 < c.maxRetentionSeconds := by
  cases h with
  | clock hpositive => exact hpositive
  | expired | notExpired => exact hc _ _ _ rfl

/-! ## In a run -/

/-- At that time the last write is longer ago than the retention time. -/
def Old (c : Cache) (now mtime : Int) : Prop := c.maxRetentionSeconds * 1000000000 < now - mtime

section
variable {ι : Type}

/-- A file that the scan thread removes is old then. -/
def RemovesExpired (s : System ι) : Label ι → Prop
  | .scan d => ∀ q i, s.cache.tree.node q = some (.file i) →
      (scanAct s.cache d s.scanner).1.tree.node q = none →
      Old s.cache d.now (s.cache.tree.inode i).mtime
  | _ => True

/-- The clock is not set back between the begin of a sweep and a removal; of the two clocks that a
conversion reads, the system's is less than a second behind the one of the files. -/
def Steady (d : Choice) : Scanner → Prop
  | .collecting _ _ _ => -1000000000 < d.drift
  | .sweeping now _ => now ≤ d.now
  | _ => True

instance (d : Choice) : ∀ scanner, Decidable (Steady d scanner)
  | .idle | .scanning _ _ | .swapped | .erasing _ _ _ => isTrue trivial
  | .collecting _ _ _ => inferInstanceAs (Decidable (-1000000000 < d.drift))
  | .sweeping now _ => inferInstanceAs (Decidable (now ≤ d.now))

/-- What the sweep relies on: steady clocks, and that nobody writes to a file whose name is held. -/
def Undisturbed (s : System ι) : Label ι → Prop
  | .act i d => d.fails = false → ∀ now name q, s.scanner.Holds now name →
      lead (join s.cache.root name) = some q → ¬ Writes s.cache.tree q (s.client i)
  | .scan d => Steady d s.scanner
  | _ => True

/-- If the name leads to a file, it is old at that time. -/
def Aged (c : Cache) (now : Int) (name : List Char) : Prop :=
  ∀ q i, lead (join c.root name) = some q → c.tree.node q = some (.file i) →
    Old c now (c.tree.inode i).mtime

/-- Names are collected only where there is a retention time, and those held are aged. -/
structure SweepInv (s : System ι) : Prop where
  positive : ∀ now names expired, s.scanner = .collecting now names expired →
    0 < s.cache.maxRetentionSeconds
  aged : ∀ now name, s.scanner.Holds now name → Aged s.cache now name

/-- The look at a last write, by clocks that agree to the second. -/
theorem isExpired_aged {c : Cache} {d : Choice} {now : Int} {name : List Char}
    (hpositive : 0 < c.maxRetentionSeconds) (hdrift : -1000000000 < d.drift)
    (h : isExpired c d now name) : Aged c now name := by
  intro q i hq hi
  rw [isExpired] at h
  split at h
  next => cases h
  next sctp hsctp =>
    split at hsctp
    · cases hsctp
    have hstatus : status c.tree (join c.root name) = some (.file i) := by
      rw [lastWrite] at hsctp
      rw [status] at hsctp ⊢
      cases hr : resolve c.tree (join c.root name) with
      | none =>
        rw [hr] at hsctp
        cases hsctp
      | some p =>
        cases hq.symm.trans (resolve_lead hr)
        exact hi
    rw [lastWrite, hstatus] at hsctp
    obtain rfl := Option.some.inj hsctp
    have hage : c.maxRetentionSeconds <
        (now - ((c.tree.inode i).mtime + d.drift)).tdiv 1000000000 := by simpa using h
    have hnonneg : 0 ≤ now - ((c.tree.inode i).mtime + d.drift) := by
      by_contra hneg
      have hneg' : 0 ≤ (-(now - ((c.tree.inode i).mtime + d.drift))).tdiv 1000000000 :=
        Int.tdiv_nonneg (by omega) (by omega)
      rw [Int.neg_tdiv] at hneg'
      omega
    rw [Int.tdiv_eq_ediv_of_nonneg hnonneg] at hage
    rw [Old]
    omega

/-- A name stays aged while its file is kept. -/
theorem Aged.keep {c c' : Cache} {now : Int} {name : List Char} (h : Aged c now name)
    (hroot : c'.root = c.root) (hretention : c'.maxRetentionSeconds = c.maxRetentionSeconds)
    (hkept : ∀ q, lead (join c.root name) = some q → FileKept q c.tree c'.tree) :
    Aged c' now name := by
  intro q i hq hi
  rw [hroot] at hq
  obtain ⟨hi', hinode⟩ := hkept q hq i hi
  rw [Old, hretention, hinode]
  exact h q i hq hi'

/-- **What is removed has expired.** -/
theorem removesExpired_of_sweepInv {s : System ι} {l : Label ι} (hl : Undisturbed s l)
    (h : SweepInv s) : RemovesExpired s l := by
  cases l with
  | scan d =>
    intro q i hi hgone
    obtain ⟨now, name, expired, hscanner, hresolve⟩ :=
      (scanAct_scans s.cache d s.scanner).gone (by simp [hi]) hgone
    have hnow : now ≤ d.now := by simpa only [Undisturbed, Steady, hscanner] using hl
    have hold : Old s.cache now (s.cache.tree.inode i).mtime := by
      refine h.aged now name ?_ q i (resolve_lead hresolve) hi
      rw [hscanner]
      exact .sweeping List.mem_cons_self
    rw [Old] at hold ⊢
    omega
  | _ => trivial

/-- At first nothing has been collected. -/
theorem start_sweepInv (cache : Cache) : SweepInv (start cache : System ι) where
  positive _ _ _ h := by cases h
  aged _ _ h := by cases h

variable [DecidableEq ι]

/-- **Every undisturbed step keeps it.** -/
theorem step_sweepInv {s s' : System ι} {l : Label ι} (hl : Undisturbed s l) (h : SweepInv s)
    (hs : step s l = some s') : SweepInv s' := by
  have hcall : ∀ i phase, call s i phase = some s' → SweepInv s' := by
    intro i phase hcall
    rw [call] at hcall
    split at hcall <;> cases hcall
    exact ⟨h.positive, h.aged⟩
  cases l with
  | save i name data => exact hcall i _ hs
  | delete i name => exact hcall i _ hs
  | act i d =>
    obtain rfl := Option.some.inj ((step_act s i d).symm.trans hs)
    obtain ⟨hroot, hretention⟩ := act_keeps s.cache d (s.client i)
    refine ⟨fun now names expired hp => ?_, fun now name hp => ?_⟩
    · exact hretention ▸ h.positive now names expired hp
    · refine (h.aged now name hp).keep hroot hretention fun q hq => ?_
      cases hd : d.fails with
      | true =>
        change FileKept q s.cache.tree (act s.cache d (s.client i)).1.tree
        rw [act_fails hd]
        exact .refl q _
      | false => exact act_fileKept (hl hd now name q hp hq)
  | scan d =>
    obtain rfl := Option.some.inj ((step_scan s d).symm.trans hs)
    have hscans := scanAct_scans s.cache d s.scanner
    obtain ⟨hroot, hretention, hshrinks⟩ := hscans.keeps
    refine ⟨fun now names expired hp => ?_, fun now name hp => ?_⟩
    · change (scanAct s.cache d s.scanner).2 = _ at hp
      exact hretention ▸ (hp ▸ hscans).positive h.positive
    · refine Aged.keep ?_ hroot hretention fun q _ => .of_shrinks hshrinks q
      obtain hp | ⟨names, expired, hscanner, hexpired⟩ := hscans.holds hp
      · exact h.aged now name hp
      · refine isExpired_aged (h.positive _ _ _ hscanner) ?_ hexpired
        simpa only [Undisturbed, Steady, hscanner] using hl

/-- **An undisturbed sweep removes expired files only**, in every interleaving with calls. -/
theorem removesExpired_along {s : System ι} (h : SweepInv s) {ls : List (Label ι)}
    (hls : Along step Undisturbed s ls) : Along step RemovesExpired s ls :=
  along_imp (fun _ _ _ hl hs hstep => step_sweepInv hl hs hstep)
    (fun _ _ hl hs => removesExpired_of_sweepInv hl hs) h hls

/-- The clocks are steady in all the steps of the scan thread alone. -/
def SteadyAll : Cache → Scanner → List Choice → Prop
  | _, _, [] => True
  | c, scanner, d :: ds =>
    Steady d scanner ∧ SteadyAll (scanAct c d scanner).1 (scanAct c d scanner).2 ds

instance : ∀ c scanner ds, Decidable (SteadyAll c scanner ds)
  | _, _, [] => isTrue trivial
  | c, scanner, d :: ds =>
    have := instDecidableSteadyAll (scanAct c d scanner).1 (scanAct c d scanner).2 ds
    inferInstanceAs (Decidable (_ ∧ _))

/-- Alone, the scan thread is disturbed by the clocks only. -/
theorem SteadyAll.along {s : System ι} {ds : List Choice} (h : SteadyAll s.cache s.scanner ds) :
    Along step Undisturbed s (ds.map .scan) := by
  induction ds generalizing s with
  | nil => trivial
  | cons d ds ih =>
    refine ⟨h.1, fun t ht => ?_⟩
    cases ht
    exact ih h.2

end

/-! ## The sweep alone -/

/-- The scan thread goes on by itself until it rests, and leaves the cache so. -/
inductive Ends : Cache → Scanner → Cache → Prop where
  | rests {c} : Ends c .idle c
  | goes {c c' scanner} (hscanner : scanner ≠ .idle) (d : Choice)
      (h : Ends (scanAct c d scanner).1 (scanAct c d scanner).2 c') : Ends c scanner c'

/-- The name leads to the entry. -/
abbrev KeyOf (c : Cache) (name : List Char) (q : List Entry) : Prop :=
  resolve c.tree (join c.root name) = some q

/-- What a sweep is for. The files it removes are files of the index, and gone from it under every
key; the others are left as they are on the disk and, under every key, in the index. -/
structure Swept (c c' : Cache) : Prop where
  indexed : ∀ q i, c.tree.node q = some (.file i) → c'.tree.node q = none →
    ∃ name ∈ c.index, KeyOf c name q
  gone : ∀ q i, c.tree.node q = some (.file i) → c'.tree.node q = none →
    ∀ name, KeyOf c name q → name ∉ c'.index
  left : ∀ q i, c.tree.node q = some (.file i) → c'.tree.node q ≠ none →
    c'.tree.node q = some (.file i) ∧ c'.tree.inode i = c.tree.inode i ∧
      ∀ name, KeyOf c name q → c'.index.lookup name = c.index.lookup name
  fresh : ∀ q i, c'.tree.node q = some (.file i) → c.tree.node q = some (.file i)

/-- No file has two keys in the index. -/
def OneKeyEach (c : Cache) : Prop :=
  ∀ q i, c.tree.node q = some (.file i) → ∀ m ∈ c.index, ∀ n ∈ c.index,
    KeyOf c m q → KeyOf c n q → m = n

/-- The name is a key of an entry that the sweep has taken away. -/
def Taken (c₀ c : Cache) (name : List Char) : Prop :=
  ∃ q, KeyOf c₀ name q ∧ c.tree.node q = none

/-- The names that a sweep holds or has still to look at are those of the index it began with; the
one that it is taking out of the index has been taken away. -/
def Sweeping (c₀ c : Cache) : Scanner → Prop
  | .idle => True
  | .scanning _ _ => False
  | .swapped => c = c₀
  | .collecting _ names expired => (∀ n ∈ names, n ∈ c₀.index) ∧ ∀ n ∈ expired, n ∈ c₀.index
  | .sweeping _ expired => ∀ n ∈ expired, n ∈ c₀.index
  | .erasing _ name expired => Taken c₀ c name ∧ ∀ n ∈ expired, n ∈ c₀.index

/-- A sweep so far: the disk has lost something and gained nothing, what has left the index has been
taken away, and what has been taken away has left the index under a key of it, or is about to. -/
structure SweptSoFar (c₀ c : Cache) (scanner : Scanner) : Prop where
  sweeping : Sweeping c₀ c scanner
  root : c.root = c₀.root
  shrinks : c₀.tree.Shrinks c.tree
  erased : ∀ name, c.index.lookup name = c₀.index.lookup name ∨
    c.index.lookup name = none ∧ Taken c₀ c name
  removed : ∀ q i, c₀.tree.node q = some (.file i) → c.tree.node q = none →
    ∃ name ∈ c₀.index, KeyOf c₀ name q ∧
      (name ∉ c.index ∨ ∃ now expired, scanner = .erasing now name expired)

section
variable {c₀ c : Cache} {scanner : Scanner}

/-- What has been taken away stays so while nothing is brought back. -/
theorem Taken.mono {c' : Cache} {name : List Char} (h : Taken c₀ c name)
    (hshrinks : c.tree.Shrinks c'.tree) : Taken c₀ c' name := by
  obtain ⟨q, hkey, hq⟩ := h
  refine ⟨q, hkey, ?_⟩
  rcases hshrinks.2 q with he | he
  · rw [he, hq]
  · exact he

/-- Where a name leads in the middle of a sweep, it led at the beginning. -/
theorem SweptSoFar.keyOf (h : SweptSoFar c₀ c scanner) {name : List Char} {q : List Entry}
    (hq : KeyOf c name q) : KeyOf c₀ name q := by
  have hsome : (c.tree.node q).isSome := walk_isSome hq
  have hnode : c.tree.node q = c₀.tree.node q :=
    h.shrinks.node (Option.isSome_iff_ne_none.1 hsome)
  rw [KeyOf, h.root] at hq
  refine walk_mono (fun p hp => ?_) hq (hnode ▸ hsome)
  rw [← h.shrinks.node (by simp [hp]), hp]

/-- A step that changes neither the disk nor the index. -/
theorem SweptSoFar.moved (h : SweptSoFar c₀ c scanner) {scanner' : Scanner}
    (hscanner : ∀ now name expired, scanner ≠ .erasing now name expired)
    (hsweeping : Sweeping c₀ c scanner') : SweptSoFar c₀ c scanner' := by
  refine { h with sweeping := hsweeping, removed := fun q i hi hgone => ?_ }
  obtain ⟨name, hname, hkey, hout | ⟨now, expired, he⟩⟩ := h.removed q i hi hgone
  · exact ⟨name, hname, hkey, .inl hout⟩
  · exact absurd he (hscanner now name expired)

/-- The sweep removes a file. -/
theorem SweptSoFar.removal {now : Int} {name : List Char} {expired : List (List Char)} {t : Files}
    (h : SweptSoFar c₀ c (.sweeping now (name :: expired)))
    (hremove : removePath c.tree (join c.root name) = some t) :
    SweptSoFar c₀ { c with tree := t } (.erasing now name expired) := by
  obtain ⟨hname, hexpired⟩ := List.forall_mem_cons.1 h.sweeping
  have hshrinks : c.tree.Shrinks t := removePath_shrinks hremove
  obtain ⟨q, hq, hremoved⟩ := removePath_some hremove
  obtain ⟨-, -, hnode, -⟩ := Tree.remove_some hremoved
  have hkey : KeyOf c₀ name q := h.keyOf hq
  refine ⟨⟨⟨q, hkey, ?_⟩, hexpired⟩, h.root, h.shrinks.trans hshrinks, fun n => ?_,
    fun p i hi hgone => ?_⟩
  · change t.node q = none
    rw [hnode, update_self]
  · exact (h.erased n).imp id fun ⟨hnone, htaken⟩ => ⟨hnone, htaken.mono hshrinks⟩
  · change t.node p = none at hgone
    rcases eq_or_ne p q with rfl | hne
    · exact ⟨name, hname, hkey, .inr ⟨now, expired, rfl⟩⟩
    · rw [hnode, update_of_ne hne] at hgone
      obtain ⟨n, hn, hkeyn, hout | ⟨_, _, he⟩⟩ := h.removed p i hi hgone
      · exact ⟨n, hn, hkeyn, .inl hout⟩
      · cases he

/-- The sweep takes a name out of the index. -/
theorem SweptSoFar.erasure {now : Int} {name : List Char} {expired : List (List Char)}
    (h : SweptSoFar c₀ c (.erasing now name expired)) :
    SweptSoFar c₀ { c with index := c.index.erase name } (.sweeping now expired) := by
  obtain ⟨htaken, hexpired⟩ := h.sweeping
  refine ⟨hexpired, h.root, h.shrinks, fun n => ?_, fun p i hi hgone => ?_⟩
  · rcases eq_or_ne n name with rfl | hne
    · exact .inr ⟨AList.lookup_erase n c.index, htaken⟩
    · change (c.index.erase name).lookup n = _ ∨ (c.index.erase name).lookup n = none ∧ _
      rw [AList.lookup_erase_ne hne]
      exact h.erased n
  · obtain ⟨n, hn, hkey, hout⟩ := h.removed p i hi hgone
    refine ⟨n, hn, hkey, .inl fun hmem => ?_⟩
    obtain ⟨hne, hmem⟩ := AList.mem_erase.1 hmem
    obtain hout | ⟨_, _, he⟩ := hout
    · exact hout hmem
    · cases he
      exact hne rfl

/-- **A step of the sweep keeps it.** -/
theorem SweptSoFar.step (h : SweptSoFar c₀ c scanner) (hscanner : scanner ≠ .idle) {d : Choice}
    {c' : Cache} {scanner' : Scanner} (hscans : Scans c d scanner c' scanner') :
    SweptSoFar c₀ c' scanner' := by
  have hsweeping := h.sweeping
  cases hscans with
  | begun => exact absurd rfl hscanner
  | met | scanned => exact hsweeping.elim
  | kept | swept => exact h.moved (by simp) trivial
  | clock =>
    obtain rfl : c = c₀ := hsweeping
    exact h.moved (by simp) ⟨fun n hn => AList.mem_keys.2 hn, by simp⟩
  | expired =>
    obtain ⟨hnames, hexpired⟩ := hsweeping
    obtain ⟨hname, hnames⟩ := List.forall_mem_cons.1 hnames
    refine h.moved (by simp) ⟨hnames, fun n hn => ?_⟩
    rcases List.mem_append.1 hn with hn | hn
    · exact hexpired n hn
    · rwa [List.mem_singleton.1 hn]
  | notExpired =>
    obtain ⟨hnames, hexpired⟩ := hsweeping
    exact h.moved (by simp) ⟨(List.forall_mem_cons.1 hnames).2, hexpired⟩
  | collected => exact h.moved (by simp) hsweeping.2
  | notRemoved => exact h.moved (by simp) (List.forall_mem_cons.1 hsweeping).2
  | removed hremove => exact h.removal hremove
  | erased => exact h.erasure

/-- And so does the rest of the sweep. -/
theorem Ends.sweptSoFar {c' : Cache} (hends : Ends c scanner c') (h : SweptSoFar c₀ c scanner) :
    SweptSoFar c₀ c' .idle := by
  induction hends with
  | rests => exact h
  | goes hscanner d _ ih => exact ih (h.step hscanner (scanAct_scans _ d _))

end

section
variable {c c' : Cache}

/-- At its begin the sweep has taken nothing away. -/
theorem SweptSoFar.start (c : Cache) : SweptSoFar c c .swapped where
  sweeping := rfl
  root := rfl
  shrinks := .refl c.tree
  erased _ := .inl rfl
  removed q i hi hgone := by cases hi.symm.trans hgone

/-- **A sweep that has ended has swept**, if what is gone is gone under every key. -/
theorem SweptSoFar.swept (h : SweptSoFar c c' .idle)
    (hgone : ∀ q i, c.tree.node q = some (.file i) → c'.tree.node q = none →
      ∀ name, KeyOf c name q → name ∉ c'.index) : Swept c c' where
  indexed q i hi hq := by
    obtain ⟨name, hname, hkey, -⟩ := h.removed q i hi hq
    exact ⟨name, hname, hkey⟩
  gone := hgone
  left q i hi hq := by
    refine ⟨(h.shrinks.node hq).trans hi, congrFun h.shrinks.1 i, fun name hkey => ?_⟩
    obtain hsame | ⟨-, p, hkey', hp⟩ := h.erased name
    · exact hsame
    · cases Option.some.inj (hkey.symm.trans hkey')
      exact absurd hp hq
  fresh q i hi := by
    rw [← h.shrinks.node (by simp [hi]), hi]

/-- With one key for each file a sweep that has ended has swept. -/
theorem swept_of_oneKeyEach (hone : OneKeyEach c) (hends : Ends c .swapped c') : Swept c c' := by
  have h := hends.sweptSoFar (.start c)
  refine h.swept fun q i hi hq name hkey hmem => ?_
  obtain ⟨m, hm, hkeym, hout | ⟨_, _, he⟩⟩ := h.removed q i hi hq
  · obtain hsame | ⟨hnone, -⟩ := h.erased name
    · have hname : name ∈ c.index := by
        rwa [← AList.lookup_isSome, ← hsame, AList.lookup_isSome]
      exact hout (hone q i hi m hm name hname hkeym hkey ▸ hmem)
    · exact AList.lookup_eq_none.1 hnone hmem
  · cases he

/-- Without a retention time the sweep does nothing. -/
theorem swept_of_nonpos (hoff : c.maxRetentionSeconds ≤ 0) (hends : Ends c .swapped c') :
    Swept c c' := by
  have hsame : c' = c := by
    cases hends with
    | goes _ d h =>
      rw [scanAct, if_pos hoff] at h
      cases h with
      | rests => rfl
      | goes hidle => exact absurd rfl hidle
  subst hsame
  have h : SweptSoFar c' c' .idle := (SweptSoFar.start c').moved (by simp) trivial
  exact h.swept fun q i hi hq => by cases hi.symm.trans hq

/-- A look that fails for every name but one collects that one. -/
theorem ends_collecting {now : Int} {name : List Char} (hexpired : isExpired c {} now name)
    {names expired : List (List Char)}
    (h : Ends c (.sweeping now (expired ++ names.filter (· = name))) c') :
    Ends c (.collecting now names expired) c' := by
  induction names generalizing expired with
  | nil =>
    rw [List.filter_nil, List.append_nil] at h
    exact .goes (by simp) {} h
  | cons next names ih =>
    rcases eq_or_ne next name with rfl | hne
    · refine .goes (by simp) {} ?_
      rw [scanAct, if_pos hexpired]
      refine ih ?_
      rw [List.append_assoc]
      rwa [List.filter_cons_of_pos (by simp)] at h
    · refine .goes (by simp) { fails := true } ?_
      rw [scanAct, if_neg (by simp [isExpired])]
      rw [List.filter_cons_of_neg (by simpa using hne)] at h
      exact ih h

/-- Removals that all fail leave the cache as it is. -/
theorem ends_sweeping (c : Cache) (now : Int) (names : List (List Char)) :
    Ends c (.sweeping now names) c := by
  induction names with
  | nil => exact .goes (by simp) {} .rests
  | cons name names ih => exact .goes (by simp) { fails := true } ih

/-- A file whose last write is long ago. -/
theorem exists_isExpired {name : List Char} {q : List Entry} {i : Nat} (hkey : KeyOf c name q)
    (hi : c.tree.node q = some (.file i)) : ∃ now, isExpired c {} now name := by
  refine ⟨(c.tree.inode i).mtime + (c.maxRetentionSeconds + 1) * 1000000000, ?_⟩
  have hwrite : lastWrite c {} name = some (c.tree.inode i).mtime := by
    have hstatus : status c.tree (join c.root name) = some (.file i) := by
      rw [status, hkey, Option.bind_some, hi]
    rw [lastWrite, hstatus]
    exact congrArg some (Int.add_zero _)
  have hage : (c.tree.inode i).mtime + (c.maxRetentionSeconds + 1) * 1000000000 -
      (c.tree.inode i).mtime = (c.maxRetentionSeconds + 1) * 1000000000 := by omega
  rw [isExpired, if_neg (by simp), hwrite]
  dsimp only
  rw [hage, Int.mul_tdiv_cancel _ (by decide), decide_eq_true_iff]
  omega

/-- A sweep can remove any one file of the index, under any key of it. -/
theorem ends_removed {name : List Char} {q : List Entry} {i : Nat}
    (hpositive : 0 < c.maxRetentionSeconds) (hname : name ∈ c.index) (hkey : KeyOf c name q)
    (hi : c.tree.node q = some (.file i)) :
    ∃ t, c.tree.remove q = some t ∧
      Ends c .swapped { c with tree := t, index := c.index.erase name } := by
  obtain ⟨now, hexpired⟩ := exists_isExpired hkey hi
  obtain ⟨t, ht⟩ := Tree.remove_file ⟨i, hi⟩
  have hremove : removePath c.tree (join c.root name) = some t := by
    rw [removePath_of_target (fun _ => id) (target_of_resolve hkey ⟨i, hi⟩) (by simp [hi]), ht]
  obtain ⟨rest, hrest⟩ : ∃ rest, c.index.keys.filter (· = name) = name :: rest := by
    have hmem : name ∈ c.index.keys.filter (· = name) :=
      List.mem_filter.2 ⟨AList.mem_keys.1 hname, by simp⟩
    cases hkeys : c.index.keys.filter (· = name) with
    | nil =>
      rw [hkeys] at hmem
      cases hmem
    | cons first rest =>
      have hfirst : first ∈ c.index.keys.filter (· = name) := hkeys ▸ List.mem_cons_self
      exact ⟨rest, by rw [of_decide_eq_true (List.mem_filter.1 hfirst).2]⟩
  refine ⟨t, ht, .goes (by simp) { now } ?_⟩
  rw [scanAct, if_neg (by omega)]
  refine ends_collecting hexpired ?_
  rw [List.nil_append, hrest]
  refine .goes (by simp) {} ?_
  rw [scanAct, if_neg (by simp), hremove]
  exact .goes (by simp) {} (ends_sweeping _ now rest)

/-- **The sweep alone** does what it is for just where no file has two keys. -/
theorem swept_iff (c : Cache) :
    (∀ c', Ends c .swapped c' → Swept c c') ↔ c.maxRetentionSeconds ≤ 0 ∨ OneKeyEach c := by
  constructor
  · intro hall
    refine or_iff_not_imp_left.2 fun hpositive q i hi m hm n hn hkeym hkeyn => ?_
    by_contra hne
    obtain ⟨t, ht, hends⟩ := ends_removed (Int.not_le.1 hpositive) hm hkeym hi
    obtain ⟨-, -, hnode, -⟩ := Tree.remove_some ht
    refine (hall _ hends).gone q i hi ?_ n hkeyn (AList.mem_erase.2 ⟨Ne.symm hne, hn⟩)
    change t.node q = none
    rw [hnode, update_self]
  · rintro (hoff | hone) c' hends
    · exact swept_of_nonpos hoff hends
    · exact swept_of_oneKeyEach hone hends

end

/-- **What the sweep can be relied on for.** As long as it is undisturbed it removes expired files
only; alone, it keeps the disk and the index in step for all files if no file has two keys. -/
theorem sweep_sound {ι : Type} [DecidableEq ι] (cache : Cache) :
    (∀ ls : List (Label ι), Along step Undisturbed (start cache) ls →
      Along step RemovesExpired (start cache) ls) ∧
    ((∀ c', Ends cache .swapped c' → Swept cache c') ↔
      cache.maxRetentionSeconds ≤ 0 ∨ OneKeyEach cache) :=
  ⟨fun _ hls => removesExpired_along (start_sweepInv cache) hls, swept_iff cache⟩

/-- A cache that keeps files for ten seconds, with a file of time 0. -/
def agedCache : Cache :=
  (saveFile { emptyCache with maxRetentionSeconds := 10 } ['a'] [1] {} 0).1

/-- A scan at 100 seconds that meets the file, and the collection of its name. -/
def collectSteps : List Choice :=
  [{}, { meets := some (agedCache.root ++ entries ['a']) }, {}, { now := 100000000000 }, {}, {}]

/-- The removal a second later. -/
def removeStep : Choice := { now := 101000000000 }

/-- A cache with an expired file is swept. -/
theorem sweep_sound_agedCache :
    Along step RemovesExpired (start agedCache : System Unit)
      ((collectSteps ++ [removeStep]).map .scan) ∧
    ∀ c', Ends agedCache .swapped c' → Swept agedCache c' := by
  obtain ⟨hrun, halone⟩ := sweep_sound (ι := Unit) agedCache
  refine ⟨hrun _ ?_, halone.2 (.inr ?_)⟩
  · exact SteadyAll.along (s := start agedCache) (by decide)
  · have hkeys : agedCache.index.keys = [['a']] := by decide
    intro q i _ m hm n hn _ _
    rw [AList.mem_keys, hkeys, List.mem_singleton] at hm hn
    rw [hm, hn]

/-- A save between the collection and the removal. -/
def saveBeforeRemoval : List (Label Unit) :=
  collectSteps.map .scan ++ .save () ['a'] [2] ::
    ([{}, {}, removeStep, { removeStep with size := 1 }, {}, {}, {}, {}, {}].map (.act ()))

/-- **The sweep can remove a file that has just been saved.** -/
theorem sweep_removes_saved : ¬ ∀ (cache : Cache) (ls : List (Label Unit)),
    Along step RemovesExpired (start cache) ls := by
  intro h
  have hrun : (run step (start agedCache) saveBeforeRemoval).map (fun s =>
      (s.cache.tree.node (agedCache.root ++ entries ['a']),
        (scanAct s.cache removeStep s.scanner).1.tree.node (agedCache.root ++ entries ['a']),
        s.cache.maxRetentionSeconds, (s.cache.tree.inode 1).mtime)) =
      some (some (.file 1), none, 10, removeStep.now) := by decide
  obtain ⟨s, hs, he⟩ := Option.map_eq_some_iff.1 hrun
  simp only [Prod.mk.injEq] at he
  obtain ⟨hfile, hgone, hretention, hwritten⟩ := he
  have hold : Old s.cache removeStep.now (s.cache.tree.inode 1).mtime :=
    along_iff.1 (h agedCache (saveBeforeRemoval ++ [.scan removeStep])) saveBeforeRemoval
      (.scan removeStep) [] rfl s hs _ 1 hfile hgone
  rw [Old, hretention, hwritten] at hold
  omega

end MyCache.Concurrent
