import FastCppServer.Cache.Disk
import FastCppServer.Lib.Transition
import Mathlib.Logic.Relation

/-!
# Concurrent calls and the scan thread

The system of `MyCache`: any number of clients, each in a call of `SaveFile` or `DeleteFile`, and
the scan thread with `RefreshIndex` and `CleanExpiredFiles`. A step is one call of the kernel, or
one critical section of `index_mutex_`; what the environment decides in a step (whether the call
fails, how many bytes are written, what the clock says, which entry the iteration meets) is a
`Choice`. A call returns with its last step. Left to itself a call does what `saveFile` and
`deleteFile` say (`saveFile_alone`, `deleteFile_alone`).

`Exists` is one lookup, so it is asked of a state. What it should answer is read off the log of
what the calls have done (`settled`).
-/

namespace MyCache.Concurrent

open FileTree Function

/-! ## The clients -/

/-- A `SaveFile` whose name has been validated. -/
structure Save where
  name : List Char
  data : List UInt8
  full : Path

/-- Where a client stands in its call. A stream is the inode behind it and how far it has been
written; both are kept until the rename for the record. -/
inductive Phase where
  | returned (full : Option Path) (result : CacheResult Unit)
  | saveCheck (name : List Char) (data : List UInt8)
  | saveParent (w : Save)
  | saveMkdir (w : Save) (missing : List Path) (created : Bool)
  | saveOpen (w : Save)
  | saveWrite (w : Save) (inode off : Nat)
  | saveClose (w : Save) (inode off : Nat)
  | saveRename (w : Save) (inode off : Nat)
  | saveRemove (w : Save)
  | saveInfo (w : Save)
  | saveIndex (w : Save) (info : FileInfo)
  | deleteCheck (name : List Char)
  | deleteExists (name : List Char) (full : Path)
  | deleteRemove (name : List Char) (full : Path)
  | deleteIndex (name : List Char) (full : Path)

/-- What the environment decides in a step. `drift` is how far the two clocks differ that are read
to convert a time of the file system, and `stamp` is the time stamp of a directory. -/
structure Choice where
  fails : Bool := false
  size : Nat := 0
  now : Int := 0
  missing : List Path := []
  meets : Option (List Entry) := none
  drift : Int := 0
  stamp : Option Int := none

/-- The next bytes of a stream, through the stream. -/
def writeNext (c : Cache) (d : Choice) (w : Save) (inode off : Nat) : Cache :=
  { c with tree := c.tree.write inode off ((w.data.drop off).take d.size) d.now }

/-- How far a stream is after its next bytes. -/
def nextOff (d : Choice) (w : Save) (off : Nat) : Nat :=
  off + ((w.data.drop off).take d.size).length

/-- One step of a call. -/
def act (c : Cache) (d : Choice) : Phase → Cache × Phase
  | .returned full result => (c, .returned full result)
  | .saveCheck name data =>
    match validatePath c name with
    | .error e => (c, .returned none (.error e))
    | .ok full =>
      if TooLarge c data then (c, .returned (some full) (.error .fileTooLarge))
      else (c, .saveParent { name, data, full })
  | .saveParent w =>
    if pathExists c.tree w.full.parentPath then (c, .saveOpen w)
    -- `create_directories` looks at each directory at a time of its own
    else (c, .saveMkdir w (d.missing.filter (· <+: w.full.parentPath)) false)
  | .saveMkdir w [] created =>
    (c, if created then .saveOpen w else .returned (some w.full) (.error .createDirFailed))
  | .saveMkdir w (path :: missing) _ =>
    match if d.fails then none else createDirectory c.tree path with
    | none => (c, .returned (some w.full) (.error .createDirFailed))
    | some (t, created) => ({ c with tree := t }, .saveMkdir w missing created)
  | .saveOpen w =>
    match if d.fails then none else openPath c.tree w.full.tmpPath d.now with
    | none => (c, .returned (some w.full) (.error .ioError))
    | some (t, inode) => ({ c with tree := t }, .saveWrite w inode 0)
  | .saveWrite w inode off =>
    if d.fails then (c, .saveRemove w)
    else if d.size = 0 then (c, .saveClose w inode off)
    else (writeNext c d w inode off, .saveWrite w inode (nextOff d w off))
  | .saveClose w inode off =>
    -- a flush that fails here loses the rest, and nobody is told
    if d.fails ∨ w.data.length ≤ off then (c, .saveRename w inode off)
    else if d.size = 0 then (c, .saveClose w inode off)
    else (writeNext c d w inode off, .saveClose w inode (nextOff d w off))
  | .saveRename w _ _ =>
    match if d.fails then none else renamePath c.tree w.full.tmpPath w.full with
    | none => (c, .saveRemove w)
    | some t => ({ c with tree := t }, .saveInfo w)
  | .saveRemove w =>
    ({ c with tree := removeTmp c.tree w.full.tmpPath d.fails },
      .returned (some w.full) (.error .ioError))
  | .saveInfo w => (c, .saveIndex w (savedInfo c.tree w.name w.full w.data))
  | .saveIndex w info =>
    ({ c with index := c.index.insert w.name info }, .returned (some w.full) (.ok ()))
  | .deleteCheck name =>
    match validatePath c name with
    | .error e => (c, .returned none (.error e))
    | .ok full => (c, .deleteExists name full)
  | .deleteExists name full =>
    if pathExists c.tree full then (c, .deleteRemove name full)
    else (c, .returned (some full) (.error .fileNotFound))
  | .deleteRemove name full =>
    match if d.fails then none else removePath c.tree full with
    | none => (c, .returned (some full) (.error .ioError))
    | some t => ({ c with tree := t }, .deleteIndex name full)
  | .deleteIndex name full =>
    ({ c with index := c.index.erase name }, .returned (some full) (.ok ()))

/-! ## The scan thread -/

/-- Where the scan thread stands: in the iteration (the files that were there when it began and that
it has still to meet, with their inodes, and the new index), or in `CleanExpiredFiles`. -/
inductive Scanner where
  | idle
  | scanning (pending : List (List Entry × Nat)) (found : Index)
  | swapped
  | collecting (now : Int) (names expired : List (List Char))
  | sweeping (now : Int) (expired : List (List Char))
  | erasing (now : Int) (name : List Char) (expired : List (List Char))

/-- The files under the root with their inodes. -/
def pendingFiles (c : Cache) : List (List Entry × Nat) :=
  (filesUnder c.root c.tree).filterMap fun p =>
    match c.tree.node p with
    | some (.file i) => some (p, i)
    | _ => none

/-- `sctp`: the last write of what stands there. -/
def lastWrite (c : Cache) (d : Choice) (name : List Char) : Option Int :=
  match status c.tree (join c.root name) with
  | some (.file i) => some ((c.tree.inode i).mtime + d.drift)
  | some .dir => d.stamp
  | none => none

/-- The last write is longer ago than the retention time, in whole seconds. -/
def isExpired (c : Cache) (d : Choice) (now : Int) (name : List Char) : Bool :=
  match if d.fails then none else lastWrite c d name with
  | none => false
  | some sctp => c.maxRetentionSeconds < (now - sctp).tdiv 1000000000

/-- One step of the scan thread. -/
def scanAct (c : Cache) (d : Choice) : Scanner → Cache × Scanner
  | .idle => (c, .scanning (pendingFiles c) ∅)
  | .scanning pending found =>
    match d.meets with
    | none =>
      if pending = [] then ({ c with index := found }, .swapped) else (c, .scanning pending found)
    | some p =>
      let rest := pending.filter (·.1 ≠ p)
      if d.fails then
        -- an entry may be passed over that has been removed or replaced since the scan began
        if ∃ e ∈ pending, e.1 = p ∧ c.tree.node p = some (.file e.2) then
          (c, .scanning pending found)
        else (c, .scanning rest found)
      else if p ∈ filesUnder c.root c.tree then
        (c, .scanning rest (found.insert (relativeName c.root p) (scannedInfo c.tree c.root p)))
      else (c, .scanning rest found)
  | .swapped =>
    if c.maxRetentionSeconds ≤ 0 then (c, .idle) else (c, .collecting d.now c.index.keys [])
  | .collecting now [] expired => (c, .sweeping now expired)
  | .collecting now (name :: names) expired =>
    (c, .collecting now names (if isExpired c d now name then expired ++ [name] else expired))
  | .sweeping _ [] => (c, .idle)
  | .sweeping now (name :: expired) =>
    match if d.fails then none else removePath c.tree (join c.root name) with
    | none => (c, .sweeping now expired)
    | some t => ({ c with tree := t }, .erasing now name expired)
  | .erasing now name expired => ({ c with index := c.index.erase name }, .sweeping now expired)

/-! ## The system -/

/-- What calls and the sweep have done: a save has put its file in place, has returned `Success`; a
file has been removed, a deletion has returned `Success`. -/
inductive Event where
  | stored (name : List Char)
  | saved (name : List Char)
  | removed (name : List Char)
  | deleted (name : List Char)

/-- What a step of a call has done, by the phase it comes to. -/
def Phase.event (next : Phase) : Phase → Option Event
  | .saveRename w _ _ => match next with
    | .saveInfo _ => some (.stored w.name)
    | _ => none
  | .saveIndex w _ => some (.saved w.name)
  | .deleteRemove name _ => match next with
    | .deleteIndex _ _ => some (.removed name)
    | _ => none
  | .deleteIndex name _ => some (.deleted name)
  | _ => none

/-- What a step of the sweep has done. -/
def Scanner.event : Scanner → Option Event
  | .erasing _ name _ => some (.removed name)
  | _ => none

/-- What is settled about a name: `true` from the return of a save until something removes the file,
`false` from the return of a deletion until a save puts a file in place. -/
def settled (name : List Char) : List Event → Option Bool
  | [] => none
  | .stored n :: log => if n = name then (settled name log).filter id else settled name log
  | .saved n :: log => if n = name then some true else settled name log
  | .removed n :: log => if n = name then none else settled name log
  | .deleted n :: log => if n = name then some false else settled name log

/-- The log has the latest event first. -/
structure System (ι : Type) where
  cache : Cache
  client : ι → Phase
  scanner : Scanner := .idle
  log : List Event := []

/-- What can happen next: a client calls `SaveFile` or `DeleteFile`, goes on in its call, or the
scan goes on. -/
inductive Label (ι : Type) where
  | save (i : ι) (name : List Char) (data : List UInt8)
  | delete (i : ι) (name : List Char)
  | act (i : ι) (d : Choice)
  | scan (d : Choice)

variable {ι : Type} [DecidableEq ι]

/-- A client calls when its last call has returned. -/
def call (s : System ι) (i : ι) (phase : Phase) : Option (System ι) :=
  match s.client i with
  | .returned _ _ => some { s with client := update s.client i phase }
  | _ => none

/-- One step of the system, which is always possible. -/
def step (s : System ι) : Label ι → Option (System ι)
  | .save i name data => call s i (.saveCheck name data)
  | .delete i name => call s i (.deleteCheck name)
  | .act i d =>
    let (cache, phase) := act s.cache d (s.client i)
    some
      { s with
        cache
        client := update s.client i phase
        log := (phase.event (s.client i)).toList ++ s.log }
  | .scan d =>
    let (cache, scanner) := scanAct s.cache d s.scanner
    some { s with cache, scanner, log := scanner.event.toList ++ s.log }

/-- A step of a client, written out. -/
theorem step_act (s : System ι) (i : ι) (d : Choice) :
    step s (.act i d) = some
      { s with
        cache := (act s.cache d (s.client i)).1
        client := update s.client i (act s.cache d (s.client i)).2
        log := ((act s.cache d (s.client i)).2.event (s.client i)).toList ++ s.log } := rfl

/-- A step of the scan, written out. -/
theorem step_scan (s : System ι) (d : Choice) :
    step s (.scan d) = some
      { s with
        cache := (scanAct s.cache d s.scanner).1
        scanner := (scanAct s.cache d s.scanner).2
        log := (scanAct s.cache d s.scanner).2.event.toList ++ s.log } := rfl

/-- The system on a cache, with no call begun. -/
def start (cache : Cache) : System ι where
  cache := cache
  client _ := .returned none (.ok ())

/-! ## What a step can do -/

/-- The steps of a call: the cache and the phase after each, and what the step has seen. -/
inductive Acts (c : Cache) (d : Choice) : Phase → Cache → Phase → Prop where
  | rest {full result} : Acts c d (.returned full result) c (.returned full result)
  | saveRejected {name data full e} : Acts c d (.saveCheck name data) c (.returned full (.error e))
  | saveChecked {name data full} (h : validatePath c name = .ok full) :
      Acts c d (.saveCheck name data) c (.saveParent { name, data, full })
  | parentThere {w} : Acts c d (.saveParent w) c (.saveOpen w)
  | parentMissing {w missing} (h : ∀ p ∈ missing, p <+: w.full.parentPath) :
      Acts c d (.saveParent w) c (.saveMkdir w missing false)
  | made {w path missing created created' t}
      (h : createDirectory c.tree path = some (t, created')) :
      Acts c d (.saveMkdir w (path :: missing) created) { c with tree := t }
        (.saveMkdir w missing created')
  | parentMade {w} : Acts c d (.saveMkdir w [] true) c (.saveOpen w)
  | notMade {w missing created} :
      Acts c d (.saveMkdir w missing created) c (.returned (some w.full) (.error .createDirFailed))
  | opened {w now t inode} (h : openPath c.tree w.full.tmpPath now = some (t, inode)) :
      Acts c d (.saveOpen w) { c with tree := t } (.saveWrite w inode 0)
  | notOpened {w} : Acts c d (.saveOpen w) c (.returned (some w.full) (.error .ioError))
  | wrote {w inode off} :
      Acts c d (.saveWrite w inode off) (writeNext c d w inode off)
        (.saveWrite w inode (nextOff d w off))
  | notWritten {w inode off} : Acts c d (.saveWrite w inode off) c (.saveRemove w)
  | written {w inode off} : Acts c d (.saveWrite w inode off) c (.saveClose w inode off)
  | flushed {w inode off} :
      Acts c d (.saveClose w inode off) (writeNext c d w inode off)
        (.saveClose w inode (nextOff d w off))
  | closing {w inode off} : Acts c d (.saveClose w inode off) c (.saveClose w inode off)
  | closed {w inode off} (h : d.fails = true ∨ w.data.length ≤ off) :
      Acts c d (.saveClose w inode off) c (.saveRename w inode off)
  | renamed {w inode off t} (h : renamePath c.tree w.full.tmpPath w.full = some t) :
      Acts c d (.saveRename w inode off) { c with tree := t } (.saveInfo w)
  | notRenamed {w inode off} : Acts c d (.saveRename w inode off) c (.saveRemove w)
  | tmpRemoved {w} (fails : Bool) :
      Acts c d (.saveRemove w) { c with tree := removeTmp c.tree w.full.tmpPath fails }
        (.returned (some w.full) (.error .ioError))
  | infoRead {w info} : Acts c d (.saveInfo w) c (.saveIndex w info)
  | indexed {w info} :
      Acts c d (.saveIndex w info) { c with index := c.index.insert w.name info }
        (.returned (some w.full) (.ok ()))
  | deleteRejected {name e} : Acts c d (.deleteCheck name) c (.returned none (.error e))
  | deleteChecked {name full} (h : validatePath c name = .ok full) :
      Acts c d (.deleteCheck name) c (.deleteExists name full)
  | deleteFound {name full} : Acts c d (.deleteExists name full) c (.deleteRemove name full)
  | deleteNotFound {name full} :
      Acts c d (.deleteExists name full) c (.returned (some full) (.error .fileNotFound))
  | removed {name full t} (h : removePath c.tree full = some t) :
      Acts c d (.deleteRemove name full) { c with tree := t } (.deleteIndex name full)
  | notRemoved {name full} :
      Acts c d (.deleteRemove name full) c (.returned (some full) (.error .ioError))
  | erased {name full} :
      Acts c d (.deleteIndex name full) { c with index := c.index.erase name }
        (.returned (some full) (.ok ()))

/-- What a step of a client can do to the cache. -/
theorem act_acts (c : Cache) (d : Choice) (phase : Phase) :
    Acts c d phase (act c d phase).1 (act c d phase).2 := by
  cases phase with
  | returned full result => exact .rest
  | saveCheck name data =>
    rw [act]
    split
    next => exact .saveRejected
    next full h =>
      split
      · exact .saveRejected
      · exact .saveChecked h
  | saveParent w =>
    rw [act]
    split
    · exact .parentThere
    · exact .parentMissing fun p hp => by simpa using (List.mem_filter.1 hp).2
  | saveMkdir w missing created =>
    cases missing with
    | nil =>
      cases created with
      | false => exact .notMade
      | true => exact .parentMade
    | cons path missing =>
      rw [act]
      rcases h : if d.fails then none else createDirectory c.tree path with _ | ⟨t, created'⟩
      · exact .notMade
      · split at h
        · cases h
        · exact .made h
  | saveOpen w =>
    rw [act]
    rcases h : if d.fails then none else openPath c.tree w.full.tmpPath d.now with _ | ⟨t, inode⟩
    · exact .notOpened
    · split at h
      · cases h
      · exact .opened h
  | saveWrite w inode off =>
    rw [act]
    split
    · exact .notWritten
    split
    · exact .written
    · exact .wrote
  | saveClose w inode off =>
    rw [act]
    split
    next h => exact .closed h
    split
    · exact .closing
    · exact .flushed
  | saveRename w inode off =>
    rw [act]
    rcases h : if d.fails then none else renamePath c.tree w.full.tmpPath w.full with _ | t
    · exact .notRenamed
    · split at h
      · cases h
      · exact .renamed h
  | saveRemove w => exact .tmpRemoved d.fails
  | saveInfo w => exact .infoRead
  | saveIndex w info => exact .indexed
  | deleteCheck name =>
    rw [act]
    split
    next => exact .deleteRejected
    next full h => exact .deleteChecked h
  | deleteExists name full =>
    rw [act]
    split
    · exact .deleteFound
    · exact .deleteNotFound
  | deleteRemove name full =>
    rw [act]
    rcases h : if d.fails then none else removePath c.tree full with _ | t
    · exact .notRemoved
    · split at h
      · cases h
      · exact .removed h
  | deleteIndex name full => exact .erased

/-- The steps of the scan thread: the cache and where the thread stands after each. -/
inductive Scans (c : Cache) (d : Choice) : Scanner → Cache → Scanner → Prop where
  | begun : Scans c d .idle c (.scanning (pendingFiles c) ∅)
  | met {pending pending' found found'} :
      Scans c d (.scanning pending found) c (.scanning pending' found')
  | scanned {found} : Scans c d (.scanning [] found) { c with index := found } .swapped
  | kept (h : c.maxRetentionSeconds ≤ 0) : Scans c d .swapped c .idle
  | clock (h : 0 < c.maxRetentionSeconds) :
      Scans c d .swapped c (.collecting d.now c.index.keys [])
  | expired {now name names expired} (h : isExpired c d now name) :
      Scans c d (.collecting now (name :: names) expired) c
        (.collecting now names (expired ++ [name]))
  | notExpired {now name names expired} :
      Scans c d (.collecting now (name :: names) expired) c (.collecting now names expired)
  | collected {now expired} : Scans c d (.collecting now [] expired) c (.sweeping now expired)
  | removed {now name expired t} (h : removePath c.tree (join c.root name) = some t) :
      Scans c d (.sweeping now (name :: expired)) { c with tree := t } (.erasing now name expired)
  | notRemoved {now name expired} :
      Scans c d (.sweeping now (name :: expired)) c (.sweeping now expired)
  | erased {now name expired} :
      Scans c d (.erasing now name expired) { c with index := c.index.erase name }
        (.sweeping now expired)
  | swept {now} : Scans c d (.sweeping now []) c .idle

/-- What a step of the scan can do to it. -/
theorem scanAct_scans (c : Cache) (d : Choice) (scanner : Scanner) :
    Scans c d scanner (scanAct c d scanner).1 (scanAct c d scanner).2 := by
  cases scanner with
  | idle => exact .begun
  | scanning pending found =>
    rw [scanAct]
    split
    next =>
      split
      next hempty =>
        subst hempty
        exact .scanned
      next => exact .met
    next =>
      dsimp only
      split_ifs <;> exact .met
  | swapped =>
    rw [scanAct]
    split
    next h => exact .kept h
    next h => exact .clock (Int.not_le.1 h)
  | collecting now names expired =>
    cases names with
    | nil => exact .collected
    | cons name names =>
      rw [scanAct]
      split
      next h => exact .expired h
      next => exact .notExpired
  | sweeping now expired =>
    cases expired with
    | nil => exact .swept
    | cons name expired =>
      rw [scanAct]
      rcases h : if d.fails then none else removePath c.tree (join c.root name) with _ | t
      · exact .notRemoved
      · split at h
        · cases h
        · exact .removed h
  | erasing now name expired => exact .erased

/-! ## A call alone -/

/-- A step of a call that nobody interrupts. -/
def Moves (s s' : Cache × Phase) : Prop := ∃ d, act s.1 d s.2 = s'

/-- Some steps of a call that nobody interrupts. -/
abbrev Goes := Relation.ReflTransGen Moves

/-- A client that goes on alone goes one step further. -/
theorem Goes.step {c : Cache} {phase : Phase} {s : Cache × Phase} (d : Choice)
    (h : Goes (act c d phase) s) : Goes (c, phase) s := .head ⟨d, rfl⟩ h

/-- The missing directories are made one by one. -/
theorem createMissing_alone (c : Cache) (w : Save) (missing : List Path) (created : Bool)
    (stops : Option Nat) :
    Goes (c, .saveMkdir w missing created)
      ({ c with tree := (createMissing c.tree created missing stops).1 },
        if (createMissing c.tree created missing stops).2 = some true then .saveOpen w
        else .returned (some w.full) (.error .createDirFailed)) := by
  induction missing generalizing c created stops with
  | nil =>
    refine .step {} ?_
    cases created <;> exact .refl
  | cons path missing ih =>
    rw [createMissing]
    by_cases hs : stops = some 0
    · rw [if_pos hs]
      exact .step { fails := true } .refl
    rw [if_neg hs]
    cases hc : createDirectory c.tree path with
    | none =>
      refine .step {} ?_
      simp only [act, Bool.false_eq_true, if_false, hc]
      exact .refl
    | some r =>
      refine .step {} ?_
      simp only [act, Bool.false_eq_true, if_false, hc]
      exact ih { c with tree := r.1 } r.2 _

/-- Together they are the directory of the file. -/
theorem ensureParent_alone (c : Cache) (w : Save) (stops : Option Nat) :
    Goes (c, .saveParent w)
      ({ c with tree := (ensureParent c.tree w.full.parentPath stops).1 },
        if (ensureParent c.tree w.full.parentPath stops).2 then .saveOpen w
        else .returned (some w.full) (.error .createDirFailed)) := by
  rw [ensureParent]
  by_cases hp : pathExists c.tree w.full.parentPath
  · rw [if_pos hp]
    refine .step {} ?_
    rw [act, if_pos hp]
    exact .refl
  rw [if_neg hp]
  refine .step { missing := w.full.parentPath.inits.filter fun p => ¬ pathExists c.tree p } ?_
  rw [act, if_neg hp]
  have hm : (w.full.parentPath.inits.filter fun p => ¬ pathExists c.tree p).filter
      (· <+: w.full.parentPath) = w.full.parentPath.inits.filter fun p => ¬ pathExists c.tree p :=
    List.filter_eq_self.2 fun p hp => by simpa using (List.mem_filter.1 hp).1
  rw [hm]
  have h := createMissing_alone c w (w.full.parentPath.inits.filter fun p => ¬ pathExists c.tree p)
    false stops
  rw [← createDirectories] at h
  split
  next t' ht =>
    rw [ht] at h
    exact h
  next t' r hr ht =>
    rw [ht] at h
    rw [if_neg hr] at h
    exact h

/-- The bytes of a whole write, through the stream; nothing is written where there are none. -/
theorem write_alone (c : Cache) (w : Save) (i : Nat) (now : Int) (size : Nat)
    (hi : c.tree.inode i = { mtime := now }) :
    ∃ off, Goes (c, .saveWrite w i 0)
      ({ c with tree := c.tree.write i 0 (w.data.take size) now }, .saveWrite w i off) := by
  cases size with
  | zero =>
    refine ⟨0, ?_⟩
    rw [List.take_zero, Tree.write, hi, Tree.overwrite_nil, Tree.setInode, ← hi, update_eq_self]
  | succ size =>
    refine ⟨nextOff { size := size + 1, now } w 0, .step { size := size + 1, now } ?_⟩
    rw [act, if_neg (by simp), if_neg (by simp)]
    exact .refl

/-- And the steps from the temporary file on are the rest of the save. -/
theorem saveTmp_alone (c : Cache) (w : Save) (f : Faults) (now : Int) :
    Goes (c, .saveOpen w)
      ({ c with tree := (saveTmp c.tree w.full w.data f now).1 },
        match (saveTmp c.tree w.full w.data f now).2 with
        | .error e => .returned (some w.full) (.error e)
        | .ok () => .saveInfo w) := by
  rw [saveTmp]
  rcases ho : if f.openFails then none else openPath c.tree w.full.tmpPath now with _ | ⟨t, i⟩
  · refine .step { fails := true } ?_
    exact .refl
  split at ho
  · cases ho
  refine .step { now } ?_
  rw [act, if_neg (by simp), ho]
  have hi : t.inode i = { mtime := now } := by
    obtain ⟨q, -, hq⟩ := Option.bind_eq_some_iff.1 ho
    rw [(Tree.openTrunc_some hq).2.2.2, update_self]
  have hremove : ∀ t' : Files, Goes ({ c with tree := t' }, .saveRemove w)
      ({ c with tree := removeTmp t' w.full.tmpPath f.removeFails },
        .returned (some w.full) (.error .ioError)) :=
    fun t' => .step { fails := f.removeFails } .refl
  cases hw : f.writeStops with
  | some k =>
    obtain ⟨off, hgo⟩ := write_alone { c with tree := t } w i now k hi
    exact hgo.trans (Goes.step { fails := true } (hremove _))
  | none =>
    dsimp only
    obtain ⟨off, hgo⟩ :=
      write_alone { c with tree := t } w i now (f.flushStops.getD w.data.length) hi
    refine hgo.trans (Goes.step {} (Goes.step { fails := true } ?_))
    generalize t.write i 0 (w.data.take (f.flushStops.getD w.data.length)) now = t'
    simp only [act, if_true, true_or]
    rcases hr : if f.renameFails then none else renamePath t' w.full.tmpPath w.full with _ | t''
    · refine .step { fails := f.renameFails } ?_
      simp only [act, hr]
      exact hremove t'
    · refine .step { fails := f.renameFails } ?_
      simp only [act, hr]
      exact .refl

/-- **A save alone is `saveFile`.** -/
theorem saveFile_alone (c : Cache) (name : List Char) (data : List UInt8) (f : Faults) (now : Int) :
    ∃ full, Goes (c, .saveCheck name data)
      ((saveFile c name data f now).1, .returned full (saveFile c name data f now).2) := by
  rw [saveFile]
  cases hv : validatePath c name with
  | error e =>
    refine ⟨none, .step {} ?_⟩
    rw [act, hv]
  | ok full =>
    refine ⟨some full, .step {} ?_⟩
    rw [act, hv]
    dsimp only
    split
    · exact .refl
    have hparent := ensureParent_alone c { name, data, full } f.mkdirStops
    dsimp only at hparent
    rcases ht : ensureParent c.tree full.parentPath f.mkdirStops with ⟨t, made⟩
    rw [ht] at hparent
    cases made with
    | false => exact hparent
    | true =>
      refine Relation.ReflTransGen.trans hparent ?_
      have htmp := saveTmp_alone { c with tree := t } { name, data, full } f now
      dsimp only at htmp ⊢
      rcases hs : saveTmp t full data f now with ⟨t', r⟩
      rw [hs] at htmp
      cases r with
      | error e => exact htmp
      | ok _ => exact htmp.trans (Goes.step {} (Goes.step {} .refl))

/-- **A deletion alone is `deleteFile`.** -/
theorem deleteFile_alone (c : Cache) (name : List Char) (removeFails : Bool) :
    ∃ full, Goes (c, .deleteCheck name)
      ((deleteFile c name removeFails).1, .returned full (deleteFile c name removeFails).2) := by
  rw [deleteFile]
  cases hv : validatePath c name with
  | error e =>
    refine ⟨none, .step {} ?_⟩
    rw [act, hv]
  | ok full =>
    refine ⟨some full, .step {} ?_⟩
    rw [act, hv]
    dsimp only
    refine .step {} ?_
    rw [act]
    by_cases he : pathExists c.tree full
    · rw [if_pos he, if_neg (not_not.2 he)]
      refine .step { fails := removeFails } ?_
      rw [act]
      rcases hr : if removeFails then none else removePath c.tree full with _ | t
      · exact .refl
      · exact .step {} .refl
    · rw [if_neg he, if_pos he]

end MyCache.Concurrent
