import FastCppServer.Cache.Path
import Mathlib.Data.List.AList
import Mathlib.Data.UInt

/-!
# The file cache

`MyCache.cpp`: the operations of the cache over a tree of files. What the environment decides is an
argument: the clock, and which calls of the kernel fail (`Faults`), so a statement about every
argument covers every place where an operation can stop.

A save is cut where the code is: `ensureParent`, then the temporary (`saveTmp`: open, write, close,
rename), then the index. The index is keyed by the caller's own spelling in `saveFile` and
`deleteFile`, and by the path relative to the root in `refreshIndex`.
-/

namespace MyCache

open FileTree

inductive CacheStatus where
  | notInitialized
  | running
  | error
  deriving DecidableEq

inductive CacheErrorCode where
  | notInitialized
  | pathTraversal
  | fileNotFound
  | fileAlreadyExists
  | ioError
  | invalidArgument
  | createDirFailed
  | fileTooLarge
  deriving DecidableEq

/-- `CacheResult`: `Ok` with a value, or an error code. -/
abbrev CacheResult (α : Type) := Except CacheErrorCode α

/-- The files of the cache: directory entries over bytes. -/
abbrev Files := Tree Entry UInt8

/-- A last write is kept as the time stamp itself, in nanoseconds; `none` if it cannot be read. -/
structure FileInfo where
  name : List Char
  size : Nat
  type : List Char
  modifiedAt : Option Int
  deriving DecidableEq

/-- `file_index_`. -/
abbrev Index := AList fun _ : List Char => FileInfo

structure Cache where
  status : CacheStatus
  root : List Entry
  maxFileSize : Nat := 0
  maxRetentionSeconds : Int := 0
  tree : Files
  index : Index

/-! ## Helpers -/

/-- `s.rfind(c)`. -/
def rfind (c : Char) (s : List Char) : Option Nat :=
  (s.reverse.idxOf? c).map fun i => s.length - 1 - i

/-- `GetFileExtension`. -/
def getFileExtension (name : List Char) : List Char :=
  match rfind '.' name with
  | none => []
  | some pos =>
    if pos = name.length - 1 then []
    else
      let basename := match rfind '/' name with
        | some slash => if pos < slash then none else some (name.drop (slash + 1))
        | none => some name
      match basename with
      | none => []
      | some base =>
        if rfind '.' base = some 0 ∧ '.' ∉ base.drop 1 then [] else name.drop (pos + 1)

/-- `last_write_time`. -/
def lastWriteTime (t : Files) (path : Path) : Option Int :=
  match status t path with
  | some (.file i) => some (t.inode i).mtime
  | _ => none

/-- `ValidatePath`. -/
def validatePath (c : Cache) (name : List Char) : CacheResult Path :=
  if name = [] then .error .invalidArgument
  else if c.status ≠ .running then .error .notInitialized
  else if tooLong c.tree (join c.root name) then .error .invalidArgument
  else
    let resolved := weaklyCanonical c.tree (join c.root name)
    if ¬ isPathInsideRoot (plain c.root) resolved then .error .pathTraversal
    else if resolved = plain c.root then .error .invalidArgument
    else .ok resolved

/-- `ValidateDirectoryPath`. -/
def validateDirectoryPath (c : Cache) (folder : List Char) (allowRoot : Bool) : CacheResult Path :=
  if c.status ≠ .running then .error .notInitialized
  else if nul ∈ folder then .error .invalidArgument
  else if '\\' ∈ folder then .error .invalidArgument
  else if folder = [] ∨ folder = ['.'] then .ok (plain c.root)
  else if tooLong c.tree (join c.root folder) then .error .invalidArgument
  else
    let resolved := weaklyCanonical c.tree (join c.root folder)
    if ¬ isPathInsideRoot (plain c.root) resolved then .error .pathTraversal
    else if ¬ allowRoot ∧ resolved = plain c.root then .error .invalidArgument
    else .ok resolved

/-! ## Directories -/

/-- `std::filesystem::create_directory`: whether it created one, or an error. A directory that is
there already is no error. -/
def createDirectory (t : Files) (path : Path) : Option (Files × Bool) :=
  match mkdirPath t path with
  | some t' => some (t', true)
  | none => if isDirectory t path then some (t, false) else none

/-- The creation loop of `create_directories`, which reports the last one; `stops` is how many are
made before one fails. -/
def createMissing (t : Files) (created : Bool) : List Path → Option Nat → Files × Option Bool
  | [], _ => (t, some created)
  | path :: paths, stops =>
    if stops = some 0 then (t, none)
    else match createDirectory t path with
      | none => (t, none)
      | some (t', created') => createMissing t' created' paths (stops.map (· - 1))

/-- `std::filesystem::create_directories`, of a path that is not there. -/
def createDirectories (t : Files) (path : Path) (stops : Option Nat) : Files × Option Bool :=
  createMissing t false (path.inits.filter fun p => ¬ pathExists t p) stops

/-- The check of the parent directory: `false` where it cannot be created. -/
def ensureParent (t : Files) (parent : Path) (stops : Option Nat) : Files × Bool :=
  if pathExists t parent then (t, true)
  else match createDirectories t parent stops with
    | (t', some true) => (t', true)
    | (t', _) => (t', false)

/-! ## The operations -/

/-- What fails under a save: a directory after so many, the opening of the temporary, its write
after so many bytes, the flush at its closing after so many bytes (which nobody checks), the
rename, and the removal of the temporary. -/
structure Faults where
  mkdirStops : Option Nat := none
  openFails : Bool := false
  writeStops : Option Nat := none
  flushStops : Option Nat := none
  renameFails : Bool := false
  removeFails : Bool := false

/-- The removal of a temporary that is of no use, whose failure is ignored. -/
def removeTmp (t : Files) (tmp : Path) (fails : Bool) : Files :=
  if fails then t else (removePath t tmp).getD t

/-- The part of `SaveFile` from the temporary to the rename. -/
def saveTmp (t : Files) (full : Path) (data : List UInt8) (f : Faults) (now : Int) :
    Files × CacheResult Unit :=
  let tmp := full.tmpPath
  match if f.openFails then none else openPath t tmp now with
  | none => (t, .error .ioError)
  | some (t, i) =>
    match f.writeStops with
    | some k => (removeTmp (t.write i 0 (data.take k) now) tmp f.removeFails, .error .ioError)
    | none =>
      let t := t.write i 0 (data.take (f.flushStops.getD data.length)) now
      match if f.renameFails then none else renamePath t tmp full with
      | none => (removeTmp t tmp f.removeFails, .error .ioError)
      | some t => (t, .ok ())

/-- The index entry of a save. -/
def savedInfo (t : Files) (name : List Char) (full : Path) (data : List UInt8) : FileInfo where
  name := name
  size := data.length
  type := getFileExtension name
  modifiedAt := lastWriteTime t full

/-- The check of the size, which a limit of 0 turns off. -/
def TooLarge (c : Cache) (data : List UInt8) : Prop :=
  0 < c.maxFileSize ∧ c.maxFileSize < data.length

instance (c : Cache) (data : List UInt8) : Decidable (TooLarge c data) :=
  inferInstanceAs (Decidable (0 < c.maxFileSize ∧ c.maxFileSize < data.length))

def saveFile (c : Cache) (name : List Char) (data : List UInt8) (f : Faults) (now : Int) :
    Cache × CacheResult Unit :=
  match validatePath c name with
  | .error e => (c, .error e)
  | .ok full =>
    if TooLarge c data then (c, .error .fileTooLarge)
    else match ensureParent c.tree full.parentPath f.mkdirStops with
      | (t, false) => ({ c with tree := t }, .error .createDirFailed)
      | (t, true) =>
        match saveTmp t full data f now with
        | (t, .error e) => ({ c with tree := t }, .error e)
        | (t, .ok ()) =>
          ({ c with
              tree := t
              index := c.index.insert name (savedInfo t name full data) }, .ok ())

def deleteFile (c : Cache) (name : List Char) (removeFails : Bool) : Cache × CacheResult Unit :=
  match validatePath c name with
  | .error e => (c, .error e)
  | .ok full =>
    if ¬ pathExists c.tree full then (c, .error .fileNotFound)
    else match if removeFails then none else removePath c.tree full with
      | none => (c, .error .ioError)
      | some t => ({ c with tree := t, index := c.index.erase name }, .ok ())

/-- `Exists`. -/
def existsFile (c : Cache) (name : List Char) : CacheResult Bool :=
  match validatePath c name with
  | .error e => .error e
  | .ok _ => .ok (name ∈ c.index)

/-- `CreateSubdirectory`, which returns the path it made. -/
def createSubdirectory (c : Cache) (folder newFolder : List Char) (mkdirFails : Bool) :
    Cache × CacheResult (List Char) :=
  match validateDirectoryPath c folder true with
  | .error e => (c, .error e)
  | .ok parent =>
    if newFolder = [] then (c, .error .invalidArgument)
    else if nul ∈ newFolder ∨ '\\' ∈ newFolder ∨ '/' ∈ newFolder ∨ newFolder = ['.'] ∨
        newFolder = ['.', '.'] then (c, .error .invalidArgument)
    else if ¬ pathExists c.tree parent then (c, .error .fileNotFound)
    else if ¬ isDirectory c.tree parent then (c, .error .invalidArgument)
    else if tooLong c.tree (parent ++ [newFolder]) then (c, .error .invalidArgument)
    else
      let resolved := weaklyCanonical c.tree (parent ++ [newFolder])
      if ¬ isPathInsideRoot (plain c.root) resolved then (c, .error .pathTraversal)
      else if pathExists c.tree resolved then (c, .error .fileAlreadyExists)
      else match if mkdirFails then none else createDirectory c.tree resolved with
        | some (t, true) => ({ c with tree := t }, .ok resolved.string)
        | some (t, false) => ({ c with tree := t }, .error .createDirFailed)
        | none => (c, .error .createDirFailed)

/-! ## The scan -/

/-- The key of a file: its path relative to the root. -/
def relativeName (root p : List Entry) : List Char := nameOf (p.drop root.length)

/-- The index entry of a file that the scan meets. -/
def scannedInfo (t : Files) (root p : List Entry) : FileInfo where
  name := relativeName root p
  size := ((t.content p).map List.length).getD 0
  type := getFileExtension (relativeName root p)
  modifiedAt := lastWriteTime t (plain p)

/-- The regular files under the root, as the recursive iteration meets them. -/
def filesUnder (root : List Entry) (t : Files) : List (List Entry) :=
  t.files.filter fun p => root <+: p ∧ p ≠ root

/-- `new_index` at the end of the iteration. -/
def scan (root : List Entry) (t : Files) : Index :=
  (filesUnder root t).foldl
    (fun index p => index.insert (relativeName root p) (scannedInfo t root p)) ∅

def refreshIndex (c : Cache) : Cache := { c with index := scan c.root c.tree }

/-- The cache as `Init` leaves it. -/
def initialised (root : List Entry) (maxFileSize : Nat) (maxRetentionSeconds : Int) (t : Files) :
    Cache :=
  refreshIndex { status := .running, root, maxFileSize, maxRetentionSeconds, tree := t, index := ∅ }

end MyCache
