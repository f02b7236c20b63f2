import FastCppServer.MyData.Json
import Mathlib.Data.List.Forall2

/-!
# Configuration aggregation

`MyJSONConfigV2::Load` reads an index file and puts in the place of each entry of
`pipeline.executes` the content of the file that the entry names. The document is built apart and
becomes the configuration as a whole, so a failure leaves the configuration as it was; and what may
fail is told by the files alone (`load_exact`). Among that are the types of two fields whose values
decide nothing then: an entry with a `read_config` that is no boolean, or with a `config_name` that
is no string, makes the whole call fail (`not_load_exact`).

A file is what `is_open` and `>>` make of it, by its path; the text of a path is a `String`.
-/

namespace MyConfig

open MyData

/-! ## Files and paths -/

/-- A file that does not open, one whose content `>>` does not read, and one with a value. -/
inductive Contents where
  | closed
  | unreadable
  | holds (j : Json)

structure World where
  /-- `std::filesystem::current_path`. -/
  cwd : String
  files : String → Contents

def isAbsolute (path : String) : Bool := path.toList.head? = some '/'

/-- `lhs / rhs`. -/
def slash (lhs rhs : String) : String :=
  if isAbsolute rhs then rhs
  else if lhs = "" ∨ lhs.toList.getLast? = some '/' then lhs ++ rhs
  else lhs ++ "/" ++ rhs

/-- `std::filesystem::absolute`, which throws for the empty path. -/
def absolute (w : World) (path : String) : Option String :=
  if path = "" then none else some (slash w.cwd path)

/-- `path.parent_path()` of an absolute path. -/
def parentPath (path : String) : String :=
  let directory := (path.toList.reverse.dropWhile (· ≠ '/')).dropWhile (· = '/')
  if directory = [] then "/" else String.ofList directory.reverse

/-! ## `Load` -/

/-- Why `Load` returns `false`: a test of its own, or an exception. -/
inductive Failure where
  | indexClosed (path : String)
  | noPipeline (path : String)
  | badExecutes
  | nodeNotObject (key : String)
  | noConfigPath (name : String)
  | nodeClosed (path : String)
  | rootNotObject (path : String)
  | exception
  deriving DecidableEq

/-- A call that may throw. -/
def throwing {α : Type} (result : Option α) : Except Failure α :=
  match result with
  | some a => .ok a
  | none => .error .exception

/-- The node of an entry that is not read. -/
def disabled (configName : String) : Json :=
  .object [("enable", .boolean false), ("model_args", .object []),
    ("model_name", .string configName)]

/-- The second half of the body of the loop: the file of an entry that is read. -/
def readItem (w : World) (configDirectory configName configPath : String) : Except Failure Json :=
  if configPath = "" then .error (.noConfigPath configName)
  else
    let itemPath := if isAbsolute configPath then configPath else slash configDirectory configPath
    match w.files itemPath with
    | .closed => .error (.nodeClosed itemPath)
    | .unreadable => .error .exception
    | .holds itemConfig =>
      if itemConfig.isObject then .ok itemConfig else .error (.rootNotObject itemPath)

/-- The body of the loop over `executes`: what takes the place of the entry. -/
def readNode (w : World) (configDirectory key : String) (indexItem : Json) :
    Except Failure Json :=
  if !indexItem.isObject then .error (.nodeNotObject key)
  else do
    let readConfig ← throwing (indexItem.value Json.asBool "read_config" true)
    let configName ← throwing (indexItem.value Json.asString "config_name" key)
    if !readConfig then return disabled configName
    else
      let configPath ← throwing (indexItem.value Json.asString "config_path" "")
      readItem w configDirectory configName configPath

/-- The loop over `executes`. -/
def readNodes (w : World) (configDirectory : String) :
    List (String × Json) → Except Failure (List (String × Json))
  | [] => .ok []
  | (key, indexItem) :: items => do
    let itemConfig ← readNode w configDirectory key indexItem
    let rest ← readNodes w configDirectory items
    return (key, itemConfig) :: rest

/-- The document that `Load` makes. -/
def aggregate (w : World) (path : String) : Except Failure Json := do
  let indexPath ← throwing (absolute w path)
  match w.files indexPath with
  | .closed => .error (.indexClosed indexPath)
  | .unreadable => .error .exception
  | .holds loadedConfig =>
    match loadedConfig.find "pipeline" with
    | none => .error (.noPipeline indexPath)
    | some pipeline =>
      match pipeline.find "executes" with
      | some (.object executes) => do
        let entries ← readNodes w (parentPath indexPath) executes
        return loadedConfig.replace "pipeline" (pipeline.replace "executes" (.object entries))
      | _ => .error .badExecutes

/-- What `Load` returns, and `config_` after it. -/
def load (w : World) (path : String) (config : Json) : Bool × Json :=
  match aggregate w path with
  | .ok loadedConfig => (true, loadedConfig)
  | .error _ => (false, config)

/-! ## `Init` -/

/-- `Init`, with `instance_` as far as it is set: a call that throws leaves the flag of `call_once`
as it was. -/
def init (w : World) (path : String) (instance? : Option Json) : Except String (Option Json) :=
  match instance? with
  | some config => .ok (some config)
  | none =>
    match load w path .null with
    | (true, config) => .ok (some config)
    | (false, _) => .error ("V2 JSON 配置加载失败: " ++ path)

/-- `GetInstance().Raw()`. -/
def raw (instance? : Option Json) : Json := instance?.getD .null

/-! ## What is loaded -/

/-- The index file: it holds an object with an object `pipeline` with an object `executes`. -/
def Index (w : World) (path configDirectory : String) (index pipeline : Json)
    (executes : List (String × Json)) : Prop :=
  ∃ indexPath, absolute w path = some indexPath ∧ parentPath indexPath = configDirectory ∧
    w.files indexPath = .holds index ∧ index.find "pipeline" = some pipeline ∧
    pipeline.find "executes" = some (.object executes)

/-- The entry names a file that holds an object. -/
def Names (w : World) (configDirectory : String) (indexItem : Json)
    (fields : List (String × Json)) : Prop :=
  ∃ configPath, indexItem.find "config_path" = some (.string configPath) ∧ configPath ≠ "" ∧
    w.files (slash configDirectory configPath) = .holds (.object fields)

/-- `read_config` is `false`. -/
def Unread (indexItem : Json) : Prop :=
  indexItem.find "read_config" = some (.boolean false)

/-- What a node must have to be read or disabled. -/
structure Ready (w : World) (configDirectory : String) (indexItem : Json) : Prop where
  isObject : ∃ fields, indexItem = .object fields
  readConfig : ∀ field, indexItem.find "read_config" = some field → ∃ b, field = .boolean b
  configName : ∀ field, indexItem.find "config_name" = some field → ∃ s, field = .string s
  file : ¬ Unread indexItem → ∃ fields, Names w configDirectory indexItem fields

/-- What takes the place of an entry: the disabled node, where it is not read, or all that its file
holds. -/
def Replaced (w : World) (configDirectory : String) (item entry : String × Json) : Prop :=
  entry.1 = item.1 ∧
    ((Unread item.2 ∧ ∃ name, item.2.value Json.asString "config_name" item.1 = some name ∧
        entry.2 = disabled name) ∨
      (¬ Unread item.2 ∧ ∃ fields, Names w configDirectory item.2 fields ∧
        entry.2 = .object fields))

/-! ## The loop -/

theorem bind_ok {α β : Type} {x : Except Failure α} {f : α → Except Failure β} {b : β} :
    (x >>= f) = .ok b ↔ ∃ a, x = .ok a ∧ f a = .ok b := by
  cases x with
  | error e =>
    constructor
    · intro h
      cases h
    · rintro ⟨a, ha, -⟩
      cases ha
  | ok a =>
    constructor
    · intro h
      exact ⟨a, rfl, h⟩
    · rintro ⟨a', ha, h⟩
      cases ha
      exact h

theorem throwing_ok {α : Type} {result : Option α} {a : α} :
    throwing result = .ok a ↔ result = some a := by
  cases result <;> simp [throwing]

section
variable {w : World} {configDirectory key : String} {indexItem entry : Json}

theorem readItem_ok {configName configPath : String} :
    readItem w configDirectory configName configPath = .ok entry ↔
      configPath ≠ "" ∧ w.files (slash configDirectory configPath) = .holds entry ∧
        ∃ fields, entry = .object fields := by
  -- the source asks twice whether the path is absolute
  have hslash : (if isAbsolute configPath then configPath
      else slash configDirectory configPath) = slash configDirectory configPath := by
    by_cases h : isAbsolute configPath
    · rw [if_pos h, slash, if_pos h]
    · rw [if_neg h]
  rw [readItem, hslash]
  by_cases hempty : configPath = ""
  · simp [hempty]
  · rw [if_neg hempty]
    cases hfile : w.files (slash configDirectory configPath) with
    | closed => simp [hfile]
    | unreadable => simp [hfile]
    | holds itemConfig =>
      by_cases hobject : itemConfig.isObject
      · simp only [hfile, if_pos hobject, Except.ok.injEq, Contents.holds.injEq, ne_eq, hempty,
          not_false_eq_true, true_and, iff_self_and]
        rintro rfl
        exact Json.isObject_iff.1 hobject
      · simp only [hfile, if_neg hobject, reduceCtorEq, Contents.holds.injEq, false_iff, not_and]
        rintro - rfl ⟨fields, rfl⟩
        exact hobject rfl

/-- What `read_config` says, where it is read without an exception. -/
theorem readConfig_eq_some {readConfig : Bool} :
    indexItem.value Json.asBool "read_config" true = some readConfig ↔
      indexItem.isObject = true ∧
        (∀ field, indexItem.find "read_config" = some field → ∃ b, field = .boolean b) ∧
        (readConfig = false ↔ Unread indexItem) := by
  rw [Json.value_eq_some, Unread]
  cases hfind : indexItem.find "read_config" with
  | none => cases readConfig <;> simp
  | some field =>
    constructor
    · rintro ⟨hobject, ⟨hnone, -⟩ | ⟨field', hfield, hb⟩⟩
      · cases hnone
      · cases hfield
        obtain rfl := Json.asBool_eq_some.1 hb
        refine ⟨hobject, fun field' hfield' => ⟨readConfig, (Option.some.inj hfield').symm⟩, ?_⟩
        rw [Option.some.injEq, Json.boolean.injEq]
    · rintro ⟨hobject, hbool, hunread⟩
      obtain ⟨b, rfl⟩ := hbool field rfl
      rw [Option.some.injEq, Json.boolean.injEq] at hunread
      have hb : b = readConfig := by
        cases b <;> cases readConfig <;> simp_all
      exact ⟨hobject, .inr ⟨_, rfl, congrArg some hb⟩⟩

/-- `config_name` is read without an exception. -/
theorem configName_exists :
    (∃ configName, indexItem.value Json.asString "config_name" key = some configName) ↔
      indexItem.isObject = true ∧
        ∀ field, indexItem.find "config_name" = some field → ∃ s, field = .string s := by
  simp only [Json.value_eq_some]
  cases hfind : indexItem.find "config_name" with
  | none => simp
  | some field => simp [Json.asString_eq_some]

/-- A path that is not empty stands in the entry. -/
theorem configPath_eq_some {configPath : String} (hobject : indexItem.isObject = true)
    (hempty : configPath ≠ "") :
    indexItem.value Json.asString "config_path" "" = some configPath ↔
      indexItem.find "config_path" = some (.string configPath) := by
  rw [Json.value_eq_some]
  simp [hobject, hempty.symm, Json.asString_eq_some]

theorem readNode_ok : readNode w configDirectory key indexItem = .ok entry ↔
    Ready w configDirectory indexItem ∧
      Replaced w configDirectory (key, indexItem) (key, entry) := by
  rcases (Bool.eq_false_or_eq_true indexItem.isObject).symm with hobject | hobject
  · rw [readNode, if_pos (by simp [hobject])]
    constructor
    · intro h
      cases h
    · rintro ⟨hready, -⟩
      rw [Json.isObject_iff.2 hready.isObject] at hobject
      cases hobject
  rw [readNode, if_neg (by simp [hobject])]
  simp only [bind_ok, throwing_ok]
  constructor
  · rintro ⟨readConfig, hread, configName, hname, h⟩
    obtain ⟨-, hbool, hunread⟩ := readConfig_eq_some.1 hread
    have hstring := (configName_exists.1 ⟨configName, hname⟩).2
    cases readConfig with
    | false =>
      have hun := hunread.1 rfl
      cases h
      exact ⟨⟨Json.isObject_iff.1 hobject, hbool, hstring, fun hnot => absurd hun hnot⟩, rfl,
        .inl ⟨hun, configName, hname, rfl⟩⟩
    | true =>
      have hread' : ¬ Unread indexItem := fun hun => Bool.noConfusion (hunread.2 hun)
      obtain ⟨configPath, hpath, h⟩ := bind_ok.1 h
      obtain ⟨hempty, hfile, fields, rfl⟩ := readItem_ok.1 h
      have hnames : Names w configDirectory indexItem fields :=
        ⟨configPath, (configPath_eq_some hobject hempty).1 (throwing_ok.1 hpath), hempty, hfile⟩
      exact ⟨⟨Json.isObject_iff.1 hobject, hbool, hstring, fun _ => ⟨fields, hnames⟩⟩, rfl,
        .inr ⟨hread', fields, hnames, rfl⟩⟩
  · rintro ⟨hready, -, ⟨hun, configName, hname, hentry⟩ | ⟨hread, fields, hnames, hentry⟩⟩
    · obtain rfl : entry = disabled configName := hentry
      exact ⟨false, readConfig_eq_some.2 ⟨hobject, hready.readConfig, iff_of_true rfl hun⟩,
        configName, hname, rfl⟩
    · obtain rfl : entry = .object fields := hentry
      obtain ⟨configName, hname⟩ := configName_exists.2 ⟨hobject, hready.configName⟩
      obtain ⟨configPath, hpath, hempty, hfile⟩ := hnames
      refine ⟨true, readConfig_eq_some.2 ⟨hobject, hready.readConfig, ?_⟩, configName, hname, ?_⟩
      · exact iff_of_false Bool.noConfusion hread
      · refine bind_ok.2 ⟨configPath, throwing_ok.2 ?_, readItem_ok.2 ⟨hempty, hfile, fields, rfl⟩⟩
        exact (configPath_eq_some hobject hempty).2 hpath

/-- Where an entry is ready, its place is taken. -/
theorem Ready.exists_replaced (h : Ready w configDirectory indexItem) :
    ∃ entry, Replaced w configDirectory (key, indexItem) (key, entry) := by
  by_cases hun : Unread indexItem
  · obtain ⟨configName, hname⟩ :
        ∃ configName, indexItem.value Json.asString "config_name" key = some configName :=
      configName_exists.2 ⟨Json.isObject_iff.2 h.isObject, h.configName⟩
    exact ⟨disabled configName, rfl, .inl ⟨hun, configName, hname, rfl⟩⟩
  · obtain ⟨fields, hnames⟩ := h.file hun
    exact ⟨.object fields, rfl, .inr ⟨hun, fields, hnames, rfl⟩⟩

/-- **The loop.** It succeeds just where every entry is ready, and takes the place of each. -/
theorem readNodes_ok {executes entries : List (String × Json)} :
    readNodes w configDirectory executes = .ok entries ↔
      (∀ item ∈ executes, Ready w configDirectory item.2) ∧
        List.Forall₂ (Replaced w configDirectory) executes entries := by
  induction executes generalizing entries with
  | nil =>
    rw [List.forall₂_nil_left_iff]
    constructor
    · intro h
      cases h
      exact ⟨fun _ h => absurd h List.not_mem_nil, rfl⟩
    · rintro ⟨-, rfl⟩
      rfl
  | cons item executes ih =>
    simp only [readNodes, bind_ok, readNode_ok, ih, List.forall_mem_cons]
    constructor
    · rintro ⟨itemConfig, ⟨hready, hreplaced⟩, rest, ⟨hready', hrest⟩, h⟩
      cases h
      exact ⟨⟨hready, hready'⟩, .cons hreplaced hrest⟩
    · rintro ⟨⟨hready, hready'⟩, hentries⟩
      cases hentries with
      | @cons _ entry _ rest hreplaced hrest =>
        obtain ⟨key, itemConfig⟩ := entry
        obtain rfl : key = item.1 := hreplaced.1
        exact ⟨itemConfig, ⟨hready, hreplaced⟩, rest, ⟨hready', hrest⟩, rfl⟩

theorem exists_entries {executes : List (String × Json)}
    (h : ∀ item ∈ executes, Ready w configDirectory item.2) :
    ∃ entries, List.Forall₂ (Replaced w configDirectory) executes entries := by
  induction executes with
  | nil => exact ⟨[], .nil⟩
  | cons item executes ih =>
    rw [List.forall_mem_cons] at h
    obtain ⟨entry, hentry⟩ : ∃ entry, Replaced w configDirectory item (item.1, entry) :=
      h.1.exists_replaced
    obtain ⟨entries, hentries⟩ := ih h.2
    exact ⟨_ :: entries, .cons hentry hentries⟩

end

/-! ## The document -/

theorem aggregate_ok {w : World} {path : String} {config : Json} :
    aggregate w path = .ok config ↔ ∃ configDirectory index pipeline executes entries,
      Index w path configDirectory index pipeline executes ∧
        readNodes w configDirectory executes = .ok entries ∧
        index.replace "pipeline" (pipeline.replace "executes" (.object entries)) = config := by
  rw [aggregate]
  simp only [bind_ok, throwing_ok]
  constructor
  · rintro ⟨indexPath, hpath, h⟩
    split at h
    · cases h
    · cases h
    · rename_i index hindex
      split at h
      · cases h
      · rename_i pipeline hpipeline
        split at h
        · rename_i executes hexecutes
          obtain ⟨entries, hentries, h⟩ := bind_ok.1 h
          cases h
          exact ⟨_, index, pipeline, executes, entries,
            ⟨indexPath, hpath, rfl, hindex, hpipeline, hexecutes⟩, hentries, rfl⟩
        · cases h
  · rintro ⟨_, index, pipeline, executes, entries,
      ⟨indexPath, hpath, rfl, hindex, hpipeline, hexecutes⟩, hentries, rfl⟩
    refine ⟨indexPath, hpath, ?_⟩
    simp only [hindex, hpipeline, hexecutes]
    exact bind_ok.2 ⟨entries, hentries, rfl⟩

theorem load_eq_true {w : World} {path : String} {config : Json} :
    (load w path config).1 = true ↔
      ∃ loadedConfig, aggregate w path = .ok loadedConfig ∧
        (load w path config).2 = loadedConfig := by
  rw [load]
  cases h : aggregate w path with
  | ok loadedConfig => exact ⟨fun _ => ⟨_, rfl, rfl⟩, fun _ => rfl⟩
  | error e =>
    constructor
    · intro h
      cases h
    · rintro ⟨_, h, -⟩
      cases h

/-- **`Load` is atomic and complete.** It succeeds just where the index and every entry is ready,
and then has every entry in its place taken; otherwise the configuration is as it was. -/
theorem load_exact (w : World) (path : String) (config : Json) :
    ((load w path config).1 = true ↔ ∃ configDirectory index pipeline executes,
      Index w path configDirectory index pipeline executes ∧
        ∀ item ∈ executes, Ready w configDirectory item.2) ∧
    ((load w path config).1 = false → (load w path config).2 = config) ∧
    ((load w path config).1 = true → ∃ configDirectory index pipeline executes entries,
      Index w path configDirectory index pipeline executes ∧
        List.Forall₂ (Replaced w configDirectory) executes entries ∧
        (load w path config).2 =
          index.replace "pipeline" (pipeline.replace "executes" (.object entries))) := by
  refine ⟨⟨fun h => ?_, ?_⟩, fun h => ?_, fun h => ?_⟩
  · obtain ⟨_, haggregate, -⟩ := load_eq_true.1 h
    obtain ⟨dir, index, pipeline, executes, entries, hindex, hentries, -⟩ :=
      aggregate_ok.1 haggregate
    exact ⟨dir, index, pipeline, executes, hindex, (readNodes_ok.1 hentries).1⟩
  · rintro ⟨dir, index, pipeline, executes, hindex, hready⟩
    obtain ⟨entries, hentries⟩ := exists_entries hready
    have haggregate := aggregate_ok.2 ⟨dir, index, pipeline, executes, entries, hindex,
      readNodes_ok.2 ⟨hready, hentries⟩, rfl⟩
    rw [load, haggregate]
  · rw [load] at h ⊢
    split at h
    · cases h
    · rfl
  · obtain ⟨_, haggregate, hconfig⟩ := load_eq_true.1 h
    obtain ⟨dir, index, pipeline, executes, entries, hindex, hentries, rfl⟩ :=
      aggregate_ok.1 haggregate
    exact ⟨dir, index, pipeline, executes, entries, hindex, (readNodes_ok.1 hentries).2, hconfig⟩

/-- An index with one entry, and the file that the entry names. -/
def oneNode (indexItem : Json) : World where
  cwd := "/"
  files path :=
    if path = "/c/index.json" then
      .holds (.object [("pipeline", .object [("executes", .object [("node", indexItem)])])])
    else if path = "/c/node.json" then .holds (.object [])
    else .closed

/-- The types of `read_config` and `config_name` decide too: here the name is a number. -/
theorem not_load_exact :
    ¬ ∀ (w : World) (path : String) (config : Json),
      (load w path config).1 = true ↔ ∃ configDirectory index pipeline executes,
        Index w path configDirectory index pipeline executes ∧
          ∀ item ∈ executes, (∃ fields, item.2 = .object fields) ∧
            (¬ Unread item.2 → ∃ fields, Names w configDirectory item.2 fields) := by
  intro h
  have hloads := (h (oneNode (.object [("config_name", .integer 7),
    ("config_path", .string "node.json")])) "/c/index.json" .null).2
    ⟨"/c", _, _, _, ⟨"/c/index.json", rfl, rfl, rfl, rfl, rfl⟩, fun item hitem => by
      obtain rfl := List.mem_singleton.1 hitem
      exact ⟨⟨_, rfl⟩, fun _ => ⟨[], "node.json", rfl, by decide, rfl⟩⟩⟩
  have hfails : (load (oneNode (.object [("config_name", .integer 7),
      ("config_path", .string "node.json")])) "/c/index.json" .null).1 = false := by
    rfl
  cases hfails.symm.trans hloads

/-! ## The instance -/

/-- Calls of `Init` one after the other, each with the files as they are then. -/
def inits : List (World × String) → Option Json → Option Json
  | [], instance? => instance?
  | call :: calls, instance? =>
    match init call.1 call.2 instance? with
    | .ok instance? => inits calls instance?
    | .error _ => inits calls instance?

theorem inits_some (calls : List (World × String)) (config : Json) :
    inits calls (some config) = some config := by
  induction calls with
  | nil => rfl
  | cons call calls ih => exact ih

/-- **The instance.** It is empty until an index can be loaded, and then it stays what that has
given. -/
theorem inits_none (calls : List (World × String)) :
    ((∀ call ∈ calls, (load call.1 call.2 .null).1 = false) ∧ raw (inits calls none) = .null) ∨
      ∃ before call after, calls = before ++ call :: after ∧
        (∀ c ∈ before, (load c.1 c.2 .null).1 = false) ∧
        load call.1 call.2 .null = (true, raw (inits calls none)) := by
  induction calls with
  | nil => exact .inl ⟨fun _ h => absurd h List.not_mem_nil, rfl⟩
  | cons call calls ih =>
    rcases hload : load call.1 call.2 .null with ⟨loads, config⟩
    cases loads with
    | true =>
      have hinit : inits (call :: calls) none = some config := by
        simp only [inits, init, hload, inits_some]
      exact .inr ⟨[], call, calls, rfl, fun _ h => absurd h List.not_mem_nil,
        by rw [hload, hinit]; rfl⟩
    | false =>
      have hinit : inits (call :: calls) none = inits calls none := by
        simp only [inits, init, hload]
      rw [hinit]
      rcases ih with ⟨hall, hraw⟩ | ⟨before, c, after, rfl, hbefore, hc⟩
      · refine .inl ⟨?_, hraw⟩
        rw [List.forall_mem_cons]
        exact ⟨by rw [hload], hall⟩
      · refine .inr ⟨call :: before, c, after, rfl, ?_, hc⟩
        rw [List.forall_mem_cons]
        exact ⟨by rw [hload], hbefore⟩

end MyConfig
