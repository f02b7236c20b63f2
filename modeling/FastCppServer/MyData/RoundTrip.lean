import FastCppServer.Lib.Dict
import FastCppServer.MyData.Status
import FastCppServer.MyData.Task

/-!
# What is written as JSON is read back

`fromJson` undoes `toJson` for a result, a task, the status of a device and the status of an edge.
Each key is set once, and a getter finds it whatever is set after it (`lookup_insert`); an integer
keeps its type's width, and an enumeration the number below it. For the devices of an edge the
induction is on the loop of `toJson`: no id comes twice, so reading what the next step sets inserts
one device (`readAll_insert`).
-/

namespace MyData

/-- The numbers of the error codes lead back to them. -/
theorem ErrorCode.ofInt_toInt (code : ErrorCode) : ofInt code.toInt = code := by
  cases code with
  | other value unnamed => simp_all [ofInt, toInt]
  | _ => rfl

/-- The same for the states of a task. -/
theorem TaskState.ofInt_toInt (state : TaskState) : ofInt state.toInt = state := by
  cases state with
  | other value unnamed => simp_all [ofInt, toInt]
  | _ => rfl

/-- The same for the connection states of a device. -/
theorem DeviceConnState.ofInt_toInt (state : DeviceConnState) : ofInt state.toInt = state := by
  cases state with
  | other value unnamed => simp_all [ofInt, toInt]
  | _ => rfl

/-- The same for its work states. -/
theorem DeviceWorkState.ofInt_toInt (state : DeviceWorkState) : ofInt state.toInt = state := by
  cases state with
  | other value unnamed => simp_all [ofInt, toInt]
  | _ => rfl

/-- The same for the run states of an edge. -/
theorem EdgeRunState.ofInt_toInt (state : EdgeRunState) : ofInt state.toInt = state := by
  cases state with
  | other value unnamed => simp_all [ofInt, toInt]
  | _ => rfl

namespace Json

/-- Setting a key of an object inserts it among the fields. -/
theorem set_object (fields : List (String × Json)) (key : String) (value : Json) :
    (object fields).set key value = object (insert key value fields) := rfl

/-- Looking a key up, one field at a time. -/
theorem lookup_cons (key key' : String) (value : Json) (fields : List (String × Json)) :
    ((key, value) :: fields).lookup key' =
      if key' = key then some value else fields.lookup key' := by
  by_cases h : key' = key
  · rw [List.lookup_cons, if_pos h, beq_iff_eq.2 h]
  · rw [List.lookup_cons, if_neg h, beq_false_of_ne h]

/-- A field that is set is found, and the other ones are as they were. -/
theorem lookup_insert (key key' : String) (value : Json) (fields : List (String × Json)) :
    (insert key value fields).lookup key' =
      if key' = key then some value else fields.lookup key' := by
  induction fields with
  | nil => rw [insert, lookup_cons]
  | cons field rest ih =>
    obtain ⟨k, v⟩ := field
    rw [insert]
    split_ifs <;> grind [lookup_cons]

/-- Inserting a key brings that key only. -/
theorem mem_keys_insert {key key' : String} {value : Json} {fields : List (String × Json)}
    (h : key' ∈ (insert key value fields).map Prod.fst) :
    key' = key ∨ key' ∈ fields.map Prod.fst := by
  induction fields with
  | nil => simpa [insert] using h
  | cons field rest ih =>
    obtain ⟨k, v⟩ := field
    rw [insert] at h
    split_ifs at h <;> grind

end Json

/-- A result is written as an object. -/
theorem TaskResult.isObject_toJson (r : TaskResult) : r.toJson.isObject = true := rfl

/-- So is the status of a device. -/
theorem DeviceStatus.isObject_toJson (s : DeviceStatus) : s.toJson.isObject = true := rfl

open Json

/-- **A result survives the round trip** when its output is an object. -/
theorem TaskResult.fromJson_toJson {r : TaskResult} (h : r.output.isObject = true) :
    fromJson r.toJson = r := by
  simp [toJson, fromJson, set_object, getIntOr, getStringOr, getInt64Or, getObjectOr, find,
    lookup_insert, ErrorCode.ofInt_toInt, h]

/-- **So does a task** whose parameters, policy and output are objects. -/
theorem Task.fromJson_toJson {t : Task} (hparams : t.params.isObject = true)
    (hpolicy : t.policy.isObject = true) (houtput : t.result.output.isObject = true) :
    fromJson t.toJson = t := by
  simp [toJson, fromJson, set_object, getIntOr, getStringOr, getInt64Or, getObjectOr, find,
    lookup_insert, TaskState.ofInt_toInt, TaskResult.isObject_toJson,
    TaskResult.fromJson_toJson houtput, hparams, hpolicy]

/-- The status of a device survives it without a condition. -/
theorem DeviceStatus.fromJson_toJson (s : DeviceStatus) : fromJson s.toJson = s := by
  simp [toJson, fromJson, set_object, getIntOr, getStringOr, getInt64Or, find, lookup_insert,
    DeviceConnState.ofInt_toInt, DeviceWorkState.ofInt_toInt]

/-! ## The devices of an edge -/

namespace DeviceStatus

variable {devices : Finmap fun _ : String => DeviceStatus} {id : String} {s : DeviceStatus}

/-- Reading the devices of an edge, one field at a time: a field that is no object is skipped. -/
theorem readAll_cons (k : String) (v : Json) (fields : List (String × Json)) :
    readAll devices ((k, v) :: fields) =
      readAll (if v.isObject then devices.insert k (fromJson v) else devices) fields := rfl

/-- A device that no field is about may come before or after. -/
theorem readAll_insert_comm {fields : List (String × Json)} (h : id ∉ fields.map Prod.fst) :
    readAll (devices.insert id s) fields = (readAll devices fields).insert id s := by
  induction fields generalizing devices with
  | nil => rfl
  | cons field rest ih =>
    obtain ⟨k, v⟩ := field
    rw [List.map_cons, List.mem_cons, not_or] at h
    rw [readAll_cons, readAll_cons]
    split
    · rw [Finmap.insert_insert_of_ne _ h.1]
      exact ih h.2
    · exact ih h.2

/-- **Reading a device that was set**: it comes to the ones that the other fields give. -/
theorem readAll_insert {fields : List (String × Json)} (h : id ∉ fields.map Prod.fst) :
    readAll devices (insert id s.toJson fields) = (readAll devices fields).insert id s := by
  have hhead : ∀ (devices : Finmap fun _ : String => DeviceStatus) rest,
      readAll devices ((id, s.toJson) :: rest) = readAll (devices.insert id s) rest := by
    intro devices rest
    rw [readAll_cons, if_pos s.isObject_toJson, fromJson_toJson]
  induction fields generalizing devices with
  | nil => exact hhead devices []
  | cons field rest ih =>
    obtain ⟨k, v⟩ := field
    rw [Json.insert]
    split_ifs with hlt heq
    · rw [hhead]
      exact readAll_insert_comm h
    · rw [heq, List.map_cons] at h
      exact absurd List.mem_cons_self h
    · rw [List.map_cons, List.mem_cons, not_or] at h
      rw [readAll_cons, readAll_cons]
      exact ih h.2

/-- **The loop of `toJson` and the loop of `fromJson`.** The devices that are set come, one after
the other, to those that the object gave before. -/
theorem readAll_setAll {entries : List (Σ _ : String, DeviceStatus)} (hnodup : entries.NodupKeys)
    (fields : List (String × Json)) (hfields : ∀ entry ∈ entries, entry.1 ∉ fields.map Prod.fst) :
    ∃ fields', setAll (object fields) entries = object fields' ∧
      readAll ∅ fields' =
        entries.foldl (fun devices entry => devices.insert entry.1 entry.2) (readAll ∅ fields) := by
  induction entries generalizing fields with
  | nil => exact ⟨fields, rfl, rfl⟩
  | cons entry rest ih =>
    obtain ⟨hentry, hrest⟩ := List.nodupKeys_cons.1 hnodup
    have hnew : entry.1 ∉ fields.map Prod.fst := hfields entry List.mem_cons_self
    have hfields' : ∀ other ∈ rest,
        other.1 ∉ (insert entry.1 entry.2.toJson fields).map Prod.fst := by
      intro other hother hmem
      rcases mem_keys_insert hmem with heq | hold
      · exact hentry (heq ▸ List.mem_keys_of_mem hother)
      · exact hfields other (List.mem_cons_of_mem _ hother) hold
    obtain ⟨fields', hset, hread⟩ := ih hrest _ hfields'
    refine ⟨fields', hset, ?_⟩
    rw [hread, readAll_insert hnew, List.foldl_cons]

end DeviceStatus

/-- **The status of an edge survives the round trip**, with all of its devices. -/
theorem EdgeStatus.fromJson_toJson (s : EdgeStatus) : fromJson s.toJson = s := by
  obtain ⟨devices, hdevices⟩ : ∃ devices, s.devices = AList.toFinmap devices :=
    Finmap.induction_on s.devices fun devices => ⟨devices, rfl⟩
  obtain ⟨fields, hset, hread⟩ :=
    DeviceStatus.readAll_setAll devices.nodupKeys [] (fun _ _ => List.not_mem_nil)
  have hdevices' : DeviceStatus.readAll ∅ fields = s.devices := by
    rw [hread, hdevices]
    exact Dict.foldl_insert_entries devices
  have hset' : s.devices.liftOn (fun devices => DeviceStatus.setAll (.object []) devices.entries)
      (fun _ _ h => DeviceStatus.setAll_perm h _) = object fields := by
    rw [← hset]
    simp only [hdevices, Finmap.liftOn_toFinmap]
  simp [toJson, fromJson, set_object, getIntOr, getStringOr, getInt64Or, find, lookup_insert,
    EdgeRunState.ofInt_toInt, hset', hdevices']

/-- **The data model comes back from its JSON**: a task with all its fields, where its parameters,
its policy and the output of its result are objects, and the status of an edge with all its
devices. -/
theorem decode_encode :
    (∀ t : Task, t.params.isObject = true → t.policy.isObject = true →
      t.result.output.isObject = true → Task.fromJson t.toJson = t) ∧
    ∀ s : EdgeStatus, EdgeStatus.fromJson s.toJson = s :=
  ⟨fun _ => Task.fromJson_toJson, EdgeStatus.fromJson_toJson⟩

/-- A failed task, with parameters and an integer that no `int` holds. -/
theorem decode_encode_failed :
    let t : Task :=
      { taskId := "t-1", params := .object [("x", .array [.null])], dedupWindowMs := 1099511627776,
        state := .failed, result := { code := .driverError, output := .object [("", .float 0)] } }
    Task.fromJson t.toJson = t :=
  decode_encode.1 _ rfl rfl rfl

end MyData
