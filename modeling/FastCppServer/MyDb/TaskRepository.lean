import FastCppServer.MyData.Task
import Mathlib.Data.List.TakeWhile
import Mathlib.Logic.Function.Basic

/-!
# The task table

`TaskRepository` keeps a task in a row: some of its fields as columns, and all of it as a text in
`task_json`. `UpsertTask` writes the row, `UpdateTaskState` the column `state`, `DeleteTask` removes
the row, and `GetTaskJson` reads the text. The text is `toString()`, as the header says, and not
JSON. So what comes back is the text as it has been stored, whatever the state has become since
(`stored_of_run`), and nothing reads it as JSON (`not_reloads`).

SQLite is a map from ids to rows, and how its calls go is an input (`Sqlite`). A text is bound as a
C string, so it ends where the first NUL is (`cStr`).
-/

namespace MyDb

open Function MyData

/-! ## The table -/

/-- `s.c_str()`, as SQLite reads it with the length -1. -/
def cStr (s : String) : String := String.ofList (s.toList.takeWhile (· ≠ Char.ofNat 0))

/-- The columns of `tasks`, but for the key. -/
structure Row where
  commandId : String
  edgeId : String
  deviceId : String
  capability : String
  action : String
  state : Int32
  createdAtMs : Int64
  deadlineAtMs : Int64
  taskJson : String
  deriving DecidableEq

/-- The table `tasks`, by its key. -/
abbrev Tasks := String → Option Row

/-- How a statement goes: there is no handle, it is not prepared, a value is not bound, it fails in
`sqlite3_step` or it is done. -/
inductive Sqlite where
  | closed
  | prepareFails (errmsg : String)
  | bindTextFails
  | bindInt64Fails
  | stepFails (errmsg : String)
  | done
  deriving DecidableEq

/-- The error of a call, if it has one. -/
def Sqlite.error? : Sqlite → Option String
  | closed => some "db not initialized"
  | prepareFails errmsg => some errmsg
  | bindTextFails => some "sqlite3_bind_text failed"
  | bindInt64Fails => some "sqlite3_bind_int64 failed"
  | stepFails errmsg => some errmsg
  | done => none

/-- A statement that writes: nothing is written where something fails. -/
def exec (q : Sqlite) (db : Tasks) (statement : Tasks → Tasks) : Except String Unit × Tasks :=
  match q.error? with
  | some err => (.error err, db)
  | none => (.ok (), statement db)

section
variable (dump : Json → String)

/-- The row of `INSERT … ON CONFLICT DO UPDATE`. -/
def rowOf (task : Task) : Row where
  commandId := cStr task.commandId
  edgeId := cStr task.edgeId
  deviceId := cStr task.deviceId
  capability := cStr task.capability
  action := cStr task.action
  state := task.state.toInt
  createdAtMs := task.createdAtMs
  deadlineAtMs := task.deadlineAtMs
  taskJson := cStr (task.toString dump)

/-- `UpsertTask`. -/
def upsertTask (db : Tasks) (task : Task) (q : Sqlite) : Except String Unit × Tasks :=
  exec q db fun db => update db (cStr task.taskId) (some (rowOf dump task))

/-- `UPDATE tasks SET state=? WHERE task_id=?`. -/
def updateTaskState (db : Tasks) (taskId : String) (state : TaskState) (q : Sqlite) :
    Except String Unit × Tasks :=
  exec q db fun db =>
    update db (cStr taskId) ((db (cStr taskId)).map fun row => { row with state := state.toInt })

/-- `DeleteTask`. -/
def deleteTask (db : Tasks) (taskId : String) (q : Sqlite) : Except String Unit × Tasks :=
  exec q db fun db => update db (cStr taskId) none

/-- `GetTaskJson`. -/
def getTaskJson (db : Tasks) (taskId : String) (q : Sqlite) : Except String String :=
  match q.error? with
  | some err => .error err
  | none =>
    match db (cStr taskId) with
    | some row => .ok row.taskJson
    | none => .error "not found"

/-- The calls that write. -/
inductive Call where
  | upsertTask (task : Task)
  | updateTaskState (taskId : String) (state : TaskState)
  | deleteTask (taskId : String)

/-- A call, with how its statement goes. -/
def call (db : Tasks) (q : Sqlite) : Call → Except String Unit × Tasks
  | .upsertTask task => upsertTask dump db task q
  | .updateTaskState taskId state => updateTaskState db taskId state q
  | .deleteTask taskId => deleteTask db taskId q

/-- The table after the calls, each with how its statement goes. -/
def table (db : Tasks) (calls : List (Call × Sqlite)) : Tasks :=
  calls.foldl (fun db c => (call dump db c.2 c.1).2) db

end

/-! ## What is asked of it -/

/-- The call succeeds and replaces or deletes the row of the task. -/
def Replaces (taskId : String) : Call × Sqlite → Prop
  | (.upsertTask task, .done) => cStr task.taskId = taskId
  | (.deleteTask id, .done) => cStr id = taskId
  | _ => False

/-- The state of a task after the calls, by the last `UpdateTaskState` on it that succeeds. -/
def lastState (taskId : String) (state : TaskState) (calls : List (Call × Sqlite)) : TaskState :=
  calls.foldl (fun state c =>
    match c with
    | (.updateTaskState id new, .done) => if cStr id = taskId then new else state
    | _ => state) state

/-- No NUL is in the text. -/
def NulFree (s : String) : Prop := Char.ofNat 0 ∉ s.toList

instance (s : String) : Decidable (NulFree s) := inferInstanceAs (Decidable (_ ∉ _))

/-- The texts of a task are C strings. -/
structure Storable (t : Task) : Prop where
  taskId : NulFree t.taskId
  commandId : NulFree t.commandId
  traceId : NulFree t.traceId
  spanId : NulFree t.spanId
  edgeId : NulFree t.edgeId
  deviceId : NulFree t.deviceId
  capability : NulFree t.capability
  action : NulFree t.action
  idempotencyKey : NulFree t.idempotencyKey
  message : NulFree t.result.message
  params : t.params.isObject = true
  policy : t.policy.isObject = true
  output : t.result.output.isObject = true

/-- What the text of a JSON value begins with, blanks and a byte order mark included. -/
def jsonStarts : List Char := " \t\n\x0d\ufeff\"-0123456789tfn[".toList ++ [Char.ofNat 123]

/-- A parser of JSON refuses a text that begins with something else. -/
def ReadsJson (parse : String → Option Json) : Prop :=
  ∀ text j, parse text = some j → ∃ c ∈ text.toList.head?, c ∈ jsonStarts

/-- A stored task is loaded again, with its last state. -/
def Reloads (dump : Json → String) (parse : String → Option Json) : Prop :=
  ∀ (pre post : List (Call × Sqlite)) (t : Task), Storable t →
    (∀ c ∈ post, ¬ Replaces t.taskId c) →
    ∃ text j, getTaskJson (table dump (fun _ => none) (pre ++ (.upsertTask t, .done) :: post))
        t.taskId .done = .ok text ∧
      parse text = some j ∧
      Task.fromJson j = { t with state := lastState t.taskId t.state post }

/-- `UpdateTaskState` succeeds on a row only. -/
def UpdatesRows (dump : Json → String) : Prop :=
  ∀ (calls : List (Call × Sqlite)) (taskId : String) (state : TaskState) (q : Sqlite),
    (updateTaskState (table dump (fun _ => none) calls) taskId state q).1 = .ok () →
      table dump (fun _ => none) calls (cStr taskId) ≠ none

/-! ## C strings -/

/-- A text without a NUL is read to its end. -/
theorem cStr_of_nulFree {s : String} (h : NulFree s) : cStr s = s := by
  have htake : s.toList.takeWhile (· ≠ Char.ofNat 0) = s.toList := by
    refine List.takeWhile_eq_self_iff.2 fun c hc => ?_
    rw [decide_eq_true_eq]
    rintro rfl
    exact h hc
  rw [cStr, htake, String.ofList_toList]

/-- A text has no NUL if its parts have none. -/
theorem nulFree_append {s s' : String} : NulFree (s ++ s') ↔ NulFree s ∧ NulFree s' := by
  unfold NulFree
  rw [String.toList_append, List.mem_append, not_or]

/-- There is no NUL in a number. -/
theorem nulFree_repr (n : Nat) : NulFree n.repr := by
  intro hc
  have hdigit := Nat.isDigit_of_mem_toDigits (b := 10) (by decide) (by decide)
    (by simpa [Nat.repr] using hc)
  exact absurd hdigit (by decide)

/-- There is no NUL in an integer. -/
theorem nulFree_int (n : Int) : NulFree (toString n) := by
  cases n with
  | ofNat n => exact nulFree_repr n
  | negSucc n => exact nulFree_append (s := "-").2 ⟨by decide, nulFree_repr _⟩

/-- There is no NUL in an integer of 32 bits. -/
theorem nulFree_int32 (n : Int32) : NulFree (toString n) := nulFree_int n.toInt

/-- There is no NUL in an integer of 64 bits. -/
theorem nulFree_int64 (n : Int64) : NulFree (toString n) := nulFree_int n.toInt

/-- There is no NUL in the text of an error code. -/
theorem nulFree_errorCode (code : ErrorCode) : NulFree code.toString := by
  unfold ErrorCode.toString
  split <;> decide

/-- There is no NUL in the text of a state. -/
theorem nulFree_taskState (state : TaskState) : NulFree state.toString := by
  unfold TaskState.toString
  split <;> decide

section
variable {dump : Json → String}

/-- There is no NUL in the text of a result, if there is none in its message. -/
theorem nulFree_result (hdump : ∀ j, NulFree (dump j)) {r : TaskResult} (h : NulFree r.message) :
    NulFree (r.toString dump) := by
  unfold TaskResult.toString
  simp only [nulFree_append, nulFree_int64, nulFree_errorCode, hdump, h]
  and_intros <;> first | exact True.intro | decide

/-- The text of a storable task is a C string. -/
theorem Storable.nulFree (hdump : ∀ j, NulFree (dump j)) {t : Task} (h : Storable t) :
    NulFree (t.toString dump) := by
  have hresult := nulFree_result hdump h.message
  unfold Task.toString
  simp only [nulFree_append, nulFree_int64, nulFree_int32, nulFree_taskState, hdump,
    hresult, h.taskId, h.commandId, h.edgeId, h.deviceId, h.capability, h.action, h.idempotencyKey]
  and_intros <;> first | exact True.intro | decide

end

/-! ## The row of a task -/

section
variable (dump : Json → String) {db : Tasks} {id : String}

/-- A call that does not succeed writes nothing. -/
theorem exec_of_error (db : Tasks) {q : Sqlite} (h : q ≠ .done) (statement : Tasks → Tasks) :
    ∃ err, exec q db statement = (.error err, db) := by
  cases q with
  | done => exact absurd rfl h
  | _ => exact ⟨_, rfl⟩

/-- A statement succeeds if it is done. -/
theorem exec_ok {q : Sqlite} {statement : Tasks → Tasks} :
    (exec q db statement).1 = .ok () ↔ q = .done := by
  constructor
  · intro h
    by_contra hq
    obtain ⟨err, he⟩ := exec_of_error db hq statement
    rw [he] at h
    cases h
  · rintro rfl
    rfl

/-- **A call on a row**: but for `UpdateTaskState`, one that does not replace the row leaves it. -/
theorem call_row {row : Row} {state : TaskState}
    (hrow : db id = some { row with state := state.toInt }) {c : Call × Sqlite}
    (hc : ¬ Replaces id c) :
    (call dump db c.2 c.1).2 id =
      some { row with state := (lastState id state [c]).toInt } := by
  obtain ⟨c, q⟩ := c
  by_cases hq : q = .done
  · subst hq
    cases c with
    | upsertTask task =>
      have hne : id ≠ cStr task.taskId := fun h => hc h.symm
      show update db (cStr task.taskId) _ id = _
      rw [update_of_ne hne, hrow]
      rfl
    | updateTaskState taskId new =>
      show update db (cStr taskId) _ id = _
      by_cases h : cStr taskId = id
      · rw [h, update_self, hrow]
        simp [lastState, h]
      · rw [update_of_ne (Ne.symm h), hrow]
        simp [lastState, h]
    | deleteTask taskId =>
      have hne : id ≠ cStr taskId := fun h => hc h.symm
      show update db (cStr taskId) _ id = _
      rw [update_of_ne hne, hrow]
      rfl
  · have hstate : lastState id state [(c, q)] = state := by
      cases c with
      | updateTaskState => cases q <;> first | rfl | exact absurd rfl hq
      | _ => rfl
    rw [hstate, ← hrow]
    cases c <;>
      obtain ⟨err, he⟩ := exec_of_error db hq _ <;>
      exact congrFun (congrArg Prod.snd he) id

/-- The row after any number of calls that do not replace it. -/
theorem table_row {row : Row} {calls : List (Call × Sqlite)}
    (hcalls : ∀ c ∈ calls, ¬ Replaces id c) {state : TaskState}
    (hrow : db id = some { row with state := state.toInt }) :
    table dump db calls id = some { row with state := (lastState id state calls).toInt } := by
  induction calls generalizing db state with
  | nil => exact hrow
  | cons c calls ih =>
    have hc := call_row dump hrow (hcalls c List.mem_cons_self)
    exact ih (fun d hd => hcalls d (List.mem_cons_of_mem _ hd)) hc

end

/-- What is read of a row. -/
theorem getTaskJson_of_row {db : Tasks} {id : String} {row : Row} (h : db (cStr id) = some row) :
    getTaskJson db id .done = .ok row.taskJson := by
  unfold getTaskJson
  simp only [Sqlite.error?, h]

/-! ## What comes back -/

section
variable {dump : Json → String}

/-- **What is stored comes back.** After an `UpsertTask` that is not replaced the text that it has
stored is read, and the row is that of the task with its last state. `UpdateTaskState` succeeds
whenever its statement is done. -/
theorem stored_of_run (hdump : ∀ j, NulFree (dump j)) {pre post : List (Call × Sqlite)} {t : Task}
    (ht : Storable t) (hpost : ∀ c ∈ post, ¬ Replaces t.taskId c) :
    let db := table dump (fun _ => none) (pre ++ (.upsertTask t, .done) :: post)
    getTaskJson db t.taskId .done = .ok (t.toString dump) ∧
      db t.taskId = some
        { rowOf dump t with state := (lastState t.taskId t.state post).toInt } ∧
      ∀ (calls : List (Call × Sqlite)) (taskId : String) (state : TaskState) (q : Sqlite),
        (updateTaskState (table dump (fun _ => none) calls) taskId state q).1 = .ok () ↔
          q = .done := by
  intro db
  have hid : cStr t.taskId = t.taskId := cStr_of_nulFree ht.taskId
  have hupsert : (call dump (table dump (fun _ => none) pre) .done (.upsertTask t)).2 t.taskId =
      some { rowOf dump t with state := t.state.toInt } := by
    show update _ (cStr t.taskId) _ t.taskId = _
    rw [hid, update_self]
    rfl
  have hdb : db = table dump (call dump (table dump (fun _ => none) pre) .done (.upsertTask t)).2
      post := by
    show table dump _ (pre ++ (.upsertTask t, .done) :: post) = _
    unfold table
    rw [List.foldl_append, List.foldl_cons]
  have hrow := table_row dump hpost hupsert
  rw [← hdb] at hrow
  refine ⟨?_, hrow, fun calls taskId state q => exec_ok⟩
  have hget := getTaskJson_of_row (hid ▸ hrow)
  rw [hget]
  exact congrArg Except.ok (cStr_of_nulFree (ht.nulFree hdump))

end

/-- The text of a task begins with its name. -/
theorem toString_head (dump : Json → String) (t : Task) :
    ∃ rest, (t.toString dump).toList = 'T' :: rest := by
  unfold Task.toString
  simp only [String.toList_append, List.append_assoc]
  exact ⟨_, rfl⟩

/-- The text of an empty object. -/
def dumpEmpty : Json → String
  | .object [] => "\x7b\x7d"
  | _ => "null"

/-- There is no NUL in the text of an empty object. -/
theorem nulFree_dumpEmpty (j : Json) : NulFree (dumpEmpty j) := by
  unfold dumpEmpty
  split <;> decide

/-- The task of the test. -/
def crudTask : Task :=
  { taskId := "task-crud-1", commandId := "cmd-crud-1", edgeId := "edge-1", deviceId := "uuv-1",
    capability := "navigate", action := "set" }

/-- It can be stored. -/
theorem storable_crudTask : Storable crudTask where
  taskId := by decide
  commandId := by decide
  traceId := by decide
  spanId := by decide
  edgeId := by decide
  deviceId := by decide
  capability := by decide
  action := by decide
  idempotencyKey := by decide
  message := by decide
  params := rfl
  policy := rfl
  output := rfl

/-- After the task is stored and its state updated, its text is what was stored. -/
theorem stored_of_run_crud :
    getTaskJson (table dumpEmpty (fun _ => none) [(.upsertTask crudTask, .done),
        (.updateTaskState "task-crud-1" .failed, .done)]) "task-crud-1" .done =
      .ok (crudTask.toString dumpEmpty) := by
  have hpost : ∀ c ∈ [(Call.updateTaskState "task-crud-1" .failed, Sqlite.done)],
      ¬ Replaces crudTask.taskId c := by
    rintro c hc
    rw [List.mem_singleton] at hc
    subst hc
    exact id
  have hstored := @stored_of_run dumpEmpty nulFree_dumpEmpty [] _ crudTask storable_crudTask hpost
  exact hstored.1

/-- Whatever the parser of JSON is, it refuses the text; and a state is updated without a row. -/
theorem not_reloads :
    (¬ ∃ dump parse, ReadsJson parse ∧ Reloads dump parse) ∧ ¬ ∃ dump, UpdatesRows dump := by
  constructor
  · rintro ⟨dump, parse, hreads, h⟩
    obtain ⟨text, j, hget, hparse, -⟩ := h [] [] crudTask storable_crudTask
      (fun c hc => by cases hc)
    have htable : table dump (fun _ => none) ([] ++ [(.upsertTask crudTask, .done)]) =
        update (fun _ => none) (cStr crudTask.taskId) (some (rowOf dump crudTask)) := rfl
    have hrow := congrFun htable (cStr crudTask.taskId)
    rw [update_self] at hrow
    obtain rfl : cStr (crudTask.toString dump) = text :=
      Except.ok.inj ((getTaskJson_of_row hrow).symm.trans hget)
    obtain ⟨rest, hrest⟩ := toString_head dump crudTask
    obtain ⟨c, hc, hstart⟩ := hreads _ j hparse
    rw [cStr, String.toList_ofList, hrest, List.takeWhile_cons_of_pos (by decide)] at hc
    obtain rfl := Option.some.inj hc
    exact absurd hstart (by decide)
  · rintro ⟨dump, h⟩
    exact h [] "task-crud-1" .failed .done rfl rfl

end MyDb
