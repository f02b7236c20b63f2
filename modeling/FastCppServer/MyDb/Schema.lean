import FastCppServer.Lib.Connection
import Mathlib.Data.List.AList

/-!
# The statements of the migration

A database is its tables with their rows and its indexes; SQLite's own tables are left out. The
three kinds of statement that `MyDB::Migrate` issues are the constructors of `Change`, with their
texts in `versionTable` and `migration`. Each does nothing where it has been applied before
(`Change.Done`), and nothing takes that away again (`Change.done_of_applied`): so the statements
applied once can be applied again and again (`applyAll_of_done`).
-/

namespace MyDb.Schema

open Sql

/-! ## The database -/

/-- A value of a column, by the storage classes of the engine. -/
inductive Value where
  | null
  | integer (n : Int)
  | text (s : String)
  | real (bits : UInt64)
  | blob (bytes : List UInt8)
  deriving DecidableEq

/-- The columns with their declarations, the constraints behind them, and the rows, each with the
values given for its columns. -/
structure Table where
  columns : List (String × String)
  constraints : List String := []
  rows : List (List (String × Value)) := []
  deriving DecidableEq

/-- An index: the table it is on, and its columns. -/
structure Index where
  table : String
  columns : List String
  deriving DecidableEq

/-- The schema and the rows: the tables and the indexes by name. -/
structure Db where
  tables : AList fun _ : String => Table := ∅
  indexes : AList fun _ : String => Index := ∅

/-! ## The statements -/

/-- The statements the migration consists of. -/
inductive Change where
  /-- `CREATE TABLE IF NOT EXISTS`. -/
  | createTable (name : String) (columns : List (String × String)) (constraints : List String)
  /-- `CREATE INDEX IF NOT EXISTS`. -/
  | createIndex (name table : String) (columns : List String)
  /-- `INSERT INTO schema_version(version) SELECT 1 WHERE NOT EXISTS (SELECT 1 FROM
  schema_version)`. -/
  | insertVersion

/-- The row of the version table. -/
def versionRow : List (String × Value) := [("version", .integer 1)]

/-- What a statement does to the database, with the error the engine gives when it cannot. -/
def Change.effect (db : Db) : Change → Except String Db
  | .createTable name columns constraints =>
    if name ∈ db.tables then .ok db
    else if name ∈ db.indexes then .error ("there is already an index named " ++ name)
    else .ok { db with tables := db.tables.insert name { columns, constraints } }
  | .createIndex name table columns =>
    match db.tables.lookup table with
    | none => .error ("no such table: main." ++ table)
    | some t =>
      if name ∈ db.tables then .error ("there is already a table named " ++ name)
      else if name ∈ db.indexes then .ok db
      else if ∀ column ∈ columns, column ∈ t.columns.map Prod.fst then
        .ok { db with indexes := db.indexes.insert name { table, columns } }
      else .error ("table " ++ table ++ " lacks a column")
  | .insertVersion =>
    match db.tables.lookup "schema_version" with
    | none => .error "no such table: schema_version"
    | some t =>
      if "version" ∈ t.columns.map Prod.fst then
        if t.rows = [] then
          .ok
            { db with
              tables := db.tables.insert "schema_version" { t with rows := [versionRow] } }
        else .ok db
      else .error "table schema_version has no column named version"

/-- The statement in front of the transaction. -/
def versionTable : Change :=
  .createTable "schema_version" [("version", "INTEGER NOT NULL")] []

/-- The statements of the transaction. -/
def migration : List Change :=
  [.insertVersion,
    .createTable "tasks"
      [("task_id", "TEXT PRIMARY KEY"), ("command_id", "TEXT"), ("edge_id", "TEXT"),
        ("device_id", "TEXT"), ("capability", "TEXT"), ("action", "TEXT"), ("state", "INTEGER"),
        ("created_at_ms", "INTEGER"), ("deadline_at_ms", "INTEGER"), ("task_json", "TEXT")] [],
    .createIndex "idx_tasks_device_created" "tasks" ["device_id", "created_at_ms"],
    .createIndex "idx_tasks_command_id" "tasks" ["command_id"],
    .createTable "task_results"
      [("task_id", "TEXT PRIMARY KEY"), ("code", "INTEGER"), ("message", "TEXT"),
        ("started_at_ms", "INTEGER"), ("finished_at_ms", "INTEGER"), ("result_json", "TEXT")]
      ["FOREIGN KEY(task_id) REFERENCES tasks(task_id) ON DELETE CASCADE"],
    .createTable "device_status_snapshots"
      [("id", "INTEGER PRIMARY KEY AUTOINCREMENT"), ("edge_id", "TEXT"), ("device_id", "TEXT"),
        ("ts_ms", "INTEGER"), ("status_json", "TEXT")] [],
    .createIndex "idx_dev_status_device_ts" "device_status_snapshots" ["device_id", "ts_ms"],
    .createTable "edge_status_snapshots"
      [("id", "INTEGER PRIMARY KEY AUTOINCREMENT"), ("edge_id", "TEXT"), ("ts_ms", "INTEGER"),
        ("status_json", "TEXT")] [],
    .createIndex "idx_edge_status_edge_ts" "edge_status_snapshots" ["edge_id", "ts_ms"]]

/-! ## What has been applied -/

/-- The statement has nothing to do any more. -/
def Change.Done (db : Db) : Change → Prop
  | .createTable name _ _ => name ∈ db.tables
  | .createIndex name table _ => table ∈ db.tables ∧ name ∉ db.tables ∧ name ∈ db.indexes
  | .insertVersion => ∃ t, db.tables.lookup "schema_version" = some t ∧
      "version" ∈ t.columns.map Prod.fst ∧ t.rows ≠ []

/-- What stood in the database stands in it still; an empty version table has got its row by
chance. -/
structure Keeps (db db' : Db) : Prop where
  tables : ∀ name t, db.tables.lookup name = some t →
    db'.tables.lookup name = some t ∨
      (name = "schema_version" ∧ t.rows = [] ∧
        db'.tables.lookup name = some { t with rows := [versionRow] })
  indexes : ∀ name i, db.indexes.lookup name = some i → db'.indexes.lookup name = some i

/-- A database keeps what it has. -/
theorem Keeps.refl (db : Db) : Keeps db db where
  tables _ _ h := .inl h
  indexes _ _ h := h

/-- Keeping is transitive. -/
theorem Keeps.trans {db db' db'' : Db} (h : Keeps db db') (h' : Keeps db' db'') :
    Keeps db db'' where
  tables := by
    intro name t ht
    rcases h.tables name t ht with ht' | ⟨hname, hrows, ht'⟩
    · exact h'.tables name t ht'
    · rcases h'.tables name _ ht' with ht'' | ⟨-, hrows', -⟩
      · exact .inr ⟨hname, hrows, ht''⟩
      · cases hrows'
  indexes := fun name i hi => h'.indexes name i (h.indexes name i hi)

/-- A table that is kept is still there. -/
theorem Keeps.mem_tables {db db' : Db} (h : Keeps db db') {name : String}
    (hname : name ∈ db.tables) : name ∈ db'.tables := by
  obtain ⟨t, ht⟩ := Option.isSome_iff_exists.1 (AList.lookup_isSome.2 hname)
  rcases h.tables name t ht with ht' | ⟨-, -, ht'⟩
  · exact AList.lookup_isSome.1 (by rw [ht']; rfl)
  · exact AList.lookup_isSome.1 (by rw [ht']; rfl)

/-- So is an index. -/
theorem Keeps.mem_indexes {db db' : Db} (h : Keeps db db') {name : String}
    (hname : name ∈ db.indexes) : name ∈ db'.indexes := by
  obtain ⟨i, hi⟩ := Option.isSome_iff_exists.1 (AList.lookup_isSome.2 hname)
  exact AList.lookup_isSome.1 (by rw [h.indexes name i hi]; rfl)

/-- A table that is new. -/
theorem Keeps.insert_table {db : Db} {name : String} (h : name ∉ db.tables) (t : Table) :
    Keeps db { db with tables := db.tables.insert name t } where
  tables := by
    intro name' t' ht'
    have hne : name' ≠ name := by
      rintro rfl
      exact h (AList.lookup_isSome.1 (by rw [ht']; rfl))
    exact .inl (by rw [AList.lookup_insert_ne hne, ht'])
  indexes _ _ h := h

/-- An index that is new. -/
theorem Keeps.insert_index {db : Db} {name : String} (h : name ∉ db.indexes) (i : Index) :
    Keeps db { db with indexes := db.indexes.insert name i } where
  tables _ _ h := .inl h
  indexes := by
    intro name' i' hi'
    have hne : name' ≠ name := by
      rintro rfl
      exact h (AList.lookup_isSome.1 (by rw [hi']; rfl))
    rw [AList.lookup_insert_ne hne, hi']

/-- The ways a statement is applied. -/
inductive Applied (db : Db) : Change → Db → Prop
  | idle {change : Change} : change.Done db → Applied db change db
  | table {name columns constraints} : name ∉ db.tables → name ∉ db.indexes →
      Applied db (.createTable name columns constraints)
        { db with tables := db.tables.insert name { columns, constraints } }
  | index {name table columns} : table ∈ db.tables → name ∉ db.tables → name ∉ db.indexes →
      Applied db (.createIndex name table columns)
        { db with indexes := db.indexes.insert name { table, columns } }
  | version {t : Table} : db.tables.lookup "schema_version" = some t →
      "version" ∈ t.columns.map Prod.fst → t.rows = [] →
      Applied db .insertVersion
        { db with tables := db.tables.insert "schema_version" { t with rows := [versionRow] } }

/-- A statement that succeeds has done what it says, or had nothing to do. -/
theorem Change.applied {db db' : Db} {change : Change} (h : change.effect db = .ok db') :
    Applied db change db' := by
  cases change with
  | createTable name columns constraints =>
    rw [Change.effect] at h
    split_ifs at h with htable hindex
    · cases h
      exact .idle htable
    · cases h
      exact .table htable hindex
  | createIndex name table columns =>
    rw [Change.effect] at h
    split at h
    · cases h
    · rename_i t ht
      have htable : table ∈ db.tables := AList.lookup_isSome.1 (by rw [ht]; rfl)
      split_ifs at h with hname hindex hcolumns
      · cases h
        exact .idle ⟨htable, hname, hindex⟩
      · cases h
        exact .index htable hname hindex
  | insertVersion =>
    rw [Change.effect] at h
    split at h
    · cases h
    · rename_i t ht
      split_ifs at h with hcolumn hrows
      · cases h
        exact .version ht hcolumn hrows
      · cases h
        exact .idle ⟨t, ht, hcolumn, hrows⟩

/-- Where it is done already, the statement succeeds and changes nothing. -/
theorem Change.effect_of_done {db : Db} {change : Change} (h : change.Done db) :
    change.effect db = .ok db := by
  cases change with
  | createTable name columns constraints =>
    exact if_pos h
  | createIndex name table columns =>
    obtain ⟨htable, hname, hindex⟩ := h
    obtain ⟨t, ht⟩ := Option.isSome_iff_exists.1 (AList.lookup_isSome.2 htable)
    simp only [Change.effect, ht, if_neg hname, if_pos hindex]
  | insertVersion =>
    obtain ⟨t, ht, hcolumn, hrows⟩ := h
    simp only [Change.effect, ht, if_pos hcolumn, if_neg hrows]

/-- No statement takes anything away. -/
theorem Applied.keeps {db db' : Db} {change : Change} (h : Applied db change db') :
    Keeps db db' := by
  cases h with
  | idle _ => exact .refl db
  | table htable _ => exact .insert_table htable _
  | index _ _ hindex => exact .insert_index hindex _
  | @version t ht _ hrows =>
    refine ⟨fun name t' ht' => ?_, fun _ _ h => h⟩
    by_cases hname : name = "schema_version"
    · subst hname
      obtain rfl : t = t' := Option.some.inj (ht.symm.trans ht')
      exact .inr ⟨rfl, hrows, AList.lookup_insert _⟩
    · exact .inl (by rw [AList.lookup_insert_ne hname, ht'])

/-- A statement that has been applied has nothing to do. -/
theorem Applied.done {db db' : Db} {change : Change} (h : Applied db change db') :
    change.Done db' := by
  cases h with
  | idle hdone => exact hdone
  | table _ _ => exact AList.mem_insert _ |>.2 (.inl rfl)
  | index htable hname _ => exact ⟨htable, hname, AList.mem_insert _ |>.2 (.inl rfl)⟩
  | version _ hcolumn _ =>
    exact ⟨_, AList.lookup_insert _, hcolumn, List.cons_ne_nil _ _⟩

/-- **Nothing is undone.** What a statement has done, the others leave. -/
theorem Change.done_of_applied {db db' : Db} {change change' : Change} (hdone : change.Done db)
    (h : Applied db change' db') : change.Done db' := by
  have hkeeps := h.keeps
  cases change with
  | createTable name columns constraints => exact hkeeps.mem_tables hdone
  | createIndex name table columns =>
    obtain ⟨htable, hname, hindex⟩ := hdone
    refine ⟨hkeeps.mem_tables htable, ?_, hkeeps.mem_indexes hindex⟩
    cases h with
    | idle _ => exact hname
    | index _ _ _ => exact hname
    | table _ hnew =>
      -- a table does not get the name of an index
      rw [AList.mem_insert]
      rintro (rfl | hold)
      · exact hnew hindex
      · exact hname hold
    | version hversion _ _ =>
      rw [AList.mem_insert]
      rintro (rfl | hold)
      · exact hname (AList.lookup_isSome.1 (by rw [hversion]; rfl))
      · exact hname hold
  | insertVersion =>
    obtain ⟨t, ht, hcolumn, hrows⟩ := hdone
    rcases hkeeps.tables _ t ht with ht' | ⟨-, hrows', -⟩
    · exact ⟨t, ht', hcolumn, hrows⟩
    · exact absurd hrows' hrows

/-! ## The statements one after the other -/

/-- The effects of a list of statements. -/
def effects (changes : List Change) : List (Db → Except String Db) :=
  changes.map fun change db => change.effect db

/-- **What a sequence of statements leaves.** The old is kept, and every one of them is done. -/
theorem effects_keeps {changes done : List Change} {db db' : Db}
    (h : applyAll (effects changes) db = .ok db')
    (hdone : ∀ change ∈ done, change.Done db) :
    Keeps db db' ∧ (∀ change ∈ done, change.Done db') ∧ ∀ change ∈ changes, change.Done db' := by
  induction changes generalizing db done with
  | nil =>
    cases h
    exact ⟨.refl _, hdone, fun _ hmem => absurd hmem List.not_mem_nil⟩
  | cons change changes ih =>
    obtain ⟨m, hm, h⟩ := applyAll_cons.1 h
    have happ := Change.applied hm
    have hdone' : ∀ c ∈ change :: done, c.Done m := by
      intro c hc
      rcases List.mem_cons.1 hc with rfl | hc
      · exact happ.done
      · exact Change.done_of_applied (hdone c hc) happ
    obtain ⟨hkeeps, hall, hrest⟩ := ih h hdone'
    refine ⟨happ.keeps.trans hkeeps, fun c hc => hall c (List.mem_cons_of_mem _ hc), ?_⟩
    intro c hc
    rcases List.mem_cons.1 hc with rfl | hc
    · exact hall c List.mem_cons_self
    · exact hrest c hc

/-- **The statements again.** Where each is done, they change nothing. -/
theorem applyAll_of_done {changes : List Change} {db : Db}
    (h : ∀ change ∈ changes, change.Done db) : applyAll (effects changes) db = .ok db := by
  induction changes with
  | nil => rfl
  | cons change changes ih =>
    exact applyAll_cons.2 ⟨db, Change.effect_of_done (h change List.mem_cons_self),
      ih fun change' hmem => h change' (List.mem_cons_of_mem _ hmem)⟩

end MyDb.Schema
