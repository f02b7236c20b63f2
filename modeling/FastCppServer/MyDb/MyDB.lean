import FastCppServer.MyDb.Schema

/-!
# Transactions and the migration

`MyDB::Transaction` and `MyDB::Migrate`. A transaction is committed just where `BEGIN`, the function
and `COMMIT` all succeed, and leaves the database as it was otherwise; what the function makes of a
statement that fails is its own affair, so only where it checks each of them does `true` say that
all are applied (`transaction_atomic`).

The version table is created before the transaction begins, so it can stay behind when `Migrate`
fails (`not_all_or_nothing`); nothing else does, and once it has succeeded `Migrate` changes nothing
any more (`migrate_all_or_nothing`).
-/

namespace MyDb

open Sql Schema

/-! ## The source -/

/-- What a method returns, what it writes into `err`, and what it leaves. -/
structure Answer (α : Type) where
  returned : Bool
  err : Option String := none
  after : α

/-- The database wrapper: its flags, whether a handle is held, and the connection behind that
handle. -/
structure MyDB (σ : Type) where
  enable : Bool := true
  initialized : Bool
  /-- `db_` is not null. -/
  handle : Bool
  conn : Connection σ

section
variable {σ : Type}

/-- The `else` branch of `TransactionLocked`. -/
def aborted (fnErr : String) (c : Connection σ) : Answer (Connection σ) where
  returned := false
  err := some (if fnErr = "" then "transaction aborted" else fnErr)
  after := (c.exec .rollback).2

/-- The body of a transaction under the lock: begin, run the function, then commit or roll back. A
failing commit is followed by a rollback whose outcome is ignored, as in the source. -/
def transactionLocked (fn : Script σ) (c : Connection σ) : Answer (Connection σ) :=
  match c.exec .begin with
  | (.error e1, c) => { returned := false, err := some e1, after := c }
  | (.ok (), c) =>
    match fn.run c with
    | (.returned true _, c) =>
      match c.exec .commit with
      | (.error e2, c) => { returned := false, err := some e2, after := (c.exec .rollback).2 }
      | (.ok (), c) => { returned := true, after := c }
    | (.returned false fnErr, c) => aborted fnErr c
    | (.threw what, c) => aborted (what.getD "unknown exception") c

/-- `Transaction`: refused before initialisation, else the body on the connection. -/
def MyDB.transaction (s : MyDB σ) (fn : Script σ) : Answer (MyDB σ) :=
  if s.initialized && s.handle then
    let r := transactionLocked fn s.conn
    { returned := r.returned, err := r.err, after := { s with conn := r.after } }
  else { returned := false, err := some "db not initialized", after := s }

end

/-- The function `Migrate` passes to `TransactionLocked`. -/
def migrationScript : Script Db := .checked (.returned true "") (effects migration)

/-- `Migrate`: nothing when disabled, refused before initialisation; else the version table is
created outside the transaction, and the migration script runs inside one. -/
def MyDB.migrate (s : MyDB Db) : Answer (MyDB Db) :=
  if !s.enable then { returned := true, after := s }
  else if !s.initialized || !s.handle then
    { returned := false, err := some "db not initialized", after := s }
  else
    match s.conn.exec (.other fun db => versionTable.effect db) with
    | (.error e, c) => { returned := false, err := some e, after := { s with conn := c } }
    | (.ok (), c) =>
      let r := transactionLocked migrationScript c
      if !r.returned then
        { returned := false, err := some (r.err.getD ""), after := { s with conn := r.after } }
      else { returned := true, after := { s with conn := r.after } }

/-! ## Transactions -/

section
variable {σ : Type} {fn : Script σ} {c : Connection σ}

/-- `BEGIN`, the function and `COMMIT` succeed. -/
def Commits (fn : Script σ) (c c' : Connection σ) : Prop :=
  ∃ c₁ c₂ err, c.exec .begin = (.ok (), c₁) ∧ fn.run c₁ = (.returned true err, c₂) ∧
    c₂.exec .commit = (.ok (), c')

/-- Once begun and run, a transaction commits exactly when the function returned true and the commit
statement succeeded. -/
theorem commits_iff {c' c₁ c₂ : Connection σ} {ending : Ending}
    (hbegin : c.exec .begin = (.ok (), c₁)) (hrun : fn.run c₁ = (ending, c₂)) :
    Commits fn c c' ↔
      (∃ err, ending = .returned true err) ∧ c₂.exec .commit = (.ok (), c') := by
  constructor
  · rintro ⟨c₁', c₂', err, hbegin', hrun', hcommit⟩
    cases hbegin.symm.trans hbegin'
    cases hrun.symm.trans hrun'
    exact ⟨⟨err, rfl⟩, hcommit⟩
  · rintro ⟨⟨err, rfl⟩, hcommit⟩
    exact ⟨c₁, c₂, err, hbegin, hrun, hcommit⟩

/-- **`TransactionLocked`.** Committed, or as before. -/
theorem transactionLocked_cases (fn : Script σ) (c : Connection σ) :
    ((transactionLocked fn c).returned = true ∧ Commits fn c (transactionLocked fn c).after) ∨
      ((transactionLocked fn c).returned = false ∧ (∀ c', ¬ Commits fn c c') ∧
        (transactionLocked fn c).after.db = c.db ∧
        (transactionLocked fn c).after.saved = c.saved) := by
  rcases hbegin : c.exec .begin with ⟨begun, c₁⟩
  obtain ⟨hdb, ⟨⟨e, rfl⟩, hsaved⟩ | ⟨rfl, hidle, hsaved⟩⟩ := Connection.exec_begin hbegin
  · refine .inr ?_
    rw [transactionLocked, hbegin]
    refine ⟨rfl, ?_, hdb, hsaved⟩
    rintro c' ⟨c₁', c₂, err, hbegin', -⟩
    cases hbegin.symm.trans hbegin'
  rcases hrun : fn.run c₁ with ⟨ending, c₂⟩
  have hiff (c' : Connection σ) : Commits fn c c' ↔
      (∃ err, ending = .returned true err) ∧ c₂.exec .commit = (.ok (), c') :=
    commits_iff hbegin hrun
  -- whatever the function has done, `ROLLBACK` takes it back
  have hback {c' : Connection σ} (h : c'.saved = c₂.saved) :
      (c'.exec .rollback).2.db = c.db ∧ (c'.exec .rollback).2.saved = c.saved := by
    have hopen := fn.run_saved c₁
    rw [hrun] at hopen
    rw [hidle]
    exact Connection.exec_rollback (h.trans (hopen.trans hsaved))
  simp only [transactionLocked, hbegin, hrun, hiff]
  cases ending with
  | threw what =>
    refine .inr ⟨rfl, ?_, hback rfl⟩
    rintro c' ⟨⟨err, herr⟩, -⟩
    cases herr
  | returned ok err =>
    cases ok with
    | false =>
      refine .inr ⟨rfl, ?_, hback rfl⟩
      rintro c' ⟨⟨err, herr⟩, -⟩
      cases herr
    | true =>
      rcases hcommit : c₂.exec .commit with ⟨committed, c₃⟩
      simp only [hcommit]
      obtain ⟨-, ⟨⟨e, rfl⟩, hsaved'⟩ | ⟨rfl, -⟩⟩ := Connection.exec_commit hcommit
      · refine .inr ⟨rfl, ?_, hback hsaved'⟩
        rintro c' ⟨-, hcommit'⟩
        cases hcommit'
      · exact .inl ⟨rfl, ⟨err, rfl⟩, rfl⟩

/-- What a committed transaction leaves. -/
theorem Commits.spec {c' : Connection σ} (h : Commits fn c c') :
    ∃ c₁ err, c.exec .begin = (.ok (), c₁) ∧ c₁.db = c.db ∧
      (fn.run c₁).1 = .returned true err ∧ c'.db = (fn.run c₁).2.db ∧ c.saved = none ∧
        c'.saved = none := by
  obtain ⟨c₁, c₂, err, hbegin, hrun, hcommit⟩ := h
  obtain ⟨hdb, ⟨⟨e, he⟩, -⟩ | ⟨-, hidle, -⟩⟩ := Connection.exec_begin hbegin
  · cases he
  obtain ⟨hdb', ⟨⟨e, he⟩, -⟩ | ⟨-, hsaved⟩⟩ := Connection.exec_commit hcommit
  · cases he
  exact ⟨c₁, err, hbegin, hdb, by rw [hrun], by rw [hrun, hdb'], hidle, hsaved⟩

/-- **A function that checks its statements** is committed just where each of them is applied, and
it ends with `true`. -/
theorem commits_checked {ending : Ending} {effects : List (σ → Except String σ)}
    {c' : Connection σ} :
    Commits (.checked ending effects) c c' ↔
      ∃ c₁, c.exec .begin = (.ok (), c₁) ∧ (Script.checked ending effects).Applies c₁ ∧
        (∃ err, ending = .returned true err) ∧
        ((Script.checked ending effects).run c₁).2.exec .commit = (.ok (), c') := by
  constructor
  · rintro ⟨c₁, c₂, err, hbegin, hrun, hcommit⟩
    obtain ⟨happlies, hending, -⟩ | ⟨-, e, hfalse⟩ := Script.run_checked ending effects c₁
    · rw [hrun] at hending
      exact ⟨c₁, hbegin, happlies, ⟨err, hending.symm⟩, by rw [hrun, hcommit]⟩
    · rw [hrun] at hfalse
      cases hfalse
  · rintro ⟨c₁, hbegin, happlies, ⟨err, rfl⟩, hcommit⟩
    obtain ⟨-, hending, -⟩ | ⟨hnot, -⟩ := Script.run_checked (.returned true err) effects c₁
    · exact ⟨c₁, _, err, hbegin, Prod.ext hending rfl, hcommit⟩
    · exact absurd happlies hnot

/-- A checked function that commits has applied all of its effects, in order. -/
theorem Commits.applied {ending : Ending} {effects : List (σ → Except String σ)}
    {c' : Connection σ} (h : Commits (.checked ending effects) c c') :
    applyAll effects c.db = .ok c'.db := by
  obtain ⟨c₁, err, -, hdb, hrun, hdb', -, -⟩ := h.spec
  obtain ⟨-, -, happlied⟩ | ⟨-, e, hfalse⟩ := Script.run_checked ending effects c₁
  · rw [← hdb, happlied, hdb']
  · cases hfalse.symm.trans hrun

/-- A call of `Transaction` is committed or leaves the database as it was, and no transaction stays
open. -/
structure Atomic (s : MyDB σ) (fn : Script σ) (r : Answer (MyDB σ)) : Prop where
  returned : r.returned = true ↔
    s.initialized = true ∧ s.handle = true ∧ ∃ c', Commits fn s.conn c'
  committed : r.returned = true → Commits fn s.conn r.after.conn
  restored : r.returned = false → r.after.conn.db = s.conn.db
  closed : r.after.conn.saved = s.conn.saved

/-- **Every transaction is atomic**, whatever the function does and whichever statement fails. -/
theorem transaction_atomic (s : MyDB σ) (fn : Script σ) : Atomic s fn (s.transaction fn) := by
  rw [MyDB.transaction]
  by_cases hopen : s.initialized && s.handle
  · rw [if_pos hopen]
    rw [Bool.and_eq_true] at hopen
    obtain ⟨hret, hcommits⟩ | ⟨hret, hnot, hdb, hsaved⟩ := transactionLocked_cases fn s.conn
    · have hspec := hcommits.spec
      obtain ⟨_, _, -, -, -, -, hidle, hsaved⟩ := hspec
      refine ⟨⟨fun _ => ⟨hopen.1, hopen.2, _, hcommits⟩, fun _ => hret⟩, fun _ => hcommits, ?_,
        hsaved.trans hidle.symm⟩
      intro hfalse
      cases hret.symm.trans hfalse
    · refine ⟨⟨fun h => ?_, ?_⟩, fun h => ?_, fun _ => hdb, hsaved⟩
      · cases hret.symm.trans h
      · rintro ⟨-, -, c', hc'⟩
        exact absurd hc' (hnot c')
      · cases hret.symm.trans h
  · rw [if_neg hopen]
    rw [Bool.and_eq_true] at hopen
    refine ⟨⟨fun h => ?_, fun ⟨hinit, hhandle, _⟩ => absurd ⟨hinit, hhandle⟩ hopen⟩, fun h => ?_,
      fun _ => rfl, rfl⟩
    · cases h
    · cases h

/-- A function that checks its statements: `true` says that all are applied and committed. -/
structure Checked (s : MyDB σ) (ending : Ending) (effects : List (σ → Except String σ))
    (r : Answer (MyDB σ)) : Prop where
  returned : r.returned = true ↔
    s.initialized = true ∧ s.handle = true ∧ ∃ c₁ c', s.conn.exec .begin = (.ok (), c₁) ∧
      (Script.checked ending effects).Applies c₁ ∧ (∃ err, ending = .returned true err) ∧
      ((Script.checked ending effects).run c₁).2.exec .commit = (.ok (), c')
  applied : r.returned = true → applyAll effects s.conn.db = .ok r.after.conn.db

/-- A function that checks each statement commits all of its effects or none of them. -/
theorem transaction_checked (s : MyDB σ) (ending : Ending)
    (effects : List (σ → Except String σ)) :
    Checked s ending effects (s.transaction (.checked ending effects)) := by
  have hatomic := transaction_atomic s (.checked ending effects)
  refine ⟨?_, fun h => (hatomic.committed h).applied⟩
  rw [hatomic.returned]
  simp only [commits_checked]
  rw [exists_comm]

end

/-! ## The migration -/

/-- The database with a version table that was not there. -/
def withVersionTable (db : Db) : Db :=
  { db with
    tables := db.tables.insert "schema_version" { columns := [("version", "INTEGER NOT NULL")] } }

/-- Every statement of the migration is done. -/
def Migrated (db : Db) : Prop := ∀ change ∈ versionTable :: migration, change.Done db

/-- What a call of `Migrate` leaves, where it fails and where it succeeds. -/
structure Migrates (s : MyDB Db) (r : Answer (MyDB Db)) : Prop where
  failed : r.returned = false → r.after.conn.db = s.conn.db ∨
    ("schema_version" ∉ s.conn.db.tables ∧ r.after.conn.db = withVersionTable s.conn.db)
  closed : r.after.conn.saved = s.conn.saved
  succeeded : r.returned = true → (s.enable = false ∧ r.after.conn.db = s.conn.db) ∨
    (s.enable = true ∧
      applyAll (effects (versionTable :: migration)) s.conn.db = .ok r.after.conn.db)

/-- Creating the version table changes nothing when it is there, and adds the empty table when it is
not. -/
theorem versionTable_applied {db db' : Db} (h : Applied db versionTable db') :
    db' = db ∨ ("schema_version" ∉ db.tables ∧ db' = withVersionTable db) := by
  cases h with
  | idle _ => exact .inl rfl
  | table hnew _ => exact .inr ⟨hnew, rfl⟩

/-- Migration meets its specification from every state, with every failing statement. -/
theorem migrate_migrates (s : MyDB Db) : Migrates s s.migrate := by
  rw [MyDB.migrate]
  by_cases henable : s.enable
  swap
  · rw [if_pos (by simpa using henable)]
    refine ⟨fun h => ?_, rfl, fun _ => .inl ⟨by simpa using henable, rfl⟩⟩
    cases h
  rw [if_neg (by simpa using henable)]
  by_cases hopen : !s.initialized || !s.handle
  · rw [if_pos hopen]
    refine ⟨fun _ => .inl rfl, rfl, fun h => ?_⟩
    cases h
  rw [if_neg hopen]
  rcases hexec : s.conn.exec (.other fun db => versionTable.effect db) with ⟨result, c⟩
  obtain ⟨hsaved, ⟨⟨e, rfl⟩, hdb⟩ | ⟨rfl, heffect⟩⟩ := Connection.exec_other hexec
  · refine ⟨fun _ => .inl hdb, hsaved, fun h => ?_⟩
    cases h
  dsimp only
  obtain ⟨hret, hcommits⟩ | ⟨hret, -, hdb, hsaved'⟩ := transactionLocked_cases migrationScript c
  · rw [if_neg (by simp [hret])]
    obtain ⟨_, _, -, -, -, -, hidle, hsaved'⟩ := hcommits.spec
    refine ⟨fun h => ?_, hsaved'.trans (hidle.symm.trans hsaved), fun _ => .inr ⟨henable, ?_⟩⟩
    · cases h
    · exact applyAll_cons.2 ⟨_, heffect, hcommits.applied⟩
  · rw [if_pos (by simp [hret])]
    refine ⟨fun _ => ?_, hsaved'.trans hsaved, fun h => ?_⟩
    · rw [hdb]
      exact versionTable_applied (Change.applied heffect)
    · cases h

/-! ### What a migration leaves -/

/-- The rows of the version table once it has been migrated. -/
def versionRows (db : Db) : List (List (String × Value)) :=
  match db.tables.lookup "schema_version" with
  | none => [versionRow]
  | some t => if t.rows = [] then [versionRow] else t.rows

/-- Everything is there that belongs to the schema, what was there is as it was, and the version
table has its row. -/
structure Complete (db db' : Db) : Prop where
  migrated : Migrated db'
  keeps : Keeps db db'
  version : (db'.tables.lookup "schema_version").map Table.rows = some (versionRows db)

/-- Migration keeps the rows of a version table that has some, and writes one row into an empty
one. -/
theorem versionRows_of_keeps {db db' : Db} {t : Table}
    (ht : db.tables.lookup "schema_version" = some t) (hkeeps : Keeps db db')
    (hdone : Change.insertVersion.Done db') :
    (db'.tables.lookup "schema_version").map Table.rows =
      some (if t.rows = [] then [versionRow] else t.rows) := by
  obtain ⟨t', ht', -, hrows'⟩ := hdone
  rcases hkeeps.tables _ t ht with hsame | ⟨-, hrows, hfilled⟩
  · obtain rfl : t = t' := Option.some.inj (hsame.symm.trans ht')
    rw [hsame, if_neg hrows']
    rfl
  · rw [hfilled, if_pos hrows]
    rfl

/-- Once every statement of the migration has been applied, the schema is complete. -/
theorem complete_of_applyAll {db db' : Db}
    (h : applyAll (effects (versionTable :: migration)) db = .ok db') : Complete db db' := by
  obtain ⟨hkeeps, -, hdone⟩ := effects_keeps h (List.forall_mem_nil _)
  have hversion : Change.insertVersion.Done db' :=
    hdone _ (List.mem_cons_of_mem _ List.mem_cons_self)
  refine ⟨hdone, hkeeps, ?_⟩
  cases ht : db.tables.lookup "schema_version" with
  | some t =>
    rw [versionRows, ht]
    exact versionRows_of_keeps ht hkeeps hversion
  | none =>
    -- the table is made by the first statement
    obtain ⟨m, hm, hrest⟩ := applyAll_cons.1 h
    have hnew : "schema_version" ∉ db.tables := AList.lookup_eq_none.1 ht
    obtain rfl : m = withVersionTable db := by
      rcases versionTable_applied (Change.applied hm) with rfl | ⟨-, rfl⟩
      · exact absurd (Change.applied hm).done hnew
      · rfl
    obtain ⟨hkeeps', -, -⟩ := effects_keeps hrest (List.forall_mem_nil _)
    have hrows := versionRows_of_keeps (AList.lookup_insert db.tables) hkeeps' hversion
    rw [versionRows, ht]
    rwa [if_pos rfl] at hrows

/-- Where everything is there, `Migrate` leaves the database alone, however it goes. -/
theorem migrate_of_migrated {s : MyDB Db} (h : Migrated s.conn.db) :
    s.migrate.after.conn.db = s.conn.db := by
  have hmigrates := migrate_migrates s
  cases hret : s.migrate.returned with
  | false =>
    rcases hmigrates.failed hret with hsame | ⟨hnew, -⟩
    · exact hsame
    · exact absurd (h versionTable List.mem_cons_self) hnew
  | true =>
    rcases hmigrates.succeeded hret with ⟨-, hsame⟩ | ⟨-, happlied⟩
    · exact hsame
    · rw [applyAll_of_done h] at happlied
      exact (Except.ok.inj happlied).symm

/-- After so many calls of `Migrate`. -/
def MyDB.migrated (s : MyDB Db) : Nat → MyDB Db
  | 0 => s
  | n + 1 => (s.migrated n).migrate.after

/-- Migration never changes the enable flag. -/
theorem migrate_enable (s : MyDB Db) : s.migrate.after.enable = s.enable := by
  rw [MyDB.migrate]
  split_ifs
  · rfl
  · rfl
  · split
    · rfl
    · dsimp only
      split_ifs <;> rfl

/-- Nor does any number of migrations. -/
theorem migrated_enable (s : MyDB Db) (n : Nat) : (s.migrated n).enable = s.enable := by
  induction n with
  | zero => rfl
  | succ n ih => rw [MyDB.migrated, migrate_enable, ih]

/-- **Calls of `Migrate` again and again.** Once it has succeeded, nothing changes any more. -/
theorem migrated_db {s : MyDB Db} (h : s.migrate.returned = true) (n : Nat) :
    (s.migrated (n + 1)).conn.db = s.migrate.after.conn.db := by
  induction n with
  | zero => rfl
  | succ n ih =>
    have henable := migrated_enable s (n + 1)
    rw [MyDB.migrated, ← ih]
    rcases (migrate_migrates s).succeeded h with ⟨hoff, -⟩ | ⟨-, happlied⟩
    · rw [MyDB.migrate, if_pos (by rw [henable, hoff]; rfl)]
    · refine migrate_of_migrated ?_
      rw [ih]
      exact (complete_of_applyAll happlied).migrated

/-! ## All or nothing -/

/-- **Transactions and migration.** A transaction is committed or leaves the database as it was, and
it is closed; a function that checks its statements has all of them applied when it is committed. A
migration that fails leaves everything but a version table that was missing, and one that has
succeeded is not changed by any further one. -/
theorem all_or_nothing :
    (∀ {σ : Type} (s : MyDB σ),
      (∀ fn, Atomic s fn (s.transaction fn)) ∧
        ∀ ending effects, Checked s ending effects (s.transaction (.checked ending effects))) ∧
    ∀ s : MyDB Db,
      (s.migrate.returned = false → s.migrate.after.conn.db = s.conn.db ∨
        ("schema_version" ∉ s.conn.db.tables ∧
          s.migrate.after.conn.db = withVersionTable s.conn.db)) ∧
      s.migrate.after.conn.saved = s.conn.saved ∧
      (s.migrate.returned = true → (s.enable = false ∧ s.migrate.after.conn.db = s.conn.db) ∨
        (s.enable = true ∧ Complete s.conn.db s.migrate.after.conn.db)) ∧
      (s.migrate.returned = true →
        ∀ n, (s.migrated (n + 1)).conn.db = s.migrate.after.conn.db) := by
  refine ⟨fun s => ⟨transaction_atomic s, transaction_checked s⟩, fun s => ?_⟩
  have hmigrates := migrate_migrates s
  refine ⟨hmigrates.failed, hmigrates.closed, fun h => ?_, migrated_db⟩
  rcases hmigrates.succeeded h with hoff | ⟨hon, happlied⟩
  · exact .inl hoff
  · exact .inr ⟨hon, complete_of_applyAll happlied⟩

/-- A connection to an empty database. -/
def fresh (faults : List (Option String)) : MyDB Db where
  initialized := true
  handle := true
  conn := { db := {}, faults }

/-- On an empty database migration succeeds, and repeating it any number of times changes
nothing. -/
theorem all_or_nothing_fresh :
    (fresh []).migrate.returned = true ∧
      ∀ n, ((fresh []).migrated (n + 1)).conn.db = (fresh []).migrate.after.conn.db :=
  ⟨rfl, (all_or_nothing.2 (fresh [])).2.2.2 rfl⟩

/-- A function that does not look at how its statement has gone. -/
def careless : Script Db :=
  .exec (fun _ => .error "UNIQUE constraint failed") fun _ _ => .ends (.returned true "")

/-- `true` says nothing about a statement that the function has not checked, and when `BEGIN` fails
`Migrate` leaves the version table. -/
theorem not_all_or_nothing :
    (¬ ∀ (s : MyDB Db) (fn : Script Db), (s.transaction fn).returned = true →
      fn.Applies (s.conn.exec .begin).2) ∧
    ¬ ∀ s : MyDB Db, s.migrate.returned = false → s.migrate.after.conn.db = s.conn.db := by
  constructor
  · intro h
    have happlies := (h (fresh []) careless rfl).1
    cases happlies
  · intro h
    have hdb := h (fresh [none, some "database is locked"]) rfl
    have hlookup := congrArg (fun db => (db.tables.lookup "schema_version").isSome) hdb
    cases hlookup

end MyDb
