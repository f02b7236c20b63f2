/-!
# Statements that may fail, and what a transaction restores

A connection holds the state of a database and, while a transaction is open, the state it had at
`BEGIN`. A statement other than transaction control is a change of the state, which may refuse it;
besides, the environment makes any statement fail that it likes (`faults`). A `ROLLBACK` of an open
transaction does not fail.

A script is what runs between `BEGIN` and `COMMIT`: it executes statements one after the other, sees
the state and how each of them has gone, and ends by a return or an exception. Whatever it does, the
transaction stays open (`Script.run_saved`).
-/

namespace Sql

universe u

/-- A statement; what it does to the state, where it is not transaction control. -/
inductive Statement (σ : Type u) where
  | begin
  | commit
  | rollback
  | other (effect : σ → Except String σ)

/-- A connection: the contents, what a rollback would restore, and how the next statements fail. -/
structure Connection (σ : Type u) where
  db : σ
  /-- What `ROLLBACK` restores, while a transaction is open. -/
  saved : Option σ := none
  /-- The errors of the next statements. -/
  faults : List (Option String) := []

section
variable {σ : Type u}

/-- A statement that the environment may make fail. -/
def Connection.attempt (c : Connection σ)
    (statement : Connection σ → Except String Unit × Connection σ) :
    Except String Unit × Connection σ :=
  match c.faults with
  | [] => statement c
  | none :: faults => statement { c with faults }
  | some e :: faults => (.error e, { c with faults })

/-- What a statement answers, and what it leaves. -/
def Connection.exec (c : Connection σ) : Statement σ → Except String Unit × Connection σ
  | .begin => c.attempt fun c =>
    match c.saved with
    | none => (.ok (), { c with saved := some c.db })
    | some _ => (.error "cannot start a transaction within a transaction", c)
  | .commit => c.attempt fun c =>
    match c.saved with
    | none => (.error "cannot commit - no transaction is active", c)
    | some _ => (.ok (), { c with saved := none })
  | .rollback =>
    match c.saved with
    | none => (.error "cannot rollback - no transaction is active", c)
    | some db => (.ok (), { c with db, saved := none })
  | .other effect => c.attempt fun c =>
    match effect c.db with
    | .ok db => (.ok (), { c with db })
    | .error e => (.error e, c)

/-! ## What a statement does -/

variable {c c' : Connection σ} {result : Except String Unit}

/-- The environment leaves state and transaction alone. -/
theorem Connection.attempt_cases {statement : Connection σ → Except String Unit × Connection σ}
    (h : c.attempt statement = (result, c')) :
    ((∃ e, result = .error e) ∧ c'.db = c.db ∧ c'.saved = c.saved) ∨
      ∃ faults, statement { c with faults } = (result, c') := by
  unfold Connection.attempt at h
  split at h
  · exact .inr ⟨c.faults, h⟩
  · exact .inr ⟨_, h⟩
  · cases h
    exact .inl ⟨⟨_, rfl⟩, rfl, rfl⟩

/-- `BEGIN` changes no contents and keeps them for a rollback, or fails and leaves all as it was. -/
theorem Connection.exec_begin (h : c.exec .begin = (result, c')) :
    c'.db = c.db ∧ (((∃ e, result = .error e) ∧ c'.saved = c.saved) ∨
      (result = .ok () ∧ c.saved = none ∧ c'.saved = some c.db)) := by
  rw [Connection.exec] at h
  obtain ⟨he, hdb, hsaved⟩ | ⟨faults, h⟩ := Connection.attempt_cases h
  · exact ⟨hdb, .inl ⟨he, hsaved⟩⟩
  · dsimp only at h
    split at h
    · rename_i hnone
      cases h
      exact ⟨rfl, .inr ⟨rfl, hnone, rfl⟩⟩
    · cases h
      exact ⟨rfl, .inl ⟨⟨_, rfl⟩, rfl⟩⟩

/-- `COMMIT` changes no contents and ends the transaction, or fails and leaves it open. -/
theorem Connection.exec_commit (h : c.exec .commit = (result, c')) :
    c'.db = c.db ∧ (((∃ e, result = .error e) ∧ c'.saved = c.saved) ∨
      (result = .ok () ∧ c'.saved = none)) := by
  rw [Connection.exec] at h
  obtain ⟨he, hdb, hsaved⟩ | ⟨faults, h⟩ := Connection.attempt_cases h
  · exact ⟨hdb, .inl ⟨he, hsaved⟩⟩
  · dsimp only at h
    split at h
    · cases h
      exact ⟨rfl, .inl ⟨⟨_, rfl⟩, rfl⟩⟩
    · cases h
      exact ⟨rfl, .inr ⟨rfl, rfl⟩⟩

/-- **What `ROLLBACK` restores.** -/
theorem Connection.exec_rollback {db : σ} (h : c.saved = some db) :
    (c.exec .rollback).2.db = db ∧ (c.exec .rollback).2.saved = none := by
  simp only [Connection.exec, h, and_self]

/-- Any other statement leaves the transaction as it is, and changes the contents only if it
succeeds. -/
theorem Connection.exec_other {effect : σ → Except String σ}
    (h : c.exec (.other effect) = (result, c')) :
    c'.saved = c.saved ∧ (((∃ e, result = .error e) ∧ c'.db = c.db) ∨
      (result = .ok () ∧ effect c.db = .ok c'.db)) := by
  rw [Connection.exec] at h
  obtain ⟨he, hdb, hsaved⟩ | ⟨faults, h⟩ := Connection.attempt_cases h
  · exact ⟨hsaved, .inl ⟨he, hdb⟩⟩
  · dsimp only at h
    split at h
    · rename_i db hok
      cases h
      exact ⟨rfl, .inr ⟨rfl, hok⟩⟩
    · cases h
      exact ⟨rfl, .inl ⟨⟨_, rfl⟩, rfl⟩⟩

end

/-! ## Scripts -/

/-- How a script ends: it returns, with a text in `err`, or throws, by chance with a text. -/
inductive Ending where
  | returned (ok : Bool) (err : String)
  | threw (what : Option String)
  deriving DecidableEq

/-- What a function does on a connection: it ends, or it runs a statement and goes on with its
answer. -/
inductive Script (σ : Type u) where
  | ends (ending : Ending)
  | exec (effect : σ → Except String σ) (next : σ → Except String Unit → Script σ)

section
variable {σ : Type u}

/-- The changes one after the other, up to one that is refused. -/
def applyAll : List (σ → Except String σ) → σ → Except String σ
  | [], db => .ok db
  | effect :: effects, db =>
    match effect db with
    | .ok db => applyAll effects db
    | .error e => .error e

/-- Effects are applied one after the other. -/
theorem applyAll_cons {effect : σ → Except String σ} {effects : List (σ → Except String σ)}
    {db db' : σ} :
    applyAll (effect :: effects) db = .ok db' ↔
      ∃ m, effect db = .ok m ∧ applyAll effects m = .ok db' := by
  rw [applyAll]
  cases h : effect db with
  | ok m => simp
  | error e => simp

/-- A function runs on the connection to its end. -/
def Script.run : Script σ → Connection σ → Ending × Connection σ
  | .ends ending, c => (ending, c)
  | .exec effect next, c =>
    match c.exec (.other effect) with
    | (result, c) => (next c.db result).run c

/-- Every statement that the script executes is applied. -/
def Script.Applies : Script σ → Connection σ → Prop
  | .ends _, _ => True
  | .exec effect next, c =>
    (c.exec (.other effect)).1 = .ok () ∧
      (next (c.exec (.other effect)).2.db (c.exec (.other effect)).1).Applies
        (c.exec (.other effect)).2

/-- The statements one by one, up to the first that fails: the script returns `false` then, with its
error. -/
def Script.checked (ending : Ending) : List (σ → Except String σ) → Script σ
  | [] => .ends ending
  | effect :: effects => .exec effect fun _ result =>
    match result with
    | .ok () => checked ending effects
    | .error e => .ends (.returned false e)

/-- **A script leaves the transaction open.** -/
theorem Script.run_saved (script : Script σ) (c : Connection σ) :
    (script.run c).2.saved = c.saved := by
  induction script generalizing c with
  | ends ending => rfl
  | exec effect next ih =>
    rcases h : c.exec (.other effect) with ⟨result, c'⟩
    rw [Script.run, h, ih, (Connection.exec_other h).1]

/-- **A script that checks.** It comes to its end just where every statement is applied, and then
the state is that after all of them. -/
theorem Script.run_checked (ending : Ending) (effects : List (σ → Except String σ))
    (c : Connection σ) :
    ((checked ending effects).Applies c ∧ ((checked ending effects).run c).1 = ending ∧
        applyAll effects c.db = .ok ((checked ending effects).run c).2.db) ∨
      (¬ (checked ending effects).Applies c ∧
        ∃ e, ((checked ending effects).run c).1 = .returned false e) := by
  induction effects generalizing c with
  | nil => exact .inl ⟨trivial, rfl, rfl⟩
  | cons effect effects ih =>
    rcases h : c.exec (.other effect) with ⟨result, c'⟩
    obtain ⟨-, ⟨⟨e, rfl⟩, hdb⟩ | ⟨rfl, heffect⟩⟩ := Connection.exec_other h
    · refine .inr ⟨?_, e, ?_⟩
      · rintro ⟨hok, -⟩
        rw [h] at hok
        cases hok
      · rw [checked, Script.run, h]
        rfl
    · have hrun : (checked ending (effect :: effects)).run c = (checked ending effects).run c' := by
        rw [checked, Script.run, h]
      have happlies : (checked ending (effect :: effects)).Applies c ↔
          (checked ending effects).Applies c' := by
        rw [checked, Script.Applies, h]
        exact ⟨fun h => h.2, fun h => ⟨rfl, h⟩⟩
      rw [hrun, happlies, applyAll, heffect]
      exact ih c'

end

end Sql
