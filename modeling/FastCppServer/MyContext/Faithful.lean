import FastCppServer.Lib.History
import FastCppServer.MyContext.MyContext
import Mathlib.Data.List.Sort

/-!
# The context is a faithful store

The reference is the history of the calls itself: `entryOf name calls` is what it says of a name
(`History.life`, `History.latest`), without a table. One call changes the table at a name
(`lookup_step`) as it changes that (`entryOf_concat`), which makes them agree after every history
(`lookup_run`).

A description stays until a call writes another. A `Set` with an empty one does not, an
`UpdateDescription` does. `GetInt` gives back the integers that a `double` holds exactly
(`getInt_integer_iff`).
-/

namespace MyContext

open MyData History

/-! ## The history of a name -/

/-- The call is a `Set` of the name. -/
def sets (name : String) : Call → Bool
  | (_, .set n _ _) | (_, .setBool n _ _) | (_, .setInt n _ _) | (_, .setString n _ _) =>
    n = name ∧ name ≠ ""
  | _ => false

/-- The call erases the name. -/
def erases (name : String) : Call → Bool
  | (_, .erase n) => n = name
  | (_, .clear) => true
  | _ => false

/-- The value that the call has for the name. -/
def valueFor (name : String) : Call → Option Json
  | (_, .set n value _) => if n = name then some value else none
  | (_, .setBool n value _) => if n = name then some (.boolean value) else none
  | (_, .setInt n value _) => if n = name then some (.integer value.toInt) else none
  | (_, .setString n value _) => if n = name then some (.string value) else none
  | (_, .updateValue n value) => if n = name then some value else none
  | _ => none

/-- The description that the call has for the name. -/
def descriptionFor (name : String) : Call → Option String
  | (_, .set n _ d) | (_, .setBool n _ d) | (_, .setInt n _ d) | (_, .setString n _ d) =>
    if n = name ∧ d ≠ "" then some d else none
  | (_, .updateDescription n d) => if n = name then some d else none
  | _ => none

/-- The time of the call, where it writes to the name. -/
def timeFor (name : String) : Call → Option Int
  | (now, .set n _ _) | (now, .setBool n _ _) | (now, .setInt n _ _) | (now, .setString n _ _)
  | (now, .updateValue n _) | (now, .updateDescription n _) => if n = name then some now else none
  | _ => none

/-- The calls since the `Set` that made the entry. -/
def lifeOf (name : String) (calls : List Call) : List Call := life (erases name) (sets name) calls

/-- What the calls since the first `Set` say of the name. -/
def entrySince (name : String) : List Call → Option ContextEntry
  | [] => none
  | first :: calls =>
    let value := (latest (valueFor name) (first :: calls)).getD .null
    some
      { name, value
        description := (latest (descriptionFor name) (first :: calls)).getD ""
        type := deduceType value
        createdAtMs := first.1
        updatedAtMs := (latest (timeFor name) (first :: calls)).getD first.1 }

/-- **The reference**: what the history says of a name. -/
def entryOf (name : String) (calls : List Call) : Option ContextEntry :=
  entrySince name (lifeOf name calls)

/-! ## One call -/

/-- An entry after a call. -/
def ContextEntry.after (e : ContextEntry) (call : Call) : ContextEntry :=
  { e with
    value := (valueFor e.name call).getD e.value
    description := (descriptionFor e.name call).getD e.description
    type := deduceType ((valueFor e.name call).getD e.value)
    updatedAtMs := (timeFor e.name call).getD e.updatedAtMs }

/-- What is under the name, after a call. -/
def track (name : String) (stored : Option ContextEntry) (call : Call) : Option ContextEntry :=
  if erases name call then none
  else
    match stored with
    | none => if sets name call then entrySince name [call] else none
    | some e => some (e.after call)

/-- The entry has the name it is under, and the type of its value. -/
def ContextEntry.At (name : String) (e : ContextEntry) : Prop :=
  e.name = name ∧ e.type = deduceType e.value ∧ name ≠ ""

variable {name : String} {calls : List Call} {call : Call} {entries : Entries}

/-- What the history says of a name has the name. -/
theorem entrySince_at {first : Call} {e : ContextEntry} (hname : name ≠ "")
    (h : entrySince name (first :: calls) = some e) : e.At name := by
  cases h
  exact ⟨rfl, rfl, hname⟩

/-- A name that is set is not empty. -/
theorem sets_ne_empty (h : sets name call = true) : name ≠ "" := by
  obtain ⟨now, op⟩ := call
  cases op <;> simp_all [sets]

/-- An entry that a call writes to. -/
theorem entrySince_concat {first : Call} {e : ContextEntry}
    (h : entrySince name (first :: calls) = some e) :
    entrySince name (first :: calls ++ [call]) = some (e.after call) := by
  cases h
  rw [List.cons_append, entrySince, ← List.cons_append, latest_concat, latest_concat, latest_concat]
  simp only [ContextEntry.after, Option.getD_or]

/-- **The reference, one call on.** -/
theorem entryOf_concat : entryOf name (calls ++ [call]) = track name (entryOf name calls) call := by
  rw [entryOf, lifeOf, life_concat, track.eq_def]
  split
  · rfl
  · rw [entryOf]
    change entrySince name (if lifeOf name calls = [] then _ else lifeOf name calls ++ [call]) = _
    cases hlife : lifeOf name calls with
    | nil =>
      rw [if_pos rfl]
      split <;> rfl
    | cons first rest =>
      rw [if_neg (List.cons_ne_nil first rest)]
      exact entrySince_concat rfl

/-- A call that has nothing for the name. -/
theorem track_eq_self {stored : Option ContextEntry} (hat : ∀ e ∈ stored, e.At name)
    (herases : erases name call = false) (htime : timeFor name call = none)
    (hsets : sets name call = false) : track name stored call = stored := by
  have hnone : valueFor name call = none ∧ descriptionFor name call = none := by
    obtain ⟨now, op⟩ := call
    cases op <;> simp_all [timeFor, valueFor, descriptionFor]
  rw [track.eq_def, herases, hsets]
  cases stored with
  | none => rfl
  | some e =>
    obtain ⟨rfl, htype, -⟩ := hat e rfl
    simp [ContextEntry.after, hnone.1, hnone.2, htime, ← htype]

/-- A `SetLocked` leaves the other names alone. -/
theorem lookup_setLocked_of_ne {now : Int} {n : String} {value : Json} {d : String} (h : name ≠ n) :
    (setLocked entries now n value d).lookup name = entries.lookup name := by
  rw [setLocked]
  split <;> exact AList.lookup_insert_ne h

/-- A `Set` leaves the other names alone. -/
theorem lookup_set_of_ne {now : Int} {n : String} {value : Json} {d : String} (h : name ≠ n) :
    (set entries now n value d).2.lookup name = entries.lookup name := by
  rw [set]
  split
  · rfl
  · exact lookup_setLocked_of_ne h

/-- **The other names.** -/
theorem lookup_step_of_none (htime : timeFor name call = none)
    (herases : erases name call = false) :
    (step entries call).lookup name = entries.lookup name := by
  have hne : ∀ {n : String} {now : Int},
      (if n = name then some now else none) = none → name ≠ n := by
    intro n now h hname
    rw [if_pos hname.symm] at h
    cases h
  obtain ⟨now, op⟩ := call
  cases op with
  | set n value d => exact lookup_set_of_ne (hne htime)
  | setBool n value d => exact lookup_set_of_ne (hne htime)
  | setInt n value d => exact lookup_set_of_ne (hne htime)
  | setString n value d => exact lookup_set_of_ne (hne htime)
  | updateValue n value =>
    rw [step, updateValue]
    split
    · rfl
    · split
      · rfl
      · exact AList.lookup_insert_ne (hne htime)
  | updateDescription n d =>
    rw [step, updateDescription]
    split
    · rfl
    · split
      · rfl
      · exact AList.lookup_insert_ne (hne htime)
  | erase n => exact AList.lookup_erase_ne (Ne.symm (of_decide_eq_false herases))
  | clear => cases herases

/-- `Set`, whatever the call it is in. -/
theorem lookup_set {now : Int} {value : Json} {d : String} (hname : name ≠ "")
    (hat : ∀ e ∈ entries.lookup name, e.At name) :
    (set entries now name value d).2.lookup name =
      track name (entries.lookup name) (now, .set name value d) := by
  rw [set, if_neg hname, setLocked]
  cases hlookup : entries.lookup name with
  | none =>
    have hd : (latest (descriptionFor name) [(now, .set name value d)]).getD "" = d := by
      by_cases hd : d = "" <;> simp [latest, descriptionFor, hd]
    have hsets : sets name (now, .set name value d) = true := by simp [sets, hname]
    rw [AList.lookup_insert, track, hsets, entrySince, hd]
    simp [erases, latest, valueFor, timeFor]
  | some e =>
    obtain ⟨rfl, -, -⟩ := hat e hlookup
    by_cases hd : d = ""
      <;> simp [track, erases, ContextEntry.after, valueFor, descriptionFor, timeFor, hd]

/-- Nothing is under the empty name. -/
theorem lookup_step_empty (h : entries.lookup "" = none) :
    (step entries call).lookup "" = none := by
  have hset : ∀ {now : Int} {n : String} {value : Json} {d : String},
      (set entries now n value d).2.lookup "" = none := by
    intro now n value d
    rcases eq_or_ne "" n with rfl | hne
    · rwa [set, if_pos rfl]
    · rwa [lookup_set_of_ne hne]
  obtain ⟨now, op⟩ := call
  cases op with
  | set n value d => exact hset
  | setBool n value d => exact hset
  | setInt n value d => exact hset
  | setString n value d => exact hset
  | updateValue n value =>
    rw [step, updateValue]
    split
    · exact h
    · next hne =>
      split
      · exact h
      · rwa [AList.lookup_insert_ne (Ne.symm hne)]
  | updateDescription n d =>
    rw [step, updateDescription]
    split
    · exact h
    · next hne =>
      split
      · exact h
      · rwa [AList.lookup_insert_ne (Ne.symm hne)]
  | erase n =>
    rcases eq_or_ne "" n with rfl | hne
    · exact AList.lookup_erase _ _
    · rwa [step, erase, AList.lookup_erase_ne hne]
  | clear => exact AList.lookup_empty _

/-- Nothing comes under the empty name. -/
theorem track_empty : track "" none call = none := by
  have hsets : sets "" call = false := by
    obtain ⟨now, op⟩ := call
    cases op <;> simp [sets]
  rw [track, hsets]
  split <;> rfl

/-- **One call** does to the table what it does to the reference. -/
theorem lookup_step (hat : ∀ e ∈ entries.lookup name, e.At name) :
    (step entries call).lookup name = track name (entries.lookup name) call := by
  rcases eq_or_ne name "" with rfl | hname
  · have hnone : entries.lookup "" = none :=
      Option.eq_none_iff_forall_ne_some.2 fun e he => (hat e he).2.2 rfl
    rw [hnone, lookup_step_empty hnone, track_empty]
  by_cases hfor : timeFor name call = none ∧ erases name call = false
  · have hsets : sets name call = false := by
      obtain ⟨now, op⟩ := call
      cases op <;> simp_all [sets, timeFor]
    rw [lookup_step_of_none hfor.1 hfor.2, track_eq_self hat hfor.2 hfor.1 hsets]
  obtain ⟨now, op⟩ := call
  cases op with
  | set n value d =>
    obtain rfl : n = name := by_contra fun hn => hfor ⟨if_neg hn, rfl⟩
    exact lookup_set hname hat
  | setBool n value d =>
    obtain rfl : n = name := by_contra fun hn => hfor ⟨if_neg hn, rfl⟩
    exact lookup_set hname hat
  | setInt n value d =>
    obtain rfl : n = name := by_contra fun hn => hfor ⟨if_neg hn, rfl⟩
    exact lookup_set hname hat
  | setString n value d =>
    obtain rfl : n = name := by_contra fun hn => hfor ⟨if_neg hn, rfl⟩
    exact lookup_set hname hat
  | updateValue n value =>
    obtain rfl : n = name := by_contra fun hn => hfor ⟨if_neg hn, rfl⟩
    rw [step, updateValue, if_neg hname]
    cases hlookup : entries.lookup n with
    | none => rw [hlookup]; rfl
    | some e =>
      obtain ⟨rfl, -, -⟩ := hat e hlookup
      simp [track, erases, ContextEntry.after, valueFor, descriptionFor, timeFor]
  | updateDescription n d =>
    obtain rfl : n = name := by_contra fun hn => hfor ⟨if_neg hn, rfl⟩
    rw [step, updateDescription, if_neg hname]
    cases hlookup : entries.lookup n with
    | none => rw [hlookup]; rfl
    | some e =>
      obtain ⟨rfl, htype, -⟩ := hat e hlookup
      simp [track, erases, ContextEntry.after, valueFor, descriptionFor, timeFor, htype]
  | erase n =>
    obtain rfl : n = name := by_contra fun hn => hfor ⟨rfl, decide_eq_false hn⟩
    rw [step, erase, AList.lookup_erase]
    simp [track.eq_def, erases]
  | clear => rfl

/-! ## Every history -/

/-- The context after one more call. -/
@[simp] theorem run_concat : run (calls ++ [call]) = step (run calls) call := by
  rw [run, List.foldl_concat, run]

/-- What is under a name has the name. -/
theorem entryOf_at {e : ContextEntry} (h : entryOf name calls = some e) : e.At name := by
  rw [entryOf] at h
  cases hlife : lifeOf name calls with
  | nil => rw [hlife] at h; cases h
  | cons first rest =>
    rw [hlife] at h
    exact entrySince_at (sets_ne_empty (begins_of_life hlife)) h

/-- **The table is the reference.** -/
theorem lookup_run : (run calls).lookup name = entryOf name calls := by
  induction calls using List.reverseRecOn with
  | nil => rfl
  | append_singleton calls call ih =>
    rw [run_concat, lookup_step (fun e he => entryOf_at (ih ▸ he)), ih, entryOf_concat]

/-- The name is set, and not erased since. -/
def Live (name : String) (calls : List Call) : Prop :=
  Since (sets name · = true) (erases name · = true) calls

/-- A `Set` erases nothing. -/
theorem erases_of_sets (h : sets name call = true) : erases name call = false := by
  obtain ⟨now, op⟩ := call
  cases op <;> simp_all [sets, erases]

/-- The history says something of a name that is live. -/
theorem isSome_entryOf : (entryOf name calls).isSome = true ↔ Live name calls := by
  rw [Live, ← life_ne_nil_iff fun _ => erases_of_sets, entryOf]
  change _ ↔ lifeOf name calls ≠ []
  cases lifeOf name calls with
  | nil => simp [entrySince]
  | cons first rest => simp [entrySince]

/-- A name that is not live is not there. -/
theorem lookup_eq_none (h : ¬ Live name calls) : (run calls).lookup name = none := by
  rw [lookup_run, ← Option.not_isSome_iff_eq_none, isSome_entryOf]
  exact h

/-- The names that are there are the live ones. -/
theorem mem_run : name ∈ run calls ↔ Live name calls := by
  rw [← AList.lookup_isSome, lookup_run, isSome_entryOf]

/-! ## The listing -/

/-- The entries as `GetAllJson` sorts them. -/
def sorted (entries : Entries) : List ContextEntry :=
  (entries.entries.map (·.2)).mergeSort fun a b => a.name ≤ b.name

/-- The entries are those of the history. -/
theorem mem_sorted {e : ContextEntry} :
    e ∈ sorted (run calls) ↔ entryOf e.name calls = some e := by
  rw [sorted, List.mem_mergeSort, List.mem_map, ← lookup_run]
  constructor
  · rintro ⟨⟨n, e'⟩, hmem, rfl⟩
    have hlookup : (run calls).lookup n = some e' := AList.mem_lookup_iff.2 hmem
    obtain ⟨rfl, -⟩ := entryOf_at (lookup_run ▸ hlookup)
    exact hlookup
  · intro h
    exact ⟨⟨e.name, e⟩, AList.mem_lookup_iff.1 h, rfl⟩

/-- The names of the entries are the keys. -/
theorem map_name_entries :
    ((run calls).entries.map (·.2)).map (·.name) = (run calls).keys := by
  rw [List.map_map]
  refine List.map_congr_left ?_
  rintro ⟨n, e⟩ hmem
  have hlookup : (run calls).lookup n = some e := AList.mem_lookup_iff.2 hmem
  exact (entryOf_at (lookup_run ▸ hlookup)).1

/-- The sorted entries are all there are. -/
theorem names_perm : ((sorted (run calls)).map (·.name)).Perm (run calls).keys := by
  rw [← map_name_entries]
  exact (List.mergeSort_perm _ _).map _

/-- They come by their names. -/
theorem names_lt : ((sorted (run calls)).map (·.name)).Pairwise (· < ·) := by
  have hle : (sorted (run calls)).Pairwise fun a b => decide (a.name ≤ b.name) = true := by
    refine List.pairwise_mergeSort ?_ ?_ _
    · intro a b c hab hbc
      simp only [decide_eq_true_eq] at *
      exact hab.trans hbc
    · intro a b
      simpa using le_total a.name b.name
  have hnodup : ((sorted (run calls)).map (·.name)).Nodup :=
    names_perm.nodup_iff.2 (run calls).keys_nodup
  rw [List.pairwise_map]
  rw [List.Nodup, List.pairwise_map] at hnodup
  exact (hle.and hnodup).imp fun ⟨h, hne⟩ => lt_of_le_of_ne (of_decide_eq_true h) hne

/-- The entries in the listing are the entries under their names. -/
theorem filterMap_names :
    ((sorted (run calls)).map (·.name)).filterMap (entryOf · calls) = sorted (run calls) := by
  rw [List.filterMap_map]
  calc (sorted (run calls)).filterMap _ = (sorted (run calls)).filterMap some :=
        List.filterMap_congr fun e he => mem_sorted.1 he
    _ = sorted (run calls) := List.filterMap_some

/-! ## The typed getters -/

/-- The call leaves the value under the name. -/
def KeepsValue (name : String) (call : Call) : Prop :=
  valueFor name call = none ∧ erases name call = false

/-- **A value stays** until it is written again. -/
theorem getValue_run {before after : List Call} {value : Json} (hsets : sets name call = true)
    (hvalue : valueFor name call = some value) (hafter : ∀ c ∈ after, KeepsValue name c) :
    getValue (run (before ++ call :: after)) name = some value := by
  rw [getValue, lookup_run]
  induction after using List.reverseRecOn with
  | nil =>
    rw [entryOf_concat, track.eq_def, erases_of_sets hsets]
    cases hbefore : entryOf name before with
    | none => simp [hsets, entrySince, latest, hvalue]
    | some e =>
      obtain ⟨rfl, -, -⟩ := entryOf_at hbefore
      simp [ContextEntry.after, hvalue]
  | append_singleton after c ih =>
    specialize ih fun c' hc' => hafter c' (List.mem_append_left _ hc')
    obtain ⟨hnone, herases⟩ := hafter c (List.mem_append_right _ (List.mem_singleton_self c))
    rw [← List.cons_append, ← List.append_assoc, entryOf_concat, track.eq_def, herases]
    cases hentry : entryOf name (before ++ call :: after) with
    | none => rw [hentry] at ih; cases ih
    | some e =>
      obtain ⟨rfl, -, -⟩ := entryOf_at hentry
      rw [hentry] at ih
      simpa [ContextEntry.after, hnone] using ih

/-- What is cast to an `int64_t` is one. -/
theorem castInt64_eq_some_iff {d : Int} {n : Int64} : castInt64 d = some n ↔ d = n.toInt := by
  rw [castInt64]
  constructor
  · intro h
    split at h
    · next hrange =>
      cases h
      exact (Int64.toInt_ofInt_of_le hrange.1 hrange.2).symm
    · cases h
  · rintro rfl
    rw [if_pos ⟨n.le_toInt, n.toInt_lt⟩, Int64.ofInt_toInt]

/-- **The integers that come back** are those that a `double` holds. -/
theorem getInt_integer_iff {n dflt : Int64}
    (h : getValue entries name = some (.integer n.toInt)) :
    getInt entries name dflt = some n ↔ Rounding.Fits 53 n.toInt := by
  rw [getInt, h, ← Rounding.round_eq_self_iff]
  exact castInt64_eq_some_iff

/-! ## The store -/

/-- The reads after the calls are what the history says. -/
structure Faithful (dump : Json → Option String) (calls : List Call) : Prop where
  has_iff : ∀ name, has (run calls) name = true ↔ Live name calls
  getEntry_eq : ∀ name, getEntry (run calls) name = entryOf name calls
  entryOf_isSome : ∀ name, (entryOf name calls).isSome = true ↔ Live name calls
  listing : ∃ names : List String, names.Pairwise (· < ·) ∧
    (∀ name, name ∈ names ↔ Live name calls) ∧
    size (run calls) = names.length ∧
    getAllJson (run calls) = .object
      [("count", .integer names.length),
        ("items", .array ((names.filterMap (entryOf · calls)).map ContextEntry.toJson))]
  updateValue_missing : ∀ now name value, ¬ Live name calls →
    updateValue (run calls) now name value =
      (some (if name = "" then "name 不能为空" else "上下文不存在: " ++ name), run calls)
  updateDescription_missing : ∀ now name d, ¬ Live name calls →
    updateDescription (run calls) now name d =
      (some (if name = "" then "name 不能为空" else "上下文不存在: " ++ name), run calls)
  not_live_empty : ¬ Live "" calls
  getBool_setBool : ∀ before now name value d after dflt,
    calls = before ++ (now, .setBool name value d) :: after → name ≠ "" →
    (∀ c ∈ after, KeepsValue name c) → getBool (run calls) name dflt = value
  getString_setString : ∀ before now name value d after dflt,
    calls = before ++ (now, .setString name value d) :: after → name ≠ "" →
    (∀ c ∈ after, KeepsValue name c) → getString dump (run calls) name dflt = value
  getInt_setInt : ∀ before now name (value : Int64) d after dflt,
    calls = before ++ (now, .setInt name value d) :: after → name ≠ "" →
    (∀ c ∈ after, KeepsValue name c) → Rounding.Fits 53 value.toInt →
    getInt (run calls) name dflt = some value

/-- **What `GetAllJson` gives**, after the calls. -/
theorem getAllJson_run : getAllJson (run calls) = .object
    [("count", .integer (sorted (run calls)).length),
      ("items", .array ((sorted (run calls)).map ContextEntry.toJson))] := by
  have hlt : ¬ "items" < "count" := by decide
  rw [getAllJson]
  simp only [Json.set, Json.insert]
  rw [if_neg hlt, if_neg (by decide), List.length_map]
  rfl

/-- The empty name is never live. -/
theorem not_live_empty : ¬ Live "" calls := by
  rintro ⟨call, -, -, hsets, -⟩
  exact sets_ne_empty hsets rfl

/-- **The context is a faithful store**, after every history. -/
theorem context_faithful (dump : Json → Option String) (calls : List Call) :
    Faithful dump calls where
  has_iff name := by rw [has, lookup_run, isSome_entryOf]
  getEntry_eq name := lookup_run
  entryOf_isSome name := isSome_entryOf
  listing := by
    refine ⟨(sorted (run calls)).map (·.name), names_lt, fun name => ?_, ?_, ?_⟩
    · rw [names_perm.mem_iff, ← AList.mem_keys, mem_run]
    · rw [size, ← names_perm.length_eq]
    · rw [filterMap_names, List.length_map, getAllJson_run]
  updateValue_missing now name value h := by
    rw [updateValue, lookup_eq_none h]
    split <;> rfl
  updateDescription_missing now name d h := by
    rw [updateDescription, lookup_eq_none h]
    split <;> rfl
  not_live_empty := not_live_empty
  getBool_setBool before now name value d after dflt hcalls hname hafter := by
    have hvalue : getValue (run calls) name = some (.boolean value) := by
      rw [hcalls]
      exact getValue_run (by simp [sets, hname]) (if_pos rfl) hafter
    rw [getBool, hvalue]
  getString_setString before now name value d after dflt hcalls hname hafter := by
    have hvalue : getValue (run calls) name = some (.string value) := by
      rw [hcalls]
      exact getValue_run (by simp [sets, hname]) (if_pos rfl) hafter
    rw [getString, hvalue]
  getInt_setInt before now name value d after dflt hcalls hname hafter hfits := by
    have hvalue : getValue (run calls) name = some (.integer value.toInt) := by
      rw [hcalls]
      exact getValue_run (by simp [sets, hname]) (if_pos rfl) hafter
    exact (getInt_integer_iff hvalue).2 hfits

/-- What the store does not do: an empty description overwrites the last one that is not empty, and
an integer of more bits than a `double` has comes back as another one. -/
theorem not_faithful :
    (getEntry (run [(0, .set "a" .null "d"), (1, .updateDescription "a" "")]) "a").map
        (·.description) = some "" ∧
      getInt (run [(0, .setInt "a" 9007199254740993 "")]) "a" 0 = some 9007199254740992 := by
  decide

end MyContext
