import FastCppServer.Lib.Dict
import FastCppServer.Lib.Rounding
import FastCppServer.Lib.Scan
import FastCppServer.MyData.Json
import Mathlib.Data.String.Basic

/-!
# The runtime context

`MyContext` keeps entries under names. Each of its functions holds the mutex from its beginning to
its end, so a history of calls is a list. A call reads the clock where it writes.

The typed getters convert. `GetInt` takes every number by way of a `double`; where what comes out is
no `int64_t`, the conversion is undefined (`castInt64`).
-/

namespace MyContext

open MyData

/-- `ContextValueType`. -/
inductive ContextValueType where
  | null
  | boolean
  | integer
  | double
  | string
  | object
  | array
  deriving DecidableEq

/-- `ContextEntry`. -/
structure ContextEntry where
  name : String
  value : Json
  description : String
  type : ContextValueType
  createdAtMs : Int
  updatedAtMs : Int

/-- `TypeToString`. -/
def typeToString : ContextValueType → String
  | .boolean => "boolean"
  | .integer => "integer"
  | .double => "double"
  | .string => "string"
  | .object => "object"
  | .array => "array"
  | .null => "null"

/-- `DeduceType`. -/
def deduceType : Json → ContextValueType
  | .boolean _ => .boolean
  | .integer _ => .integer
  | .float _ => .double
  | .string _ => .string
  | .object _ => .object
  | .array _ => .array
  | .null => .null

/-- `ToJson` of an entry. -/
def ContextEntry.toJson (e : ContextEntry) : Json :=
  ((((((Json.object []).set "name" (.string e.name)).set "value" e.value).set "description"
    (.string e.description)).set "type" (.string (typeToString e.type))).set "created_at_ms"
    (.integer e.createdAtMs)).set "updated_at_ms" (.integer e.updatedAtMs)

/-- `entries_`. -/
abbrev Entries := AList fun _ : String => ContextEntry

/-! ## Writing -/

/-- `SetLocked`. -/
def setLocked (entries : Entries) (now : Int) (name : String) (value : Json)
    (description : String) : Entries :=
  match entries.lookup name with
  | none =>
    entries.insert name
      { name, value, description, type := deduceType value, createdAtMs := now, updatedAtMs := now }
  | some entry =>
    entries.insert name
      { entry with
        value
        type := deduceType value
        description := if description ≠ "" then description else entry.description
        updatedAtMs := now }

/-- `Set`. -/
def set (entries : Entries) (now : Int) (name : String) (value : Json) (description : String) :
    Bool × Entries :=
  if name = "" then (false, entries) else (true, setLocked entries now name value description)

/-- `SetBool`. -/
def setBool (entries : Entries) (now : Int) (name : String) (value : Bool) (description : String) :
    Bool × Entries :=
  set entries now name (.boolean value) description

/-- `SetInt`. -/
def setInt (entries : Entries) (now : Int) (name : String) (value : Int64) (description : String) :
    Bool × Entries :=
  set entries now name (.integer value.toInt) description

/-- `SetString`. -/
def setString (entries : Entries) (now : Int) (name value description : String) :
    Bool × Entries :=
  set entries now name (.string value) description

/-- `UpdateValue`, and `error_out` where it fails. -/
def updateValue (entries : Entries) (now : Int) (name : String) (value : Json) :
    Option String × Entries :=
  if name = "" then (some "name 不能为空", entries)
  else
    match entries.lookup name with
    | none => (some ("上下文不存在: " ++ name), entries)
    | some entry =>
      (none, entries.insert name { entry with value, type := deduceType value, updatedAtMs := now })

/-- `UpdateDescription`. It takes an empty one too. -/
def updateDescription (entries : Entries) (now : Int) (name description : String) :
    Option String × Entries :=
  if name = "" then (some "name 不能为空", entries)
  else
    match entries.lookup name with
    | none => (some ("上下文不存在: " ++ name), entries)
    | some entry => (none, entries.insert name { entry with description, updatedAtMs := now })

/-- `Erase`. -/
def erase (entries : Entries) (name : String) : Bool × Entries :=
  ((entries.lookup name).isSome, entries.erase name)

/-- `Clear`. -/
def clear (_ : Entries) : Entries := ∅

/-! ## Reading -/

/-- `Has`. -/
def has (entries : Entries) (name : String) : Bool := (entries.lookup name).isSome

/-- `GetEntry`. -/
def getEntry (entries : Entries) (name : String) : Option ContextEntry := entries.lookup name

/-- `GetValue`. -/
def getValue (entries : Entries) (name : String) : Option Json :=
  (entries.lookup name).map (·.value)

/-- `GetBool`. A number is taken as a `double`. -/
def getBool (entries : Entries) (name : String) (dflt : Bool) : Bool :=
  match getValue entries name with
  | some (.boolean value) => value
  | some (.integer n) => Rounding.round 53 n ≠ 0
  | some (.float bits) => bits &&& 0x7FFFFFFFFFFFFFFF ≠ 0
  | some (.string s) => s = "true" || s = "1"
  | _ => dflt

/-- A `double` towards zero, from its bits. `none` where it is no number, or infinite. -/
def truncate (bits : UInt64) : Option Int :=
  let exponent := bits.toNat / 2 ^ 52 % 2 ^ 11
  let fraction := bits.toNat % 2 ^ 52
  let magnitude : Nat :=
    if exponent = 0 then 0
    else if 1075 ≤ exponent then (2 ^ 52 + fraction) * 2 ^ (exponent - 1075)
    else (2 ^ 52 + fraction) / 2 ^ (1075 - exponent)
  if exponent = 2047 then none
  else some (if 2 ^ 63 ≤ bits.toNat then -(magnitude : Int) else magnitude)

/-- `static_cast<int64_t>`. -/
def castInt64 (d : Int) : Option Int64 :=
  if -2 ^ 63 ≤ d ∧ d < 2 ^ 63 then some (.ofInt d) else none

/-- `GetInt`. `none` where it is undefined. -/
def getInt (entries : Entries) (name : String) (dflt : Int64) : Option Int64 :=
  match getValue entries name with
  | some (.integer n) => castInt64 (Rounding.round 53 n)
  | some (.float bits) => (truncate bits).bind castInt64
  | some (.boolean value) => some (if value then 1 else 0)
  | some (.string s) => some (((Scan.stoll s.toUTF8.data.toList).map .ofInt).getD dflt)
  | _ => some dflt

/-- `GetString`, with what `dump` makes of other values. It may throw. -/
def getString (dump : Json → Option String) (entries : Entries) (name dflt : String) : String :=
  match getValue entries name with
  | none => dflt
  | some (.string s) => s
  | some value => (dump value).getD dflt

/-- `Size`. -/
def size (entries : Entries) : Nat := entries.keys.length

/-- `GetAllJson`. -/
def getAllJson (entries : Entries) : Json :=
  let snapshot := entries.entries.map (·.2)
  let items := (snapshot.mergeSort fun a b => a.name ≤ b.name).map ContextEntry.toJson
  ((Json.object []).set "count" (.integer items.length)).set "items" (.array items)

/-! ## A history of calls -/

/-- The operations that write. -/
inductive Op where
  | set (name : String) (value : Json) (description : String)
  | setBool (name : String) (value : Bool) (description : String)
  | setInt (name : String) (value : Int64) (description : String)
  | setString (name value description : String)
  | updateValue (name : String) (value : Json)
  | updateDescription (name description : String)
  | erase (name : String)
  | clear

/-- A call, and what `NowMs` is in it. -/
abbrev Call := Int × Op

/-- The entries after a call. -/
def step (entries : Entries) : Call → Entries
  | (now, .set name value description) => (set entries now name value description).2
  | (now, .setBool name value description) => (setBool entries now name value description).2
  | (now, .setInt name value description) => (setInt entries now name value description).2
  | (now, .setString name value description) => (setString entries now name value description).2
  | (now, .updateValue name value) => (updateValue entries now name value).2
  | (now, .updateDescription name description) =>
    (updateDescription entries now name description).2
  | (_, .erase name) => (erase entries name).2
  | (_, .clear) => clear entries

/-- The context after the calls. -/
def run (calls : List Call) : Entries := calls.foldl step ∅

end MyContext
