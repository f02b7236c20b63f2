import Mathlib.Init

/-!
# JSON values

`nlohmann::json` as far as `my_data` and `my_edge` use it: a value, the field of an object, and what
`my_data::jsonutil` and `value` read of it. An object is a `std::map`, so its fields are in the
order of their keys. A number is an integer, whatever its sign and its size, or a `double`, here by
its bits.
-/

namespace MyData

universe u

inductive Json where
  | null
  | boolean (value : Bool)
  | integer (value : Int)
  | float (bits : UInt64)
  | string (value : String)
  | array (items : List Json)
  | object (fields : List (String × Json))
  deriving Inhabited

namespace Json

def isObject : Json → Bool
  | object _ => true
  | _ => false

/-- `j.find(key)`, which is `j.end()` where the value is no object. -/
def find : Json → String → Option Json
  | object fields, key => fields.lookup key
  | _, _ => none

/-- The field in its place. -/
def insert (key : String) (value : Json) : List (String × Json) → List (String × Json)
  | [] => [(key, value)]
  | (k, v) :: rest =>
    if key < k then (key, value) :: (k, v) :: rest
    else if key = k then (key, value) :: rest
    else (k, v) :: insert key value rest

/-- `j[key] = value`, for an object. -/
def set (j : Json) (key : String) (value : Json) : Json :=
  match j with
  | object fields => object (insert key value fields)
  | j => j

/-- The field in its place, where there is one of that key. -/
def replaceField (key : String) (value : Json) : List (String × Json) → List (String × Json)
  | [] => []
  | (k, v) :: rest =>
    if k = key then (k, value) :: rest else (k, v) :: replaceField key value rest

/-- The assignment of a field that is there. -/
def replace (j : Json) (key : String) (value : Json) : Json :=
  match j with
  | object fields => object (replaceField key value fields)
  | j => j

/-- `GetStringOr`. -/
def getStringOr (j : Json) (key dflt : String) : String :=
  match j.find key with
  | some (string value) => value
  | _ => dflt

/-- `GetIntOr`. The conversion to `int` wraps. -/
def getIntOr (j : Json) (key : String) (dflt : Int32) : Int32 :=
  match j.find key with
  | some (integer value) => Int32.ofInt value
  | _ => dflt

/-- `GetInt64Or`. -/
def getInt64Or (j : Json) (key : String) (dflt : Int64) : Int64 :=
  match j.find key with
  | some (integer value) => Int64.ofInt value
  | _ => dflt

def asString : Json → Option String
  | string value => some value
  | _ => none

def asBool : Json → Option Bool
  | boolean value => some value
  | _ => none

/-- `get<int>`, as far as it comes: an `int` is made of a number or of a boolean. -/
def asInt : Json → Option Unit
  | boolean _ | integer _ | float _ => some ()
  | _ => none

/-- `j.value(key, dflt)`. It throws where the value is no object, or where the field does not have
the type of the default. -/
def value {α : Type u} (get : Json → Option α) (j : Json) (key : String) (dflt : α) : Option α :=
  if j.isObject then
    match j.find key with
    | none => some dflt
    | some field => get field
  else none

/-- The field, where it is an object. -/
def getObjectOr (j : Json) (key : String) (dflt : Json) : Json :=
  match j.find key with
  | some value => if value.isObject then value else dflt
  | none => dflt

/-! ## What is read -/

variable {j : Json} {key : String}

theorem isObject_iff : j.isObject = true ↔ ∃ fields, j = object fields := by
  cases j <;> simp [isObject]

theorem asBool_eq_some {b : Bool} : j.asBool = some b ↔ j = boolean b := by
  cases j <;> simp [asBool]

theorem asString_eq_some {s : String} : j.asString = some s ↔ j = string s := by
  cases j <;> simp [asString]

/-- What `value` gives: the default where the field is not there, and the field otherwise. -/
theorem value_eq_some {α : Type u} {get : Json → Option α} {dflt a : α} :
    j.value get key dflt = some a ↔ j.isObject = true ∧
      ((j.find key = none ∧ dflt = a) ∨ ∃ field, j.find key = some field ∧ get field = some a) := by
  rw [value]
  by_cases h : j.isObject = true
  · rw [if_pos h]
    cases j.find key <;> simp [h]
  · rw [if_neg h]
    simp [h]

end Json

end MyData
