/-
This file holds the JSON values the requests read and the responses are made of.
An object is an association list: assigning to a key that is present replaces
its value, and reading a key finds the first entry, of which there is only one.
A number with a fraction is the integer it converts to: requests read no others.
-/

import Mathlib.Data.List.Basic

namespace LightWallet

/-- The values of a request or a response. -/
inductive Json where
  | null
  | bool (value : Bool)
  | num (value : Int)
  | str (value : String)
  | arr (items : List Json)
  | obj (fields : List (String × Json))
  deriving Repr, Inhabited

namespace Json

/-- The value of a key of an object. -/
def get? : Json → String → Option Json
  | .obj fields, key => (fields.find? (·.1 = key)).map (·.2)
  | _, _ => none

/-- `j[key] = value`: a value that is no object becomes one. -/
def set : Json → String → Json → Json
  | .obj fields, key, value =>
    .obj (fields.filter (·.1 ≠ key) ++ [(key, value)])
  | _, key, value => .obj [(key, value)]

/-- `j.count(key) > 0`; values that are no objects have no keys. -/
def has (json : Json) (key : String) : Bool := (json.get? key).isSome

/-- `j[key]` on a request: a missing key reads as null. -/
def read (json : Json) (key : String) : Json := (json.get? key).getD .null

/-! ### Conversions, which throw on values of another type -/

/-- A value that is no text makes the conversion throw. -/
def asString? : Json → Option String
  | .str value => some value
  | _ => none

/-- A value that is no boolean makes the conversion throw. -/
def asBool? : Json → Option Bool
  | .bool value => some value
  | _ => none

/-- Negative numbers convert to unsigned integers as in C++. -/
def asUint64? : Json → Option Nat
  | .num value => some (value % UInt64.size).toNat
  | _ => none

/-! ### Values of the response -/

/-- A natural number as a value. -/
def ofNat (value : Nat) : Json := .num value

/-- `std::to_string`. -/
def ofText (value : Nat) : Json := .str (toString value)

/-- `json {{"status", "error"}, {"reason", …}}`. -/
def ofError (reason : String) : Json := .obj [("status", .str "error"), ("reason", .str reason)]

/-! ### Reading back what was assigned -/

@[simp] theorem get?_obj_nil (key : String) : (Json.obj []).get? key = none := rfl

@[simp] theorem get?_obj_cons (key name : String) (value : Json) (rest : List (String × Json)) :
    (Json.obj ((name, value) :: rest)).get? key =
      if name = key then some value else (Json.obj rest).get? key := by
  show (((name, value) :: rest).find? (·.1 = key)).map (·.2) = _
  by_cases same : name = key
  · simp [same]
  · simp [same, get?]

/-- Assigning to a key gives that key the value, and leaves the others alone. -/
@[simp] theorem get?_set (json : Json) (key other : String) (value : Json) :
    (json.set key value).get? other = if key = other then some value else json.get? other := by
  cases json with
  | obj fields =>
    show ((fields.filter (·.1 ≠ key) ++ [(key, value)]).find? (·.1 = other)).map (·.2) = _
    rw [List.find?_append]
    by_cases same : key = other
    · rw [if_pos same, ← same]
      have absent : (fields.filter (·.1 ≠ key)).find? (·.1 = key) = none := by
        rw [List.find?_eq_none]
        intro entry member
        have differs := (List.mem_filter.mp member).2
        simpa using differs
      rw [absent]
      simp
    · rw [if_neg same]
      have kept : (fields.filter (·.1 ≠ key)).find? (·.1 = other) =
          fields.find? (·.1 = other) := by
        rw [List.find?_filter]
        refine congrArg (List.find? · fields) (funext fun entry => ?_)
        by_cases here : entry.1 = other
        · simp [here, Ne.symm same]
        · simp [here]
      rw [kept]
      simp [same, get?]
  | null => simp [set, get?]
  | bool value => simp [set, get?]
  | num value => simp [set, get?]
  | str value => simp [set, get?]
  | arr items => simp [set, get?]

end Json

end LightWallet
