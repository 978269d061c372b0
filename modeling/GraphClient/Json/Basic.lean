import GraphClient.Keyed
import GraphClient.Number.Binary64

/-!
# JSON values

Values as trees. The fields of an object keep their order, which is visible wherever a value is
written into a request. Integers are exact; a number written with a fraction or an exponent is a
binary floating-point number.
-/

namespace GraphClient

/-- A JSON value. -/
inductive Json where
  | null
  | bool (value : Bool)
  | int (value : Int)
  | float (value : Binary64)
  | string (value : String)
  | array (items : List Json)
  | object (fields : List (String × Json))
deriving Repr, Inhabited

namespace Json

/-- The field of an object, or nothing for other values. -/
def get? : Json → String → Option Json
  | .object fields, key => Entries.find? fields key
  | _, _ => none

/-- The element of an array, or nothing for other values. -/
def item? : Json → Nat → Option Json
  | .array items, index => items[index]?
  | _, _ => none

/-- The value at the end of a path of field names. -/
def at? : Json → List String → Option Json
  | value, [] => some value
  | value, key :: path => (value.get? key).bind (·.at? path)

mutual

/-- The value in which every object has each key once, at its first place and with its last value.
-/
def distinctKeys : Json → Json
  | .array items => .array (distinctKeysItems items)
  | .object fields => .object (Entries.ofList (distinctKeysFields fields))
  | value => value

/-- `distinctKeys` of the elements of an array. -/
def distinctKeysItems : List Json → List Json
  | [] => []
  | value :: rest => value.distinctKeys :: distinctKeysItems rest

/-- `distinctKeys` of the values of an object's fields. -/
def distinctKeysFields : List (String × Json) → List (String × Json)
  | [] => []
  | (key, value) :: rest => (key, value.distinctKeys) :: distinctKeysFields rest

end

mutual

/-- The value with every number that is not finite replaced by null, as JSON has no text for it. -/
def finite : Json → Json
  | .float x => if x.isFinite then .float x else .null
  | .array items => .array (finiteItems items)
  | .object fields => .object (finiteFields fields)
  | value => value

/-- `finite` of the elements of an array. -/
def finiteItems : List Json → List Json
  | [] => []
  | value :: rest => value.finite :: finiteItems rest

/-- `finite` of the values of an object's fields. -/
def finiteFields : List (String × Json) → List (String × Json)
  | [] => []
  | (key, value) :: rest => (key, value.finite) :: finiteFields rest

end

@[simp] theorem at?_nil (value : Json) : value.at? [] = some value := by
  cases value <;> rfl

theorem at?_cons (value : Json) (key : String) (path : List String) :
    value.at? (key :: path) = (value.get? key).bind (·.at? path) := by
  cases value <;> rfl

end Json

end GraphClient
