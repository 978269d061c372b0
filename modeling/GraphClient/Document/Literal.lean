import GraphClient.Json.Basic
import GraphClient.Json.Quoted
import GraphClient.Number.Shortest
import GraphClient.Number.Word

/-!
# Literals

The values that may stand as arguments in a document, and how they are written. A JSON value becomes
a literal of the same structure; an integer beyond the signed 64-bit words becomes a floating-point
number.
-/

namespace GraphClient

/-- An argument value in a document. -/
inductive Literal where
  | reference (name : String)
  | enumeration (value : String)
  | string (value : String)
  | int (value : Int)
  | float (value : Binary64)
  | bool (value : Bool)
  | null
  | list (items : List Literal)
  | object (fields : List (String × Literal))
deriving Repr, BEq, Inhabited

namespace Literal

/-- The literal of an integer. -/
def ofInt (n : Int) : Literal :=
  if Word.fitsSigned n then .int n else .float (Binary64.ofInt n)

mutual

/-- The literal of a JSON value. -/
def ofJson : Json → Literal
  | .null => .null
  | .bool value => .bool value
  | .int value => ofInt value
  | .float value => .float value
  | .string value => .string value
  | .array items => .list (ofItems items)
  | .object fields => .object (ofFields fields)

/-- The literals of the elements of an array. -/
def ofItems : List Json → List Literal
  | [] => []
  | value :: rest => ofJson value :: ofItems rest

/-- The literals of the fields of an object. -/
def ofFields : List (String × Json) → List (String × Literal)
  | [] => []
  | (key, value) :: rest => (key, ofJson value) :: ofFields rest

end

mutual

/-- The text of a literal. -/
def text : Literal → String
  | .reference name => "$" ++ name
  | .enumeration value => value
  | .string value => quoted value
  | .int value => toString value
  | .float value => value.text
  | .bool value => if value then "true" else "false"
  | .null => "null"
  | .list items => "[" ++ String.intercalate ", " (itemTexts items) ++ "]"
  | .object [] => "\x7b\x7d"
  | .object (field :: rest) =>
    "\x7b " ++ String.intercalate ", " (fieldTexts (field :: rest)) ++ " \x7d"

/-- The texts of the items of a list. -/
def itemTexts : List Literal → List String
  | [] => []
  | value :: rest => value.text :: itemTexts rest

/-- The texts of the fields of an object, or of the arguments of a field. -/
def fieldTexts : List (String × Literal) → List String
  | [] => []
  | (key, value) :: rest => (key ++ ": " ++ value.text) :: fieldTexts rest

end

end Literal

end GraphClient
