import GraphClient.Json.Basic
import GraphClient.Json.Quoted
import GraphClient.Number.Shortest

/-!
# Writing JSON

The compact text of a value, fields in their order.
-/

namespace GraphClient

namespace Json

mutual

/-- The compact text of a value. -/
def compact : Json → String
  | .null => "null"
  | .bool value => if value then "true" else "false"
  | .int value => toString value
  | .float value => value.text
  | .string value => quoted value
  | .array items => "[" ++ String.intercalate "," (compactItems items) ++ "]"
  | .object fields => "\x7b" ++ String.intercalate "," (compactFields fields) ++ "\x7d"

/-- The texts of the elements of an array. -/
def compactItems : List Json → List String
  | [] => []
  | value :: rest => value.compact :: compactItems rest

/-- The texts of the fields of an object. -/
def compactFields : List (String × Json) → List String
  | [] => []
  | (key, value) :: rest => (quoted key ++ ":" ++ value.compact) :: compactFields rest

end

end Json

end GraphClient
