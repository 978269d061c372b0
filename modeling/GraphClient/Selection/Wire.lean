import GraphClient.Json.Decode
import GraphClient.Selection.Basic
import GraphClient.Number.Word

/-!
# Selections in JSON and in settings

An object whose keys map to true, to false, or to an object with the field `select` and the optional
fields `first`, `filter` and `orderBy`.
-/

namespace GraphClient

open Json (Decoded)

/-- Reads the page arguments that stand beside a nested selection. -/
def PageArguments.ofFields (fields : Entries Json) : Decoded PageArguments := do
  return {
    first := ← Entries.optional fields "first" (Json.toNatUpTo Word.maxHalf)
    filter := ← Entries.optional fields "filter" fun value => .ok value.finite
    orderBy := ← Entries.optional fields "orderBy" (Json.toListOf Json.toText) }

/-- The fields that may stand in the object of a nested selection. -/
def Choice.fieldNames : List String := ["select", "first", "filter", "orderBy"]

mutual

/-- Reads what is said about a key. -/
def Choice.ofJson : Json → Decoded Choice
  | .bool true => .ok .wanted
  | .bool false => .ok .excluded
  | .object fields => do
    Entries.knownOnly fields Choice.fieldNames
    let arguments ← PageArguments.ofFields fields
    let _ ← Entries.only? fields ["select"]
    let choices ← Choice.choicesOfFields fields
    return .nested choices arguments
  | _ => .error .kind

/-- Reads the field `select`. -/
def Choice.choicesOfFields : List (String × Json) → Decoded (List (String × Choice))
  | [] => .error (.missingField "select")
  | (key, value) :: rest =>
    if key = "select" then
      match value with
      | .object fields => Choice.pairsOfFields fields
      | _ => .error .kind
    else Choice.choicesOfFields rest

/-- Reads the keys of one level. -/
def Choice.pairsOfFields : List (String × Json) → Decoded (List (String × Choice))
  | [] => .ok []
  | (key, value) :: rest => do
    let choice ← Choice.ofJson value
    let choices ← Choice.pairsOfFields rest
    return (key, choice) :: choices

end

/-- Reads a nested selection with its arguments. -/
def Choice.nestedOfJson (value : Json) : Decoded (Selection × PageArguments) := do
  match ← Choice.ofJson value with
  | .nested choices arguments => return (Selection.ofChoices choices, arguments)
  | _ => throw .kind

/-- Reads a selection. -/
def Selection.ofJson (value : Json) : Decoded Selection := do
  let fields ← value.toFields
  return Selection.ofChoices (← Choice.pairsOfFields fields)

end GraphClient
