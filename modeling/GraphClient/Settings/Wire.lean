import GraphClient.Selection.Wire
import GraphClient.Settings.Basic
import GraphClient.Toml.Reader
import GraphClient.Number.Word

/-!
# Settings in JSON and in TOML

Every section and every field has a default; a field that is not known is refused. A choice among
words is given as the word alone, or as the only key of an object that holds nothing under it.
-/

namespace GraphClient

open Json (Decoded)

/-- The formats of settings. -/
inductive SettingsFormat where
  | json
  | toml
deriving Repr, DecidableEq, Inhabited

namespace SettingsFormat

/-- Whether a value stands for nothing: null in JSON, and an empty table or array in TOML, which has
no null. -/
def isNothing : SettingsFormat → Json → Bool
  | .json, .null => true
  | .toml, .array [] => true
  | .toml, .object [] => true
  | _, _ => false

/-- Reads a choice among some words. -/
def toWord {α : Type} (format : SettingsFormat) (words : List (String × α)) :
    Json → Decoded α
  | .object [(word, value)] =>
    if format.isNothing value then Json.toWord words (.string word) else .error .kind
  | value => Json.toWord words value

end SettingsFormat

/-- Reads the names of page fields and arguments. -/
def PageNames.ofJson (value : Json) : Decoded PageNames := do
  let fields ← value.toFields
  fields.knownOnly ["nodes_field", "total_count_field", "page_info_field", "filter_argument",
    "order_by_argument"]
  let usual : PageNames := {}
  return {
    rows := ← fields.defaulted "nodes_field" usual.rows Json.toText
    count := ← fields.defaulted "total_count_field" usual.count Json.toText
    info := ← fields.defaulted "page_info_field" usual.info Json.toText
    filter := ← fields.defaulted "filter_argument" usual.filter Json.toText
    order := ← fields.defaulted "order_by_argument" usual.order Json.toText }

/-- The words for the styles of cache keys. -/
def KeyStyle.words : List (String × KeyStyle) :=
  [("centralized", .centralized), ("inline", .inline)]

/-- Reads the parent of an entity. The foreign key has two spellings. -/
def Parentage.ofJson (value : Json) : Decoded Parentage := do
  let fields ← value.toFields
  fields.knownOnly ["parent", "foreign_key", "foreignKey", "ancestors"]
  let parent ← fields.required "parent" Json.toText
  let foreignKey ←
    match ← fields.only? ["foreign_key", "foreignKey"] with
    | some value => value.toText
    | none => throw (.missingField "foreign_key")
  let ancestors ← fields.optional "ancestors" (Json.toListOf Json.toText)
  return { parent, foreignKey, ancestors }

/-- Reads the settings of cache keys. -/
def KeySettings.ofJson (format : SettingsFormat) (value : Json) : Decoded KeySettings := do
  let fields ← value.toFields
  fields.knownOnly ["style", "relationships", "mutation_keys"]
  return {
    style := ← fields.defaulted "style" .centralized (format.toWord KeyStyle.words)
    parents := ← fields.defaulted "relationships" Keyed.empty (Json.toKeyed Parentage.ofJson)
    mutationKeys := ← fields.defaulted "mutation_keys" true Json.toBool }

/-- The words for the default selections. -/
def DefaultPolicy.words : List (String × DefaultPolicy) :=
  [("primary-key", .primaryKey), ("all-scalars", .allScalars)]

/-- Reads the configured selections. -/
def SelectionSettings.ofJson (format : SettingsFormat) (value : Json) :
    Decoded SelectionSettings := do
  let fields ← value.toFields
  fields.knownOnly ["strict_depth", "default", "entities", "operations", "custom_depth"]
  let usual : SelectionSettings := {}
  return {
    strictDepth :=
      ← fields.defaulted "strict_depth" usual.strictDepth (Json.toNatUpTo Word.maxUnsigned)
    policy := ← fields.defaulted "default" .primaryKey (format.toWord DefaultPolicy.words)
    entities := ← fields.defaulted "entities" Keyed.empty (Json.toKeyed Selection.ofJson)
    operations := ← fields.defaulted "operations" Keyed.empty (Json.toKeyed Selection.ofJson)
    customDepth :=
      ← fields.defaulted "custom_depth" usual.customDepth (Json.toNatUpTo Word.maxUnsigned) }

/-- The words for the typing of unknown scalars. -/
def UnknownScalars.words : List (String × UnknownScalars) :=
  [("pass-through", .passThrough), ("unknown", .unknown)]

/-- Reads the typing of scalars. -/
def ScalarSettings.ofJson (format : SettingsFormat) (value : Json) : Decoded ScalarSettings := do
  let fields ← value.toFields
  fields.knownOnly ["unknown", "overrides"]
  return {
    unknown := ← fields.defaulted "unknown" .passThrough (format.toWord UnknownScalars.words)
    overrides := ← fields.defaulted "overrides" Keyed.empty (Json.toKeyed Json.toText) }

/-- The words for the answers of deletions. -/
def DeleteAnswer.words : List (String × DeleteAnswer) := [("entity", .entity), ("key", .key)]

/-- Reads whether hooks are written. -/
def Settings.hooksOfJson (value : Json) : Decoded Bool := do
  let fields ← value.toFields
  fields.knownOnly ["enabled"]
  fields.defaulted "enabled" true Json.toBool

namespace Settings

/-- Reads all settings. -/
def ofJson (format : SettingsFormat) (value : Json) : Decoded Settings := do
  let fields ← value.toFields
  fields.knownOnly ["pagination", "react_query", "query_keys", "selection", "scalars",
    "delete_returns"]
  return {
    page := ← fields.defaulted "pagination" {} PageNames.ofJson
    hooks := ← fields.defaulted "react_query" true hooksOfJson
    keys := ← fields.defaulted "query_keys" {} (KeySettings.ofJson format)
    selection := ← fields.defaulted "selection" {} (SelectionSettings.ofJson format)
    scalars := ← fields.defaulted "scalars" {} (ScalarSettings.ofJson format)
    deleteAnswer := ← fields.defaulted "delete_returns" .entity (format.toWord DeleteAnswer.words) }

/-- Reads settings from a TOML text. -/
def ofText (text : String) : Decoded Settings :=
  match Toml.ofText? text with
  | some value => ofJson .toml value
  | none => .error .kind

end Settings

end GraphClient
