import GraphClient.Json.Basic

/-!
# Decoding values

Small readers from JSON values to the types of the library. A record is read field by field: a field
may be required, may have a default when it is missing, or may be optional, when it is missing or
null. A field that is looked for may occur only once.
-/

namespace GraphClient

namespace Json

/-- Why a value does not fit the type it is read as. -/
inductive Mismatch where
  | kind
  | range
  | unknownWord (word : String)
  | missingField (name : String)
  | repeatedField (name : String)
  | unknownField (name : String)
deriving Repr, DecidableEq, Inhabited

/-- The outcome of reading a value as a type. -/
abbrev Decoded (α : Type) := Except Mismatch α

/-- A string. -/
def toText : Json → Decoded String
  | .string value => .ok value
  | _ => .error .kind

/-- A truth value. -/
def toBool : Json → Decoded Bool
  | .bool value => .ok value
  | _ => .error .kind

/-- A natural number of at most `bound`. -/
def toNatUpTo (bound : Nat) : Json → Decoded Nat
  | .int value => if 0 ≤ value ∧ value ≤ bound then .ok value.toNat else .error .range
  | _ => .error .kind

/-- The fields of an object. -/
def toFields : Json → Decoded (Entries Json)
  | .object fields => .ok fields
  | _ => .error .kind

/-- A list whose elements are read alike. -/
def toListOf {α : Type} (element : Json → Decoded α) : Json → Decoded (List α)
  | .array items => items.mapM element
  | _ => .error .kind

/-- Nothing for null, else the value. -/
def toOption {α : Type} (inner : Json → Decoded α) : Json → Decoded (Option α)
  | .null => .ok none
  | value => (inner value).map some

/-- An object read as a keyed list of values that are read alike. -/
def toKeyed {α : Type} (element : Json → Decoded α) (value : Json) : Decoded (Keyed α) := do
  let fields ← value.toFields
  let pairs ← fields.mapM fun p => (element p.2).map fun v => (p.1, v)
  return Keyed.ofList pairs

/-- One of a list of words. -/
def toWord {α : Type} (words : List (String × α)) (value : Json) : Decoded α := do
  let word ← value.toText
  match Entries.find? words word with
  | some meaning => return meaning
  | none => throw (.unknownWord word)

end Json

namespace Entries

open Json (Mismatch Decoded)

/-- The only field with one of the given names. -/
def only? (fields : Entries Json) (names : List String) : Decoded (Option Json) :=
  match fields.filter fun p => names.contains p.1 with
  | [] => .ok none
  | [p] => .ok (some p.2)
  | p :: _ => .error (.repeatedField p.1)

/-- A field that has to be present. -/
def required {α : Type} (fields : Entries Json) (name : String) (inner : Json → Decoded α) :
    Decoded α := do
  match ← fields.only? [name] with
  | some value => inner value
  | none => throw (.missingField name)

/-- A field with a value for its absence. -/
def defaulted {α : Type} (fields : Entries Json) (name : String) (absent : α)
    (inner : Json → Decoded α) : Decoded α := do
  match ← fields.only? [name] with
  | some value => inner value
  | none => return absent

/-- A field that may be missing or null. -/
def optional {α : Type} (fields : Entries Json) (name : String) (inner : Json → Decoded α) :
    Decoded (Option α) :=
  fields.defaulted name none (Json.toOption inner)

/-- Refuses fields other than the named ones. -/
def knownOnly (fields : Entries Json) (names : List String) : Decoded Unit :=
  match List.find? (fun p => !names.contains p.1) fields with
  | some p => .error (.unknownField p.1)
  | none => .ok ()

end Entries

end GraphClient
