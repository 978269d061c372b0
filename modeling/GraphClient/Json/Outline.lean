import GraphClient.Keyed

/-!
# Outlines of JSON values

An outline says which parts of a value a reader looks at. The other fields of an object are passed
over: what they hold has to have the form of a value, but it may nest to any depth, and its numbers
and strings need not have a value of their own.
-/

namespace GraphClient

namespace Json

/-- Which parts of a value are looked at. -/
inductive Outline where
  /-- All of it. -/
  | whole
  /-- An array whose elements have an outline in common. -/
  | listOf (element : Outline)
  /-- An object, of which only the given fields are looked at. -/
  | record (fields : List (String × Outline))
deriving Inhabited

namespace Outline

/-- An object of which only the given fields are looked at, all of them whole. -/
def fields (names : List String) : Outline := .record (names.map fun name => (name, .whole))

/-- The outline of the elements, if the value is an array. -/
def element : Outline → Outline
  | .listOf element => element
  | _ => .whole

/-- The outline of a field, if the value is an object; nothing for a field that is passed over. -/
def field? : Outline → String → Option Outline
  | .record fields, name => Entries.find? fields name
  | _, _ => some .whole

@[simp] theorem element_whole : element .whole = .whole := rfl

@[simp] theorem field?_whole (name : String) : field? .whole name = some .whole := rfl

@[simp] theorem field?_record (fields : List (String × Outline)) (name : String) :
    field? (.record fields) name = Entries.find? fields name := rfl

end Outline

end Json

end GraphClient
