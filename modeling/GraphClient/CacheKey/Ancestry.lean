import GraphClient.Settings.Basic
import GraphClient.Text.Casing

/-!
# Ancestors of entities

The entities that another one belongs to, nearest first. They are found by going from parent to
parent until an entity has no parent or the parent was met before; an explicit list takes their
place.
-/

namespace GraphClient

/-- An entity further up, and the field of a scope that holds its id. -/
structure Ancestor where
  entity : String
  foreignKey : String
deriving Repr, DecidableEq, Inhabited

/-- The name of the key builder for the ancestor: `byUser`. -/
def Ancestor.builder (ancestor : Ancestor) : String := "by" ++ Text.pascalCase ancestor.entity

namespace Ancestry

/-- Goes from parent to parent for at most `steps` steps. `visited` holds the entities met so far,
and `current` is the parentage of the last one. -/
def walk (parents : Keyed Parentage) : Nat → List String → Parentage → List Ancestor
  | 0, _, _ => []
  | steps + 1, visited, current =>
    if visited.contains current.parent then []
    else
      ⟨current.parent, current.foreignKey⟩ ::
        match parents.find? current.parent with
        | some next => walk parents steps (current.parent :: visited) next
        | none => []

/-- The field that refers to an ancestor from its child: the configured one if the ancestor is the
parent of the child, else a derived one. -/
def foreignKey (parents : Keyed Parentage) (child ancestor : String) : String :=
  match parents.find? child with
  | some parentage =>
    if parentage.parent = ancestor then parentage.foreignKey else Text.camelCase ancestor ++ "Id"
  | none => Text.camelCase ancestor ++ "Id"

/-- The ancestors of an explicit list, each linked to the one before it. -/
def spelledOut (parents : Keyed Parentage) : String → List String → List Ancestor
  | _, [] => []
  | child, ancestor :: rest =>
    ⟨ancestor, foreignKey parents child ancestor⟩ :: spelledOut parents ancestor rest

/-- The ancestors of an entity, nearest first. An entity that is met has a parent of its own, so
there are no more steps than entities with a parent. -/
def of (parents : Keyed Parentage) (entity : String) : List Ancestor :=
  match parents.find? entity with
  | none => []
  | some parentage =>
    match parentage.ancestors with
    | some explicit => spelledOut parents entity explicit
    | none => walk parents parents.size [entity] parentage

end Ancestry

end GraphClient
