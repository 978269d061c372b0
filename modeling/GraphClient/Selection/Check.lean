import GraphClient.Selection.Basic
import GraphClient.Shape.Catalog

/-!
# Checking selections

The strict check of a selection against a shape: every key is a field, leaves are wanted plainly,
relations carry selections of their own, which fit the related shape, no level is bare, and the
levels do not exceed a bound. The first violation on the way through the tree is reported.
-/

namespace GraphClient

/-- Why a selection does not fit a shape. The path leads from the name of the shape to the level
where the violation is met. -/
inductive Violation where
  | unknownField (path : List String) (field shape : String)
  | bareRelation (path : List String) (field : String)
  | nestedLeaf (path : List String) (field : String)
  | tooDeep (path : List String) (maxDepth : Nat)
  | nothingSelected (path : List String)
deriving Repr, DecidableEq, Inhabited

namespace Violation

/-- A path as text. -/
def pathText (path : List String) : String := String.intercalate "." path

/-- What is told about a violation. -/
def message : Violation → String
  | .unknownField path field shape =>
    "`" ++ field ++ "` is not a field of " ++ shape ++ " (at " ++ pathText path ++ ")"
  | .bareRelation path field =>
    "relation `" ++ field ++ "` needs a sub-selection, not `true` (at " ++ pathText path ++ ")"
  | .nestedLeaf path field =>
    "`" ++ field ++ "` is a leaf field and takes no sub-selection (at " ++ pathText path ++ ")"
  | .tooDeep path maxDepth =>
    "selection is nested deeper than " ++ toString maxDepth ++ " levels (at " ++ pathText path ++
      ")"
  | .nothingSelected path => "selection selects no fields (at " ++ pathText path ++ ")"

end Violation

/-- The check of one level: its depth first, then its keys, then that it is not bare. -/
def checkLevel (maxDepth : Nat) (path : List String) (depth : Nat) (choices : Choices)
    (keys : Except Violation Unit) : Except Violation Unit :=
  if depth > maxDepth then .error (.tooDeep path maxDepth)
  else
    match keys with
    | .error violation => .error violation
    | .ok () => if Choices.isBare choices then .error (.nothingSelected path) else .ok ()

mutual

/-- Checks the keys of a level in order. -/
def Choices.checkKeys (catalog : Catalog) (maxDepth : Nat) (shape : Shape) (path : List String)
    (depth : Nat) : List (String × Choice) → Except Violation Unit
  | [] => .ok ()
  | (key, choice) :: rest =>
    match shape.field? key with
    | none => .error (.unknownField path key shape.name)
    | some field =>
      match Choice.check catalog maxDepth path depth key field choice with
      | .error violation => .error violation
      | .ok () => Choices.checkKeys catalog maxDepth shape path depth rest

/-- Checks what is said about a field. -/
def Choice.check (catalog : Catalog) (maxDepth : Nat) (path : List String) (depth : Nat)
    (key : String) (field : ShapeField) : Choice → Except Violation Unit
  | .excluded => .ok ()
  | .wanted => if field.type.isLeaf then .ok () else .error (.bareRelation path key)
  | .nested choices _ =>
    match field.type.related? with
    | none => .error (.nestedLeaf path key)
    | some related =>
      match catalog.find? related with
      | none => .ok ()
      | some inner =>
        checkLevel maxDepth (path ++ [key]) (depth + 1) choices
          (Choices.checkKeys catalog maxDepth inner (path ++ [key]) (depth + 1) choices)

end

/-- Checks the choices of a level and of the levels below it. -/
def Choices.check (catalog : Catalog) (maxDepth : Nat) (shape : Shape) (path : List String)
    (depth : Nat) (choices : Choices) : Except Violation Unit :=
  checkLevel maxDepth path depth choices (checkKeys catalog maxDepth shape path depth choices)

/-- Checks a selection against a shape, with at most `maxDepth` levels. -/
def Selection.check (catalog : Catalog) (maxDepth : Nat) (shape : Shape) (selection : Selection) :
    Except Violation Unit :=
  Choices.check catalog maxDepth shape [shape.name] 1 selection.choices

end GraphClient
