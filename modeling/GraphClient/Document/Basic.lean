import GraphClient.Document.Literal
import GraphClient.Schema.Basic
import GraphClient.Text.Blank

/-!
# Documents

A document holds one operation: its kind, its name, its variables and the tree of its fields. It is
written line by line, two spaces for each level.

* `FieldNode`, `Document` : the trees.
* `Document.fieldAt?`, `Document.modifyAt` : the field at the end of a path of names.
* `Document.text` : the text of a document.
-/

namespace GraphClient

/-- A selected field with its arguments and the fields selected below it. -/
structure FieldNode where
  name : String
  arguments : List (String × Literal)
  selection : List FieldNode
deriving Repr, BEq, Inhabited

/-- A declared variable. -/
structure VariableDeclaration where
  name : String
  type : TypeRef
deriving Repr, DecidableEq, Inhabited

/-- A document with one operation. -/
structure Document where
  kind : OperationKind
  name : String
  declarations : List VariableDeclaration
  selection : List FieldNode
deriving Repr, Inhabited

namespace FieldNode

/-- A field without arguments and selection. -/
def leaf (name : String) : FieldNode := ⟨name, [], []⟩

/-- A field without arguments. -/
def withSelection (name : String) (selection : List FieldNode) : FieldNode := ⟨name, [], selection⟩

/-- The first of some fields that has a name. -/
def find? (fields : List FieldNode) (name : String) : Option FieldNode :=
  List.find? (·.name == name) fields

/-- The field at the end of a path of names, the first of its name on every level. -/
def fieldAt? (fields : List FieldNode) : List String → Option FieldNode
  | [] => none
  | [name] => find? fields name
  | name :: next :: path => (find? fields name).bind fun field =>
      fieldAt? field.selection (next :: path)

/-- Changes the first of some fields that has a name. -/
def modifyFirst (name : String) (change : FieldNode → FieldNode) : List FieldNode → List FieldNode
  | [] => []
  | field :: rest =>
    if field.name = name then change field :: rest else field :: modifyFirst name change rest

/-- Changes the field at the end of a path of names, if it is there. -/
def modifyAt (change : FieldNode → FieldNode) : List String → List FieldNode → List FieldNode
  | [], fields => fields
  | [name], fields => modifyFirst name change fields
  | name :: next :: path, fields =>
    modifyFirst name
      (fun field => { field with selection := modifyAt change (next :: path) field.selection })
      fields

/-- A field with its arguments, without its selection. -/
def head (name : String) (arguments : List (String × Literal)) : String :=
  if arguments.isEmpty then name
  else name ++ "(" ++ String.intercalate ", " (Literal.fieldTexts arguments) ++ ")"

/-- The white space in front of a line. -/
def indent (depth : Nat) : String := String.ofList (List.replicate (2 * depth) ' ')

mutual

/-- The lines of a field at a depth. -/
def lines (depth : Nat) : FieldNode → List String
  | ⟨name, arguments, []⟩ => [indent depth ++ head name arguments]
  | ⟨name, arguments, field :: rest⟩ =>
    (indent depth ++ head name arguments ++ " \x7b") ::
      (selectionLines (depth + 1) (field :: rest) ++ [indent depth ++ "\x7d"])

/-- The lines of some fields at a depth. -/
def selectionLines (depth : Nat) : List FieldNode → List String
  | [] => []
  | field :: rest => field.lines depth ++ selectionLines depth rest

end

theorem find?_cons (field : FieldNode) (rest : List FieldNode) (name : String) :
    find? (field :: rest) name = if field.name = name then some field else find? rest name := by
  by_cases h : field.name = name <;> simp [find?, h]

/-- A path of two or more names goes on below the field of its first name. -/
theorem fieldAt?_cons_cons (fields : List FieldNode) (name next : String) (path : List String) :
    fieldAt? fields (name :: next :: path) =
      (find? fields name).bind fun field => fieldAt? field.selection (next :: path) := rfl

theorem fieldAt?_singleton (fields : List FieldNode) (name : String) :
    fieldAt? fields [name] = find? fields name := rfl

theorem selectionLines_append (depth : Nat) (a b : List FieldNode) :
    selectionLines depth (a ++ b) = selectionLines depth a ++ selectionLines depth b := by
  induction a with
  | nil => simp [selectionLines]
  | cons field rest ih => simp [selectionLines, ih]

end FieldNode

namespace VariableDeclaration

/-- The text of a declaration: `$first: Int`. -/
def text (declaration : VariableDeclaration) : String :=
  "$" ++ declaration.name ++ ": " ++ declaration.type.text

end VariableDeclaration

namespace Document

/-- The first line of a document, without the brace that opens its selection. -/
def head (document : Document) : String :=
  document.kind.keyword ++ " " ++ document.name ++
    (if document.declarations.isEmpty then ""
      else "(" ++ String.intercalate ", " (document.declarations.map (·.text)) ++ ")")

/-- The lines of a document. -/
def lines (document : Document) : List String :=
  match document.selection with
  | [] => [document.head]
  | field :: rest =>
    (document.head ++ " \x7b") :: (FieldNode.selectionLines 1 (field :: rest) ++ ["\x7d"])

/-- The text of a document, a line feed after every line. -/
def text (document : Document) : String := String.join (document.lines.map (· ++ "\n"))

/-- The text of a document without white space at its end. -/
def shownText (document : Document) : String := Text.trimEnd document.text

/-- The first field of the operation. -/
def root? (document : Document) : Option FieldNode := document.selection.head?

/-- The field at the end of a path of names. -/
def fieldAt? (document : Document) (path : List String) : Option FieldNode :=
  FieldNode.fieldAt? document.selection path

/-- Changes the field at the end of a path of names, if it is there. -/
def modifyAt (document : Document) (path : List String) (change : FieldNode → FieldNode) :
    Document :=
  { document with selection := FieldNode.modifyAt change path document.selection }

/-- The declaration of a variable. -/
def declaration? (document : Document) (name : String) : Option VariableDeclaration :=
  document.declarations.find? (·.name == name)

end Document

end GraphClient
