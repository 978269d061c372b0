import GraphClient.Package.Fragment
import GraphClient.Request.Table

/-!
# Accessors that take a selection

For each operation on a table there is a function that takes a selection from its caller. Its
document is the one with the fixed selection, with a hole where the fields of the rows stand; the
hole is filled when the function is called.

* `Accessor.opened` : a request whose document has a place for the hole.
* `Accessor.openLines` : the lines of a document with a hole.
* `Accessor.fragment` : the accessor of an operation.
-/

namespace GraphClient

open TypeScript (TypeExpr Definition Item ImportSet)

/-- Where the rows of an operation stand in its answer. -/
inductive RowPosition where
  /-- The rows of a page, which is answered as a whole. -/
  | page
  /-- The first row of a page. -/
  | first
  /-- A root field that may be null. -/
  | single
  /-- The entity field of a payload; both may be null. -/
  | payload
deriving Repr, DecidableEq, Inhabited

namespace Accessor

/-- Stands in a document where the fields of the rows go. -/
def hole : String := "__selection__"

/-- The characters before the hole, if a line ends with it. -/
def beforeHole? (line : List Char) : Option (List Char) :=
  let marker := hole.toList
  if marker.isSuffixOf line then some (line.take (line.length - marker.length)) else none

/-- A line of a document with a hole. Where only the hole stands, the fields of the rows are
written, as deep as the hole is indented. -/
def openLine (table : String) (line : String) : String :=
  match beforeHole? line.toList with
  | some before =>
    if before.all Text.isBlank then
      "$\x7bselectionSet('" ++ table ++ "', select, " ++
        toString ((String.ofList before).utf8ByteSize / 2) ++ ")\x7d"
    else line
  | none => line

/-- The path to the field whose selection is open. -/
def openPath (page : PageNames) (position : RowPosition) (path : List String) : List String :=
  match position with
  | .page => path ++ [page.rows]
  | _ => path

/-- The request itself, if its document has the field whose selection is open. -/
def opened (page : PageNames) (position : RowPosition) (request : Request) :
    Except RequestError Request :=
  match request.document.fieldAt? (openPath page position request.path) with
  | some _ => .ok request
  | none => .error .unwritable

/-- The document with the hole in place of the fields of the rows. -/
def openDocument (page : PageNames) (position : RowPosition) (request : Request) : Document :=
  request.document.modifyAt (openPath page position request.path) fun field =>
    { field with selection := [.leaf hole] }

/-- The lines of a document with a hole, as they stand in a template literal. -/
def openLines (table : String) (document : Document) : List String :=
  (Text.lines (TypeScript.templateText document.text)).map (openLine table)

/-- The function from selections to documents. -/
def selectDocument (page : PageNames) (table : String) (names : OperationNames)
    (position : RowPosition) (request : Request) : Definition where
  exported := false
  words := "const"
  name := names.selectDocument
  rest := " = (select: object) => /* GraphQL */ `\n" ++
    String.join ((openLines table (openDocument page position request)).map (· ++ "\n")) ++ "`;"

/-- The answer of the server, what is returned, and the expression that picks it. -/
def answerTexts (page : PageNames) (entityNames : EntityNames) (position : RowPosition)
    (root : String) : String × String × String :=
  let row := "InferSelectResult<" ++ entityNames.withRelationsType ++ ", S>"
  let ofRoot (type : String) : String := "\x7b " ++ root ++ ": " ++ type ++ " \x7d"
  let connection := connectionType ++ "<" ++ row ++ ">"
  let orNull := row ++ " | null"
  match position with
  | .page => (ofRoot connection, connection, "data." ++ root)
  | .first => (ofRoot connection, orNull, "data." ++ root ++ "." ++ page.rows ++ "[0] ?? null")
  | .single => (ofRoot orNull, orNull, "data." ++ root)
  | .payload =>
    (ofRoot ("\x7b " ++ entityNames.entityField ++ ": " ++ orNull ++ " \x7d | null"), orNull,
      "data." ++ root ++ "?." ++ entityNames.entityField ++ " ?? null")

/-- The function that takes a selection. -/
def function (page : PageNames) (entityNames : EntityNames) (names : OperationNames)
    (position : RowPosition) (root : String) : Definition :=
  let (data, returned, value) := answerTexts page entityNames position root
  { words := "async function"
    name := names.accessor
    rest := Fragment.body ["<S extends " ++ entityNames.selectType ++ ">(",
      "  args: " ++ names.variablesType ++ " & \x7b select: S & StrictSelect<S, " ++
        entityNames.withRelationsType ++ "> \x7d,",
      "): Promise<" ++ returned ++ "> \x7b",
      "  const \x7b select, ...variables \x7d = args;",
      "  const data = await execute<" ++ data ++ ", " ++ names.variablesType ++ ">(",
      "    " ++ names.selectDocument ++ "(select),",
      "    variables,",
      "  );",
      "  return " ++ value ++ ";",
      "\x7d"] }

/-- Whether the rows come in a page. -/
def isPaged : RowPosition → Bool
  | .page | .first => true
  | .single | .payload => false

/-- The accessor of an operation on a table. -/
def fragment (page : PageNames) (table : String) (entityNames : EntityNames)
    (names : OperationNames) (position : RowPosition) (request : Request) : Fragment where
  items := [.definition (selectDocument page table names position request),
    .definition (function page entityNames names position request.rootField)]
  imports := .value "../client" "execute" ++ .value "../client" "selectionSet" ++
    .typesFrom "../select-types" ["InferSelectResult", "StrictSelect"] ++
    .typesFrom "../types" [entityNames.selectType, entityNames.withRelationsType] ++
    (if isPaged position then .typesFrom "../select-types" [connectionType] else {})

end Accessor

end GraphClient
