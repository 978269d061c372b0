import GraphClient.TypeScript.Declaration
import GraphClient.TypeScript.Imports

/-!
# Source files

A file is a header, imports and items. Items are kept structured, so that the names which a file
exports can be read off without looking into texts.
-/

namespace GraphClient

namespace TypeScript

/-- A statement that gives a name to something other than a type. -/
structure Definition where
  exported : Bool := true
  /-- The words before the name: `const`, `async function`. -/
  words : String
  name : String
  /-- The text after the name. -/
  rest : String
  /-- A comment in front, with its line end. -/
  comment : String := ""
deriving Repr, DecidableEq, Inhabited

/-- The text of a definition. -/
def Definition.text (definition : Definition) : String :=
  definition.comment ++ (if definition.exported then "export " else "") ++ definition.words ++
    " " ++ definition.name ++ definition.rest

/-- An item of a file. -/
inductive Item where
  | declaration (exported : Bool) (declaration : Declaration)
  | definition (definition : Definition)
  | reExport (source : String)
  /-- Statements that are written as they are. -/
  | code (text : String)
  | comment (text : String)
deriving Inhabited

namespace Item

/-- Whether the item exports all names of another file. -/
def isReExport : Item → Bool
  | .reExport _ => true
  | _ => false

/-- The names that the item itself exports. -/
def exportedNames : Item → List String
  | .declaration true type => [type.name]
  | .definition ⟨true, _, name, _, _⟩ => [name]
  | _ => []

/-- The text of an item. -/
def text : Item → String
  | .declaration exported type => type.text exported
  | .definition value => Text.trimEnd value.text
  | .reExport source => "export * from '" ++ source ++ "';"
  | .code text => Text.trimEnd text
  | .comment text => String.intercalate "\n" ((Text.lines text).map ("// " ++ ·))

/-- An exported declaration. -/
def exported (type : Declaration) : Item := .declaration true type

/-- A declaration for the file alone. -/
def hidden (type : Declaration) : Item := .declaration false type

/-- Several items, an empty line before each one that does not follow another as one of two
re-exports. `opened` tells that something stands before the first item. -/
def textsAfter (opened : Bool) (previous : Option Item) : List Item → String
  | [] => ""
  | item :: rest =>
    let joined := item.isReExport && previous.any isReExport
    (if (opened || previous.isSome) && !joined then "\n" else "") ++ item.text ++ "\n" ++
      textsAfter opened (some item) rest

end Item

/-- A source file. -/
structure SourceFile where
  header : Option String := none
  imports : List Import := []
  items : List Item := []
deriving Inhabited

namespace SourceFile

/-- Whether there is neither an import nor an item. -/
def isEmpty (file : SourceFile) : Bool := file.imports.isEmpty && file.items.isEmpty

/-- The names that the items of the file export. -/
def exportedNames (file : SourceFile) : List String := file.items.flatMap (·.exportedNames)

/-- The files whose names the file exports, too. -/
def reExports (file : SourceFile) : List String :=
  file.items.filterMap fun item => match item with
    | .reExport source => some source
    | _ => none

/-- The text of the file. -/
def text (file : SourceFile) : String :=
  (file.header.elim "" fun header => Text.trimEnd header ++ "\n") ++
    (if file.imports.isEmpty then ""
      else (if file.header.isSome then "\n" else "") ++
        String.join (file.imports.map fun statement => statement.text ++ "\n")) ++
    Item.textsAfter (file.header.isSome || !file.imports.isEmpty) none file.items

end SourceFile

end TypeScript

end GraphClient
