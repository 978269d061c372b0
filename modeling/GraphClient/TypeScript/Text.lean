import GraphClient.Text.Blank

/-!
# Identifiers, quoted names, template texts and doc comments

The small writers that types and files are made of.

* `isIdentifier` : names that may stand bare where a key is expected.
* `templateText` : a text inside a template literal.
* `docComment` : the comment above a declaration.
-/

namespace GraphClient

namespace TypeScript

/-- Whether a character may open an identifier. -/
def opensIdentifier (c : Char) : Bool := c.isAlpha || c == '_' || c == '$'

/-- Whether a character may stand inside an identifier. -/
def insideIdentifier (c : Char) : Bool := c.isAlphanum || c == '_' || c == '$'

/-- Whether a name may stand bare where a key is expected. -/
def isIdentifier (name : String) : Bool :=
  match name.toList with
  | [] => false
  | c :: rest => opensIdentifier c && rest.all insideIdentifier

/-- A text between apostrophes; an apostrophe inside is escaped, and nothing else is. -/
def apostrophized (text : String) : String :=
  "'" ++ Text.substitute (fun c => if c = '\'' then ['\\', '\''] else [c]) text ++ "'"

/-- The characters of a text inside a template literal: a backslash, a backtick and the start of an
interpolation are escaped. -/
def templateChars : List Char → List Char
  | [] => []
  | '$' :: '\x7b' :: rest => '\\' :: '$' :: '\x7b' :: templateChars rest
  | c :: rest =>
    if c = '\\' || c = '\x60' then '\\' :: c :: templateChars rest else c :: templateChars rest

/-- A text inside a template literal. -/
def templateText (text : String) : String := String.ofList (templateChars text.toList)

/-- The lines of a doc comment: those of the text without surrounding white space. -/
def docLines (text : String) : List String := (Text.lines (Text.trim text)).map Text.trimEnd

/-- A line inside a doc comment of several lines. -/
def docLine (line : String) : String := if line = "" then " *\n" else " * " ++ line ++ "\n"

/-- The comment above a declaration, with its line end; nothing for a blank text. -/
def docComment (text : String) : String :=
  match docLines text with
  | [] => ""
  | [line] => "/** " ++ line ++ " */\n"
  | lines => "/**\n" ++ String.join (lines.map docLine) ++ " */\n"

/-- The comment above a declaration that may have none. -/
def docComment? (text : Option String) : String :=
  match text with
  | some text => docComment text
  | none => ""

end TypeScript

end GraphClient
