import GraphClient.Toml.Number
import GraphClient.Toml.Quoted
import GraphClient.Toml.Tree

/-!
# Reading settings texts

A text is a list of lines: table headers, keys with their values, comments. Each header opens a
section, to which the keys after it belong; the sections are put together in order.
-/

namespace GraphClient

namespace Toml

/-- The greatest number of arrays and inline tables around a value, and of parts of a key. -/
def maxDepth : Nat := 79

/-- Reads a comment, if one stands here, up to the end of its line. -/
def skipComment? : List Char → Option (List Char)
  | '#' :: rest => some (rest.dropWhile isPrintable)
  | text => some text

/-- Reads what may stand after a value or a header in its line, and the end of the line. -/
def endOfLine? (text : List Char) : Option (List Char) := do
  match ← skipComment? (text.dropWhile isSpace) with
  | [] => some []
  | rest => afterLineEnd? rest

/-- Passes over white space, comments and line ends, one line in each step. -/
def skipLines? : Nat → List Char → Option (List Char)
  | 0, text => some text
  | fuel + 1, text => do
    match ← skipComment? (text.dropWhile isSpace) with
    | [] => some []
    | c :: rest =>
      match afterLineEnd? (c :: rest) with
      | some rest => skipLines? fuel rest
      | none => some (c :: rest)

/-- Whether a character may stand in a value that has no quotation marks or brackets. -/
def isWordChar (c : Char) : Bool :=
  c.isAlphanum || c = '_' || c = '-' || c = '+' || c = '.' || c = ':'

/-- The value of a word. -/
def wordValue? (word : List Char) : Option Json :=
  if word = ['t', 'r', 'u', 'e'] then some (.bool true)
  else if word = ['f', 'a', 'l', 's', 'e'] then some (.bool false)
  else moment? word <|> number? word

/-- Reads a truth value, a number, a date or a time. A space may stand between a date and a time. -/
def word? (text : List Char) : Option (Json × List Char) :=
  let word := text.takeWhile isWordChar
  let rest := text.dropWhile isWordChar
  match date? word, rest with
  | some (_, []), ' ' :: c :: more =>
    if c.isDigit then
      let time := (c :: more).takeWhile isWordChar
      (moment? (word ++ ' ' :: time)).map fun value => (value, (c :: more).dropWhile isWordChar)
    else (wordValue? word).map fun value => (value, rest)
  | _, _ => (wordValue? word).map fun value => (value, rest)

/-- A key with a value: the path, the last part of the key, and what it holds. -/
abbrev Pair := List String × String × Item

/-- Splits the parts of a key into the path and the last part. -/
def splitLast? (parts : List String) : Option (List String × String) :=
  parts.getLast?.map fun last => (parts.dropLast, last)

mutual

/-- Reads a value. `fuel` bounds the number of steps and `depth` the number of containers around the
values inside. -/
def value? (fuel depth : Nat) (text : List Char) : Option (Json × List Char) :=
  match fuel with
  | 0 => none
  | fuel + 1 =>
    match text with
    | '"' :: _ => (string? text).map fun (s, rest) => (.string s, rest)
    | '\'' :: _ => (string? text).map fun (s, rest) => (.string s, rest)
    | '[' :: rest =>
      match depth with
      | 0 => none
      | depth + 1 => (items? fuel depth rest).map fun (items, left) => (.array items, left)
    | '\x7b' :: rest =>
      match depth with
      | 0 => none
      | depth + 1 => do
        let (pairs, left) ←
          match rest.dropWhile isSpace with
          | '\x7d' :: left => some ([], left)
          | inner => pairs? fuel depth inner
        return (Body.toJson (← Body.ofPairs [] pairs), left)
    | _ => word? text

/-- Reads the elements of an array up to its closing bracket. -/
def items? (fuel depth : Nat) (text : List Char) : Option (List Json × List Char) :=
  match fuel with
  | 0 => none
  | fuel + 1 => do
    match ← skipLines? text.length text with
    | ']' :: left => some ([], left)
    | inner =>
      let (value, rest) ← value? fuel depth inner
      match ← skipLines? rest.length rest with
      | ',' :: more => (items? fuel depth more).map fun (items, left) => (value :: items, left)
      | ']' :: left => some ([value], left)
      | _ => none

/-- Reads the keys and values of an inline table up to its closing brace. -/
def pairs? (fuel depth : Nat) (text : List Char) : Option (List Pair × List Char) :=
  match fuel with
  | 0 => none
  | fuel + 1 => do
    let (pair, rest) ← pair? fuel depth text
    match rest.dropWhile isSpace with
    | ',' :: more => (pairs? fuel depth more).map fun (pairs, left) => (pair :: pairs, left)
    | '\x7d' :: left => some ([pair], left)
    | _ => none

/-- Reads a key with its value. -/
def pair? (fuel depth : Nat) (text : List Char) : Option (Pair × List Char) :=
  match fuel with
  | 0 => none
  | fuel + 1 => do
    let (parts, rest) ← key? maxDepth text
    let (path, last) ← splitLast? parts
    match rest with
    | '=' :: rest =>
      (value? fuel depth (rest.dropWhile isSpace)).map fun (value, left) =>
        ((path, last, .leaf value), left)
    | _ => none

end

/-- What opens a section: nothing for the first one, or a header. -/
inductive Header where
  | root
  | table (path : List String) (key : String)
  | element (path : List String) (key : String)
deriving Repr, DecidableEq, Inhabited

/-- A header with the keys and values after it. -/
structure Section where
  header : Header
  pairs : List Pair
deriving Repr, Inhabited

/-- Reads a header up to the end of its line. -/
def header? (text : List Char) : Option (Header × List Char) := do
  match text with
  | '[' :: '[' :: rest => do
    let (parts, rest) ← key? maxDepth rest
    let (path, last) ← splitLast? parts
    match rest with
    | ']' :: ']' :: rest => (endOfLine? rest).map fun left => (.element path last, left)
    | _ => none
  | '[' :: rest => do
    let (parts, rest) ← key? maxDepth rest
    let (path, last) ← splitLast? parts
    match rest with
    | ']' :: rest => (endOfLine? rest).map fun left => (.table path last, left)
    | _ => none
  | _ => none

/-- Reads the sections of a text, a header or a pair in each step; `header` opens the current
section and `pairs` holds its pairs so far, last first. -/
def sections? : Nat → Header → List Pair → List Char → Option (List Section)
  | 0, _, _, _ => none
  | fuel + 1, header, pairs, text => do
    match ← skipLines? text.length text with
    | [] => some [⟨header, pairs.reverse⟩]
    | '[' :: rest => do
      let (next, left) ← header? ('[' :: rest)
      let sections ← sections? fuel next [] left
      return ⟨header, pairs.reverse⟩ :: sections
    | inner => do
      let (pair, rest) ← pair? (2 * inner.length + 2) maxDepth inner
      sections? fuel header (pair :: pairs) (← endOfLine? rest)

/-- Adds a section to a document. -/
def addSection (body : Body) (part : Section) : Option Body :=
  match part.header with
  | .root => body.ofPairs part.pairs
  | .table path key => body.declare path key part.pairs
  | .element path key => body.extend path key part.pairs

/-- Reads a text as an object. A byte order mark at its start is passed over. -/
def ofText? (text : String) : Option Json := do
  let input := match text.toList with
    | '\ufeff' :: rest => rest
    | input => input
  let sections ← sections? (input.length + 1) .root [] input
  return Body.toJson (← sections.foldlM addSection [])

end Toml

end GraphClient
