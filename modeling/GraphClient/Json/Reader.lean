import GraphClient.Json.Outline
import GraphClient.Json.PassOver

/-!
# Reading JSON

A strict reader of JSON texts. Fields are kept as written, repeated keys included, so that a later
reader may refuse them. An outline says which parts of the value are looked at; fields that it
leaves out are passed over and do not show in the value. The values that are looked at may nest to a
bounded depth.
-/

namespace GraphClient

namespace Json

namespace Reader

mutual

/-- Reads a value. `fuel` bounds the number of steps and `depth` the number of containers around
the values inside. -/
def value? (fuel depth : Nat) (outline : Outline) (text : List Char) :
    Option (Json × List Char) :=
  match fuel with
  | 0 => none
  | fuel + 1 =>
    match text with
    | '"' :: rest => (string? [] rest).map fun (s, left) => (.string s, left)
    | '[' :: rest =>
      match depth, skip rest with
      | 0, _ => none
      | _, ']' :: left => some (.array [], left)
      | depth + 1, inner =>
        (items? fuel depth outline.element inner).map fun (items, left) => (.array items, left)
    | '\x7b' :: rest =>
      match depth, skip rest with
      | 0, _ => none
      | _, '\x7d' :: left => some (.object [], left)
      | depth + 1, inner =>
        (fields? fuel depth outline inner).map fun (fields, left) => (.object fields, left)
    | 't' :: _ => word? ['t', 'r', 'u', 'e'] (.bool true) text
    | 'f' :: _ => word? ['f', 'a', 'l', 's', 'e'] (.bool false) text
    | 'n' :: _ => word? ['n', 'u', 'l', 'l'] .null text
    | _ => number? text

/-- Reads the elements of an array up to its closing bracket. -/
def items? (fuel depth : Nat) (outline : Outline) (text : List Char) :
    Option (List Json × List Char) :=
  match fuel with
  | 0 => none
  | fuel + 1 => do
    let (value, rest) ← value? fuel depth outline text
    match skip rest with
    | ',' :: more =>
      (items? fuel depth outline (skip more)).map fun (items, left) => (value :: items, left)
    | ']' :: left => some ([value], left)
    | _ => none

/-- Reads the fields of an object up to its closing brace, and passes over those that are not looked
at. -/
def fields? (fuel depth : Nat) (outline : Outline) (text : List Char) :
    Option (List (String × Json) × List Char) :=
  match fuel with
  | 0 => none
  | fuel + 1 => do
    let (key, rest) ← match text with
      | '"' :: rest => string? [] rest
      | _ => none
    let rest ← match skip rest with
      | ':' :: more => some (skip more)
      | _ => none
    let (found, rest) ← match outline.field? key with
      | some inner => (value? fuel depth inner rest).map fun (value, left) => ([(key, value)], left)
      | none => (passValue? fuel rest).map fun left => ([], left)
    match skip rest with
    | ',' :: more =>
      (fields? fuel depth outline (skip more)).map fun (fields, left) => (found ++ fields, left)
    | '\x7d' :: left => some (found, left)
    | _ => none

end

end Reader

/-- The greatest number of containers around a value in a text. -/
def maxDepth : Nat := 127

/-- Reads a text that holds exactly one value, and keeps the parts of an outline. -/
def ofOutline? (outline : Outline) (text : String) : Option Json :=
  let input := text.toList
  match Reader.value? (2 * input.length + 2) maxDepth outline (Reader.skip input) with
  | some (value, rest) => if (Reader.skip rest).isEmpty then some value else none
  | none => none

/-- Reads a text that holds exactly one value. -/
def ofText? (text : String) : Option Json := ofOutline? .whole text

end Json

end GraphClient
