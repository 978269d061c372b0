import GraphClient.Text.Blank
import GraphClient.Text.CharClass

/-!
# Casing of names

The three casings of names. Words are told apart by characters that are neither alphabetic nor
numeric, by numeric characters, and by a lower-case letter that an upper-case one follows; letters
change case within ASCII only.
-/

namespace GraphClient

namespace Text

/-- The characters of a name without the trailing ones that are neither alphabetic nor numeric. -/
def nameChars (name : String) : List Char :=
  dropEndWhile (fun c => !isAlphanumeric c) name.toList

/-- Joins the words of a name, each with a capital. `newWord` tells that the next letter begins a
word, `last` is the last letter that was written small, and `found` tells that something was
written. -/
def joinWords (newWord : Bool) (last : Char) (found : Bool) : List Char → List Char
  | [] => []
  | c :: rest =>
    if !isAlphanumeric c then joinWords (newWord || found) last found rest
    else if isNumeric c then c :: joinWords true last true rest
    else if newWord || (isLowercase last && isUppercase c) then
      c.toUpper :: joinWords false last true rest
    else c.toLower :: joinWords newWord c true rest

/-- The name as joined words, the first letter small: `blogPost`. -/
def camelCase (name : String) : String := String.ofList (joinWords false ' ' false (nameChars name))

/-- The name as joined words, every word with a capital: `BlogPost`. -/
def pascalCase (name : String) : String := String.ofList (joinWords true ' ' false (nameChars name))

/-- Writes the words of a name in capitals with an underscore between two of them. `all` holds the
characters of the whole name, `offset` is the number of UTF-8 bytes before the next one, and `first`
tells that a word begins. A character opens a word if it is its own capital and stands next to a
lower-case one: the neighbours are looked up in `all` at the positions around `offset`. -/
def splitWords (all : Array Char) (offset : Nat) (first : Bool) : List Char → List Char
  | [] => []
  | c :: rest =>
    let next := offset + c.utf8Size
    let isLowAt (i : Nat) : Bool := isLowercase (all[i]?.getD 'A')
    if !isAlphanumeric c then
      if first then splitWords all next true rest else '_' :: splitWords all next true rest
    else if !first && c == c.toUpper && (isLowAt (offset + 1) || isLowAt (offset - 1)) then
      '_' :: c.toUpper :: splitWords all next false rest
    else c.toUpper :: splitWords all next false rest

/-- The name in capitals with underscores: `BLOG_POST`. -/
def screamingSnakeCase (name : String) : String :=
  String.ofList (splitWords name.toList.toArray 0 true (nameChars name))

end Text

end GraphClient
