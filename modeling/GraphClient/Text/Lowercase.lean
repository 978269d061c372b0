import GraphClient.Text.CharClass
import GraphClient.Text.Property.LowercaseShift

/-!
# Lower case

The full lower-case form of a text. All characters but two have a form of their own: the capital I
with a dot becomes an i and a combining dot, and a capital sigma takes its final form at the end of
a word, that is after a cased letter and not before one, case-ignorable characters passed over.
-/

namespace GraphClient

namespace Text

/-- The lower-case form of a character other than the two special ones. -/
def lowerChar (c : Char) : Char :=
  if isAscii c then c.toLower
  else
    match Property.lowercaseShifts.find? fun s =>
      s.1 ≤ c.toNat && c.toNat ≤ s.2.1 && (c.toNat - s.1) % s.2.2.1 == 0 with
    | some (_, _, _, shift) => Char.ofNat ((c.toNat : Int) + shift).toNat
    | none => c

/-- Whether the first character that is not case-ignorable has a case. -/
def casedNext (text : List Char) : Bool :=
  match text.dropWhile isCaseIgnorable with
  | [] => false
  | c :: _ => isCased c

/-- The lower-case form of a text that follows `before`, which is given last character first. -/
def lowerAfter (before : List Char) : List Char → List Char
  | [] => []
  | c :: rest =>
    let image :=
      if c = 'Σ' then [if casedNext before && !casedNext rest then 'ς' else 'σ']
      else if c = 'İ' then ['i', '\u0307']
      else [lowerChar c]
    image ++ lowerAfter (c :: before) rest

/-- The lower-case form of a text. -/
def lowercase (text : String) : String := String.ofList (lowerAfter [] text.toList)

end Text

end GraphClient
