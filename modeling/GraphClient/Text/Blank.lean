/-!
# Blank characters and lines

White space is the Unicode property White_Space. A line ends before a line feed, or before a
carriage return that a line feed follows; a text that ends with a line feed has no further empty
line.
-/

namespace GraphClient

namespace Text

/-- Whether a character has the property White_Space. -/
def isBlank (c : Char) : Bool :=
  let n := c.toNat
  (9 ≤ n && n ≤ 13) || n == 0x20 || n == 0x85 || n == 0xA0 || n == 0x1680 ||
    (0x2000 ≤ n && n ≤ 0x200A) || n == 0x2028 || n == 0x2029 || n == 0x202F || n == 0x205F ||
    n == 0x3000

/-- A text without its trailing characters of a class. -/
def dropEndWhile (p : Char → Bool) (text : List Char) : List Char :=
  (text.reverse.dropWhile p).reverse

/-- The text without trailing white space. -/
def trimEnd (text : String) : String := String.ofList (dropEndWhile isBlank text.toList)

/-- The text without leading and trailing white space. -/
def trim (text : String) : String :=
  String.ofList (dropEndWhile isBlank (text.toList.dropWhile isBlank))

/-- The lines of a list of characters. -/
def splitLines : List Char → List (List Char)
  | [] => []
  | '\r' :: '\n' :: rest => [] :: splitLines rest
  | '\n' :: rest => [] :: splitLines rest
  | c :: rest =>
    match splitLines rest with
    | [] => [[c]]
    | line :: more => (c :: line) :: more

/-- The lines of a text. -/
def lines (text : String) : List String := (splitLines text.toList).map String.ofList

/-- Writes every character of a text as the characters chosen for it. -/
def substitute (image : Char → List Char) (text : String) : String :=
  String.ofList (text.toList.flatMap image)

/-- Puts `indent` after every line feed, so that the lines after the first stand inside a block. -/
def indentLines (indent : String) (text : String) : String :=
  substitute (fun c => if c = '\n' then '\n' :: indent.toList else [c]) text

theorem dropEndWhile_append_singleton (p : Char → Bool) (text : List Char) (c : Char) :
    dropEndWhile p (text ++ [c]) = if p c then dropEndWhile p text else text ++ [c] := by
  unfold dropEndWhile
  by_cases h : p c <;> simp [h]

/-- A text that ends with something else than white space stays as it is. -/
theorem trimEnd_eq_self {text : String} {front : List Char} {c : Char}
    (h : text.toList = front ++ [c]) (hc : isBlank c = false) : trimEnd text = text := by
  rw [trimEnd, h, dropEndWhile_append_singleton, hc, if_neg Bool.false_ne_true, ← h,
    String.ofList_toList]

@[simp] theorem splitLines_nil : splitLines [] = [] := rfl

theorem toList_substitute (image : Char → List Char) (text : String) :
    (substitute image text).toList = text.toList.flatMap image := by
  simp [substitute]

theorem substitute_append (image : Char → List Char) (s t : String) :
    substitute image (s ++ t) = substitute image s ++ substitute image t := by
  simp [substitute, String.ofList_append]

end Text

end GraphClient
