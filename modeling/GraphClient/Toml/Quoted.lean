import GraphClient.Json.Token

/-!
# Strings of settings texts

Four kinds of strings: basic ones with escapes, literal ones without, and both over several lines
between three quotation marks. A line end inside a string counts as a line feed, one right after the
opening marks is dropped, and a backslash at the end of a line joins it to the next text. Control
characters other than the tab are refused.
-/

namespace GraphClient

namespace Toml

/-- White space within a line. -/
def isSpace (c : Char) : Bool := c = ' ' || c = '\t'

/-- Whether a character may stand in a comment or a string. -/
def isPrintable (c : Char) : Bool := c = '\t' || (32 ≤ c.toNat && c.toNat != 127)

/-- The text after a line end, if it begins with one. -/
def afterLineEnd? : List Char → Option (List Char)
  | '\n' :: rest => some rest
  | '\r' :: '\n' :: rest => some rest
  | _ => none

/-- The character with a code, unless the code belongs to none. -/
def charOfCode? (code : Nat) : Option Char :=
  if code.isValidChar then some (Char.ofNat code) else none

/-- The character of an escape of one letter. -/
def letterEscape? (c : Char) : Option Char :=
  if c = '/' then none else Json.Reader.letterEscape? c

/-- Reads the rest of a basic string on one line; `done` holds the characters read so far, last
first. -/
def basic? (done : List Char) : List Char → Option (String × List Char)
  | [] => none
  | '"' :: rest => some (String.ofList done.reverse, rest)
  | '\\' :: 'u' :: a :: b :: c :: d :: rest => do
    let code ← Json.Reader.hexWord? a b c d
    basic? ((← charOfCode? code) :: done) rest
  | '\\' :: 'U' :: a :: b :: c :: d :: e :: f :: g :: h :: rest => do
    let high ← Json.Reader.hexWord? a b c d
    let low ← Json.Reader.hexWord? e f g h
    basic? ((← charOfCode? (high * 65536 + low)) :: done) rest
  | '\\' :: c :: rest => do
    basic? ((← letterEscape? c) :: done) rest
  | c :: rest => if isPrintable c then basic? (c :: done) rest else none

/-- Whether the rest of the line is white space and a further line follows. -/
def endsLine (text : List Char) : Bool := (afterLineEnd? (text.dropWhile isSpace)).isSome

/-- Reads the rest of a basic string over several lines. `joining` tells that a backslash ended the
line and that white space and line ends are being passed over. -/
def basicLines? (done : List Char) (joining : Bool) : List Char → Option (String × List Char)
  | [] => none
  | '\r' :: '\n' :: rest => basicLines? (if joining then done else '\n' :: done) joining rest
  | '\n' :: rest => basicLines? (if joining then done else '\n' :: done) joining rest
  | '"' :: '"' :: '"' :: '"' :: '"' :: rest =>
    some (String.ofList ('"' :: '"' :: done).reverse, rest)
  | '"' :: '"' :: '"' :: '"' :: rest => some (String.ofList ('"' :: done).reverse, rest)
  | '"' :: '"' :: '"' :: rest => some (String.ofList done.reverse, rest)
  | '\\' :: 'u' :: a :: b :: c :: d :: rest => do
    let code ← Json.Reader.hexWord? a b c d
    basicLines? ((← charOfCode? code) :: done) false rest
  | '\\' :: 'U' :: a :: b :: c :: d :: e :: f :: g :: h :: rest => do
    let high ← Json.Reader.hexWord? a b c d
    let low ← Json.Reader.hexWord? e f g h
    basicLines? ((← charOfCode? (high * 65536 + low)) :: done) false rest
  | '\\' :: c :: rest =>
    if endsLine (c :: rest) then basicLines? done true (c :: rest)
    else do basicLines? ((← letterEscape? c) :: done) false rest
  | c :: rest =>
    if joining && isSpace c then basicLines? done true rest
    else if isPrintable c then basicLines? (c :: done) false rest
    else none

/-- Reads the rest of a literal string on one line. -/
def literal? (done : List Char) : List Char → Option (String × List Char)
  | [] => none
  | '\'' :: rest => some (String.ofList done.reverse, rest)
  | c :: rest => if isPrintable c then literal? (c :: done) rest else none

/-- Reads the rest of a literal string over several lines. -/
def literalLines? (done : List Char) : List Char → Option (String × List Char)
  | [] => none
  | '\r' :: '\n' :: rest => literalLines? ('\n' :: done) rest
  | '\n' :: rest => literalLines? ('\n' :: done) rest
  | '\'' :: '\'' :: '\'' :: '\'' :: '\'' :: rest =>
    some (String.ofList ('\'' :: '\'' :: done).reverse, rest)
  | '\'' :: '\'' :: '\'' :: '\'' :: rest => some (String.ofList ('\'' :: done).reverse, rest)
  | '\'' :: '\'' :: '\'' :: rest => some (String.ofList done.reverse, rest)
  | c :: rest => if isPrintable c then literalLines? (c :: done) rest else none

/-- The text without a line end at its start. -/
def dropLineEnd (text : List Char) : List Char := (afterLineEnd? text).getD text

/-- Reads a string that stands as a value. -/
def string? : List Char → Option (String × List Char)
  | '"' :: '"' :: '"' :: rest => basicLines? [] false (dropLineEnd rest)
  | '"' :: rest => basic? [] rest
  | '\'' :: '\'' :: '\'' :: rest => literalLines? [] (dropLineEnd rest)
  | '\'' :: rest => literal? [] rest
  | _ => none

/-- Whether a character may stand in a key without quotation marks. -/
def isBare (c : Char) : Bool := c.isAlphanum || c = '_' || c = '-'

/-- Reads one part of a key. -/
def keyPart? : List Char → Option (String × List Char)
  | '"' :: rest => basic? [] rest
  | '\'' :: rest => literal? [] rest
  | text =>
    let part := text.takeWhile isBare
    if part.isEmpty then none else some (String.ofList part, text.dropWhile isBare)

/-- Reads at most `fuel` parts of a key with dots between them. -/
def key? : Nat → List Char → Option (List String × List Char)
  | 0, _ => none
  | fuel + 1, text => do
    let (part, rest) ← keyPart? (text.dropWhile isSpace)
    match rest.dropWhile isSpace with
    | '.' :: more => (key? fuel more).map fun (parts, left) => (part :: parts, left)
    | left => some ([part], left)

end Toml

end GraphClient
