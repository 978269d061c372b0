import GraphClient.Json.Basic
import GraphClient.Number.Word

/-!
# Parts of JSON texts

Reading of what holds no other values: strings, numbers and words. A number without fraction and
exponent that fits a 64-bit word, signed or unsigned, is an integer; every other number is a
floating-point number, and is refused if it is too large for one.

A floating-point number is read in two rounded steps: its leading digits, as many as fit an unsigned
64-bit word, go to the nearest floating-point number, which is then multiplied or divided by a power
of ten.

A string or a number can also be passed over. Then its form alone matters: surrogates need not come
in pairs, and a number may be too large.
-/

namespace GraphClient

namespace Json

namespace Reader

/-- White space between tokens. -/
def isSpace (c : Char) : Bool := c = ' ' || c = '\n' || c = '\t' || c = '\r'

/-- The text after leading white space. -/
def skip (text : List Char) : List Char := text.dropWhile isSpace

/-- The value of a hexadecimal digit. -/
def hexValue? (c : Char) : Option Nat :=
  if '0' ≤ c ∧ c ≤ '9' then some (c.toNat - 48)
  else if 'a' ≤ c ∧ c ≤ 'f' then some (c.toNat - 87)
  else if 'A' ≤ c ∧ c ≤ 'F' then some (c.toNat - 55)
  else none

/-- The value of four hexadecimal digits. -/
def hexWord? (a b c d : Char) : Option Nat := do
  let a ← hexValue? a
  let b ← hexValue? b
  let c ← hexValue? c
  let d ← hexValue? d
  return ((a * 16 + b) * 16 + c) * 16 + d

/-- The character of an escape of one letter. -/
def letterEscape? (c : Char) : Option Char :=
  if c = '"' then some '"'
  else if c = '\\' then some '\\'
  else if c = '/' then some '/'
  else if c = 'b' then some (Char.ofNat 8)
  else if c = 'f' then some (Char.ofNat 12)
  else if c = 'n' then some '\n'
  else if c = 'r' then some '\r'
  else if c = 't' then some '\t'
  else none

/-- The character of a pair of surrogate words. -/
def surrogatePair (high low : Nat) : Char :=
  Char.ofNat (0x10000 + (high - 0xD800) * 0x400 + (low - 0xDC00))

/-- Reads the rest of a string after its opening quotation mark; `done` holds the characters read so
far, last first. -/
def string? (done : List Char) : List Char → Option (String × List Char)
  | [] => none
  | '"' :: rest => some (String.ofList done.reverse, rest)
  | '\\' :: 'u' :: a :: b :: c :: d :: '\\' :: 'u' :: e :: f :: g :: h :: rest => do
    let word ← hexWord? a b c d
    if 0xD800 ≤ word ∧ word < 0xDC00 then
      let low ← hexWord? e f g h
      if 0xDC00 ≤ low ∧ low < 0xE000 then string? (surrogatePair word low :: done) rest else none
    else if 0xDC00 ≤ word ∧ word < 0xE000 then none
    else string? (Char.ofNat word :: done) ('\\' :: 'u' :: e :: f :: g :: h :: rest)
  | '\\' :: 'u' :: a :: b :: c :: d :: rest => do
    let word ← hexWord? a b c d
    if 0xD800 ≤ word ∧ word < 0xE000 then none else string? (Char.ofNat word :: done) rest
  | '\\' :: c :: rest => do
    let c ← letterEscape? c
    string? (c :: done) rest
  | c :: rest => if c.toNat < 32 then none else string? (c :: done) rest

/-- Passes over the rest of a string after its opening quotation mark. -/
def passString? : List Char → Option (List Char)
  | [] => none
  | '"' :: rest => some rest
  | '\\' :: 'u' :: a :: b :: c :: d :: rest =>
    if (hexWord? a b c d).isSome then passString? rest else none
  | '\\' :: c :: rest => if (letterEscape? c).isSome then passString? rest else none
  | c :: rest => if c.toNat < 32 then none else passString? rest

/-- The value of a list of decimal digits. -/
def digitsValue (digits : List Char) : Nat :=
  digits.foldl (fun n c => n * 10 + (c.toNat - 48)) 0

/-- The longest prefix of digits, going on from a value, that fits an unsigned word; the number of
digits taken; and the digits left. -/
def takeWord (value : Nat) (taken : Nat) : List Char → Nat × Nat × List Char
  | [] => (value, taken, [])
  | c :: rest =>
    let next := value * 10 + (c.toNat - 48)
    if next ≤ Word.maxUnsigned then takeWord next (taken + 1) rest else (value, taken, c :: rest)

/-- A floating-point number from a word and a power of ten, in two rounded steps. -/
def scaled (negative : Bool) (word : Nat) (exponent : Int) : Binary64 :=
  let start := Binary64.ofRatio negative word 1
  let power (n : Nat) := Binary64.ofDecimal false 1 n
  if word = 0 then Binary64.zero negative
  else if exponent > 308 then .infinite negative
  else if exponent ≥ 0 then start.mul (power exponent.toNat)
  else if exponent ≥ -308 then start.div (power (-exponent).toNat)
  else if exponent ≥ -616 then (start.div (power 308)).div (power (-exponent - 308).toNat)
  else Binary64.zero negative

/-- The floating-point number with the given digits before and after the point and the given
exponent. -/
def floatOf (negative : Bool) (whole fraction : List Char) (exponent : Int) : Binary64 :=
  let (word, _, dropped) := takeWord 0 0 whole
  if dropped.isEmpty then
    let (word, taken, _) := takeWord word 0 fraction
    scaled negative word (exponent - taken)
  else scaled negative word (exponent + dropped.length)

/-- Reads the digits of an exponent, after its mark. -/
def exponent? : List Char → Option (Int × List Char)
  | text =>
    let (sign, text) := match text with
      | '+' :: rest => ((1 : Int), rest)
      | '-' :: rest => (-1, rest)
      | _ => (1, text)
    let digits := text.takeWhile Char.isDigit
    if digits.isEmpty then none
    else some (sign * digitsValue digits, text.dropWhile Char.isDigit)

/-- The parts of a number as it is written. -/
structure Numeral where
  negative : Bool
  whole : List Char
  fraction : Option (List Char)
  power : Option Int
deriving Repr, Inhabited

/-- The value of a number, unless it is too large. -/
def Numeral.value? (numeral : Numeral) : Option Json :=
  let size : Int := digitsValue numeral.whole
  let value := if numeral.negative then -size else size
  if numeral.fraction.isNone && numeral.power.isNone && Word.fits value &&
      !(numeral.negative && size == 0) then
    some (.int value)
  else
    let value := floatOf numeral.negative numeral.whole (numeral.fraction.getD [])
      (numeral.power.getD 0)
    if value.isFinite then some (.float value) else none

/-- Reads the parts of a number. -/
def numeral? (text : List Char) : Option (Numeral × List Char) := do
  let (negative, text) := match text with
    | '-' :: rest => (true, rest)
    | _ => (false, text)
  let whole := text.takeWhile Char.isDigit
  let rest := text.dropWhile Char.isDigit
  if whole.isEmpty || (whole.length > 1 && whole.head? == some '0') then failure
  let (fraction, rest) ← match rest with
    | '.' :: more =>
      let digits := more.takeWhile Char.isDigit
      if digits.isEmpty then none else some (some digits, more.dropWhile Char.isDigit)
    | _ => some (none, rest)
  let (power, rest) ← match rest with
    | c :: more =>
      if c = 'e' || c = 'E' then (exponent? more).map fun (n, left) => (some n, left)
      else some (none, rest)
    | [] => some (none, rest)
  return (⟨negative, whole, fraction, power⟩, rest)

/-- Reads a number. -/
def number? (text : List Char) : Option (Json × List Char) := do
  let (numeral, rest) ← numeral? text
  return (← numeral.value?, rest)

/-- Reads the rest of a word whose first letter is known. -/
def word? (letters : List Char) (value : Json) (text : List Char) : Option (Json × List Char) :=
  if letters.isPrefixOf text then some (value, text.drop letters.length) else none

/-- Passes over a string, a number or a word. -/
def passToken? (text : List Char) : Option (List Char) :=
  match text with
  | '"' :: rest => passString? rest
  | 't' :: _ => (word? ['t', 'r', 'u', 'e'] (.bool true) text).map Prod.snd
  | 'f' :: _ => (word? ['f', 'a', 'l', 's', 'e'] (.bool false) text).map Prod.snd
  | 'n' :: _ => (word? ['n', 'u', 'l', 'l'] .null text).map Prod.snd
  | _ => (numeral? text).map Prod.snd

end Reader

end Json

end GraphClient
