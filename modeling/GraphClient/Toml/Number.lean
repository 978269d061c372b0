import GraphClient.Json.Token
import GraphClient.Number.Word

/-!
# Numbers and times of settings texts

Integers are decimal, hexadecimal, octal or binary and fit a signed 64-bit word. A decimal number
with a fraction or an exponent is the nearest floating-point number. Digits may be grouped by single
underscores. A date or a time is kept as its normalised text in an object with one field.
-/

namespace GraphClient

namespace Toml

/-- The digits of a class without the underscores between them. -/
def grouped? (isDigit : Char → Bool) : List Char → Option (List Char)
  | [] => none
  | c :: rest =>
    if !isDigit c then none
    else
      match rest with
      | [] => some [c]
      | '_' :: more => (grouped? isDigit more).map (c :: ·)
      | more => (grouped? isDigit more).map (c :: ·)

/-- The digits of a decimal number that has no needless zero in front. -/
def wholeDigits? (text : List Char) : Option (List Char) := do
  let digits ← grouped? Char.isDigit text
  if digits.length > 1 ∧ digits.head? = some '0' then none else some digits

/-- The number of a list of digits in a base. -/
def valueIn (base : Nat) (digits : List Char) : Nat :=
  digits.foldl (fun n c => n * base + (Json.Reader.hexValue? c).getD 0) 0

/-- An integer, if it fits a signed word. -/
def integer? (n : Int) : Option Json :=
  if Word.fitsSigned n then some (.int n) else none

/-- Splits a sign from the text after it: whether it is a minus. -/
def splitSign : List Char → Bool × List Char
  | '-' :: rest => (true, rest)
  | '+' :: rest => (false, rest)
  | text => (false, text)

/-- A decimal number without a fraction or an exponent. -/
def decimal? (text : List Char) : Option Json := do
  let (negative, body) := splitSign text
  let size : Int := valueIn 10 (← wholeDigits? body)
  integer? (if negative then -size else size)

/-- The value of an exponent, which may be missing. -/
def exponent? : List Char → Option Int
  | [] => some 0
  | _ :: rest => do
    let (negative, digits) := splitSign rest
    let size : Int := valueIn 10 (← grouped? Char.isDigit digits)
    return if negative then -size else size

/-- Whether a character opens an exponent. -/
def isExponentMark (c : Char) : Bool := c = 'e' || c = 'E'

/-- A decimal number with a fraction or an exponent. A positive one beyond the format is refused. -/
def decimalFraction? (text : List Char) : Option Json := do
  let (negative, body) := splitSign text
  let mantissa := body.takeWhile (!isExponentMark ·)
  let power ← exponent? (body.dropWhile (!isExponentMark ·))
  let whole ← wholeDigits? (mantissa.takeWhile (· != '.'))
  let fraction ← match mantissa.dropWhile (· != '.') with
    | [] => some []
    | _ :: more => grouped? Char.isDigit more
  let value :=
    Binary64.ofDecimal negative (valueIn 10 (whole ++ fraction)) (power - fraction.length)
  if value = .infinite false then none else some (.float value)

/-- A number that is written as a word, after its sign. -/
def special? (text : List Char) : Option Json :=
  let (negative, body) := splitSign text
  if body = ['i', 'n', 'f'] then some (.float (.infinite negative))
  else if body = ['n', 'a', 'n'] then some (.float .notANumber)
  else none

/-- A number in hexadecimal, octal or binary notation. -/
def based? : List Char → Option Json
  | '0' :: 'x' :: digits => do
    integer? (valueIn 16 (← grouped? (fun c => (Json.Reader.hexValue? c).isSome) digits))
  | '0' :: 'o' :: digits => do
    integer? (valueIn 8 (← grouped? (fun c => '0' ≤ c && c ≤ '7') digits))
  | '0' :: 'b' :: digits => do
    integer? (valueIn 2 (← grouped? (fun c => c = '0' || c = '1') digits))
  | _ => none

/-- A number. A decimal one is an integer unless it has a fraction or an exponent, even where it
does not fit. -/
def number? (text : List Char) : Option Json :=
  special? text <|> based? text <|>
    (if text.any fun c => c = '.' || isExponentMark c then decimalFraction? text else decimal? text)

/-! ## Dates and times -/

/-- Two digits as a number of at most `bound`. -/
def twoDigits? (bound : Nat) (a b : Char) : Option Nat :=
  let n := valueIn 10 [a, b]
  if a.isDigit ∧ b.isDigit ∧ n ≤ bound then some n else none

/-- Whether a year has a 29th of February. -/
def isLeapYear (year : Nat) : Bool := year % 4 == 0 && (year % 100 != 0 || year % 400 == 0)

/-- The number of days of a month. -/
def daysIn (year month : Nat) : Nat :=
  if month = 2 then (if isLeapYear year then 29 else 28)
  else if month ∈ [4, 6, 9, 11] then 30
  else 31

/-- Reads a date, which is shown as it is written. -/
def date? : List Char → Option (List Char × List Char)
  | a :: b :: c :: d :: '-' :: e :: f :: '-' :: g :: h :: rest => do
    let year ← if [a, b, c, d].all Char.isDigit then some (valueIn 10 [a, b, c, d]) else none
    let month ← twoDigits? 12 e f
    let day ← twoDigits? 31 g h
    if month = 0 ∨ day = 0 ∨ day > daysIn year month then none
    else some ([a, b, c, d, '-', e, f, '-', g, h], rest)
  | _ => none

/-- The shown digits of a fraction of a second: at most nine, without zeros at the end. -/
def shownFraction (digits : List Char) : List Char :=
  match ((digits.take 9).reverse.dropWhile (· = '0')).reverse with
  | [] => []
  | shown => '.' :: shown

/-- Reads a time of the day. -/
def time? : List Char → Option (List Char × List Char)
  | a :: b :: ':' :: c :: d :: ':' :: e :: f :: rest => do
    let _ ← twoDigits? 23 a b
    let _ ← twoDigits? 59 c d
    let _ ← twoDigits? 60 e f
    let shown := [a, b, ':', c, d, ':', e, f]
    match rest with
    | '.' :: more =>
      let digits := more.takeWhile Char.isDigit
      if digits.isEmpty then none
      else some (shown ++ shownFraction digits, more.dropWhile Char.isDigit)
    | _ => some (shown, rest)
  | _ => none

/-- A difference to universal time, which may be missing. One of zero is shown as positive. -/
def offset? : List Char → Option (List Char)
  | [] => some []
  | ['Z'] | ['z'] => some ['Z']
  | [sign, a, b, ':', c, d] => do
    let hours ← twoDigits? 23 a b
    let minutes ← twoDigits? 59 c d
    if sign = '+' ∨ sign = '-' then
      return (if hours = 0 ∧ minutes = 0 then '+' else sign) :: [a, b, ':', c, d]
    else none
  | _ => none

/-- The value of a date, of a time, or of both. -/
def moment? (text : List Char) : Option Json := do
  let shown ← match date? text with
    | some (date, []) => some date
    | some (date, mark :: rest) =>
      if mark = 'T' ∨ mark = 't' ∨ mark = ' ' then
        (time? rest).bind fun (time, rest) => (offset? rest).map (date ++ 'T' :: time ++ ·)
      else none
    | none =>
      match time? text with
      | some (time, []) => some time
      | _ => none
  return .object [("$__toml_private_datetime", .string (String.ofList shown))]

end Toml

end GraphClient
