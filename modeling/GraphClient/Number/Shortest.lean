import GraphClient.Number.Binary64

/-!
# Shortest decimals

The decimal text of a binary number has the fewest digits that read back as the same number, and is
the nearest such decimal. The decimals with a given last place form a grid; if a point of a grid
lies among the reals that round to a number, so does one of the two grid points next to it. The
search therefore goes from coarse grids to fine ones and tests two points on each.
-/

namespace GraphClient

namespace Binary64

/-- The decimal `digits · 10 ^ exponent`. -/
structure Decimal where
  digits : Nat
  exponent : Int
deriving DecidableEq, Repr, Inhabited

/-- Four times a number and the ends of the reals that round to it, over the common scale
`2 ^ (exponent - 2)`; below a power of two the reals lie half as dense. -/
structure Interval where
  low : Nat
  value : Nat
  high : Nat
  closed : Bool
  scale : Int

/-- The reals that round to `significand · 2 ^ exponent`. -/
def interval (significand : Nat) (exponent : Int) : Interval where
  low := if significand = twoTo 52 && exponent > minExponent then 4 * significand - 1
    else 4 * significand - 2
  value := 4 * significand
  high := 4 * significand + 2
  closed := significand % 2 == 0
  scale := exponent - 2

/-- The grid of the multiples of `10 ^ place`, over the scale of an interval: `step / unit` is the
size of one grid step. -/
def grid (scale place : Int) : Nat × Nat :=
  let (n₁, d₁) := if place ≥ 0 then (tenTo place.toNat, 1) else (1, tenTo (-place).toNat)
  let (n₂, d₂) := if scale ≥ 0 then (1, twoTo scale.toNat) else (twoTo (-scale).toNat, 1)
  (n₁ * n₂, d₁ * d₂)

/-- Whether `count` steps of the grid lie in the interval. -/
def Interval.hits (i : Interval) (step unit count : Nat) : Bool :=
  let x := count * step
  if i.closed then i.low * unit ≤ x && x ≤ i.high * unit
  else i.low * unit < x && x < i.high * unit

/-- The grid point next to the value that lies in the interval, the nearer one if both do; of two
equally near ones the even one. -/
def Interval.nearest? (i : Interval) (step unit : Nat) : Option Nat :=
  let below := i.value * unit / step
  let above := below + 1
  let down := i.value * unit - below * step
  let up := above * step - i.value * unit
  match i.hits step unit below, i.hits step unit above with
  | true, true =>
    if down < up || (down == up && below % 2 == 0) then some below else some above
  | true, false => some below
  | false, true => some above
  | false, false => none

/-- Tries the grids of the places from `place` downwards. -/
def searchPlace (i : Interval) : Nat → Int → Decimal
  | 0, place => ⟨i.value, place⟩
  | fuel + 1, place =>
    let (step, unit) := grid i.scale place
    match i.nearest? step unit with
    | some count => ⟨count, place⟩
    | none => searchPlace i fuel (place - 1)

/-- A place above the first digit of `significand · 2 ^ exponent`. -/
def topPlace (significand : Nat) (exponent : Int) : Int :=
  ((significand.log2 : Int) + exponent) * 30103 / 100000 + 2

/-- The shortest decimal that reads back as a positive finite number. The search ends after at most
17 digits, which always suffice. -/
def shortest (significand : Nat) (exponent : Int) : Decimal :=
  searchPlace (interval significand exponent) 24 (topPlace significand exponent)

/-- How a number is written: the powers of ten of the first digit that are written without an
exponent. -/
structure Style where
  leastPositional : Int
  greatestPositional : Int

/-- Positional notation is kept from `10 ^ -4` up to below `10 ^ 16`. -/
def sixteenDigits : Style := ⟨-4, 15⟩

/-- The text of a positive decimal: positional notation shows at least one decimal place, scientific
notation shows the point only between digits. -/
def Decimal.text (style : Style) (d : Decimal) : String :=
  let digits := Nat.toDigits 10 d.digits
  let count := digits.length
  let first : Int := (count : Int) + d.exponent - 1
  if first < style.leastPositional || first > style.greatestPositional then
    let mantissa := match digits with
      | [] => []
      | [c] => [c]
      | c :: rest => c :: '.' :: rest
    String.ofList mantissa ++ "e" ++ toString first
  else if first < 0 then
    "0." ++ String.ofList (List.replicate (-first - 1).toNat '0' ++ digits)
  else if first + 1 ≥ count then
    String.ofList (digits ++ List.replicate (first + 1 - count).toNat '0') ++ ".0"
  else
    String.ofList (digits.take (first + 1).toNat ++ '.' :: digits.drop (first + 1).toNat)

/-- The text of a number; the sign of zero is kept. -/
def text : Binary64 → String
  | .finite negative significand exponent =>
    let sign := if negative then "-" else ""
    if significand = 0 then sign ++ "0.0"
    else sign ++ (shortest significand exponent).text sixteenDigits
  | .infinite negative => if negative then "-inf" else "inf"
  | .notANumber => "NaN"

end Binary64

end GraphClient
