/-!
# Binary floating-point numbers of 64 bits

A finite number is kept as its sign, its significand and its exponent, so that rounding is exact
arithmetic on natural numbers: a ratio goes to the nearest number with 53 significant bits, and a
tie goes to the even significand.
-/

namespace GraphClient

/-- A number of the 64-bit binary format. A finite one is `± significand · 2 ^ exponent` with a
significand below `2 ^ 53`, which is at least `2 ^ 52` unless the exponent is the least one. -/
inductive Binary64 where
  | finite (negative : Bool) (significand : Nat) (exponent : Int)
  | infinite (negative : Bool)
  | notANumber
deriving DecidableEq, Repr, Inhabited

namespace Binary64

/-- A power of two. -/
def twoTo (n : Nat) : Nat := Nat.pow 2 n

/-- A power of ten. -/
def tenTo (n : Nat) : Nat := Nat.pow 10 n

/-- The exponent of the numbers next to zero. -/
def minExponent : Int := -1074

/-- The exponent of the greatest finite number. -/
def maxExponent : Int := 971

/-- Zero with a sign. -/
def zero (negative : Bool) : Binary64 := .finite negative 0 minExponent

/-- Whether the number is neither infinite nor undefined. -/
def isFinite : Binary64 → Bool
  | .finite .. => true
  | _ => false

/-- `num / den` rounded to the nearest natural number; a tie goes to the even one. -/
def roundQuotient (num den : Nat) : Nat :=
  let q := num / den
  let r := 2 * (num % den)
  if r > den || (r == den && q % 2 == 1) then q + 1 else q

/-- The numerator and denominator of `num / den / 2 ^ exponent`. -/
def unscale (num den : Nat) (exponent : Int) : Nat × Nat :=
  if exponent ≥ 0 then (num, den * twoTo exponent.toNat) else (num * twoTo (-exponent).toNat, den)

/-- The exponent for which the significand of `num / den` has 53 bits. -/
def normalExponent (num den : Nat) : Int :=
  let guess : Int := (num.log2 : Int) - (den.log2 : Int) - 52
  let (n, d) := unscale num den guess
  if n < d * twoTo 52 then guess - 1 else guess

/-- The number nearest to `num / den`, for a positive `den`. -/
def ofRatio (negative : Bool) (num den : Nat) : Binary64 :=
  if num = 0 then zero negative
  else
    let exponent := max (normalExponent num den) minExponent
    let (n, d) := unscale num den exponent
    let significand := roundQuotient n d
    let (significand, exponent) :=
      if significand = twoTo 53 then (twoTo 52, exponent + 1) else (significand, exponent)
    if exponent > maxExponent then .infinite negative else .finite negative significand exponent

/-- The number nearest to an integer. -/
def ofInt (n : Int) : Binary64 := ofRatio (n < 0) n.natAbs 1

/-- The number of decimal digits of a natural number, none for zero. -/
def decimalLength (n : Nat) : Nat := if n = 0 then 0 else (Nat.toDigits 10 n).length

/-- The number nearest to `digits · 10 ^ exponent`. Magnitudes far outside the format are decided
by their decimal length alone. -/
def ofDecimal (negative : Bool) (digits : Nat) (exponent : Int) : Binary64 :=
  let magnitude : Int := (decimalLength digits : Int) + exponent
  if digits = 0 || magnitude < -400 then zero negative
  else if magnitude > 400 then .infinite negative
  else if exponent ≥ 0 then ofRatio negative (digits * tenTo exponent.toNat) 1
  else ofRatio negative digits (tenTo (-exponent).toNat)

/-- The value of a finite number without its sign, as a numerator and a denominator. -/
def ratio (significand : Nat) (exponent : Int) : Nat × Nat :=
  if exponent ≥ 0 then (significand * twoTo exponent.toNat, 1)
  else (significand, twoTo (-exponent).toNat)

/-- The product of two finite numbers, rounded; other products are undefined. -/
def mul : Binary64 → Binary64 → Binary64
  | .finite s₁ m₁ e₁, .finite s₂ m₂ e₂ =>
    let (n₁, d₁) := ratio m₁ e₁
    let (n₂, d₂) := ratio m₂ e₂
    ofRatio (s₁ != s₂) (n₁ * n₂) (d₁ * d₂)
  | _, _ => .notANumber

/-- The quotient of two finite numbers, rounded; other quotients are undefined. -/
def div : Binary64 → Binary64 → Binary64
  | .finite s₁ m₁ e₁, .finite s₂ m₂ e₂ =>
    let (n₁, d₁) := ratio m₁ e₁
    let (n₂, d₂) := ratio m₂ e₂
    if n₂ = 0 then .notANumber else ofRatio (s₁ != s₂) (n₁ * d₂) (d₁ * n₂)
  | _, _ => .notANumber

/-- The number with the other sign. -/
def neg : Binary64 → Binary64
  | .finite s m e => .finite (!s) m e
  | .infinite s => .infinite (!s)
  | .notANumber => .notANumber

end Binary64

end GraphClient
