/-!
# Machine words

The integers that a word of 32 or 64 bits can hold.
-/

namespace GraphClient

namespace Word

/-- The greatest unsigned 32-bit word. -/
def maxHalf : Nat := 4294967295

/-- The greatest unsigned 64-bit word. -/
def maxUnsigned : Nat := 18446744073709551615

/-- The least signed 64-bit word. -/
def minSigned : Int := -9223372036854775808

/-- The greatest signed 64-bit word. -/
def maxSigned : Int := 9223372036854775807

/-- Whether an integer fits a signed 64-bit word. -/
def fitsSigned (n : Int) : Bool := minSigned ≤ n && n ≤ maxSigned

/-- Whether an integer fits a signed or an unsigned 64-bit word. -/
def fits (n : Int) : Bool := minSigned ≤ n && n ≤ maxUnsigned

theorem fitsSigned_iff (n : Int) : fitsSigned n = true ↔ minSigned ≤ n ∧ n ≤ maxSigned := by
  simp [fitsSigned]

theorem fits_iff (n : Int) : fits n = true ↔ minSigned ≤ n ∧ n ≤ maxUnsigned := by
  simp [fits]

end Word

end GraphClient
