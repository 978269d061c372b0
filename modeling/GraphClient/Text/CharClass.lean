import GraphClient.Text.Property.Alphabetic
import GraphClient.Text.Property.Numeric
import GraphClient.Text.Property.WordJoiner
import GraphClient.Text.Property.LetterCase
import GraphClient.Text.Property.CaseIgnorable
import GraphClient.Text.Property.RecentLetter

/-!
# Character classes

The classes that casing and plural rules distinguish. ASCII is decided by comparison, the other
characters by the tables of their properties. Casing follows Unicode 17, while the words of plural
rules are made of the characters of Unicode 16.
-/

namespace GraphClient

namespace Text

/-- Whether a number lies in one of the ranges. -/
def inRanges (spans : List (Nat × Nat)) (n : Nat) : Bool :=
  spans.any fun s => s.1 ≤ n && n ≤ s.2

/-- Whether a number lies in one of the stepped spans. -/
def inSteps (spans : List (Nat × Nat × Nat)) (n : Nat) : Bool :=
  spans.any fun s => s.1 ≤ n && n ≤ s.2.1 && (n - s.1) % s.2.2 == 0

/-- Whether a character is ASCII. -/
def isAscii (c : Char) : Bool := c.toNat < 128

/-- Letters and the other characters with the property Alphabetic. -/
def isAlphabetic (c : Char) : Bool :=
  if isAscii c then c.isAlpha else inRanges Property.alphabeticSpans c.toNat

/-- Digits and the other characters that stand for numbers. -/
def isNumeric (c : Char) : Bool :=
  if isAscii c then c.isDigit else inRanges Property.numericSpans c.toNat

/-- Alphabetic or numeric characters. -/
def isAlphanumeric (c : Char) : Bool := isAlphabetic c || isNumeric c

/-- Characters that make up words: letters that are not too recent, and the characters that join
them. -/
def isWordChar (c : Char) : Bool :=
  if isAscii c then c.isAlphanum || c == '_'
  else
    (inRanges Property.alphabeticSpans c.toNat && !inRanges Property.recentLetterSpans c.toNat) ||
      inRanges Property.wordJoinerSpans c.toNat

/-- Characters with the property Lowercase. -/
def isLowercase (c : Char) : Bool :=
  if isAscii c then c.isLower else inSteps Property.lowercaseSpans c.toNat

/-- Characters with the property Uppercase. -/
def isUppercase (c : Char) : Bool :=
  if isAscii c then c.isUpper else inSteps Property.uppercaseSpans c.toNat

/-- Characters that have a case. -/
def isCased (c : Char) : Bool :=
  isLowercase c || isUppercase c || inSteps Property.titlecaseSpans c.toNat

/-- Characters that are passed over when the case of their neighbours matters. -/
def isCaseIgnorable (c : Char) : Bool := inRanges Property.caseIgnorableSpans c.toNat

end Text

end GraphClient
