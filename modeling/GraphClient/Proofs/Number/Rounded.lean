import GraphClient.Number.Shortest
import GraphClient.Number.Word

/-!
# Integers that are rounded

An integer beyond the signed words is rounded to 53 bits, and so are many others to the same number.
The text of a floating-point number is never that of an integer: some character of it is no digit
and no minus sign.

* `Binary64.roundQuotient_cases` : which quotients are rounded down, and which up.
* `Binary64.exists_ofInt_eq` : another unsigned word is rounded to the same number.
* `Binary64.exists_not_isNumeral` : a character that tells a floating-point number.
-/

namespace GraphClient

/-- The characters of decimal integers. -/
def isNumeral (c : Char) : Bool := c.isDigit || c == '-'

namespace Binary64

/-! ## Quotients -/

/-- A quotient is rounded down if less than half is left over, and up if more than half is. -/
theorem roundQuotient_cases (num den : Nat) :
    (roundQuotient num den = num / den ∧ 2 * (num % den) ≤ den) ∨
      (roundQuotient num den = num / den + 1 ∧ den ≤ 2 * (num % den)) := by
  unfold roundQuotient
  dsimp only
  split
  · next h =>
    have hleft : den ≤ 2 * (num % den) := by
      simp only [gt_iff_lt, Bool.or_eq_true, decide_eq_true_eq, Bool.and_eq_true, beq_iff_eq] at h
      omega
    exact .inr ⟨rfl, hleft⟩
  · next h =>
    have hleft : 2 * (num % den) ≤ den := by
      simp only [gt_iff_lt, Bool.or_eq_true, decide_eq_true_eq, not_or] at h
      omega
    exact .inl ⟨rfl, hleft⟩

theorem roundQuotient_of_lt {num den : Nat} (h : 2 * (num % den) < den) :
    roundQuotient num den = num / den := by
  rcases roundQuotient_cases num den with ⟨hround, -⟩ | ⟨-, hle⟩
  · exact hround
  · omega

theorem roundQuotient_of_gt {num den : Nat} (h : den < 2 * (num % den)) :
    roundQuotient num den = num / den + 1 := by
  rcases roundQuotient_cases num den with ⟨-, hle⟩ | ⟨hround, -⟩
  · omega
  · exact hround

/-- No quotient by five or more is rounded alone. Next to a multiple of the divisor there are two
numbers on each side that are rounded to it. -/
theorem exists_roundQuotient_eq (num : Nat) {den : Nat} (h : 5 ≤ den) :
    ∃ other, other ≠ num ∧ other / den = num / den ∧
      roundQuotient other den = roundQuotient num den := by
  have hpos : 0 < den := by omega
  have hnum : den * (num / den) + num % den = num := Nat.div_add_mod num den
  -- The number with the same quotient and another remainder.
  have hdiv : ∀ left < den, (den * (num / den) + left) / den = num / den := fun left hleft => by
    rw [Nat.mul_add_div hpos, Nat.div_eq_of_lt hleft, Nat.add_zero]
  have hmod : ∀ left < den, (den * (num / den) + left) % den = left := fun left hleft => by
    rw [Nat.mul_add_mod, Nat.mod_eq_of_lt hleft]
  rcases roundQuotient_cases num den with ⟨hround, hle⟩ | ⟨hround, hle⟩
  · obtain ⟨left, hleft, hne⟩ : ∃ left, 2 * left < den ∧ left ≠ num % den := by
      by_cases hzero : num % den = 0
      · exact ⟨1, by omega, by omega⟩
      · exact ⟨0, by omega, by omega⟩
    refine ⟨den * (num / den) + left, by omega, hdiv left (by omega), ?_⟩
    rw [roundQuotient_of_lt (by rw [hmod left (by omega)]; exact hleft), hdiv left (by omega),
      hround]
  · obtain ⟨left, hlt, hleft, hne⟩ : ∃ left, left < den ∧ den < 2 * left ∧ left ≠ num % den := by
      by_cases hlast : num % den = den - 1
      · exact ⟨den - 2, by omega, by omega, by omega⟩
      · exact ⟨den - 1, by omega, by omega, by omega⟩
    refine ⟨den * (num / den) + left, by omega, hdiv left hlt, ?_⟩
    rw [roundQuotient_of_gt (by rw [hmod left hlt]; exact hleft), hdiv left hlt, hround]

/-! ## The upper half of the unsigned words -/

/-- An unsigned word that is no signed word. -/
def IsUpper (n : Nat) : Prop := Word.maxSigned < n ∧ n ≤ Word.maxUnsigned

theorem IsUpper.bounds {n : Nat} (h : IsUpper n) :
    9223372036854775808 ≤ n ∧ n ≤ 18446744073709551615 := by
  obtain ⟨hlow, hhigh⟩ := h
  simp only [Word.maxSigned, Word.maxUnsigned] at hlow hhigh
  omega

theorem IsUpper.normalExponent {n : Nat} (h : IsUpper n) : normalExponent n 1 = 11 := by
  obtain ⟨hlow, hhigh⟩ := h.bounds
  have hlog : n.log2 = 63 := (Nat.log2_eq_iff (by omega)).2 ⟨by omega, by omega⟩
  have hguess : ((63 : Nat) : Int) - (Nat.log2 1 : Nat) - 52 = 11 := by decide
  have hunscale : unscale n 1 11 = (n, 2048) := rfl
  have hbits : 2048 * twoTo 52 = 9223372036854775808 := by decide
  have hbig : ¬ n < 2048 * twoTo 52 := by
    rw [hbits, Nat.not_lt]
    exact hlow
  simp only [Binary64.normalExponent, hlog, hguess, hunscale, if_neg hbig]

/-- Numbers of the upper half are rounded to multiples of 2048. -/
theorem ofRatio_congr {m n : Nat} (hm : IsUpper m) (hn : IsUpper n)
    (h : roundQuotient m 2048 = roundQuotient n 2048) : ofRatio false m 1 = ofRatio false n 1 := by
  have hexponent : max 11 minExponent = 11 := by decide
  have hunscale : ∀ k, unscale k 1 11 = (k, 2048) := fun k => rfl
  have hzero : m ≠ 0 ∧ n ≠ 0 := ⟨by have := hm.bounds; omega, by have := hn.bounds; omega⟩
  unfold ofRatio
  rw [if_neg hzero.1, if_neg hzero.2, hm.normalExponent, hn.normalExponent, hexponent]
  dsimp only
  rw [hunscale, hunscale]
  dsimp only
  rw [h]

/-- No word beyond the signed ones is rounded alone. -/
theorem exists_ofInt_eq {n : Int} (high : Word.maxSigned < n) (hfits : Word.fits n = true) :
    ∃ m : Int, m ≠ n ∧ Word.maxSigned < m ∧ Word.fits m = true ∧ ofInt m = ofInt n := by
  rw [Word.fits_iff] at hfits
  obtain ⟨n, rfl⟩ : ∃ k : Nat, n = k := ⟨n.toNat, by simp only [Word.maxSigned] at high; omega⟩
  have hn : IsUpper n := ⟨high, by simp only [Word.maxUnsigned] at *; omega⟩
  obtain ⟨m, hne, hquotient, hround⟩ := exists_roundQuotient_eq n (by decide : 5 ≤ 2048)
  -- The least and the greatest number of the upper half bound a range of whole quotients.
  have hm : IsUpper m := by
    simp only [IsUpper, Word.maxSigned, Word.maxUnsigned] at hn ⊢
    omega
  have hfits' : Word.fits m = true := by
    rw [Word.fits_iff]
    simp only [IsUpper, Word.maxSigned, Word.maxUnsigned, Word.minSigned] at hm ⊢
    omega
  have hsign : ∀ k : Nat, ofInt k = ofRatio false k 1 := fun k => rfl
  refine ⟨m, by omega, hm.1, hfits', ?_⟩
  rw [hsign, hsign, ofRatio_congr hm hn hround]

/-! ## Texts -/

/-- Something in the text of a decimal is no digit: the point, or the letter before the power of
ten. -/
theorem Decimal.exists_not_isNumeral (style : Style) (d : Decimal) :
    ∃ c ∈ (d.text style).toList, isNumeral c = false := by
  unfold Decimal.text
  dsimp only
  split
  · exact ⟨'e', by simp, rfl⟩
  · split
    · exact ⟨'.', by simp, rfl⟩
    · split
      · exact ⟨'.', by simp, rfl⟩
      · exact ⟨'.', by simp, rfl⟩

/-- The text of a floating-point number is not that of an integer. -/
theorem exists_not_isNumeral (x : Binary64) : ∃ c ∈ x.text.toList, isNumeral c = false := by
  cases x with
  | finite negative significand exponent =>
    unfold text
    dsimp only
    split
    · exact ⟨'.', by simp, rfl⟩
    · obtain ⟨c, hc, hmark⟩ :=
        Decimal.exists_not_isNumeral sixteenDigits (shortest significand exponent)
      refine ⟨c, ?_, hmark⟩
      rw [String.toList_append]
      exact List.mem_append_right _ hc
  | infinite negative =>
    cases negative with
    | false => exact ⟨'i', by decide, rfl⟩
    | true => exact ⟨'i', by decide, rfl⟩
  | notANumber => exact ⟨'N', by decide, rfl⟩

end Binary64

end GraphClient
