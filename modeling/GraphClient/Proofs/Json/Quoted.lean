import GraphClient.Json.Quoted
import GraphClient.Json.Token

/-!
# Quoted strings are read back

The reader of JSON strings reads the quoted form of every string back. So no two strings have the
same quoted form, and the form ends where it says.

* `Quoted.string?_escape` : one character is read back.
* `Quoted.string?_encode` : a string is read back up to its closing quotation mark.
* `Quoted.encode_unique` : a quoted string and what follows it are known from the text.
-/

namespace GraphClient

namespace Quoted

open Json.Reader

theorem hexValue?_digitChar : ∀ n < 16, hexValue? (Nat.digitChar n) = some n := by
  decide

/-- The digits that a control character is escaped by have its value. -/
theorem hexWord?_hexDigit {n : Nat} (h : n < 32) :
    hexWord? '0' '0' (hexDigit (n / 16)) (hexDigit n) = some n := by
  have hzero : hexValue? '0' = some 0 := rfl
  have hhigh : hexValue? (hexDigit (n / 16)) = some (n / 16 % 16) :=
    hexValue?_digitChar _ (Nat.mod_lt _ (by decide))
  have hlow : hexValue? (hexDigit n) = some (n % 16) :=
    hexValue?_digitChar _ (Nat.mod_lt _ (by decide))
  have hvalue : ((0 * 16 + 0) * 16 + n / 16 % 16) * 16 + n % 16 = n := by omega
  rw [hexWord?, hzero, hhigh, hlow]
  exact congrArg some hvalue

variable (done rest : List Char)

/-- An escape by four digits that is no surrogate is read by itself, whatever comes next. -/
theorem string?_of_hexWord? {a b c d : Char} {n : Nat} (hword : hexWord? a b c d = some n)
    (hn : n < 0xD800) :
    string? done ('\\' :: 'u' :: a :: b :: c :: d :: rest) =
      string? (Char.ofNat n :: done) rest := by
  have hhigh : ¬ (0xD800 ≤ n ∧ n < 0xDC00) := by omega
  have hlow : ¬ (0xDC00 ≤ n ∧ n < 0xE000) := by omega
  have hany : ¬ (0xD800 ≤ n ∧ n < 0xE000) := by omega
  -- The reader looks ahead for a second escape, which might be the other half of a pair.
  by_cases hnext : ∃ e f g i more, rest = '\\' :: 'u' :: e :: f :: g :: i :: more
  · obtain ⟨e, f, g, i, more, rfl⟩ := hnext
    rw [string?, hword]
    exact (if_neg hhigh).trans (if_neg hlow)
  · have hlast : ∀ e f g i more, rest = '\\' :: 'u' :: e :: f :: g :: i :: more → False :=
      fun e f g i more h => hnext ⟨e, f, g, i, more, h⟩
    rw [string?.eq_4 done a b c d rest hlast, hword]
    exact if_neg hany

/-- A letter behind a backslash is read as what it stands for. -/
theorem string?_of_letterEscape? {letter c : Char} (h : letterEscape? letter = some c)
    (hne : letter ≠ 'u') : string? done ('\\' :: letter :: rest) = string? (c :: done) rest := by
  rw [string?, h]
  · rfl
  · exact fun _ _ _ _ _ _ _ _ _ hu _ => hne hu
  · exact fun _ _ _ _ _ hu _ => hne hu

/-- A character without a meaning is read as it is. -/
theorem string?_of_plain {c : Char} (hquote : c ≠ '"') (hbackslash : c ≠ '\\')
    (hcontrol : ¬ c.toNat < 32) : string? done (c :: rest) = string? (c :: done) rest := by
  rw [string?, if_neg hcontrol]
  · exact hquote
  · exact fun _ _ _ _ _ _ _ _ _ h _ => hbackslash h
  · exact fun _ _ _ _ _ h _ => hbackslash h
  · exact fun _ _ h _ => hbackslash h

/-- The characters that are escaped by a letter. -/
def lettered : List Char := ['"', '\\', '\n', '\r', '\t', Char.ofNat 8, Char.ofNat 12]

/-- The characters that have a letter of their own are written with it. -/
theorem exists_letter : ∀ c ∈ lettered,
    ∃ letter, escape c = ['\\', letter] ∧ letterEscape? letter = some c ∧ letter ≠ 'u' := by
  intro c hc
  simp only [lettered, List.mem_cons, List.not_mem_nil, or_false] at hc
  rcases hc with rfl | rfl | rfl | rfl | rfl | rfl | rfl
  all_goals exact ⟨_, rfl, rfl, by decide⟩

/-- Of the other characters only those below the blank are escaped, by their number. -/
theorem escape_of_not_mem_lettered {c : Char} (h : c ∉ lettered) :
    escape c =
      if c.toNat < 32 then ['\\', 'u', '0', '0', hexDigit (c.toNat / 16), hexDigit c.toNat]
      else [c] := by
  simp only [lettered, List.mem_cons, List.not_mem_nil, or_false, not_or] at h
  simp only [escape, h, if_false]

/-- A character is read back from the characters that stand for it. -/
theorem string?_escape (c : Char) :
    string? done (escape c ++ rest) = string? (c :: done) rest := by
  by_cases hletter : c ∈ lettered
  · obtain ⟨letter, hescape, hread, hne⟩ := exists_letter c hletter
    rw [hescape]
    exact string?_of_letterEscape? done rest hread hne
  · rw [escape_of_not_mem_lettered hletter]
    by_cases hcontrol : c.toNat < 32
    · have hread := string?_of_hexWord? done rest (hexWord?_hexDigit hcontrol) (by omega)
      rw [Char.ofNat_toNat] at hread
      rw [if_pos hcontrol]
      exact hread
    · rw [if_neg hcontrol]
      have hquote : c ≠ '"' := fun h => hletter (by simp [lettered, h])
      have hbackslash : c ≠ '\\' := fun h => hletter (by simp [lettered, h])
      exact string?_of_plain done rest hquote hbackslash hcontrol

/-- A string is read back up to its closing quotation mark. -/
theorem string?_encode (text done rest : List Char) :
    string? done (encode text ++ '"' :: rest) =
      some (String.ofList (done.reverse ++ text), rest) := by
  induction text generalizing done with
  | nil => rw [encode_nil, List.nil_append, string?, List.append_nil]
  | cons c text ih =>
    rw [encode_cons, List.append_assoc, string?_escape, ih, List.reverse_cons, List.append_assoc]
    rfl

/-- A string between quotation marks and what follows it are known from the text. -/
theorem encode_unique {s t r r' : List Char} (h : encode s ++ '"' :: r = encode t ++ '"' :: r') :
    s = t ∧ r = r' := by
  have hread := string?_encode s [] r
  rw [h, string?_encode t [] r'] at hread
  obtain ⟨htext, hrest⟩ := Prod.ext_iff.1 (Option.some.inj hread)
  exact ⟨(String.ofList_injective htext).symm, hrest.symm⟩

end Quoted

end GraphClient
