import GraphClient.Text.Casing

/-!
# How cased names end

Casing drops characters between words, but the last letter of a name stays where it is and at most
changes its case. Texts that are put together differ from a text with another beginning or ending.
-/

namespace GraphClient

namespace Text

/-- Some letters together with their other cases. -/
def CaseClosed (letters : List Char) : Prop :=
  ∀ c ∈ letters, isAlphanumeric c = true ∧ isNumeric c = false ∧ c.toUpper ∈ letters ∧
    c.toLower ∈ letters

instance (letters : List Char) : Decidable (CaseClosed letters) :=
  List.decidableBAll _ letters

/-- The last character of a text is one of some letters. -/
def EndsIn (letters : List Char) (text : String) : Prop :=
  ∃ before, ∃ c ∈ letters, text.toList = before ++ [c]

variable {letters : List Char}

/-- Joined words end in one of the letters if the text does: the last character is kept, in one case
or the other. -/
theorem exists_joinWords_append (closed : CaseClosed letters) {c : Char} (hc : c ∈ letters)
    (text : List Char) : ∀ newWord last found, ∃ before, ∃ d ∈ letters,
      joinWords newWord last found (text ++ [c]) = before ++ [d] := by
  obtain ⟨halpha, hnumeric, hupper, hlower⟩ := closed c hc
  -- On the text before the letter, which only adds to the front of what comes out for the letter.
  induction text with
  | nil =>
    intro newWord last found
    simp only [List.nil_append, joinWords, halpha, hnumeric, Bool.not_true, Bool.false_eq_true,
      if_false]
    split
    · exact ⟨[], c.toUpper, hupper, rfl⟩
    · exact ⟨[], c.toLower, hlower, rfl⟩
  | cons d rest ih =>
    intro newWord last found
    rw [List.cons_append, joinWords]
    split
    · exact ih _ _ _
    · split
      · obtain ⟨before, e, he, heq⟩ := ih true last true
        exact ⟨d :: before, e, he, by rw [heq]; rfl⟩
      · split
        · obtain ⟨before, e, he, heq⟩ := ih false last true
          exact ⟨d.toUpper :: before, e, he, by rw [heq]; rfl⟩
        · obtain ⟨before, e, he, heq⟩ := ih newWord d true
          exact ⟨d.toLower :: before, e, he, by rw [heq]; rfl⟩

/-- A name that ends in a letter has no trailing characters to drop. -/
theorem nameChars_of_endsIn (closed : CaseClosed letters) {text : String}
    (h : EndsIn letters text) : nameChars text = text.toList := by
  obtain ⟨before, c, hc, heq⟩ := h
  rw [nameChars, heq, dropEndWhile_append_singleton, if_neg]
  simp [(closed c hc).1]

/-- The last letter keeps its place in camel case. -/
theorem EndsIn.camelCase (closed : CaseClosed letters) {text : String} (h : EndsIn letters text) :
    EndsIn letters (camelCase text) := by
  obtain ⟨before, c, hc, heq⟩ := h
  obtain ⟨before', d, hd, heq'⟩ := exists_joinWords_append closed hc before false ' ' false
  refine ⟨before', d, hd, ?_⟩
  rw [Text.camelCase, nameChars_of_endsIn closed ⟨before, c, hc, heq⟩, heq, heq',
    String.toList_ofList]

/-- The last letter keeps its place in pascal case. -/
theorem EndsIn.pascalCase (closed : CaseClosed letters) {text : String}
    (h : EndsIn letters text) : EndsIn letters (pascalCase text) := by
  obtain ⟨before, c, hc, heq⟩ := h
  obtain ⟨before', d, hd, heq'⟩ := exists_joinWords_append closed hc before true ' ' false
  refine ⟨before', d, hd, ?_⟩
  rw [Text.pascalCase, nameChars_of_endsIn closed ⟨before, c, hc, heq⟩, heq, heq',
    String.toList_ofList]

/-- A text is put together at its end. -/
theorem EndsIn.append (a : String) {b : String} (h : EndsIn letters b) :
    EndsIn letters (a ++ b) := by
  obtain ⟨before, c, hc, heq⟩ := h
  exact ⟨a.toList ++ before, c, hc, by simp [heq]⟩

/-- A text differs from one that ends in another letter. -/
theorem EndsIn.ne {text other : String} (h : EndsIn letters text)
    (hother : other.toList.getLast? ∉ letters.map some) : text ≠ other := by
  rintro rfl
  obtain ⟨before, c, hc, heq⟩ := h
  refine hother (List.mem_map.2 ⟨c, hc, ?_⟩)
  rw [heq, List.getLast?_concat]

/-- Texts that end in letters of two classes without a common letter. -/
theorem EndsIn.ne_of_disjoint {letters' : List Char} {text other : String}
    (h : EndsIn letters text) (h' : EndsIn letters' other)
    (disjoint : ∀ c ∈ letters, c ∉ letters') : text ≠ other := by
  rintro rfl
  obtain ⟨before, c, hc, heq⟩ := h
  obtain ⟨before', d, hd, heq'⟩ := h'
  rw [heq] at heq'
  obtain rfl : c = d := List.singleton_inj.1 (List.append_inj_right' heq' rfl)
  exact disjoint c hc hd

theorem append_ne_of_not_suffix {a b other : String} (h : ¬ b.toList <:+ other.toList) :
    a ++ b ≠ other := by
  rintro rfl
  exact h ⟨a.toList, by rw [String.toList_append]⟩

theorem append_ne_of_not_prefix {a b other : String} (h : ¬ a.toList <+: other.toList) :
    a ++ b ≠ other := by
  rintro rfl
  exact h ⟨b.toList, by rw [String.toList_append]⟩

/-- Texts with two endings, none of which ends in the other one. -/
theorem append_ne_append_of_suffix {a b s t : String} (h : ¬ s.toList <:+ t.toList)
    (h' : ¬ t.toList <:+ s.toList) : a ++ s ≠ b ++ t := by
  intro heq
  have hs : s.toList <:+ (a ++ s).toList := ⟨a.toList, String.toList_append.symm⟩
  have ht : t.toList <:+ (a ++ s).toList := by
    rw [heq]
    exact ⟨b.toList, String.toList_append.symm⟩
  exact (List.suffix_or_suffix_of_suffix hs ht).elim h h'

/-- Texts with two beginnings, none of which begins with the other one. -/
theorem append_ne_append_of_prefix {a b s t : String} (h : ¬ a.toList <+: b.toList)
    (h' : ¬ b.toList <+: a.toList) : a ++ s ≠ b ++ t := by
  intro heq
  have ha : a.toList <+: (a ++ s).toList := ⟨s.toList, String.toList_append.symm⟩
  have hb : b.toList <+: (a ++ s).toList := by
    rw [heq]
    exact ⟨t.toList, String.toList_append.symm⟩
  exact (List.prefix_or_prefix_of_prefix ha hb).elim h h'

end Text

end GraphClient
