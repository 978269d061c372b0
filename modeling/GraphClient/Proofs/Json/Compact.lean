import GraphClient.Json.Printer

/-!
# Lengths of JSON texts

The text of an object is longer than that of any value in it, and becomes longer with every new
field. So some objects are known to have different texts without a look at their characters.

* `Json.length_lt_of_mem` : a value is shorter than an object that it is in.
* `Json.length_lt_append` : an object becomes longer with a field at its end.
* `Json.length_lt_string` : a text is shorter than its quoted form.
-/

namespace GraphClient

/-! ## Joined texts -/

theorem length_intercalate_cons_cons (s t u : String) (rest : List String) :
    (s.intercalate (t :: u :: rest)).length =
      t.length + s.length + (s.intercalate (u :: rest)).length := by
  rw [String.intercalate_cons_cons, String.length_append, String.length_append]

/-- None of the texts that are joined is longer than the result. -/
theorem length_le_intercalate (s : String) {texts : List String} {text : String}
    (h : text ∈ texts) : text.length ≤ (s.intercalate texts).length := by
  induction texts with
  | nil => simp at h
  | cons first rest ih =>
    cases rest with
    | nil =>
      obtain rfl := List.mem_singleton.1 h
      exact Nat.le_of_eq (congrArg String.length String.intercalate_singleton.symm)
    | cons second rest =>
      rw [length_intercalate_cons_cons]
      rcases List.mem_cons.1 h with rfl | h
      · omega
      · have hrest := ih h
        omega

/-- A further text makes the result longer. -/
theorem length_intercalate_lt_append (s : String) (texts : List String) {text : String}
    (h : 0 < text.length) :
    (s.intercalate texts).length < (s.intercalate (texts ++ [text])).length := by
  induction texts with
  | nil =>
    rw [List.nil_append, String.intercalate_singleton, String.intercalate_nil]
    exact h
  | cons first rest ih =>
    cases rest with
    | nil =>
      -- The second text brings the first separator along, which may be empty.
      show _ < (s.intercalate [first, text]).length
      rw [length_intercalate_cons_cons, String.intercalate_singleton, String.intercalate_singleton]
      omega
    | cons second rest =>
      show _ < (s.intercalate (first :: second :: (rest ++ [text]))).length
      rw [length_intercalate_cons_cons, length_intercalate_cons_cons]
      have hrest : (s.intercalate (second :: rest)).length <
          (s.intercalate (second :: (rest ++ [text]))).length := ih
      omega

namespace Quoted

/-- Every character stands for at least one character. -/
theorem length_le_encode (text : List Char) : text.length ≤ (encode text).length := by
  induction text with
  | nil => exact Nat.le_refl _
  | cons c rest ih =>
    have hescape : 1 ≤ (escape c).length := by
      unfold escape
      repeat' split
      all_goals simp
    rw [encode_cons, List.length_cons, List.length_append]
    omega

end Quoted

namespace Json

theorem compactFields_append (a b : List (String × Json)) :
    compactFields (a ++ b) = compactFields a ++ compactFields b := by
  induction a with
  | nil => rfl
  | cons p rest ih =>
    obtain ⟨key, value⟩ := p
    rw [List.cons_append, compactFields, compactFields, ih, List.cons_append]

theorem mem_compactFields {fields : List (String × Json)} {key : String} {value : Json}
    (h : (key, value) ∈ fields) : quoted key ++ ":" ++ value.compact ∈ compactFields fields := by
  induction fields with
  | nil => simp at h
  | cons p rest ih =>
    obtain ⟨key', value'⟩ := p
    rw [compactFields]
    rcases List.mem_cons.1 h with heq | h
    · obtain ⟨rfl, rfl⟩ := Prod.mk.inj heq
      exact List.mem_cons_self
    · exact List.mem_cons_of_mem _ (ih h)

theorem length_compact_object (fields : List (String × Json)) :
    (Json.object fields).compact.length =
      (String.intercalate "," (compactFields fields)).length + 2 := by
  have hbraces : "\x7b".length = 1 ∧ "\x7d".length = 1 := ⟨rfl, rfl⟩
  rw [compact, String.length_append, String.length_append]
  omega

/-- A value has a shorter text than an object that it is in. -/
theorem length_lt_of_mem {fields : List (String × Json)} {key : String} {value : Json}
    (h : (key, value) ∈ fields) :
    value.compact.length < (Json.object fields).compact.length := by
  have hfield := length_le_intercalate "," (mem_compactFields h)
  rw [String.length_append, String.length_append] at hfield
  rw [length_compact_object]
  omega

/-- A field at its end makes an object longer. -/
theorem length_lt_append (fields : List (String × Json)) (key : String) (value : Json) :
    (Json.object fields).compact.length <
      (Json.object (fields ++ [(key, value)])).compact.length := by
  have hcolon : ":".length = 1 := rfl
  have hfield : 0 < (quoted key ++ ":" ++ value.compact).length := by
    rw [String.length_append, String.length_append]
    omega
  rw [length_compact_object, length_compact_object, compactFields_append]
  have hfields := length_intercalate_lt_append "," (compactFields fields) hfield
  exact Nat.add_lt_add_right hfields 2

/-- A text is shorter than its quoted form. -/
theorem length_lt_string (text : String) : text.length < (Json.string text).compact.length := by
  have hmarks : "\"".length = 1 := rfl
  have hencode : text.length ≤ (String.ofList (Quoted.encode text.toList)).length := by
    rw [String.length_ofList, ← String.length_toList]
    exact Quoted.length_le_encode text.toList
  rw [compact, quoted, String.length_append, String.length_append]
  omega

end Json

end GraphClient
