import GraphClient.Document.Literal
import GraphClient.Proofs.Json.Quoted
import GraphClient.Proofs.Text.Script

/-!
# Literals can be read back

The text of a literal tells the literal. The first character tells its form: a dollar sign, a
quotation mark, a bracket or a brace, a digit or a minus sign, or the first letter of a word. Then
the parts are read one by one. Floating-point numbers are left out, as some are written like
integers are.

* `isName` : what may be used as a name.
* `Literal.WellNamed` : literals made with names, without floating-point numbers.
* `Literal.WellNamed.legible` : such literals can be read off their texts.
-/

namespace GraphClient

/-! ## Names -/

/-- The characters of names. -/
def isNameChar (c : Char) : Bool := c.isAlphanum || c == '_'

/-- Whether a text is a name: letters, digits and `_`, without a digit in front. -/
def isName (text : String) : Bool :=
  match text.toList with
  | [] => false
  | c :: rest => !c.isDigit && (c :: rest).all isNameChar

/-- A name has a first character, which is no digit, and consists of characters of names. -/
theorem exists_of_isName {text : String} (h : isName text = true) :
    ∃ c rest, text.toList = c :: rest ∧ c.isDigit = false ∧
      ∀ d ∈ c :: rest, isNameChar d = true := by
  rw [isName] at h
  cases htext : text.toList with
  | nil => simp [htext] at h
  | cons c rest =>
    rw [htext, Bool.and_eq_true, Bool.not_eq_true', List.all_eq_true] at h
    exact ⟨c, rest, rfl, h⟩

/-- All characters of a name are characters of names. -/
theorem isNameChar_of_isName (text : String) (h : isName text = true) :
    ∀ c ∈ text.toList, isNameChar c = true := by
  obtain ⟨c, rest, htext, -, hchars⟩ := exists_of_isName h
  rw [htext]
  exact hchars

/-- Texts of characters of names. Unlike names they may be empty, and may begin with a digit. -/
def Spelled (text : String) : Prop := ∀ c ∈ text.toList, isNameChar c = true

instance (text : String) : Decidable (Spelled text) := List.decidableBAll _ text.toList

/-- A name is spelled in characters of names. -/
theorem spelled_of_isName {text : String} (h : isName text = true) : Spelled text :=
  isNameChar_of_isName text h

/-- Texts spelled in characters of names stay so one behind the other. -/
theorem Spelled.append {a b : String} (ha : Spelled a) (hb : Spelled b) : Spelled (a ++ b) := by
  rw [Spelled, String.toList_append]
  exact List.forall_mem_append.2 ⟨ha, hb⟩

/-- The characters of names and of integers. -/
def isTokenChar (c : Char) : Bool := isNameChar c || c == '-'

/-- All characters of a name may stand in a token. -/
theorem isTokenChar_of_isName (text : String) (h : isName text = true) :
    ∀ c ∈ text.toList, isTokenChar c = true := by
  intro c hc
  rw [isTokenChar, isNameChar_of_isName text h c hc, Bool.true_or]

/-- Names, written as they are. -/
def Script.name : Script String := .word (isName · = true) isNameChar

/-- The script of names can be read back. -/
theorem Script.legible_name {text : String} (h : isName text = true) : Script.name.Legible text :=
  legible_word isNameChar_of_isName h

namespace Literal

/-! ## Literals made with names -/

/-- All variables, enumeration values and keys of a literal are names, no enumeration value is one
of the words with a meaning of their own, and there is no floating-point number. -/
inductive WellNamed : Literal → Prop
  | reference {name : String} (hname : isName name = true) : WellNamed (.reference name)
  | enumeration {value : String} (hvalue : isName value = true)
      (hword : value ∉ ["true", "false", "null"]) : WellNamed (.enumeration value)
  | string {value : String} : WellNamed (.string value)
  | int {value : Int} : WellNamed (.int value)
  | bool {value : Bool} : WellNamed (.bool value)
  | null : WellNamed .null
  | list {items : List Literal} (hitems : ∀ item ∈ items, WellNamed item) :
      WellNamed (.list items)
  | object {fields : List (String × Literal)} (hkeys : ∀ field ∈ fields, isName field.1 = true)
      (hvalues : ∀ field ∈ fields, WellNamed field.2) : WellNamed (.object fields)

/-- Literals, written as in documents. -/
def script : Script Literal where
  write value := value.text.toList
  legal := WellNamed
  inner := isTokenChar

/-- Arguments of fields, and fields of objects. -/
def fieldScript : Script (String × Literal) := Script.name.keyed script

/-- The texts of the items are those of the literals, one by one. -/
theorem itemTexts_eq_map (items : List Literal) : itemTexts items = items.map text := by
  induction items with
  | nil => rfl
  | cons item rest ih => rw [itemTexts, ih, List.map_cons]

/-- The texts of the fields are their names and their literals, one by one. -/
theorem fieldTexts_eq_map (fields : List (String × Literal)) :
    fieldTexts fields = fields.map fun field => field.1 ++ ": " ++ field.2.text := by
  induction fields with
  | nil => rfl
  | cons field rest ih => rw [fieldTexts, ih, List.map_cons]

/-- The items of a list are written with commas between them. -/
theorem toList_itemTexts (items : List Literal) :
    (String.intercalate ", " (itemTexts items)).toList = script.listed items := by
  have hwrite (item : Literal) : item.text.toList = script.write (id item) := rfl
  rw [itemTexts_eq_map, Script.toList_intercalate_map hwrite, List.map_id]

/-- The fields of an object are written with commas between them. -/
theorem toList_fieldTexts (fields : List (String × Literal)) :
    (String.intercalate ", " (fieldTexts fields)).toList = fieldScript.listed fields := by
  have hwrite (field : String × Literal) :
      (field.1 ++ ": " ++ field.2.text).toList = fieldScript.write (id field) := by
    rw [String.toList_append, String.toList_append, List.append_assoc]
    rfl
  rw [fieldTexts_eq_map, Script.toList_intercalate_map hwrite, List.map_id]

/-- The script of literals writes their text. -/
theorem write_eq (value : Literal) : script.write value = value.text.toList := rfl

/-- A reference is its name behind a dollar sign. -/
theorem write_reference (name : String) :
    script.write (.reference name) = '$' :: name.toList := by
  rw [write_eq, text, String.toList_append]
  rfl

/-- A string is its encoded text between quotation marks. -/
theorem write_string (value : String) :
    script.write (.string value) = '"' :: (Quoted.encode value.toList ++ ['"']) := by
  rw [write_eq, text, quoted, String.toList_append, String.toList_append,
    @String.toList_ofList (Quoted.encode _), List.append_assoc]
  rfl

/-- A list is its items between brackets. -/
theorem write_list (items : List Literal) :
    script.write (.list items) = '[' :: (script.listed items ++ [']']) := by
  rw [write_eq, text, String.toList_append, String.toList_append, toList_itemTexts,
    List.append_assoc]
  rfl

/-- An object without fields is a pair of braces. -/
theorem write_object_nil : script.write (.object []) = ['\x7b', '\x7d'] := by
  rw [write_eq, text]
  rfl

/-- An object with fields has them between braces, with a blank on each side. -/
theorem write_object_cons (field : String × Literal) (rest : List (String × Literal)) :
    script.write (.object (field :: rest)) =
      '\x7b' :: ' ' :: (fieldScript.listed (field :: rest) ++ [' ', '\x7d']) := by
  rw [write_eq, text, String.toList_append, String.toList_append, toList_fieldTexts,
    List.append_assoc]
  rfl

/-! ## Digits -/

/-- A number is written with one digit at least. -/
theorem exists_digits_cons (n : Nat) :
    ∃ c rest, Nat.toDigits 10 n = c :: rest ∧ c.isDigit = true := by
  cases hdigits : Nat.toDigits 10 n with
  | nil => exact absurd hdigits Nat.toDigits_ne_nil
  | cons c rest =>
    have hmem : c ∈ Nat.toDigits 10 n := by simp [hdigits]
    exact ⟨c, rest, rfl, Nat.isDigit_of_mem_toDigits (by decide) (by decide) hmem⟩

/-- Digits never start with a minus sign. -/
theorem toDigits_ne_minus (n : Nat) (rest : List Char) : Nat.toDigits 10 n ≠ '-' :: rest := by
  obtain ⟨c, more, hdigits, hc⟩ := exists_digits_cons n
  intro h
  obtain rfl : c = '-' := (List.cons.inj (hdigits.symm.trans h)).1
  cases hc

/-- The digits of a number tell the number. -/
theorem toDigits_injective {m n : Nat} (h : Nat.toDigits 10 m = Nat.toDigits 10 n) : m = n :=
  calc m = Nat.ofDigitChars 10 (Nat.toDigits 10 m) 0 := Nat.ofDigitChars_ten_toDigits.symm
    _ = Nat.ofDigitChars 10 (Nat.toDigits 10 n) 0 := by rw [h]
    _ = n := Nat.ofDigitChars_ten_toDigits

/-- A digit may stand in a name. -/
theorem isNameChar_of_isDigit {c : Char} (h : c.isDigit = true) : isNameChar c = true := by
  simp [isNameChar, Char.isAlphanum, h]

/-- An integer is written by its digits, after a minus sign if it is negative. -/
theorem write_int (value : Int) :
    script.write (.int value) =
      if value < 0 then '-' :: Nat.toDigits 10 value.natAbs else Nat.toDigits 10 value.natAbs := by
  rw [write_eq, text, Int.toString_eq_repr, Int.repr_eq_if]
  by_cases h : value < 0
  · have habs : (-value).toNat = value.natAbs := by omega
    rw [if_neg (by omega), if_pos h, habs, String.toList_append, Nat.toList_repr]
    rfl
  · have habs : value.toNat = value.natAbs := by omega
    rw [if_pos (by omega), if_neg h, habs, Nat.toList_repr]

/-- An integer is written with a minus sign and digits alone. -/
theorem forall_mem_write_int {p : Char → Prop} (minus : p '-')
    (digit : ∀ c : Char, c.isDigit = true → p c) (value : Int) :
    ∀ c ∈ script.write (.int value), p c := by
  have hdigits : ∀ c ∈ Nat.toDigits 10 value.natAbs, p c := fun c hc =>
    digit c (Nat.isDigit_of_mem_toDigits (by decide) (by decide) hc)
  rw [write_int]
  by_cases h : value < 0
  · rw [if_pos h, List.forall_mem_cons]
    exact ⟨minus, hdigits⟩
  · rw [if_neg h]
    exact hdigits

/-- An integer is written in one token. -/
theorem isTokenChar_of_mem_write_int (value : Int) :
    ∀ c ∈ script.write (.int value), isTokenChar c = true := by
  refine forall_mem_write_int (by decide) (fun c hdigit => ?_) value
  rw [isTokenChar, isNameChar_of_isDigit hdigit, Bool.true_or]

/-- The text of an integer tells the integer. -/
theorem write_int_injective {m n : Int} (h : script.write (.int m) = script.write (.int n)) :
    m = n := by
  rw [write_int, write_int] at h
  by_cases hm : m < 0 <;> by_cases hn : n < 0
  · rw [if_pos hm, if_pos hn] at h
    have habs : m.natAbs = n.natAbs := toDigits_injective (List.cons.inj h).2
    omega
  · rw [if_pos hm, if_neg hn] at h
    exact absurd h.symm (toDigits_ne_minus _ _)
  · rw [if_neg hm, if_pos hn] at h
    exact absurd h (toDigits_ne_minus _ _)
  · rw [if_neg hm, if_neg hn] at h
    have habs : m.natAbs = n.natAbs := toDigits_injective h
    omega

/-! ## The form of a literal -/

/-- The forms that the texts of literals have. -/
inductive Form where
  | reference
  | quoted
  | number
  | word
  | list
  | object

/-- The form that a character opens. -/
def Form.openedBy? (c : Char) : Option Form :=
  if isNameChar c then some (if c.isDigit then .number else .word)
  else if c = '-' then some .number
  else if c = '$' then some .reference
  else if c = '"' then some .quoted
  else if c = '[' then some .list
  else if c = '\x7b' then some .object
  else none

/-- The form of the text of a literal. -/
def form : Literal → Form
  | .reference _ => .reference
  | .enumeration _ | .bool _ | .null => .word
  | .string _ => .quoted
  | .int _ | .float _ => .number
  | .list _ => .list
  | .object _ => .object

/-- A literal that is written as a word is written as a name. -/
theorem WellNamed.isName_text {value : Literal} (h : value.WellNamed)
    (hform : value.form = .word) : isName value.text = true := by
  cases h with
  | enumeration hvalue hword => exact hvalue
  | bool => cases ‹Bool› <;> decide
  | null => decide
  | _ => cases hform

/-- The first character of a literal opens its form. -/
theorem WellNamed.exists_opening {value : Literal} (h : value.WellNamed) :
    ∃ c rest, script.write value = c :: rest ∧ Form.openedBy? c = some value.form := by
  have hword : value.form = .word →
      ∃ c rest, script.write value = c :: rest ∧ Form.openedBy? c = some value.form := by
    intro hform
    obtain ⟨c, rest, htext, hdigit, hchars⟩ := exists_of_isName (h.isName_text hform)
    rw [hform]
    refine ⟨c, rest, htext, ?_⟩
    rw [Form.openedBy?, if_pos (hchars c List.mem_cons_self), hdigit]
    rfl
  cases h with
  | reference hname => exact ⟨'$', _, write_reference _, rfl⟩
  | enumeration | bool | null => exact hword rfl
  | string => exact ⟨'"', _, write_string _, rfl⟩
  | @int value =>
    rw [write_int]
    by_cases hneg : value < 0
    · exact ⟨'-', _, if_pos hneg, rfl⟩
    · obtain ⟨c, rest, hdigits, hc⟩ := exists_digits_cons value.natAbs
      refine ⟨c, rest, (if_neg hneg).trans hdigits, ?_⟩
      rw [Form.openedBy?, if_pos (isNameChar_of_isDigit hc), hc]
      rfl
  | list => exact ⟨'[', _, write_list _, rfl⟩
  | @object fields =>
    cases fields with
    | nil => exact ⟨'\x7b', _, write_object_nil, rfl⟩
    | cons field rest => exact ⟨'\x7b', _, write_object_cons field rest, rfl⟩

/-- Two literals that start the same text have the same form. -/
theorem WellNamed.form_eq {a b : Literal} (ha : a.WellNamed) (hb : b.WellNamed) {r s : List Char}
    (h : script.write a ++ r = script.write b ++ s) : a.form = b.form := by
  obtain ⟨c, rest, hc, hopen⟩ := ha.exists_opening
  obtain ⟨d, rest', hd, hopen'⟩ := hb.exists_opening
  rw [hc, hd] at h
  obtain rfl : c = d := (List.cons.inj h).1
  exact Option.some.inj (hopen.symm.trans hopen')

/-! ## Each form is legible -/

/-- A reference can be read back up to the end of its name. -/
theorem legible_reference {name : String} (hname : isName name = true) :
    script.Legible (.reference name) where
  legal := .reference hname
  unique other r s hother hr hs heq := by
    have hform := WellNamed.form_eq (.reference hname) hother heq
    cases hother with
    | @reference name' hname' =>
      rw [write_reference, write_reference] at heq
      obtain ⟨hword, hrest⟩ := word_unique (isTokenChar_of_isName name hname)
        (isTokenChar_of_isName name' hname') hr hs (List.cons.inj heq).2
      exact ⟨congrArg _ (String.toList_inj.1 hword), hrest⟩
    | _ => cases hform

/-- The literal that is written as a word. -/
def ofWord (word : String) : Literal :=
  if word = "true" then .bool true
  else if word = "false" then .bool false
  else if word = "null" then .null
  else .enumeration word

/-- A word has one meaning, as no enumeration value is one of the other words. -/
theorem WellNamed.ofWord_text {value : Literal} (h : value.WellNamed)
    (hform : value.form = .word) : ofWord value.text = value := by
  cases h with
  | enumeration hvalue hword =>
    simp only [List.mem_cons, List.not_mem_nil, or_false, not_or] at hword
    rw [text, ofWord, if_neg hword.1, if_neg hword.2.1, if_neg hword.2.2]
  | bool => cases ‹Bool› <;> rfl
  | null => rfl
  | _ => cases hform

/-- A literal that is a word can be read back up to the end of the word. -/
theorem WellNamed.legible_word {value : Literal} (h : value.WellNamed)
    (hform : value.form = .word) : script.Legible value where
  legal := h
  unique other r s hother hr hs heq := by
    have hform' : other.form = .word := (h.form_eq hother heq).symm.trans hform
    obtain ⟨hword, hrest⟩ := word_unique (isTokenChar_of_isName _ (h.isName_text hform))
      (isTokenChar_of_isName _ (hother.isName_text hform')) hr hs heq
    refine ⟨?_, hrest⟩
    calc value = ofWord value.text := (h.ofWord_text hform).symm
      _ = ofWord other.text := congrArg ofWord (String.toList_inj.1 hword)
      _ = other := hother.ofWord_text hform'

/-- A string can be read back up to its closing quotation mark. -/
theorem legible_string (value : String) : script.Legible (.string value) where
  legal := .string
  unique other r s hother hr hs heq := by
    have hform := WellNamed.form_eq .string hother heq
    cases hother with
    | @string value' =>
      rw [write_string, write_string] at heq
      have hquoted : Quoted.encode value.toList ++ '"' :: r =
          Quoted.encode value'.toList ++ '"' :: s := by
        simpa using heq
      obtain ⟨hvalue, hrest⟩ := Quoted.encode_unique hquoted
      exact ⟨congrArg _ (String.toList_inj.1 hvalue), hrest⟩
    | _ => cases hform

/-- An integer can be read back up to the end of its digits. -/
theorem legible_int (value : Int) : script.Legible (.int value) where
  legal := .int
  unique other r s hother hr hs heq := by
    have hform := WellNamed.form_eq .int hother heq
    cases hother with
    | @int value' =>
      obtain ⟨htext, hrest⟩ := word_unique (isTokenChar_of_mem_write_int value)
        (isTokenChar_of_mem_write_int value') hr hs heq
      exact ⟨congrArg _ (write_int_injective htext), hrest⟩
    | _ => cases hform

/-- No literal starts with the bracket that closes a list, so a list with items is no empty one. -/
theorem listed_ne_close {item : Literal} (hitem : item.WellNamed) (items : List Literal)
    (r s : List Char) : ']' :: r ≠ script.listed (item :: items) ++ s := by
  obtain ⟨c, rest, hwrite, hopen⟩ := hitem.exists_opening
  obtain ⟨more, hlisted⟩ := script.exists_listed_cons item items
  intro h
  rw [hlisted, hwrite] at h
  obtain rfl : ']' = c := (List.cons.inj h).1
  cases hopen

/-- A list can be read back if its items can. -/
theorem legible_list {items : List Literal} (h : ∀ item ∈ items, script.Legible item) :
    script.Legible (.list items) where
  legal := .list fun item hitem => (h item hitem).legal
  unique other r s hother hr hs heq := by
    have hform := WellNamed.form_eq (.list fun item hitem => (h item hitem).legal) hother heq
    cases hother with
    | @list items' hitems' =>
      rw [write_list, write_list] at heq
      have hlists : script.listed items ++ ']' :: r = script.listed items' ++ ']' :: s := by
        simpa using heq
      cases items with
      | nil =>
        cases items' with
        | nil => exact ⟨rfl, (List.cons.inj hlists).2⟩
        | cons b bs =>
          exact absurd hlists (listed_ne_close (hitems' b List.mem_cons_self) bs r _)
      | cons a as =>
        cases items' with
        | nil =>
          exact absurd hlists.symm (listed_ne_close (h a List.mem_cons_self).legal as s _)
        | cons b bs =>
          obtain ⟨hitems, hrest⟩ := Script.listed_unique rfl rfl (by decide) h hitems' hlists
          exact ⟨congrArg _ hitems, hrest⟩
    | _ => cases hform

/-- Values are legible after their keys. -/
theorem legible_field {field : String × Literal} (hkey : isName field.1 = true)
    (hvalue : script.Legible field.2) : fieldScript.Legible field :=
  (Script.legible_name hkey).keyed hvalue rfl

/-- An object can be read back if its literals can and its keys are names. -/
theorem legible_object {fields : List (String × Literal)}
    (hkeys : ∀ field ∈ fields, isName field.1 = true)
    (hvalues : ∀ field ∈ fields, script.Legible field.2) : script.Legible (.object fields) where
  legal := .object hkeys fun field hfield => (hvalues field hfield).legal
  unique other r s hother hr hs heq := by
    have hfields : ∀ field ∈ fields, fieldScript.Legible field := fun field hfield =>
      legible_field (hkeys field hfield) (hvalues field hfield)
    have hform := WellNamed.form_eq
      (.object hkeys fun field hfield => (hvalues field hfield).legal) hother heq
    cases hother with
    | @object fields' hkeys' hvalues' =>
      -- Only braces without fields have no blank inside.
      cases fields with
      | nil =>
        cases fields' with
        | nil => exact ⟨rfl, List.append_cancel_left heq⟩
        | cons b bs =>
          rw [write_object_nil, write_object_cons] at heq
          simp at heq
      | cons a as =>
        cases fields' with
        | nil =>
          rw [write_object_nil, write_object_cons] at heq
          simp at heq
        | cons b bs =>
          rw [write_object_cons, write_object_cons] at heq
          have hlists : fieldScript.listed (a :: as) ++ ' ' :: '\x7d' :: r =
              fieldScript.listed (b :: bs) ++ ' ' :: '\x7d' :: s := by
            simpa using heq
          obtain ⟨hcons, hrest⟩ := Script.listed_unique rfl rfl (by decide) hfields
            (fun field hfield => ⟨hkeys' field hfield, hvalues' field hfield⟩) hlists
          exact ⟨congrArg _ hcons, (List.cons.inj hrest).2⟩
    | _ => cases hform

/-- A literal made with names can be read off its text. -/
theorem WellNamed.legible {value : Literal} (h : value.WellNamed) : script.Legible value := by
  induction h with
  | reference hname => exact legible_reference hname
  | enumeration hvalue hword => exact legible_word (.enumeration hvalue hword) rfl
  | string => exact legible_string _
  | int => exact legible_int _
  | bool => exact legible_word .bool rfl
  | null => exact legible_word .null rfl
  | list _ ih => exact legible_list ih
  | object hkeys _ ih => exact legible_object hkeys ih

end Literal

end GraphClient
