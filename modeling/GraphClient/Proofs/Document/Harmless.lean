import GraphClient.Projection.Nodes
import GraphClient.Proofs.Document.Outline

/-!
# Harmless literals

The arguments of a page stand in the document itself: a filter with its keys and its strings, and
the values of an ordering. Strings are quoted, but keys and orderings are written as they are. Where
no bracket and no quotation mark occurs in these, nothing is open at the end of an argument list.

* `Literal.Harmless`, `Json.PlainKeys`, `PageArguments.Plain` : no bracket and no quotation mark in
  what is written as it is.
* `PageArguments.Plain.selfContained` : the argument list of a page is self-contained, whatever
  strings there are in its filter.
-/

namespace GraphClient

/-! ## Plain texts -/

/-- A text of characters of a class to which no bracket and no quotation mark belongs. -/
theorem plain_of_forall (among : Char → Bool) (h : marks.all (fun mark => !among mark) = true)
    {text : List Char} (htext : ∀ c ∈ text, among c = true) : Plain text := by
  intro c hc hmark
  have hother := List.all_eq_true.1 h c hmark
  rw [htext c hc] at hother
  cases hother

/-- Plain texts stay plain one behind the other. -/
theorem Plain.append {a b : List Char} (ha : Plain a) (hb : Plain b) : Plain (a ++ b) :=
  List.forall_mem_append.2 ⟨ha, hb⟩

/-- A name is plain. -/
theorem plain_of_isName {name : String} (h : isName name = true) : Plain name.toList :=
  plain_of_forall isNameChar (by decide) (isNameChar_of_isName name h)

/-- Digits are plain. -/
theorem plain_digits (n : Nat) : Plain (Nat.toDigits 10 n) :=
  plain_of_forall Char.isDigit (by decide) fun _ hc =>
    Nat.isDigit_of_mem_toDigits (by decide) (by decide) hc

/-- An integer is plain. -/
theorem plain_int (value : Int) : Plain (toString value).toList :=
  plain_of_forall isTokenChar (by decide) (Literal.isTokenChar_of_mem_write_int value)

namespace Binary64

/-- A decimal number is plain, in every style. -/
theorem Decimal.plain_text (style : Style) (d : Decimal) : Plain (d.text style).toList := by
  have hdigits := plain_digits d.digits
  have hpoint : Plain ['.'] := by decide
  have hzero (n : Nat) : Plain (List.replicate n '0') := by
    intro c hc
    rw [List.eq_of_mem_replicate hc]
    decide
  unfold Decimal.text
  simp only
  -- The point stands in front of an exponent, before the digits, behind them, or among them.
  split
  · rw [String.toList_append, String.toList_append, String.toList_ofList]
    refine (Plain.append ?_ (by decide)).append (plain_int _)
    split
    · exact fun _ hc => absurd hc List.not_mem_nil
    · next c hsingle =>
      rw [hsingle] at hdigits
      exact hdigits
    · next c rest _ hcons =>
      rw [hcons] at hdigits
      obtain ⟨hfirst, hrest⟩ := List.forall_mem_cons.1 hdigits
      exact List.forall_mem_cons.2 ⟨hfirst, hpoint.append hrest⟩
  · split
    · rw [String.toList_append, @String.toList_ofList (_ ++ _)]
      exact Plain.append (by decide) ((hzero _).append hdigits)
    · split
      · rw [String.toList_append, String.toList_ofList]
        exact (hdigits.append (hzero _)).append (by decide)
      · rw [String.toList_ofList]
        have htake (n : Nat) : Plain ((Nat.toDigits 10 d.digits).take n) :=
          fun c hc => hdigits c (List.mem_of_mem_take hc)
        have hdrop (n : Nat) : Plain ((Nat.toDigits 10 d.digits).drop n) :=
          fun c hc => hdigits c (List.mem_of_mem_drop hc)
        exact (htake _).append (hpoint.append (hdrop _))

/-- The text of a floating-point number is plain. -/
theorem plain_text (number : Binary64) : Plain number.text.toList := by
  unfold text
  split
  · have hsign (negative : Bool) : Plain (if negative then "-" else "").toList := by
      cases negative <;> decide
    simp only
    split
    · rw [String.toList_append]
      exact (hsign _).append (by decide)
    · rw [String.toList_append]
      exact (hsign _).append (Decimal.plain_text _ _)
  · split <;> decide
  · decide

end Binary64

/-! ## Literals -/

namespace Literal

/-- What a literal writes as it is has no bracket and no quotation mark: its variables, its
enumeration values and its keys. -/
inductive Harmless : Literal → Prop
  | reference {name : String} (hname : Plain name.toList) : Harmless (.reference name)
  | enumeration {value : String} (hvalue : Plain value.toList) : Harmless (.enumeration value)
  | string {value : String} : Harmless (.string value)
  | int {value : Int} : Harmless (.int value)
  | float {value : Binary64} : Harmless (.float value)
  | bool {value : Bool} : Harmless (.bool value)
  | null : Harmless .null
  | list {items : List Literal} (hitems : ∀ item ∈ items, Harmless item) : Harmless (.list items)
  | object {fields : List (String × Literal)} (hkeys : ∀ field ∈ fields, Plain field.1.toList)
      (hvalues : ∀ field ∈ fields, Harmless field.2) : Harmless (.object fields)

/-- Neutral values with plain keys are neutral in a row. -/
theorem neutral_listed {fields : List (String × Literal)}
    (hkeys : ∀ field ∈ fields, Plain field.1.toList)
    (hvalues : ∀ field ∈ fields, Neutral (script.write field.2)) :
    Neutral (fieldScript.listed fields) := by
  refine neutral_intercalate fun text htext => ?_
  obtain ⟨field, hfield, rfl⟩ := List.mem_map.1 htext
  have hcolon : Neutral ": ".toList := neutral_of_plain (by decide)
  exact (neutral_of_plain (hkeys field hfield)).append (hcolon.append (hvalues field hfield))

/-- A harmless literal is neutral. By induction on the literal: brackets and braces are closed
behind what they enclose. -/
theorem Harmless.neutral {value : Literal} (h : value.Harmless) :
    Neutral (script.write value) := by
  induction h with
  | reference hname =>
    rw [write_reference]
    have hdollar : Plain ['$'] := by decide
    exact neutral_of_plain (hdollar.append hname)
  | enumeration hvalue => exact neutral_of_plain hvalue
  | string =>
    rw [write_string]
    exact neutral_quoted _
  | int => exact neutral_of_plain (plain_int _)
  | float => exact neutral_of_plain (Binary64.plain_text _)
  | @bool value => cases value <;> exact neutral_of_plain (by decide)
  | null => exact neutral_of_plain (by decide)
  | list hitems ih =>
    rw [write_list]
    have hopen : Neutral ['['] := neutral_of_plain (by decide)
    have hclose : Neutral [']'] := neutral_of_plain (by decide)
    refine hopen.append (Neutral.append (neutral_intercalate fun text htext => ?_) hclose)
    obtain ⟨item, hitem, rfl⟩ := List.mem_map.1 htext
    exact ih item hitem
  | @object fields hkeys hvalues ih =>
    cases fields with
    | nil =>
      rw [write_object_nil]
      exact neutral_nil.braced
    | cons field rest =>
      have hblank : Neutral [' '] := neutral_of_plain (by decide)
      have hlisted := hblank.append ((neutral_listed hkeys ih).append hblank)
      have hwrite : script.write (.object (field :: rest)) =
          '\x7b' :: (([' '] ++ (fieldScript.listed (field :: rest) ++ [' '])) ++ ['\x7d']) := by
        rw [write_object_cons]
        simp
      rw [hwrite]
      exact hlisted.braced

/-- The items of an array become literals one by one. -/
theorem ofItems_eq_map (items : List Json) : ofItems items = items.map ofJson := by
  induction items with
  | nil => rfl
  | cons item rest ih => rw [ofItems, ih, List.map_cons]

/-- The fields of an object become literals one by one. -/
theorem ofFields_eq_map (fields : List (String × Json)) :
    ofFields fields = fields.map fun field => (field.1, ofJson field.2) := by
  induction fields with
  | nil => rfl
  | cons field rest ih => rw [ofFields, ih, List.map_cons]

end Literal

/-- No key of a JSON value has a bracket or a quotation mark, at any depth. -/
inductive Json.PlainKeys : Json → Prop
  | null : PlainKeys .null
  | bool {value : Bool} : PlainKeys (.bool value)
  | int {value : Int} : PlainKeys (.int value)
  | float {value : Binary64} : PlainKeys (.float value)
  | string {value : String} : PlainKeys (.string value)
  | array {items : List Json} (hitems : ∀ item ∈ items, PlainKeys item) : PlainKeys (.array items)
  | object {fields : List (String × Json)} (hkeys : ∀ field ∈ fields, Plain field.1.toList)
      (hvalues : ∀ field ∈ fields, PlainKeys field.2) : PlainKeys (.object fields)

/-- A JSON value whose keys are plain becomes a harmless literal, whatever strings it holds. -/
theorem Json.PlainKeys.harmless {value : Json} (h : value.PlainKeys) :
    (Literal.ofJson value).Harmless := by
  induction h with
  | null => exact .null
  | bool => exact .bool
  | @int value =>
    rw [Literal.ofJson, Literal.ofInt]
    split
    · exact .int
    · exact .float
  | float => exact .float
  | string => exact .string
  | array hitems ih =>
    rw [Literal.ofJson, Literal.ofItems_eq_map]
    refine .list fun item hitem => ?_
    obtain ⟨value, hvalue, rfl⟩ := List.mem_map.1 hitem
    exact ih value hvalue
  | object hkeys hvalues ih =>
    rw [Literal.ofJson, Literal.ofFields_eq_map]
    refine .object (fun field hfield => ?_) fun field hfield => ?_
    · obtain ⟨entry, hentry, rfl⟩ := List.mem_map.1 hfield
      exact hkeys entry hentry
    · obtain ⟨entry, hentry, rfl⟩ := List.mem_map.1 hfield
      exact ih entry hentry

/-! ## Arguments of pages -/

/-- The names that pages use in documents are names. -/
structure PageNames.Worded (page : PageNames) : Prop where
  rows : isName page.rows = true
  count : isName page.count = true
  filter : isName page.filter = true
  order : isName page.order = true

/-- The keys of the filter and the values of the ordering have no bracket and no quotation mark. -/
structure PageArguments.Plain (arguments : PageArguments) : Prop where
  filter : ∀ filter, arguments.filter = some filter → filter.PlainKeys
  orderBy : ∀ values, arguments.orderBy = some values → ∀ value ∈ values,
    GraphClient.Plain value.toList

/-- Arguments of harmless values under plain names are self-contained. -/
theorem selfContained_argumentsText {arguments : List (String × Literal)}
    (hkeys : ∀ argument ∈ arguments, Plain argument.1.toList)
    (hvalues : ∀ argument ∈ arguments, argument.2.Harmless) :
    SelfContained (FieldNode.argumentsText arguments).toList := by
  rw [FieldNode.argumentsText, Literal.toList_fieldTexts]
  exact (Literal.neutral_listed hkeys fun argument hargument =>
    (hvalues argument hargument).neutral).selfContained

/-- Plain arguments are self-contained, whatever strings the filter holds. -/
theorem PageArguments.Plain.selfContained {page : PageNames} (names : page.Worded)
    {arguments : PageArguments} (h : arguments.Plain) :
    SelfContained (FieldNode.argumentsText (arguments.literals page)).toList := by
  have hfirst : GraphClient.Plain "first".toList := by decide
  have hparts : ∀ argument ∈ arguments.literals page,
      GraphClient.Plain argument.1.toList ∧ argument.2.Harmless := by
    intro argument hargument
    rcases List.mem_append.1 hargument with hargument | hargument
    · rcases List.mem_append.1 hargument with hargument | hargument
      · obtain ⟨first, -, rfl⟩ := List.mem_map.1 hargument
        exact ⟨hfirst, .int⟩
      · obtain ⟨filter, hfilter, rfl⟩ := List.mem_map.1 hargument
        have hkeys := h.filter filter (Option.mem_toList.1 hfilter)
        exact ⟨plain_of_isName names.filter, hkeys.harmless⟩
    · obtain ⟨values, hvalues, rfl⟩ := List.mem_map.1 hargument
      have hplain := h.orderBy values (Option.mem_toList.1 hvalues)
      refine ⟨plain_of_isName names.order, .list fun item hitem => ?_⟩
      obtain ⟨value, hvalue, rfl⟩ := List.mem_map.1 hitem
      exact .enumeration (hplain value hvalue)
  exact selfContained_argumentsText (fun argument hargument => (hparts argument hargument).1)
    fun argument hargument => (hparts argument hargument).2

end GraphClient
