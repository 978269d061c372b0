import GraphClient.Proofs.Typing.Layers

/-!
# Lists of overridden scalars

The type that the settings give to a scalar is any text, and it is written as if it were a name. In
a list, the brackets of the arrays follow it as it is. If the text is a union or an intersection,
they bind to its last member, where those of a union in the tree of types would follow a
parenthesis.

* `Place` : where the scan of a type's text stands.
* `Exposed` : a text has an operator of unions or intersections outside of brackets and quotes.
* `IsArrayOf` : a text is an array of another text as a whole.
* `ScalarSettings.override_lists_iff` : the lists that are arrays of the override.
-/

namespace GraphClient

open TypeScript (TypeExpr)

namespace TypeScript

/-! ## Operators outside of brackets and quotes -/

/-- Where the scan of a type's text stands. -/
inductive Place where
  /-- Inside some brackets; `arrow` tells that the last character may open an arrow. -/
  | code (depth : Nat) (arrow : Bool)
  /-- Inside quotes; `escaped` tells that the next character cannot close them. -/
  | quoted (depth : Nat) (quote : Char) (escaped : Bool)
deriving DecidableEq

namespace Place

/-- Where a text begins. -/
def start : Place := .code 0 false

/-- The place after a character. -/
def next : Place → Char → Place
  | .code depth arrow, c =>
    if c ∈ ['\'', '"', '\x60'] then .quoted depth c false
    else if c ∈ ['(', '[', '\x7b', '<'] then .code (depth + 1) false
    else if c ∈ [')', ']', '\x7d'] ∨ c = '>' ∧ arrow = false then .code (depth - 1) false
    else .code depth (c = '=')
  | .quoted depth quote escaped, c =>
    if escaped then .quoted depth quote false
    else if c = quote then .code depth false
    else .quoted depth quote (c = '\\')

/-- The place after some characters. -/
def after (place : Place) (text : List Char) : Place := text.foldl next place

/-- Whether a place is outside of brackets and quotes. -/
def isOutside : Place → Bool
  | .code depth _ => depth == 0
  | .quoted .. => false

end Place

/-- The operators of unions and intersections. -/
def isOperator (c : Char) : Bool := c == '|' || c == '&'

/-- The members of a text from a place on: the parts between the operators outside of brackets and
quotes. -/
def membersFrom : Place → List Char → List (List Char)
  | _, [] => [[]]
  | place, c :: rest =>
    if place.isOutside && isOperator c then [] :: membersFrom (place.next c) rest
    else
      match membersFrom (place.next c) rest with
      | [] => [[c]]
      | member :: others => (c :: member) :: others

/-- The members of a text. -/
def members (text : String) : List String :=
  (membersFrom .start text.toList).map String.ofList

/-- A text has an operator of unions or intersections outside of brackets and quotes. -/
def Exposed (text : String) : Prop :=
  ∃ before operator rest, text.toList = before ++ operator :: rest ∧
    isOperator operator = true ∧ (Place.start.after before).isOutside = true

/-- All brackets and quotes of a text are closed. -/
def Closed (text : String) : Prop := (Place.start.after text.toList).isOutside = true

/-- Every text has a first member. -/
theorem exists_membersFrom_eq_cons (place : Place) (text : List Char) :
    ∃ member others, membersFrom place text = member :: others := by
  cases text with
  | nil => exact ⟨[], [], rfl⟩
  | cons c rest =>
    unfold membersFrom
    split
    · exact ⟨_, _, rfl⟩
    · split
      · exact ⟨_, _, rfl⟩
      · exact ⟨_, _, rfl⟩

/-- An operator outside of all brackets ends a member. -/
theorem membersFrom_cons_of_isOutside {place : Place} {c : Char} (h : place.isOutside = true)
    (hc : isOperator c = true) (rest : List Char) :
    membersFrom place (c :: rest) = [] :: membersFrom (place.next c) rest := by
  rw [membersFrom, h, hc]
  rfl

/-- Any other character goes on with the member. -/
theorem membersFrom_cons {place : Place} {c : Char}
    (h : ¬ (place.isOutside = true ∧ isOperator c = true)) {rest : List Char} {member : List Char}
    {others : List (List Char)} (hrest : membersFrom (place.next c) rest = member :: others) :
    membersFrom place (c :: rest) = (c :: member) :: others := by
  rw [membersFrom, hrest, if_neg (by rwa [Bool.and_eq_true])]

/-- A text has several members exactly if there is an operator between them. -/
theorem one_lt_length_membersFrom_iff (text : List Char) : ∀ place : Place,
    1 < (membersFrom place text).length ↔ ∃ before operator rest,
      text = before ++ operator :: rest ∧ isOperator operator = true ∧
        (place.after before).isOutside = true := by
  induction text with
  | nil => simp [membersFrom]
  | cons c text ih =>
    intro place
    obtain ⟨member, others, hrest⟩ := exists_membersFrom_eq_cons (place.next c) text
    by_cases h : place.isOutside = true ∧ isOperator c = true
    · rw [membersFrom_cons_of_isOutside h.1 h.2, hrest]
      refine iff_of_true (by simp) ⟨[], c, text, rfl, h.2, h.1⟩
    · have hlength : (membersFrom place (c :: text)).length =
          (membersFrom (place.next c) text).length := by
        rw [membersFrom_cons h hrest, hrest]
        rfl
      rw [hlength, ih]
      -- The first character separates nothing, so the operator is one of the others.
      constructor
      · rintro ⟨before, operator, rest, rfl, hop, hplace⟩
        exact ⟨c :: before, operator, rest, rfl, hop, hplace⟩
      · rintro ⟨_ | ⟨d, before⟩, operator, rest, heq, hop, hplace⟩
        · obtain ⟨rfl, -⟩ := List.cons.inj heq
          exact absurd ⟨hplace, hop⟩ h
        · obtain ⟨rfl, rfl⟩ := List.cons.inj heq
          exact ⟨before, operator, rest, rfl, hop, hplace⟩

/-- A text is exposed exactly if it has several members. -/
theorem exposed_iff {text : String} : Exposed text ↔ 1 < (members text).length := by
  rw [members, List.length_map, one_lt_length_membersFrom_iff]
  rfl

instance (text : String) : Decidable (Exposed text) := decidable_of_iff' _ exposed_iff

/-- What follows a text is a part of its last member, as long as it has no operator outside. -/
theorem membersFrom_append (suffix : List Char) (text : List Char) : ∀ place : Place,
    membersFrom (place.after text) suffix = [suffix] →
      ∃ before last, membersFrom place text = before ++ [last] ∧
        membersFrom place (text ++ suffix) = before ++ [last ++ suffix] := by
  induction text with
  | nil => exact fun place h => ⟨[], [], rfl, h⟩
  | cons c text ih =>
    intro place h
    obtain ⟨before, last, htext, hsuffix⟩ := ih (place.next c) h
    by_cases hc : place.isOutside = true ∧ isOperator c = true
    · refine ⟨[] :: before, last, ?_, ?_⟩
      · rw [membersFrom_cons_of_isOutside hc.1 hc.2, htext]
        rfl
      · rw [List.cons_append, membersFrom_cons_of_isOutside hc.1 hc.2, hsuffix]
        rfl
    · cases before with
      | nil => exact ⟨[], c :: last, membersFrom_cons hc htext, membersFrom_cons hc hsuffix⟩
      | cons member before =>
        exact ⟨(c :: member) :: before, last, membersFrom_cons hc htext,
          membersFrom_cons hc hsuffix⟩

/-! ## Brackets of arrays -/

/-- The brackets of some array layers. -/
def arrayBrackets : Nat → String
  | 0 => ""
  | depth + 1 => arrayBrackets depth ++ "[]"

/-- A text is an array of another text as a whole, in at least one layer: the other text stands in
parentheses if an operator would leave some of its members outside of the array. -/
def IsArrayOf (element : String) (depth : Nat) (text : String) : Prop :=
  1 ≤ depth ∧ (text = "(" ++ element ++ ")" ++ arrayBrackets depth ∨
    ¬ Exposed element ∧ text = element ++ arrayBrackets depth)

/-- The brackets of arrays have no operator outside. -/
theorem membersFrom_arrayBrackets {place : Place} (h : place.isOutside = true) (depth : Nat) :
    membersFrom place (arrayBrackets depth).toList = [(arrayBrackets depth).toList] ∧
      (place.after (arrayBrackets depth).toList).isOutside = true := by
  induction depth with
  | zero => exact ⟨rfl, h⟩
  | succ depth ih =>
    obtain ⟨hmembers, houtside⟩ := ih
    rw [arrayBrackets, String.toList_append]
    generalize (arrayBrackets depth).toList = text at hmembers houtside ⊢
    have hbrackets : membersFrom (place.after text) "[]".toList = ["[]".toList] ∧
        ((place.after text).after "[]".toList).isOutside = true := by
      cases hplace : place.after text with
      | quoted => rw [hplace] at houtside; cases houtside
      | code inner arrow =>
        obtain rfl : inner = 0 := by simpa [Place.isOutside, hplace] using houtside
        exact ⟨rfl, rfl⟩
    obtain ⟨before, last, htext, hsuffix⟩ := membersFrom_append _ text place hbrackets.1
    rw [hmembers] at htext
    obtain ⟨rfl, rfl⟩ : before = [] ∧ text = last := by
      cases before with
      | nil => exact ⟨rfl, (List.cons.inj htext).1⟩
      | cons => simp at htext
    refine ⟨hsuffix, ?_⟩
    rw [Place.after, List.foldl_append]
    exact hbrackets.2

/-- Brackets bind to the last member, which is not the whole text if an operator is outside. -/
theorem members_append_arrayBrackets {text : String} (closed : Closed text)
    (exposed : Exposed text) (depth : Nat) :
    ∃ before last, before ≠ [] ∧ members text = before ++ [last] ∧
      members (text ++ arrayBrackets depth) = before ++ [last ++ arrayBrackets depth] := by
  obtain ⟨before, last, htext, hsuffix⟩ := membersFrom_append _ text.toList .start
    (membersFrom_arrayBrackets closed depth).1
  have hmembers : members text = before.map String.ofList ++ [String.ofList last] := by
    rw [members, htext, List.map_append]
    rfl
  refine ⟨before.map String.ofList, String.ofList last, ?_, hmembers, ?_⟩
  · intro hempty
    have hlength := exposed_iff.1 exposed
    rw [hmembers, hempty] at hlength
    exact absurd hlength (Nat.lt_irrefl 1)
  · rw [members, String.toList_append, hsuffix, List.map_append, List.map_singleton,
      String.ofList_append, String.ofList_toList]

/-- Brackets behind a text make a list of it exactly if the text is not exposed. -/
theorem isArrayOf_append_iff {element : String} {depth : Nat} (list : 1 ≤ depth) :
    IsArrayOf element depth (element ++ arrayBrackets depth) ↔ ¬ Exposed element := by
  constructor
  · rintro ⟨-, h | h⟩
    · -- The parentheses would make the text longer.
      have hlength := congrArg String.length h
      simp only [String.length_append] at hlength
      have hparens : "(".length = 1 ∧ ")".length = 1 := ⟨rfl, rfl⟩
      omega
    · exact h.1
  · exact fun h => ⟨list, .inr ⟨h, rfl⟩⟩

namespace TypeExpr

/-- Array layers around a name are not the elements that stand in parentheses. -/
theorem wrapsInArray_iterate (depth : Nat) (name : String) :
    (array^[depth] (.named name)).wrapsInArray = false := by
  cases depth with
  | zero => rfl
  | succ depth => rw [Function.iterate_succ_apply']; rfl

/-- Each layer of a list adds a pair of brackets behind the name. -/
theorem text_iterate_array (depth : Nat) (name : String) :
    (array^[depth] (.named name)).text = name ++ arrayBrackets depth := by
  induction depth with
  | zero => simp [text, arrayBrackets]
  | succ depth ih =>
    rw [Function.iterate_succ_apply', text, wrapsInArray_iterate, ih, arrayBrackets, wrapIf,
      if_neg Bool.false_ne_true, String.append_assoc]

end TypeExpr

end TypeScript

/-! ## The lists of an overridden scalar -/

open TypeScript

namespace ScalarSettings

variable {settings : ScalarSettings} {name override : String}

/-- The override is written as it is, and the brackets of the lists follow. -/
theorem text_expr_of_override (h : settings.overrides.find? name = some override) {type : TypeRef}
    (base : type.base = .scalar name) :
    (settings.expr type).text = override ++ arrayBrackets type.listDepth := by
  have hname : settings.scalarName name = override := by
    rw [scalarName, typeName?, h]
    rfl
  rw [expr_eq_iterate, base, expr, hname, TypeExpr.text_iterate_array]

/-- Lists of an overridden scalar are arrays of the override exactly if the override has no operator
of unions or intersections outside of brackets and quotes. If it has one, the brackets of the arrays
bind to its last member only. -/
theorem override_lists_iff (h : settings.overrides.find? name = some override) {type : TypeRef}
    (base : type.base = .scalar name) (list : 1 ≤ type.listDepth) :
    (IsArrayOf override type.listDepth (settings.expr type).text ↔ ¬ Exposed override) ∧
      (Closed override → Exposed override → ∃ before last, before ≠ [] ∧
        members override = before ++ [last] ∧ members (settings.expr type).text =
          before ++ [last ++ arrayBrackets type.listDepth]) := by
  rw [text_expr_of_override h base]
  exact ⟨isArrayOf_append_iff list,
    fun closed exposed => members_append_arrayBrackets closed exposed _⟩

end ScalarSettings

namespace Sample

/-- Statuses are one of two texts, and dates have a generic type. -/
def statusSettings : ScalarSettings where
  overrides := .ofList [("Status", "'open' | 'closed'"), ("Date", "Branded<string | number>")]

/-- The union of the example is exposed. -/
theorem statusOverride_exposed : Exposed "'open' | 'closed'" := by decide

/-- The list of the example has its brackets behind the last member alone. -/
theorem text_statusList : (statusSettings.expr (.list (.scalar "Status"))).text =
    "'open' | 'closed'" ++ arrayBrackets 1 := by
  have found : statusSettings.overrides.find? "Status" = some "'open' | 'closed'" := rfl
  exact ScalarSettings.text_expr_of_override found rfl

/-- A list of statuses is a status that is open, or a list of closed ones. -/
theorem statusList_no_array :
    statusSettings.overrides.find? "Status" = some "'open' | 'closed'" ∧
      (TypeRef.list (.scalar "Status")).base = .scalar "Status" ∧
      1 ≤ (TypeRef.list (.scalar "Status")).listDepth ∧
      (statusSettings.expr (.list (.scalar "Status"))).text = "'open' | 'closed'[]" ∧
      ¬ IsArrayOf "'open' | 'closed'" 1
        (statusSettings.expr (.list (.scalar "Status"))).text := by
  refine ⟨rfl, rfl, by decide, text_statusList.trans (by decide), ?_⟩
  rw [text_statusList, isArrayOf_append_iff (by decide), not_not]
  exact statusOverride_exposed

/-- A list of dates is an array: the operator stands in brackets. -/
theorem dateLists_array :
    statusSettings.overrides.find? "Date" = some "Branded<string | number>" ∧
      (TypeRef.list (.nonNull (.list (.scalar "Date")))).base = .scalar "Date" ∧
      1 ≤ (TypeRef.list (.nonNull (.list (.scalar "Date")))).listDepth ∧
      IsArrayOf "Branded<string | number>" 2
        (statusSettings.expr (.list (.nonNull (.list (.scalar "Date"))))).text := by
  have found : statusSettings.overrides.find? "Date" = some "Branded<string | number>" := rfl
  have base : (TypeRef.list (.nonNull (.list (.scalar "Date")))).base = .scalar "Date" := rfl
  have list : 1 ≤ (TypeRef.list (.nonNull (.list (.scalar "Date")))).listDepth := by decide
  exact ⟨found, base, list, (ScalarSettings.override_lists_iff found base list).1.2 (by decide)⟩

end Sample

end GraphClient
