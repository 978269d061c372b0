import GraphClient.Naming.Entity
import GraphClient.Proofs.Document.Literal

/-!
# How derived names are spelled

A name that is derived from a name is spelled with letters, digits and `_` as well: casing keeps
letters and digits only, and a plural has the characters of the word and of its endings. So are all
names that belong to a table, if the names that it is given are names.

* `Spelled.plural` : the plural of a spelled word is spelled.
* `Table.WellNamed` : tables whose given names are names.
* `Table.WellNamed.spelled` : the names that belong to such a table are spelled.
-/

namespace GraphClient

/-! ## Casing -/

namespace Text

/-- Letters and digits are characters of ASCII. -/
theorem toNat_lt_of_isAlphanum {c : Char} (h : c.isAlphanum = true) : c.toNat < 128 := by
  have hranges : (decide ('A'.val ≤ c.val ∧ c.val ≤ 'Z'.val) ||
      (decide ('a'.val ≤ c.val) && decide (c.val ≤ 'z'.val)) ||
      (decide ('0'.val ≤ c.val) && decide (c.val ≤ '9'.val))) = true := h
  simp only [Bool.or_eq_true, Bool.and_eq_true, decide_eq_true_eq,
    UInt32.le_iff_toNat_le] at hranges
  have hupper : 'Z'.val.toNat = 90 := rfl
  have hlower : 'z'.val.toNat = 122 := rfl
  have hdigit : '9'.val.toNat = 57 := rfl
  show c.val.toNat < 128
  omega

/-- What holds of the first 128 characters holds of every character of ASCII. -/
theorem of_forall_ascii {p : Char → Prop} (hall : ∀ n < 128, p (Char.ofNat n)) {c : Char}
    (h : c.toNat < 128) : p c := by
  have hchar := hall c.toNat h
  rwa [Char.ofNat_toNat] at hchar

/-- A letter or a digit stays one in any case. -/
theorem isAlphanum_cases {c : Char} (h : c.isAlphanum = true) :
    c.toUpper.isAlphanum = true ∧ c.toLower.isAlphanum = true := by
  refine of_forall_ascii (p := fun c => c.isAlphanum = true →
    c.toUpper.isAlphanum = true ∧ c.toLower.isAlphanum = true) ?_ (toNat_lt_of_isAlphanum h) h
  decide

/-- No character of a name is white space. -/
theorem isBlank_of_isNameChar {c : Char} (h : isNameChar c = true) : isBlank c = false := by
  have hascii : c.toNat < 128 := by
    rcases Bool.or_eq_true_iff.1 h with h | h
    · exact toNat_lt_of_isAlphanum h
    · rw [eq_of_beq h]
      decide
  refine of_forall_ascii (p := fun c => isNameChar c = true → isBlank c = false) ?_ hascii h
  decide

/-- The joined words of a name are letters and digits. -/
theorem isAlphanum_of_mem_joinWords {chars : List Char}
    (h : ∀ c ∈ chars, isNameChar c = true) :
    ∀ newWord last found, ∀ c ∈ joinWords newWord last found chars, c.isAlphanum = true := by
  induction chars with
  | nil => simp [joinWords]
  | cons d rest ih =>
    obtain ⟨hd, hrest⟩ := List.forall_mem_cons.1 h
    have ih := ih hrest
    intro newWord last found
    rw [joinWords]
    split
    · exact ih _ _ _
    · next hletter =>
      have hd : d.isAlphanum = true := by
        rcases Bool.or_eq_true_iff.1 hd with hd | hd
        · exact hd
        · rw [eq_of_beq hd] at hletter
          exact absurd rfl hletter
      obtain ⟨hupper, hlower⟩ := isAlphanum_cases hd
      split
      · exact List.forall_mem_cons.2 ⟨hd, ih _ _ _⟩
      · split
        · exact List.forall_mem_cons.2 ⟨hupper, ih _ _ _⟩
        · exact List.forall_mem_cons.2 ⟨hlower, ih _ _ _⟩

/-- What is left of a spelled name when its end is dropped. -/
theorem isNameChar_of_mem_nameChars {name : String} (h : Spelled name) :
    ∀ c ∈ nameChars name, isNameChar c = true := by
  intro c hc
  refine h c ?_
  exact List.mem_reverse.1 (List.dropWhile_subset _ (List.mem_reverse.1 hc))

/-- Letters and digits are characters of names. -/
theorem spelled_of_isAlphanum {text : String} (h : ∀ c ∈ text.toList, c.isAlphanum = true) :
    Spelled text := by
  intro c hc
  rw [isNameChar, h c hc, Bool.true_or]

end Text

theorem Spelled.camelCase {name : String} (h : Spelled name) : Spelled (Text.camelCase name) := by
  refine Text.spelled_of_isAlphanum ?_
  rw [Text.camelCase, String.toList_ofList]
  exact Text.isAlphanum_of_mem_joinWords (Text.isNameChar_of_mem_nameChars h) _ _ _

theorem Spelled.pascalCase {name : String} (h : Spelled name) : Spelled (Text.pascalCase name) := by
  refine Text.spelled_of_isAlphanum ?_
  rw [Text.pascalCase, String.toList_ofList]
  exact Text.isAlphanum_of_mem_joinWords (Text.isNameChar_of_mem_nameChars h) _ _ _

/-! ## Plurals -/

namespace Plural

theorem exists_mem_of_leftmost {found : List (Nat × List Char)} {kept : List Char}
    (h : leftmost found = some kept) : ∃ start, (start, kept) ∈ found := by
  cases found with
  | nil => cases h
  | cons first rest =>
    obtain rfl := Option.some.inj h
    -- The best one so far is the first one or comes from the rest.
    have hfold : ∀ best, rest.foldl (fun best p => if p.1 < best.1 then p else best) best ∈
        best :: rest := by
      clear h
      induction rest with
      | nil => simp
      | cons p rest ih =>
        intro best
        rw [List.foldl_cons]
        rcases List.mem_cons.1 (ih (if p.1 < best.1 then p else best)) with heq | hmem
        · rw [heq]
          split
          · simp
          · simp
        · simp [hmem]
    exact ⟨_, hfold first⟩

/-- What a rule keeps is a part of the word. -/
theorem Rule.kept_subset {rule : Rule} {text : List Char} {start : Nat} {kept : List Char}
    (h : (start, kept) ∈ rule.matches text) : kept ⊆ text := by
  obtain ⟨dropped, -, h⟩ := List.mem_flatMap.1 h
  obtain ⟨ending, -, h⟩ := List.mem_filterMap.1 h
  obtain ⟨before, -, heq⟩ := Option.map_eq_some_iff.1 h
  obtain ⟨-, rfl⟩ := Prod.mk.inj heq
  exact fun c hc => List.mem_of_mem_drop (List.mem_of_mem_take hc)

/-- By a rule, a word gets the characters of the ending of the rule. -/
theorem Rule.spelled_applied {rule : Rule} (hrule : Spelled rule.appended) {text plural : String}
    (htext : Spelled text) (h : rule.applied? text.toList = some plural) : Spelled plural := by
  obtain ⟨kept, hkept, rfl⟩ := Option.map_eq_some_iff.1 h
  obtain ⟨start, hmem⟩ := exists_mem_of_leftmost hkept
  refine Spelled.append (fun c hc => ?_) hrule
  rw [String.toList_ofList] at hc
  exact htext c (Rule.kept_subset hmem hc)

end Plural

/-- The plural of a word has the characters of the word and those of its ending, or is a word of its
own. -/
theorem Spelled.plural {text : String} (h : Spelled text) : Spelled (Text.plural text) := by
  have hforms : ∀ p ∈ Plural.irregular, Spelled p.2 := by decide
  have hrules : ∀ rule ∈ Plural.rules, Spelled rule.appended := by decide
  unfold Text.plural
  split
  · exact h
  · split
    · next form hform =>
      obtain ⟨before, after, heq, -⟩ := List.lookup_eq_some_iff.1 hform
      exact hforms (text, form) (by rw [heq]; simp)
    · cases hfound : Plural.rules.findSome? (·.applied? text.toList) with
      | none => exact h.append (by decide)
      | some plural =>
        obtain ⟨rule, hrule, happlied⟩ := List.exists_of_findSome?_eq_some hfound
        exact Plural.Rule.spelled_applied (hrules rule hrule) h happlied

/-! ## Tables -/

/-- The names of root fields that a table may be given. -/
def RootFieldNames.given (fields : RootFieldNames) : List (Option String) :=
  [fields.all, fields.one, fields.create, fields.update, fields.delete]

/-- The names of types and fields that a table may be given. -/
def Inflection.given (inflection : Inflection) : List (Option String) :=
  [inflection.tableType, inflection.allRows, inflection.tableFieldName, inflection.filterType,
    inflection.orderByType, inflection.inputType, inflection.createInputType, inflection.patchType,
    inflection.updateInputType, inflection.deleteInputType]

namespace Table

/-- Where the columns of a table and their types have names, so have those of its primary key. -/
theorem isName_of_mem_primaryKey {table : Table}
    (columns : ∀ column ∈ table.fields,
      isName column.name = true ∧ isName column.type.baseName = true)
    (keys : ∀ name ∈ table.declaredKey, isName name = true)
    {field : KeyField} (hfield : field ∈ table.primaryKey.fields) :
    isName field.name = true ∧ isName field.type.baseName = true := by
  have hrequired (type : TypeRef) : type.required.baseName = type.baseName := by
    rw [TypeRef.baseName, TypeRef.base_required]
    rfl
  have hcolumn {name : String} {column : TableField} (hfound : table.field? name = some column) :
      isName column.name = true ∧ isName column.type.required.baseName = true := by
    rw [hrequired]
    exact columns column (List.mem_of_find?_eq_some hfound)
  have hdeclared {name : String} (hname : name ∈ table.declaredKey) :
      isName (table.keyField name).name = true ∧
        isName (table.keyField name).type.baseName = true := by
    refine ⟨keys name hname, ?_⟩
    unfold keyField
    cases hfound : table.field? name with
    | none =>
      show isName "UUID" = true
      decide
    | some column => exact (hcolumn hfound).2
  -- The key is the declared one, or else the column `id`, or else a name for lack of a column.
  unfold primaryKey at hfield
  split at hfield
  · next name names hkey =>
    rcases List.mem_cons.1 hfield with rfl | hfield
    · exact hdeclared (by simp [hkey])
    · obtain ⟨other, hother, rfl⟩ := List.mem_map.1 hfield
      exact hdeclared (by simp [hkey, hother])
  · split at hfield
    · next column hfound =>
      obtain rfl := List.mem_singleton.1 hfield
      exact hcolumn hfound
    · obtain rfl := List.mem_singleton.1 hfield
      decide

/-- All names that a table is given are names. -/
structure WellNamed (table : Table) : Prop where
  name : isName table.name = true
  columns : ∀ column ∈ table.fields, isName column.name = true ∧ isName column.type.baseName = true
  keys : ∀ name ∈ table.declaredKey, isName name = true
  rootFields : ∀ given ∈ (table.rootFields.getD {}).given, ∀ name ∈ given, isName name = true
  inflection : ∀ given ∈ (table.inflection.getD {}).given, ∀ name ∈ given, isName name = true

end Table

/-- The names that belong to a table are spelled. -/
structure EntityNames.Spelled (names : EntityNames) : Prop where
  typeName : GraphClient.Spelled names.typeName
  singular : GraphClient.Spelled names.singular
  allField : GraphClient.Spelled names.allField
  oneField : GraphClient.Spelled names.oneField
  createField : GraphClient.Spelled names.createField
  updateField : GraphClient.Spelled names.updateField
  deleteField : GraphClient.Spelled names.deleteField
  filterType : GraphClient.Spelled names.filterType
  orderByType : GraphClient.Spelled names.orderByType
  createInputType : GraphClient.Spelled names.createInputType
  patchType : GraphClient.Spelled names.patchType

/-- A given name wins over the derived one. -/
theorem spelled_getD {given : Option String} {derived : String}
    (hgiven : ∀ name ∈ given, isName name = true) (hderived : Spelled derived) :
    Spelled (given.getD derived) := by
  cases given with
  | none => exact hderived
  | some name => exact spelled_of_isName (hgiven name rfl)

/-- A name that is given in one of two places wins over the derived one. -/
theorem spelled_orElse_getD {given further : Option String} {derived : String}
    (hgiven : ∀ name ∈ given, isName name = true) (hfurther : ∀ name ∈ further, isName name = true)
    (hderived : Spelled derived) : Spelled ((given <|> further).getD derived) := by
  cases given with
  | none => exact spelled_getD hfurther hderived
  | some name => exact spelled_of_isName (hgiven name rfl)

/-- The names that belong to a table are spelled, be they given or derived. -/
theorem Table.WellNamed.spelled {table : Table} (h : table.WellNamed) :
    table.entityNames.Spelled := by
  have hroot := h.rootFields
  have hinflection := h.inflection
  simp only [RootFieldNames.given, Inflection.given, List.forall_mem_cons] at hroot hinflection
  obtain ⟨hall, hone, hcreate, hupdate, hdelete, -⟩ := hroot
  obtain ⟨htable, hrows, hrow, hfilter, horder, -, hcreateInput, hpatch, -⟩ := hinflection
  have htype : Spelled ((table.inflection.getD {}).tableType.getD table.name) :=
    spelled_getD htable (spelled_of_isName h.name)
  have hplural := htype.camelCase.plural
  constructor
  case typeName => exact htype
  case singular => exact htype.camelCase
  case allField => exact spelled_orElse_getD hall hrows hplural
  case oneField => exact spelled_orElse_getD hone hrow htype.camelCase
  case createField => exact spelled_getD hcreate (Spelled.append (by decide) htype)
  case updateField => exact spelled_getD hupdate (Spelled.append (by decide) htype)
  case deleteField => exact spelled_getD hdelete (Spelled.append (by decide) htype)
  case filterType => exact spelled_getD hfilter (htype.append (by decide))
  case orderByType => exact spelled_getD horder (hplural.pascalCase.append (by decide))
  case createInputType =>
    have hfront := Spelled.append (a := "Create") (by decide) htype
    exact spelled_getD hcreateInput (hfront.append (by decide))
  case patchType => exact spelled_getD hpatch (htype.append (by decide))

end GraphClient
