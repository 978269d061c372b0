import GraphClient.Proofs.TypeScript.Comments
import GraphClient.TypeScript.SourceFile

/-!
# Comments in declarations and files

Declarations and their properties have comments above them, and object types have properties at any
depth. Each of them is found in the text of the file, with its lines indented by the blocks around
it. So a reader of the file finds the code after a comment exactly if the comment ends where it
should.

* `StandsIn` : a text is written in another one, in some blocks.
* `TypeExpr.Holds`, `Declaration.Holds` : a property stands in a type or a declaration.
* `SourceFile.Documents` : a file has a comment for some code.
* `SourceFile.Documents.exists_comment` : where the comment stands in the text of the file, and
  whether it ends there.
-/

namespace GraphClient

namespace TypeScript

/-! ## Texts in texts -/

/-- A text stands in another one, with its lines indented by the blocks around it. -/
def StandsIn (inner : String) (depth : Nat) (outer : String) : Prop :=
  ∃ before after, outer = before ++ nested depth inner ++ after

namespace StandsIn

/-- Every text stands in itself. -/
theorem refl (text : String) : StandsIn text 0 text :=
  ⟨"", "", by rw [nested_zero, String.empty_append, String.append_empty]⟩

variable {a b : String} {depth : Nat}

/-- A text that stands in another one stands where the other one does. -/
theorem trans {c : String} {outer : Nat} (hb : StandsIn b outer c) (ha : StandsIn a depth b) :
    StandsIn a (outer + depth) c := by
  obtain ⟨before, after, rfl⟩ := hb
  obtain ⟨before', after', rfl⟩ := ha
  refine ⟨before ++ nested outer before', nested outer after' ++ after, ?_⟩
  rw [nested_add, nested_append, nested_append]
  simp only [String.append_assoc]

/-- Text in front changes nothing. -/
theorem append_left (h : StandsIn a depth b) (text : String) : StandsIn a depth (text ++ b) := by
  obtain ⟨before, after, rfl⟩ := h
  exact ⟨text ++ before, after, by simp only [String.append_assoc]⟩

/-- Text behind changes nothing. -/
theorem append_right (h : StandsIn a depth b) (text : String) : StandsIn a depth (b ++ text) := by
  obtain ⟨before, after, rfl⟩ := h
  exact ⟨before, after ++ text, by simp only [String.append_assoc]⟩

/-- Parentheses around a text change nothing. -/
theorem wrapIf (h : StandsIn a depth b) (condition : Bool) :
    StandsIn a depth (TypeExpr.wrapIf condition b) := by
  cases condition with
  | false => exact h
  | true => exact (h.append_left "(").append_right ")"

/-- A text stands where it is joined with others and separators. -/
theorem intercalate {texts : List String} {text : String} (h : StandsIn a depth text)
    (mem : text ∈ texts) (separator : String) : StandsIn a depth (separator.intercalate texts) := by
  induction texts with
  | nil => simp at mem
  | cons first rest ih =>
    cases rest with
    | nil =>
      obtain rfl := List.mem_singleton.1 mem
      rw [String.intercalate_singleton]
      exact h
    | cons second rest =>
      rw [String.intercalate_cons_cons]
      rcases List.mem_cons.1 mem with rfl | mem
      · exact (h.append_right _).append_right _
      · exact (ih mem).append_left _

/-- A text stands where it is joined with others. -/
theorem join {texts : List String} {text : String} (h : StandsIn a depth text)
    (mem : text ∈ texts) : StandsIn a depth (String.join texts) := by
  obtain ⟨first, rest, rfl⟩ := List.append_of_mem mem
  rw [String.join_append, String.join_cons]
  exact (h.append_right _).append_left _

end StandsIn

/-- A property is indented by the line that it has to itself. -/
theorem standsIn_propertyLines {texts : List String} {text : String} (h : text ∈ texts) :
    StandsIn text 1 (TypeExpr.propertyLines texts) :=
  StandsIn.join ⟨"  ", ";\n", rfl⟩ (List.mem_map_of_mem h)

/-! ## Properties of types -/

namespace TypeExpr

/-- The types that a type is made of. -/
def children : TypeExpr → List TypeExpr
  | .named _ | .literal _ => []
  | .generic _ arguments => arguments
  | .array element => [element]
  | .union members | .intersection members | .tuple members => members
  | .object properties _ => properties.map (·.value)
  | .keys type => [type]
  | .index type key => [type, key]
  | .conditional checked bound whenTrue whenFalse => [checked, bound, whenTrue, whenFalse]
  | .mapped _ source remap value _ => source :: value :: remap.toList

/-- The properties of an object type. -/
def ownProperties : TypeExpr → List Property
  | .object properties _ => properties
  | _ => []

/-- The number of blocks that a type opens around its parts. -/
def blocks : TypeExpr → Nat
  | .object _ true => 1
  | _ => 0

/-- A property stands in a type, in some blocks. -/
inductive Holds (property : Property) : Nat → TypeExpr → Prop
  | own {type : TypeExpr} (mem : property ∈ type.ownProperties) : Holds property type.blocks type
  | child {type child : TypeExpr} {depth : Nat} (mem : child ∈ type.children)
      (inner : Holds property depth child) : Holds property (type.blocks + depth) type

/-- A property of an object type stands in it. -/
theorem standsIn_of_mem_ownProperties {type : TypeExpr} {property : Property}
    (h : property ∈ type.ownProperties) : StandsIn property.text type.blocks type.text := by
  cases type with
  | object properties multiline =>
    cases properties with
    | nil => simp [ownProperties] at h
    | cons first rest =>
      have hmem : property.text ∈ propertyTexts (first :: rest) := by
        rw [propertyTexts_eq_map]
        exact List.mem_map_of_mem h
      rw [text]
      cases multiline with
      | true => exact ((standsIn_propertyLines hmem).append_left _).append_right _
      | false => exact (((StandsIn.refl _).intercalate hmem _).append_left _).append_right _
  | _ => simp [ownProperties] at h

end TypeExpr

/-- The type of a property stands at its end. -/
theorem Property.standsIn_value (property : Property) :
    StandsIn property.value.text 0 property.text := by
  obtain ⟨key, value, optional, readonly, docs⟩ := property
  rw [text, TypeExpr.propertyText]
  exact (StandsIn.refl _).append_left _

namespace TypeExpr

/-- A type stands in each type that is made of it. -/
theorem standsIn_of_mem_children {type child : TypeExpr} (h : child ∈ type.children) :
    StandsIn child.text type.blocks type.text := by
  have hself : StandsIn child.text 0 child.text := .refl child.text
  cases type with
  | named | literal => simp [children] at h
  | generic name arguments =>
    rw [text, texts_eq_map]
    exact ((hself.intercalate (List.mem_map_of_mem h) _).append_left _).append_right _
  | array element =>
    obtain rfl := List.mem_singleton.1 h
    exact (hself.wrapIf _).append_right _
  | union members =>
    rw [text, unionTexts_eq_map]
    exact (hself.wrapIf _).intercalate (List.mem_map.2 ⟨child, h, rfl⟩) _
  | intersection members =>
    rw [text, intersectionTexts_eq_map]
    exact (hself.wrapIf _).intercalate (List.mem_map.2 ⟨child, h, rfl⟩) _
  | tuple members =>
    rw [text, texts_eq_map]
    exact ((hself.intercalate (List.mem_map_of_mem h) _).append_left _).append_right _
  | object properties multiline =>
    -- The type ends its property, which stands in the object.
    obtain ⟨property, hmem, rfl⟩ := List.mem_map.1 h
    have hproperty : StandsIn property.text (blocks (.object properties multiline)) _ :=
      standsIn_of_mem_ownProperties hmem
    rw [← Nat.add_zero (blocks _)]
    exact hproperty.trans property.standsIn_value
  | keys type =>
    obtain rfl := List.mem_singleton.1 h
    exact hself.append_left _
  | index type key =>
    rw [text]
    simp only [children, List.mem_cons, List.not_mem_nil, or_false] at h
    rcases h with rfl | rfl
    · exact (((hself.wrapIf _).append_right _).append_right _).append_right _
    · exact (hself.append_left _).append_right _
  | conditional checked bound whenTrue whenFalse =>
    rw [text]
    simp only [children, List.mem_cons, List.not_mem_nil, or_false] at h
    rcases h with rfl | rfl | rfl | rfl
    · exact (((((hself.append_right _).append_right _).append_right _).append_right _).append_right
        _).append_right _
    · exact (((((hself.wrapIf _).append_left _).append_right _).append_right _).append_right
        _).append_right _
    · exact ((hself.append_left _).append_right _).append_right _
    · exact hself.append_left _
  | mapped parameter source remap value optional =>
    rw [text]
    simp only [children, List.mem_cons, Option.mem_toList] at h
    rcases h with rfl | rfl | rfl
    · exact ((((((hself.append_left _).append_right _).append_right _).append_right
        _).append_right _).append_right _).append_right _
    · exact (hself.append_left _).append_right _
    · exact (((((((hself.append_left _).append_left _).append_right _).append_right _).append_right
        _).append_right _).append_right _)

/-- A property in a type is written in its text. -/
theorem Holds.standsIn {property : Property} {depth : Nat} {type : TypeExpr}
    (h : type.Holds property depth) : StandsIn property.text depth type.text := by
  induction h with
  | own mem => exact standsIn_of_mem_ownProperties mem
  | child mem _ ih => exact (standsIn_of_mem_children mem).trans ih

end TypeExpr

/-! ## Comments of declarations and properties -/

/-- The code that follows the comment of a property. -/
def Property.code (property : Property) : String := (property.withDocs none).text

/-- The code that follows the comment of a declaration. -/
def Declaration.code (declaration : Declaration) (exported : Bool) : String :=
  (if exported then "export " else "") ++ declaration.bareText

/-- A property is its comment and its code. -/
theorem Property.text_eq (property : Property) :
    property.text = docComment? property.docs ++ property.code := by
  obtain ⟨key, value, optional, readonly, docs⟩ := property
  simp only [code, withDocs, text, TypeExpr.propertyText, docComment?, String.empty_append,
    String.append_assoc]

/-- A declaration is its comment and its code. -/
theorem Declaration.text_eq (declaration : Declaration) (exported : Bool) :
    declaration.text exported = docComment? declaration.docs ++ declaration.code exported := by
  rw [Declaration.text, Declaration.code, String.append_assoc]

namespace Declaration

/-- The types that a declaration is made of, apart from those of its properties. -/
def types (declaration : Declaration) : List TypeExpr :=
  (declaration.parameters.flatMap fun parameter =>
    parameter.bound.toList ++ parameter.default.toList) ++
    match declaration.body with
    | .interface parents _ => parents
    | .typeAlias definition => [definition]

/-- A property stands in a declaration, in some blocks. -/
inductive Holds (property : Property) : Nat → Declaration → Prop
  | own {declaration : Declaration} (mem : property ∈ declaration.properties) :
      Holds property 1 declaration
  | value {declaration : Declaration} (outer : Property) (depth : Nat)
      (mem : outer ∈ declaration.properties) (inner : outer.value.Holds property depth) :
      Holds property (1 + depth) declaration
  | type {declaration : Declaration} (type : TypeExpr) {depth : Nat}
      (mem : type ∈ declaration.types) (inner : type.Holds property depth) :
      Holds property depth declaration

/-- The properties of an interface stand in it, in one block. -/
theorem standsIn_bareText_of_mem_properties {declaration : Declaration} {property : Property}
    (h : property ∈ declaration.properties) :
    StandsIn property.text 1 declaration.bareText := by
  obtain ⟨name, parameters, body, docs⟩ := declaration
  cases body with
  | typeAlias definition => simp [properties] at h
  | interface parents properties =>
    have hne : properties.isEmpty = false := by
      rw [List.isEmpty_eq_false_iff]
      exact List.ne_nil_of_mem h
    have hlines : StandsIn property.text 1 (TypeExpr.propertyLines (properties.map (·.text))) :=
      standsIn_propertyLines (List.mem_map_of_mem h)
    show StandsIn property.text 1
      (_ ++ (if properties.isEmpty then " \x7b\x7d" else _))
    rw [hne]
    exact ((hlines.append_left _).append_right _).append_left _

/-- The bounds and the defaults of type parameters stand among them. -/
theorem standsIn_parametersText {parameters : List TypeParameter} {parameter : TypeParameter}
    (hparameter : parameter ∈ parameters) {type : TypeExpr}
    (h : type ∈ parameter.bound.toList ++ parameter.default.toList) :
    StandsIn type.text 0 (parametersText parameters) := by
  have hself : StandsIn type.text 0 type.text := .refl type.text
  have htext : StandsIn type.text 0 parameter.text := by
    obtain ⟨name, bound, default⟩ := parameter
    rw [TypeParameter.text]
    rcases List.mem_append.1 h with h | h
    · obtain rfl : bound = some type := Option.mem_toList.1 h
      exact ((hself.append_left " extends ").append_left _).append_right _
    · obtain rfl : default = some type := Option.mem_toList.1 h
      exact (hself.append_left " = ").append_left _
  have hne : parameters.isEmpty = false := by
    rw [List.isEmpty_eq_false_iff]
    exact List.ne_nil_of_mem hparameter
  rw [parametersText, hne]
  exact ((htext.intercalate (List.mem_map_of_mem hparameter) _).append_left _).append_right _

/-- The types of a declaration stand in it. -/
theorem standsIn_bareText_of_mem_types {declaration : Declaration} {type : TypeExpr}
    (h : type ∈ declaration.types) : StandsIn type.text 0 declaration.bareText := by
  obtain ⟨name, parameters, body, docs⟩ := declaration
  have hself : StandsIn type.text 0 type.text := .refl type.text
  rcases List.mem_append.1 h with h | h
  · obtain ⟨parameter, hparameter, h⟩ := List.mem_flatMap.1 h
    have hhead : StandsIn type.text 0 (name ++ parametersText parameters) :=
      (standsIn_parametersText hparameter h).append_left _
    cases body with
    | interface parents properties =>
      exact ((hhead.append_left _).append_right _).append_right _
    | typeAlias definition =>
      exact (((hhead.append_left _).append_right _).append_right _).append_right _
  · cases body with
    | interface parents properties =>
      have hne : parents.isEmpty = false := by
        rw [List.isEmpty_eq_false_iff]
        exact List.ne_nil_of_mem h
      have hparents : StandsIn type.text 0 (String.intercalate ", " (parents.map (·.text))) :=
        hself.intercalate (List.mem_map_of_mem h) _
      show StandsIn type.text 0 (_ ++ (if parents.isEmpty then "" else _) ++ _)
      rw [hne]
      exact ((hparents.append_left _).append_left _).append_right _
    | typeAlias definition =>
      obtain rfl := List.mem_singleton.1 h
      exact (hself.append_left _).append_right _

/-- A property in a declaration is written in its code. -/
theorem Holds.standsIn {property : Property} {depth : Nat} {declaration : Declaration}
    (h : declaration.Holds property depth) :
    StandsIn property.text depth declaration.bareText := by
  cases h with
  | own mem => exact standsIn_bareText_of_mem_properties mem
  | value outer depth mem inner =>
    have hvalue : StandsIn property.text depth outer.text := by
      rw [← Nat.zero_add depth]
      exact outer.standsIn_value.trans inner.standsIn
    exact (standsIn_bareText_of_mem_properties mem).trans hvalue
  | type type mem inner =>
    rw [← Nat.zero_add depth]
    exact (standsIn_bareText_of_mem_types mem).trans inner.standsIn

end Declaration

namespace SourceFile

/-- A file has a comment of a text for some code, in some blocks. -/
inductive Documents (file : SourceFile) (docs : String) : String → Nat → Prop
  | declaration (exported : Bool) (declaration : Declaration)
      (mem : .declaration exported declaration ∈ file.items)
      (documented : declaration.docs = some docs) :
      Documents file docs (declaration.code exported) 0
  | property (exported : Bool) (declaration : Declaration) (property : Property) {depth : Nat}
      (mem : .declaration exported declaration ∈ file.items)
      (holds : declaration.Holds property depth) (documented : property.docs = some docs) :
      Documents file docs property.code depth

/-- All items of a file stand in it, wherever lines are left blank between them. -/
theorem standsIn_textsAfter {items : List Item} {item : Item} (h : item ∈ items)
    (opened : Bool) (previous : Option Item) :
    StandsIn item.text 0 (Item.textsAfter opened previous items) := by
  induction items generalizing previous with
  | nil => simp at h
  | cons first rest ih =>
    rw [Item.textsAfter]
    rcases List.mem_cons.1 h with rfl | h
    · exact (((StandsIn.refl _).append_left _).append_right _).append_right _
    · exact (ih h (some first)).append_left _

/-- What is documented is written below its comment. -/
theorem Documents.standsIn {file : SourceFile} {docs code : String} {depth : Nat}
    (h : file.Documents docs code depth) : StandsIn (docComment docs ++ code) depth file.text := by
  have hitem {item : Item} (mem : item ∈ file.items) : StandsIn item.text 0 file.text :=
    (standsIn_textsAfter mem _ none).append_left _
  cases h with
  | declaration exported declaration mem documented =>
    have htext : docComment docs ++ declaration.code exported = declaration.text exported := by
      rw [Declaration.text_eq, documented]
      rfl
    have hself := hitem mem
    rw [htext]
    exact hself
  | property exported declaration property mem holds documented =>
    have htext : docComment docs ++ property.code = property.text := by
      rw [Property.text_eq, documented]
      rfl
    have hdeclaration : StandsIn property.text depth (declaration.text exported) :=
      holds.standsIn.append_left _
    have hself := hitem mem
    rw [htext, ← Nat.zero_add depth]
    exact hself.trans hdeclaration

/-- Below a comment, a file goes on with the code that is documented; and that is found after the
comment exactly if there is no end of a comment in the text. -/
theorem Documents.exists_comment {file : SourceFile} {docs code : String} {depth : Nat}
    (h : file.Documents docs code depth) (documented : docComment docs ≠ "") :
    ∃ before comment after, docComment docs = comment ++ "\n" ∧
      file.text = before ++ nested depth comment ++ (nested depth ("\n" ++ code) ++ after) ∧
      (Ends (nested depth comment) (nested depth ("\n" ++ code) ++ after) ↔
        ¬ HoldsEnd docs.toList) := by
  have hblock : docComment docs = docBlock docs ++ "\n" := docComment_eq_append documented
  obtain ⟨before, after, htext⟩ := h.standsIn
  refine ⟨before, docBlock docs, after, hblock, ?_, ends_docBlock_iff _ _ _⟩
  have hcode : docBlock docs ++ "\n" ++ code = docBlock docs ++ ("\n" ++ code) :=
    String.append_assoc
  rw [htext, hblock, hcode, nested_append]
  simp only [String.append_assoc]

/-- What stands before the first item does not matter for the others. -/
theorem textsAfter_some (opened : Bool) (previous : Item) (items : List Item) :
    Item.textsAfter opened (some previous) items =
      Item.textsAfter false (some previous) items := by
  induction items generalizing previous with
  | nil => rfl
  | cons item rest ih =>
    rw [Item.textsAfter, Item.textsAfter, ih]
    simp

/-- The items of a file begin with an empty line if something stands before them. -/
theorem textsAfter_true (items : List Item) : Item.textsAfter true none items =
    if items.isEmpty then "" else "\n" ++ Item.textsAfter false none items := by
  cases items with
  | nil => rfl
  | cons item rest =>
    rw [Item.textsAfter, Item.textsAfter, textsAfter_some true]
    simp [String.append_assoc]

/-- Below its header, a file goes on as it would begin without one. -/
theorem text_eq_header_append {file : SourceFile} {header : String}
    (h : file.header = some header) :
    file.text = Text.trimEnd header ++ ("\n" ++
      if file.isEmpty then "" else "\n" ++ ({ file with header := none } : SourceFile).text) := by
  obtain ⟨_, imports, items⟩ := file
  obtain rfl := h
  cases imports with
  | nil =>
    simp only [text, isEmpty, List.isEmpty_nil, Option.isSome_some, Bool.true_and,
      Option.elim_some, Option.elim_none, Option.isSome_none, Bool.not_true, Bool.or_false,
      if_true, textsAfter_true, String.append_assoc, String.empty_append, String.append_empty]
  | cons statement rest =>
    simp [text, isEmpty, String.append_assoc]

end SourceFile

end TypeScript

end GraphClient
