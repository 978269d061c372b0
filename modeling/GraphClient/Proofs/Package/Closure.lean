import GraphClient.Package.Definitions

/-!
# Collected definitions are a closure

The definitions that some names need are those of all types which can be reached from the names
along mentions: built-in names and names that another file defines are not entered, and a scalar is
entered without being defined.

* `NamedType.RefersTo` : the names that stand in the body of a type.
* `Definitions.Reached` : reachability along mentions.
* `Definitions.mem_names_of_iff` : exactly the types that are reached are defined.
* `Definitions.nodup_names_of` : each of them is defined once.
* `Definitions.defines_of_mem_items_of` : what stands for each of them.
* `Definitions.mem_elsewhere_of_iff` : the names of other files are the roots that are defined
  there, and those that a defined type mentions.
-/

namespace GraphClient

open TypeScript (Item)

/-- Whether a name is registered as a scalar. -/
def TypeRegistry.IsScalar (registry : TypeRegistry) (name : String) : Prop :=
  ∃ type, registry.find? name = some type ∧ type.body = .scalar

/-- A reference leads to a type that is defined by its name, through any wrappers. -/
inductive TypeRef.LeadsTo : TypeRef → String → Prop
  | object {name : String} : LeadsTo (.object name) name
  | inputObject {name : String} : LeadsTo (.inputObject name) name
  | enumeration {name : String} : LeadsTo (.enumeration name) name
  | nonNull {inner : TypeRef} {name : String} (inside : LeadsTo inner name) :
      LeadsTo (.nonNull inner) name
  | list {inner : TypeRef} {name : String} (inside : LeadsTo inner name) :
      LeadsTo (.list inner) name

/-- Exactly the name that a reference leads to is mentioned by it. -/
theorem TypeRef.mem_mentions_iff_leadsTo {type : TypeRef} {name : String} :
    name ∈ type.mentions ↔ type.LeadsTo name := by
  induction type with
  | nonNull inner ih =>
    refine ih.trans ⟨.nonNull, fun h => ?_⟩
    cases h
    assumption
  | list inner ih =>
    refine ih.trans ⟨.list, fun h => ?_⟩
    cases h
    assumption
  | object type | inputObject type | enumeration type =>
    rw [mentions, List.mem_singleton]
    constructor
    · rintro rfl
      constructor
    · rintro ⟨⟩
      rfl
  | scalar type | unresolved =>
    rw [mentions]
    constructor
    · intro h
      cases h
    · rintro ⟨⟩

namespace NamedType

/-- The body of a type refers to a name: a field of an object or of an input object leads to it, or
it is a member of a union. -/
inductive RefersTo (type : NamedType) (name : String) : Prop
  | field {fields : List FieldDefinition} {field : FieldDefinition}
      (body : type.body = .object fields) (mem : field ∈ fields) (leads : field.type.LeadsTo name)
  | inputField {fields : List InputValue} {field : InputValue}
      (body : type.body = .inputObject fields) (mem : field ∈ fields)
      (leads : field.type.LeadsTo name)
  | member {members : List String} (body : type.body = .union members) (mem : name ∈ members)

/-- Exactly the names that the body of a type refers to are mentioned by its declaration. -/
theorem mem_mentions_iff {type : NamedType} {name : String} :
    name ∈ type.mentions ↔ type.RefersTo name := by
  constructor
  · intro h
    rw [mentions] at h
    cases hbody : type.body with
    | object fields =>
      simp only [hbody, List.mem_flatMap] at h
      obtain ⟨field, mem, hname⟩ := h
      exact .field hbody mem (TypeRef.mem_mentions_iff_leadsTo.1 hname)
    | inputObject fields =>
      simp only [hbody, List.mem_flatMap] at h
      obtain ⟨field, mem, hname⟩ := h
      exact .inputField hbody mem (TypeRef.mem_mentions_iff_leadsTo.1 hname)
    | union members =>
      simp only [hbody] at h
      exact .member hbody h
    | enumeration | scalar => simp [hbody] at h
  · rintro (⟨body, mem, leads⟩ | ⟨body, mem, leads⟩ | ⟨body, mem⟩) <;> rw [mentions, body]
    · exact List.mem_flatMap.2 ⟨_, mem, TypeRef.mem_mentions_iff_leadsTo.2 leads⟩
    · exact List.mem_flatMap.2 ⟨_, mem, TypeRef.mem_mentions_iff_leadsTo.2 leads⟩
    · exact mem

/-- Every type but a scalar has a declaration. -/
theorem declaration?_eq_none_iff (type : NamedType) (scalars : ScalarSettings) :
    type.declaration? scalars = none ↔ type.body = .scalar := by
  unfold declaration?
  cases type.body <;> simp

/-- The body of a scalar refers to nothing. -/
theorem not_refersTo_of_scalar {type : NamedType} (h : type.body = .scalar) (name : String) :
    ¬ type.RefersTo name := by
  rintro (⟨body, -, -⟩ | ⟨body, -, -⟩ | ⟨body, -⟩)
  all_goals
    rw [h] at body
    cases body

/-- The declaration of a type has the name of the type. -/
theorem name_of_declaration? {type : NamedType} {scalars : ScalarSettings}
    {declaration : TypeScript.Declaration} (h : type.declaration? scalars = some declaration) :
    declaration.name = type.name := by
  unfold declaration? at h
  cases hbody : type.body <;> simp [hbody] at h <;> subst h <;> rfl

end NamedType

namespace Definitions

variable {registry : TypeRegistry} {scalars : ScalarSettings} {defined : NameSet}

/-- Whether a name is entered where it is met: it is neither built in nor defined by another
file. -/
def IsOpen (defined : NameSet) (name : String) : Prop := isBuiltinType name = false ∧ name ∉ defined

/-- The type that is registered under a name refers to another one. -/
def Mentions (registry : TypeRegistry) (source name : String) : Prop :=
  ∃ type, registry.find? source = some type ∧ type.RefersTo name

/-- What a registered type mentions is what its declaration is read for. -/
theorem mentions_iff {type : NamedType} {source : String}
    (found : registry.find? source = some type) (name : String) :
    Mentions registry source name ↔ name ∈ type.mentions := by
  rw [NamedType.mem_mentions_iff]
  constructor
  · rintro ⟨type', found', refers⟩
    obtain rfl := Option.some.inj (found.symm.trans found')
    exact refers
  · exact fun refers => ⟨type, found, refers⟩

/-- A name can be reached from some roots along mentions, through names that are entered. -/
inductive Reached (registry : TypeRegistry) (defined : NameSet) (roots : List String) :
    String → Prop
  | root {name : String} (mem : name ∈ roots) (isOpen : IsOpen defined name) :
      Reached registry defined roots name
  | mention {source name : String} (reached : Reached registry defined roots source)
      (mentions : Mentions registry source name) (isOpen : IsOpen defined name) :
      Reached registry defined roots name

/-- What is reached is defined nowhere else. -/
theorem Reached.isOpen {roots : List String} {name : String}
    (h : Reached registry defined roots name) : IsOpen defined name := by
  cases h <;> assumption

/-- Nothing is reached without roots. -/
theorem Reached.roots_ne_nil {roots : List String} {name : String}
    (h : Reached registry defined roots name) : roots ≠ [] := by
  induction h with
  | root mem isOpen => exact List.ne_nil_of_mem mem
  | mention reached mentions isOpen ih => exact ih

/-- Only the roots that are entered count. -/
theorem Reached.mono {roots roots' : List String}
    (hroots : ∀ name ∈ roots, IsOpen defined name → name ∈ roots') {name : String}
    (h : Reached registry defined roots name) : Reached registry defined roots' name := by
  induction h with
  | root mem isOpen => exact .root (hroots _ mem isOpen) isOpen
  | mention reached mentions isOpen ih => exact .mention ih mentions isOpen

/-- What is reached from some roots is reached from one of them. -/
theorem reached_iff_exists_root {roots : List String} {name : String} :
    Reached registry defined roots name ↔
      ∃ root ∈ roots, Reached registry defined [root] name := by
  constructor
  · intro h
    induction h with
    | root mem isOpen => exact ⟨_, mem, .root List.mem_cons_self isOpen⟩
    | mention reached mentions isOpen ih =>
      obtain ⟨root, mem, hroot⟩ := ih
      exact ⟨root, mem, .mention hroot mentions isOpen⟩
  · rintro ⟨root, mem, h⟩
    refine h.mono fun name hname _ => ?_
    rw [List.mem_singleton.1 hname]
    exact mem

/-- A scalar mentions nothing. -/
theorem Mentions.not_isScalar {source name : String} (h : Mentions registry source name) :
    ¬ registry.IsScalar source := by
  rintro ⟨type, hfind, hbody⟩
  obtain ⟨type', hfind', refers⟩ := h
  obtain rfl := Option.some.inj (hfind.symm.trans hfind')
  exact NamedType.not_refersTo_of_scalar hbody name refers

/-- A definition that is added comes first. -/
@[simp] theorem names_withItem (name : String) (item : Item) (definitions : Definitions) :
    (definitions.withItem name item).names = name :: definitions.names := rfl

@[simp] theorem names_withElsewhere (names : List String) (definitions : Definitions) :
    (definitions.withElsewhere names).names = definitions.names := rfl

@[simp] theorem elsewhere_withItem (name : String) (item : Item) (definitions : Definitions) :
    (definitions.withItem name item).elsewhere = definitions.elsewhere := rfl

/-- Names that are defined elsewhere are noted, beside those that were. -/
@[simp] theorem mem_elsewhere_withElsewhere (names : List String) (definitions : Definitions)
    (name : String) : name ∈ (definitions.withElsewhere names).elsewhere ↔
      name ∈ names ∨ name ∈ definitions.elsewhere := by
  simp [withElsewhere]

/-- A name that is visited for the first time and not defined elsewhere is open. -/
theorem isOpen_of_not {seen : List String} {name : String}
    (notMet : ¬ (isBuiltinType name = true ∨ name ∈ seen))
    (notDefined : ¬ defined.contains name = true) : IsOpen defined name := by
  rw [not_or, Bool.not_eq_true] at notMet
  rw [NameSet.contains_iff] at notDefined
  exact ⟨notMet.1, notDefined⟩

/-! ## What is defined -/

/-- Whatever is defined is reached and no scalar, if the names of the queue are reached. -/
theorem reached_of_mem_names_visit {roots : List String} (queue seen : List String) :
    (∀ name ∈ queue, IsOpen defined name → Reached registry defined roots name) →
    ∀ name ∈ (visit registry scalars defined queue seen).names,
      Reached registry defined roots name ∧ ¬ registry.IsScalar name := by
  fun_induction visit registry scalars defined queue seen with
  | case1 => simp [names]
  | case2 name queue seen met ih =>
    intro hqueue
    exact ih fun x hx => hqueue x (List.mem_cons_of_mem _ hx)
  | case3 name queue seen met hdefined ih =>
    intro hqueue x hx
    exact ih (fun x hx => hqueue x (List.mem_cons_of_mem _ hx)) x hx
  | case4 name queue seen met hdefined found ih =>
    -- A name without a type is written as missing, and is no scalar.
    intro hqueue x hx
    rw [names_withItem, List.mem_cons] at hx
    rcases hx with rfl | hx
    · refine ⟨hqueue x List.mem_cons_self (isOpen_of_not met hdefined), ?_⟩
      rintro ⟨type, hfind, -⟩
      simp [found] at hfind
    · exact ih (fun x hx => hqueue x (List.mem_cons_of_mem _ hx)) x hx
  | case5 name queue seen met hdefined type found hscalar ih =>
    intro hqueue x hx
    exact ih (fun x hx => hqueue x (List.mem_cons_of_mem _ hx)) x hx
  | case6 name queue seen met hdefined type found declaration hdeclaration references ih =>
    intro hqueue x hx
    have hname := hqueue name List.mem_cons_self (isOpen_of_not met hdefined)
    rw [names_withItem, List.mem_cons] at hx
    rcases hx with rfl | hx
    · refine ⟨hname, ?_⟩
      rintro ⟨type', hfind, hbody⟩
      obtain rfl : type = type' := by rw [found] at hfind; exact Option.some.inj hfind
      rw [(type.declaration?_eq_none_iff scalars).2 hbody] at hdeclaration
      simp at hdeclaration
    · refine ih (fun y hy isOpen => ?_) x hx
      rcases List.mem_append.1 hy with hy | hy
      · exact hqueue y (List.mem_cons_of_mem _ hy) isOpen
      · have hmention := (References.mem_schemaTypes_ofNames.1 hy).1
        exact .mention hname ((mentions_iff found y).2 hmention) isOpen

/-- A name that is entered is defined, or was met before, or is a scalar. -/
def Covered (registry : TypeRegistry) (seen : List String) (definitions : Definitions)
    (name : String) : Prop :=
  name ∈ seen ∨ name ∈ definitions.names ∨ registry.IsScalar name

/-- A name may be taken off the list of what was met before, if it is covered otherwise. -/
theorem Covered.uncons {name x : String} {seen : List String} {inner outer : Definitions}
    (h : Covered registry (name :: seen) inner x) (mono : ∀ y ∈ inner.names, y ∈ outer.names)
    (hname : x = name → Covered registry seen outer x) : Covered registry seen outer x := by
  rcases h with h | h | h
  · rcases List.mem_cons.1 h with h | h
    · exact hname h
    · exact .inl h
  · exact .inr (.inl (mono x h))
  · exact .inr (.inr h)

/-- The names of the queue are covered, and so are those that a defined type mentions. -/
theorem covered_visit (queue seen : List String) :
    (∀ name ∈ queue, IsOpen defined name →
      Covered registry seen (visit registry scalars defined queue seen) name) ∧
    ∀ source ∈ (visit registry scalars defined queue seen).names, ∀ name,
      Mentions registry source name → IsOpen defined name →
        Covered registry seen (visit registry scalars defined queue seen) name := by
  fun_induction visit registry scalars defined queue seen with
  | case1 => simp [names]
  | case2 name queue seen met ih =>
    refine ⟨fun x hx isOpen => ?_, ih.2⟩
    rcases List.mem_cons.1 hx with rfl | hx
    · rcases met with hbuiltin | hseen
      · simp [IsOpen, hbuiltin] at isOpen
      · exact .inl hseen
    · exact ih.1 x hx isOpen
  | case3 name queue seen met hdefined ih =>
    -- The name counts as met from here on, but it is none of those that are entered.
    have hne : ∀ x, IsOpen defined x → x ≠ name := by
      rintro x isOpen rfl
      exact isOpen.2 (NameSet.contains_iff.1 hdefined)
    refine ⟨fun x hx isOpen => ?_, fun source hsource x hx isOpen => ?_⟩
    · have hqueue : x ∈ queue := List.mem_of_ne_of_mem (hne x isOpen) hx
      exact (ih.1 x hqueue isOpen).uncons (fun y hy => hy) fun h => absurd h (hne x isOpen)
    · exact (ih.2 source hsource x hx isOpen).uncons (fun y hy => hy) fun h =>
        absurd h (hne x isOpen)
  | case4 name queue seen met hdefined found ih =>
    refine ⟨fun x hx isOpen => ?_, fun source hsource x hx isOpen => ?_⟩
    · rcases List.mem_cons.1 hx with rfl | hx
      · exact .inr (.inl (by simp))
      · exact (ih.1 x hx isOpen).uncons (fun y hy => by simp [hy]) fun h =>
          .inr (.inl (by simp [h]))
    · rw [names_withItem, List.mem_cons] at hsource
      rcases hsource with rfl | hsource
      · obtain ⟨type, hfind, -⟩ := hx
        simp [found] at hfind
      · exact (ih.2 source hsource x hx isOpen).uncons (fun y hy => by simp [hy]) fun h =>
          .inr (.inl (by simp [h]))
  | case5 name queue seen met hdefined type found hscalar ih =>
    have hname : registry.IsScalar name :=
      ⟨type, found, (type.declaration?_eq_none_iff scalars).1 hscalar⟩
    refine ⟨fun x hx isOpen => ?_, fun source hsource x hx isOpen => ?_⟩
    · rcases List.mem_cons.1 hx with rfl | hx
      · exact .inr (.inr hname)
      · exact (ih.1 x hx isOpen).uncons (fun y hy => hy) fun h => .inr (.inr (h ▸ hname))
    · exact (ih.2 source hsource x hx isOpen).uncons (fun y hy => hy) fun h =>
        .inr (.inr (h ▸ hname))
  | case6 name queue seen met hdefined type found declaration hdeclaration references ih =>
    refine ⟨fun x hx isOpen => ?_, fun source hsource x hx isOpen => ?_⟩
    · rcases List.mem_cons.1 hx with rfl | hx
      · exact .inr (.inl (by simp))
      · exact (ih.1 x (List.mem_append_left _ hx) isOpen).uncons (fun y hy => by simp [hy]) fun h =>
          .inr (.inl (by simp [h]))
    · have hcovered : Covered registry (name :: seen) (visit registry scalars defined
          (queue ++ references.schemaTypes.names) (name :: seen)) x := by
        rw [names_withItem, names_withElsewhere, List.mem_cons] at hsource
        rcases hsource with rfl | hsource
        · have hmention := (mentions_iff found x).1 hx
          have hschema := References.mem_schemaTypes_ofNames.2 ⟨hmention, isOpen.1, isOpen.2⟩
          exact ih.1 x (List.mem_append_right _ hschema) isOpen
        · exact ih.2 source hsource x hx isOpen
      exact hcovered.uncons (fun y hy => by simp [hy]) fun h => .inr (.inl (by simp [h]))

/-- Exactly the types that can be reached from the roots are defined, apart from scalars. -/
theorem mem_names_of_iff (roots : List String) (name : String) :
    name ∈ (of registry scalars defined roots).names ↔
      Reached registry defined roots name ∧ ¬ registry.IsScalar name := by
  constructor
  · exact reached_of_mem_names_visit roots [] (fun x hx isOpen => .root hx isOpen) name
  · rintro ⟨reached, hscalar⟩
    obtain ⟨hroots, hmentions⟩ := @covered_visit registry scalars defined roots []
    have hcovered : Covered registry [] (of registry scalars defined roots) name := by
      -- On the way that the name is reached: what mentions another name is defined itself.
      induction reached with
      | root mem isOpen => exact hroots _ mem isOpen
      | mention reached mentions isOpen ih =>
        rcases ih mentions.not_isScalar with h | h | h
        · simp at h
        · exact hmentions _ h _ mentions isOpen
        · exact absurd h mentions.not_isScalar
    rcases hcovered with h | h | h
    · simp at h
    · exact h
    · exact absurd h hscalar

/-- No name is defined that was met before, and none is defined twice. -/
theorem nodup_names_visit (queue seen : List String) :
    (visit registry scalars defined queue seen).names.Nodup ∧
      ∀ name ∈ (visit registry scalars defined queue seen).names, name ∉ seen := by
  fun_induction visit registry scalars defined queue seen with
  | case1 => simp [names]
  | case2 name queue seen met ih => exact ih
  | case3 name queue seen met hdefined ih =>
    exact ⟨ih.1, fun x hx hseen => ih.2 x hx (List.mem_cons_of_mem _ hseen)⟩
  | case4 name queue seen met hdefined found ih =>
    rw [names_withItem, List.nodup_cons, List.forall_mem_cons]
    refine ⟨⟨fun hname => ih.2 name hname List.mem_cons_self, ih.1⟩, ?_, ?_⟩
    · exact fun hseen => met (.inr hseen)
    · exact fun x hx hseen => ih.2 x hx (List.mem_cons_of_mem _ hseen)
  | case5 name queue seen met hdefined type found hscalar ih =>
    exact ⟨ih.1, fun x hx hseen => ih.2 x hx (List.mem_cons_of_mem _ hseen)⟩
  | case6 name queue seen met hdefined type found declaration hdeclaration references ih =>
    rw [names_withItem, names_withElsewhere, List.nodup_cons, List.forall_mem_cons]
    refine ⟨⟨fun hname => ih.2 name hname List.mem_cons_self, ih.1⟩, ?_, ?_⟩
    · exact fun hseen => met (.inr hseen)
    · exact fun x hx hseen => ih.2 x hx (List.mem_cons_of_mem _ hseen)

/-- Every type is defined once. -/
theorem nodup_names_of (roots : List String) : (of registry scalars defined roots).names.Nodup :=
  (nodup_names_visit roots []).1

/-- An item defines a name: it is the declaration of the type of the name, or tells that there is no
such type. -/
inductive Defines (registry : TypeRegistry) (scalars : ScalarSettings) (name : String) :
    Item → Prop
  | missing (notFound : registry.find? name = none) :
      Defines registry scalars name (NamedType.missing name)
  | declaration {type : NamedType} {declaration : TypeScript.Declaration}
      (found : registry.find? name = some type)
      (declared : type.declaration? scalars = some declaration) :
      Defines registry scalars name (.exported declaration)

/-- Every item defines the name that it is collected under. -/
theorem defines_of_mem_items_visit (queue seen : List String) :
    ∀ p ∈ (visit registry scalars defined queue seen).items, Defines registry scalars p.1 p.2 := by
  fun_induction visit registry scalars defined queue seen with
  | case1 => simp
  | case2 name queue seen met ih => exact ih
  | case3 name queue seen met hdefined ih => exact ih
  | case4 name queue seen met hdefined found ih =>
    exact List.forall_mem_cons.2 ⟨.missing found, ih⟩
  | case5 name queue seen met hdefined type found hscalar ih => exact ih
  | case6 name queue seen met hdefined type found declaration hdeclaration references ih =>
    exact List.forall_mem_cons.2 ⟨.declaration found hdeclaration, ih⟩

/-- Every item of the walk defines the type of its name. -/
theorem defines_of_mem_items_of (roots : List String) :
    ∀ p ∈ (of registry scalars defined roots).items, Defines registry scalars p.1 p.2 :=
  defines_of_mem_items_visit roots []

/-! ## What is left to another file -/

/-- The names that are left to another file are defined there, and stand in the queue or are
mentioned by a type that is defined. -/
theorem mem_elsewhere_visit_iff (queue seen : List String) (x : String) :
    x ∈ (visit registry scalars defined queue seen).elsewhere ↔
      isBuiltinType x = false ∧ x ∈ defined ∧ ((x ∈ queue ∧ x ∉ seen) ∨
        ∃ source ∈ (visit registry scalars defined queue seen).names,
          Mentions registry source x) := by
  fun_induction visit registry scalars defined queue seen with
  | case1 => simp [names]
  | case2 name queue seen met ih =>
    rw [ih]
    refine and_congr_right fun hbuiltin => and_congr_right fun _ => or_congr_left ?_
    -- The first name of the queue is none of those that count.
    have hne : x ∉ seen → x ≠ name := by
      rintro hseen rfl
      rcases met with hbuiltin' | hseen'
      · simp [hbuiltin] at hbuiltin'
      · exact hseen hseen'
    refine and_congr_left fun hseen => ?_
    rw [List.mem_cons, or_iff_right (hne hseen)]
  | case3 name queue seen met hdefined ih =>
    rw [mem_elsewhere_withElsewhere, List.mem_singleton, ih]
    rw [not_or, Bool.not_eq_true] at met
    rw [NameSet.contains_iff] at hdefined
    by_cases hname : x = name
    · subst hname
      simp [met, hdefined]
    · simp [hname, withElsewhere, names]
  | case4 name queue seen met hdefined found ih =>
    have hnone : ¬ Mentions registry name x := by
      rintro ⟨type, hfind, -⟩
      simp [found] at hfind
    rw [elsewhere_withItem, ih]
    refine and_congr_right fun _ => and_congr_right fun hx => ?_
    have hne : x ≠ name := by
      rintro rfl
      exact hdefined (NameSet.contains_iff.2 hx)
    simp [hne, hnone]
  | case5 name queue seen met hdefined type found hscalar ih =>
    rw [ih]
    refine and_congr_right fun _ => and_congr_right fun hx => ?_
    have hne : x ≠ name := by
      rintro rfl
      exact hdefined (NameSet.contains_iff.2 hx)
    simp [hne]
  | case6 name queue seen met hdefined type found declaration hdeclaration references ih =>
    have hname : Mentions registry name x ↔ x ∈ type.mentions := mentions_iff found x
    have htable : x ∈ references.tableTypes.names ↔
        x ∈ type.mentions ∧ isBuiltinType x = false ∧ x ∈ defined :=
      References.mem_tableTypes_ofNames
    have hschema : x ∈ references.schemaTypes.names ↔
        x ∈ type.mentions ∧ isBuiltinType x = false ∧ x ∉ defined :=
      References.mem_schemaTypes_ofNames
    rw [elsewhere_withItem, mem_elsewhere_withElsewhere, ih, htable]
    by_cases hx : isBuiltinType x = false ∧ x ∈ defined
    · have hne : x ≠ name := by
        rintro rfl
        exact hdefined (NameSet.contains_iff.2 hx.2)
      simp only [hx, hschema, hname, names_withItem, names_withElsewhere, List.mem_append,
        List.mem_cons, exists_eq_or_imp, hne, not_true, and_false, or_false, false_or, and_true,
        true_and]
      exact or_left_comm
    · simp only [← and_assoc, hx, and_false, false_and, or_false]

/-- The names that are left to another file are defined there, and are roots or mentioned by a type
that is defined. -/
theorem mem_elsewhere_of_iff (roots : List String) (name : String) :
    name ∈ (of registry scalars defined roots).elsewhere ↔
      isBuiltinType name = false ∧ name ∈ defined ∧ (name ∈ roots ∨
        ∃ source ∈ (of registry scalars defined roots).names, Mentions registry source name) := by
  have h := @mem_elsewhere_visit_iff registry scalars defined roots [] name
  simpa [of] using h

end Definitions

end GraphClient
