import GraphClient.Proofs.Projection.Unchecked
import GraphClient.Proofs.Shape.Origin
import GraphClient.Proofs.Typing.Layers
import GraphClient.Projection.Typed

/-!
# Lists in the types of projections

The type of a leaf has an array layer for each list of its wire type. An object is typed by its
selected fields, and only a look at the outer wrappers of its wire type tells whether an array is
put around that. So the lists are kept exactly where this look finds all of them.

* `TypeExpr.withoutNull` : a type without the null that was added to it.
* `TypeRef.IsFlat` : the outer wrappers tell all lists.
* `ProjectedField.TypedBy` : the array layers of a projected field, by what it holds.
* `Selection.typedBy_of_at?` : the fields at each path of a projection are typed so.
-/

namespace GraphClient

open TypeScript (TypeExpr)

/-! ## Types with null -/

namespace TypeScript.TypeExpr

/-- The type without null, if null was added to it as an alternative. -/
def withoutNull : TypeExpr → TypeExpr
  | .union [type, .named "null"] => type
  | type => type

/-- A type that is no union. -/
def IsSingle (type : TypeExpr) : Prop := ∀ members, type ≠ .union members

/-- A name needs no parentheses in a list. -/
theorem isSingle_named (text : String) : (named text).IsSingle := by simp [IsSingle]

/-- A generic type needs no parentheses in a list. -/
theorem isSingle_generic (name : String) (arguments : List TypeExpr) :
    (generic name arguments).IsSingle := by simp [IsSingle]

/-- An object type needs no parentheses in a list. -/
theorem isSingle_object (properties : List TypeScript.Property) (multiline : Bool) :
    (object properties multiline).IsSingle := by simp [IsSingle]

/-- An array is no union, and neither is what stands in no array layer at all. -/
theorem IsSingle.iterate {type : TypeExpr} (single : type.IsSingle) (count : Nat) :
    (array^[count] type).IsSingle := by
  cases count with
  | zero => exact single
  | succ count =>
    rw [Function.iterate_succ_apply']
    simp [IsSingle]

/-- Null may be set aside again, be it added or not. -/
theorem IsSingle.withoutNull_nullableIf {type : TypeExpr} (single : type.IsSingle)
    (condition : Bool) : (type.nullableIf condition).withoutNull = type := by
  have hself : type.withoutNull = type := by
    unfold withoutNull
    split
    · next member => exact absurd rfl (single _)
    · rfl
  have hmembers : type.unionMembers = [type] := by
    unfold unionMembers
    split
    · next members => exact absurd rfl (single members)
    · rfl
  unfold nullableIf nullable
  cases condition with
  | false => exact hself
  | true =>
    cases type.admitsNull with
    | true => exact hself
    | false =>
      show (TypeExpr.union (type.unionMembers ++ null.unionMembers)).withoutNull = type
      rw [hmembers]
      rfl

/-- A list under a condition has one layer or none. -/
theorem arrayIf_eq_iterate (condition : Bool) (type : TypeExpr) :
    type.arrayIf condition = array^[if condition then 1 else 0] type := by
  cases condition <;> rfl

end TypeScript.TypeExpr

/-! ## Wire types whose lists are told by the outer wrappers -/

namespace TypeRef

/-- A look at the outer wrappers tells how many lists there are: none, or one that is outermost or
under one non-null wrapper. -/
def IsFlat (type : TypeRef) : Prop :=
  type.listDepth = 0 ∨ (type.listDepth = 1 ∧ type.isList = true)

/-- A type is flat exactly if one look tells the number of its layers. -/
theorem isFlat_iff (type : TypeRef) :
    type.IsFlat ↔ (if type.isList then 1 else 0) = type.listDepth := by
  unfold IsFlat
  cases hlist : type.isList with
  | false => simp [eq_comm]
  | true =>
    have hdepth : 1 ≤ type.listDepth := one_le_listDepth_of_isList hlist
    simp only [and_true, if_true]
    omega

/-- Where non-null wrappers are not doubled, there is at most one list. -/
theorem isFlat_iff_of_isProper {type : TypeRef} (proper : type.isProper = true) :
    type.IsFlat ↔ type.listDepth ≤ 1 := by
  have hlist : type.isList = true ↔ 1 ≤ type.listDepth := isList_iff proper
  unfold IsFlat
  rw [hlist]
  omega

end TypeRef

/-! ## Shapes -/

/-- A field of a catalog shape that leads to objects is a list exactly if its wire type looks like
one. -/
theorem Catalog.list_eq_isList {schema : Schema} (named : schema.registry.Named) {page : PageNames}
    {type : String} {shape : Shape} (hshape : (ofSchema schema page).find? type = some shape)
    {name : String} {field : ShapeField} (hfield : shape.field? name = some field)
    {related : String} {list : Bool} (isObject : field.type = .object related list) :
    list = field.wire.isList := by
  rcases (origin_of_find? named hshape).eq_of_field? hfield with
    ⟨wire, description, -, rfl⟩ | ⟨table, -, -, relation, -, -, rfl⟩
  · replace isObject : ShapeType.ofWire schema.registry page wire = .object related list := isObject
    show list = wire.isList
    unfold ShapeType.ofWire at isObject
    split at isObject
    · cases isObject
    · split at isObject
      · next hlist =>
        cases isObject
        exact hlist.symm
      · next hlist =>
        rw [Bool.not_eq_true] at hlist
        split at isObject
        · cases isObject
        · cases isObject
          exact hlist.symm
  · -- A relation to one row is an object, and no list.
    unfold RelationField.shapeField at isObject ⊢
    split at isObject
    · cases isObject
    · next hsingle =>
      rw [if_neg hsingle]
      cases isObject
      rfl

/-- All levels of a selection from a shape of the catalog are applied to shapes of the catalog. -/
theorem Choices.exists_find?_of_levelAt? {catalog : Catalog} {type : String} {shape : Shape}
    (hshape : catalog.find? type = some shape) {choices : Choices} {path : List String}
    {innerShape : Shape} {level : Choices}
    (h : levelAt? catalog shape choices path = some (innerShape, level)) :
    ∃ inner, catalog.find? inner = some innerShape := by
  induction path generalizing type shape choices with
  | nil =>
    obtain ⟨rfl, rfl⟩ : shape = innerShape ∧ choices = level := by simpa using h
    exact ⟨type, hshape⟩
  | cons key path ih =>
    rw [levelAt?_cons_eq_bind] at h
    obtain ⟨next, hnext, h⟩ := Option.bind_eq_some_iff.1 h
    obtain ⟨arguments, field, related, -, -, -, hfound⟩ := exists_of_levelAt?_singleton hnext
    exact ih hfound h

/-! ## Projected fields -/

/-- A projection is typed as an object. -/
theorem Projection.exists_expr_eq_object (scalars : ScalarSettings) (projection : Projection) :
    ∃ properties, projection.expr scalars = .object properties true := by
  obtain ⟨shape, fields⟩ := projection
  cases fields with
  | nil => exact ⟨_, rfl⟩
  | cons field rest => exact ⟨_, rfl⟩

/-- Apart from null, the rows of a projection stand in one array layer or in none. -/
theorem Projection.withoutNull_rows (scalars : ScalarSettings) (projection : Projection)
    (list nullable : Bool) :
    (((projection.expr scalars).arrayIf list).nullableIf nullable).withoutNull =
      TypeExpr.array^[if list then 1 else 0] (projection.expr scalars) := by
  obtain ⟨properties, hobject⟩ := projection.exists_expr_eq_object scalars
  rw [TypeExpr.arrayIf_eq_iterate, hobject]
  exact ((TypeExpr.isSingle_object properties true).iterate _).withoutNull_nullableIf nullable

/-- How the type of a projected field is made from the field of the shape: null is set aside, and
the array layers are counted. -/
structure ProjectedField.TypedBy (scalars : ScalarSettings) (declared : ShapeField)
    (field : ProjectedField) : Prop where
  /-- A leaf has a layer for each list of its wire type. -/
  leaf : ∀ wire, field.type = .leaf wire →
    (field.property scalars).value.withoutNull.arrayDepth = declared.wire.listDepth
  /-- The rows of an object field have as many layers as there are lists exactly if the wire type is
  flat. -/
  object : ∀ rows list, field.type = .object rows list → ∃ layers,
    (field.property scalars).value.withoutNull = TypeExpr.array^[layers] (rows.expr scalars) ∧
      (layers = declared.wire.listDepth ↔ declared.wire.IsFlat)
  /-- A page is no array. -/
  connection : ∀ rows, field.type = .connection rows →
    (field.property scalars).value.withoutNull = .generic connectionType [rows.expr scalars]
  /-- Objects of an unknown shape have no type of their rows. -/
  unknown : field.type = .unknown →
    (field.property scalars).value.withoutNull = .named TypeRef.unknownName

/-- The type of a wire type needs no parentheses in a list. -/
theorem ScalarSettings.isSingle_expr (scalars : ScalarSettings) (type : TypeRef) :
    (scalars.expr type).IsSingle := by
  obtain ⟨name, hname⟩ := scalars.exists_expr_base type
  rw [expr_eq_iterate, hname]
  exact (TypeExpr.isSingle_named name).iterate _

namespace Choices

variable {catalog : Catalog} {policy : DefaultPolicy}

/-- One level: each projected field is typed by a field of the shape. -/
theorem typedBy_of_mem_project {shape : Shape}
    (hlist : ∀ name field related list, shape.field? name = some field →
      field.type = .object related list → list = field.wire.isList)
    (scalars : ScalarSettings) {choices : Choices} {projected : ProjectedField}
    (h : projected ∈ (project catalog policy shape choices).fields) :
    ∃ declared, shape.field? projected.name = some declared ∧
      projected.TypedBy scalars declared := by
  obtain ⟨p, -, declared, type, hdeclared, hproject, rfl⟩ := eq_of_mem_projectFields h
  refine ⟨declared, hdeclared, ?_⟩
  have hyields := Choice.yields_of_project? hproject
  constructor
  · rintro wire rfl
    cases hyields with
    | leaf isLeaf =>
      show (scalars.nullableExpr declared.wire).withoutNull.arrayDepth = _
      rw [ScalarSettings.nullableExpr, (scalars.isSingle_expr _).withoutNull_nullableIf,
        scalars.arrayDepth_expr]
  · rintro rows list rfl
    cases hyields with
    | object isObject found =>
      obtain rfl := hlist _ _ _ _ hdeclared isObject
      exact ⟨_, Projection.withoutNull_rows scalars _ _ _, declared.wire.isFlat_iff.symm⟩
  · rintro rows rfl
    exact (TypeExpr.isSingle_generic _ _).withoutNull_nullableIf _
  · rintro rfl
    exact (TypeExpr.isSingle_named _).withoutNull_nullableIf _

end Choices

/-- In the projection of a checked selection from a shape of the schema, the fields at each path are
typed by the fields of the shape that the selection is applied to there. -/
theorem Selection.typedBy_of_at? {schema : Schema} (named : schema.registry.Named)
    {page : PageNames} {type : String} {shape : Shape}
    (hshape : (Catalog.ofSchema schema page).find? type = some shape) {selection : Selection}
    {maxDepth : Nat} (hcheck : selection.check (.ofSchema schema page) maxDepth shape = .ok ())
    (policy : DefaultPolicy) (scalars : ScalarSettings) {path : List String}
    {projection : Projection}
    (hat : (selection.project (.ofSchema schema page) policy shape).at? path = some projection) :
    ∃ innerShape level,
      Choices.levelAt? (.ofSchema schema page) shape selection.choices path =
        some (innerShape, level) ∧
      ∀ field ∈ projection.fields, ∃ declared, innerShape.field? field.name = some declared ∧
        field.TypedBy scalars declared := by
  have legal : Choices.Legal (.ofSchema schema page) maxDepth shape 1 selection.choices :=
    (Choices.check_eq_ok_iff_of_agrees (Choices.agrees_of_mem selection.choices) shape
      [shape.name] 1).1 hcheck
  rw [project, Choices.at?_project legal selection.distinct path] at hat
  obtain ⟨⟨innerShape, level⟩, hlevel, rfl⟩ := Option.map_eq_some_iff.1 hat
  refine ⟨innerShape, level, hlevel, ?_⟩
  intro field hfield
  obtain ⟨inner, hinner⟩ := Choices.exists_find?_of_levelAt? hshape hlevel
  refine Choices.typedBy_of_mem_project ?_ scalars hfield
  intro name declared related list hdeclared isObject
  exact Catalog.list_eq_isList named hinner hdeclared isObject

end GraphClient
