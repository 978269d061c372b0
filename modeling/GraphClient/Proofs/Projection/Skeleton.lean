import GraphClient.Projection.Nodes
import GraphClient.Projection.Typed

/-!
# One answer, selected and typed

A projection is turned into the fields that a document selects, and into the type of the answer.
Both describe the same answer: level by level they have the same names in the same order, and
whatever stands below a name in the document stands below it in the type as well.

* `Projection.Describe`, `ProjectedField.Describes`, `ProjectedType.Describe` : fields and a type
  with the skeleton of a projection, by rules.
* `Projection.nodes_and_expr_describe` : the fields and the type of a projection are such.
-/

namespace GraphClient

open TypeScript (TypeExpr Property)

mutual

/-- Some selected fields and an object type describe the answer of a projection. -/
inductive Projection.Describe (page : PageNames) (scalars : ScalarSettings) :
    Projection → List FieldNode → TypeExpr → Prop
  /-- Where nothing is projected, the name of the type stands alone on both sides. -/
  | typename {shape : String} {multiline : Bool} :
      Projection.Describe page scalars ⟨shape, []⟩ [.leaf "__typename"]
        (.object [.plain "__typename" (.named "string")] multiline)
  /-- Otherwise there is one field and one property for each projected field. -/
  | fields {shape : String} {fields : List ProjectedField} {nodes : List FieldNode}
      {properties : List Property} {multiline : Bool} (nonempty : fields ≠ [])
      (each : ProjectedField.DescribeEach page scalars fields nodes properties) :
      Projection.Describe page scalars ⟨shape, fields⟩ nodes (.object properties multiline)

/-- Selected fields and properties describe projected fields, one by one in their order. -/
inductive ProjectedField.DescribeEach (page : PageNames) (scalars : ScalarSettings) :
    List ProjectedField → List FieldNode → List Property → Prop
  | nil : ProjectedField.DescribeEach page scalars [] [] []
  | cons {field : ProjectedField} {node : FieldNode} {property : Property}
      {fields : List ProjectedField} {nodes : List FieldNode} {properties : List Property}
      (head : ProjectedField.Describes page scalars field node property)
      (tail : ProjectedField.DescribeEach page scalars fields nodes properties) :
      ProjectedField.DescribeEach page scalars (field :: fields) (node :: nodes)
        (property :: properties)

/-- A selected field and a property describe a projected field: both go by its name, and the
selection of the one and the type of the other describe what the field holds. -/
inductive ProjectedField.Describes (page : PageNames) (scalars : ScalarSettings) :
    ProjectedField → FieldNode → Property → Prop
  | intro {name : String} {type : ProjectedType} {nullable : Bool} {kept : PageArguments}
      {arguments : List (String × Literal)} {selection : List FieldNode} {value : TypeExpr}
      (held : ProjectedType.Describe page scalars type nullable selection value) :
      ProjectedField.Describes page scalars ⟨name, type, nullable, kept⟩
        ⟨name, arguments, selection⟩ (.plain name value)

/-- A selection and a type describe what a field holds. -/
inductive ProjectedType.Describe (page : PageNames) (scalars : ScalarSettings) :
    ProjectedType → Bool → List FieldNode → TypeExpr → Prop
  /-- A leaf has no selection, and its wire type alone tells whether it may be null. -/
  | leaf {wire : TypeRef} {nullable : Bool} :
      ProjectedType.Describe page scalars (.leaf wire) nullable [] (scalars.nullableExpr wire)
  /-- An object is selected between braces, and typed by its own type, perhaps as an array or with
  null. -/
  | object {projection : Projection} {list nullable : Bool} {selection : List FieldNode}
      {row : TypeExpr} (nonempty : selection ≠ [])
      (inner : Projection.Describe page scalars projection selection row) :
      ProjectedType.Describe page scalars (.object projection list) nullable selection
        ((row.arrayIf list).nullableIf nullable)
  /-- A page is selected by its number of rows and the rows, and typed by the type of the rows. -/
  | connection {projection : Projection} {nullable : Bool} {selection : List FieldNode}
      {row : TypeExpr} (nonempty : selection ≠ [])
      (inner : Projection.Describe page scalars projection selection row) :
      ProjectedType.Describe page scalars (.connection projection) nullable
        [.leaf page.count, .withSelection page.rows selection]
        ((TypeExpr.generic "ConnectionResult" [row]).nullableIf nullable)
  /-- Of an object without a known shape only the name of its type is selected. -/
  | unknown {nullable : Bool} :
      ProjectedType.Describe page scalars .unknown nullable [.leaf "__typename"]
        ((TypeExpr.named "unknown").nullableIf nullable)

end

variable {page : PageNames} {scalars : ScalarSettings}

/-! ## What the rules say about one level -/

/-- The keys of an object type. -/
def TypeScript.TypeExpr.propertyKeys : TypeExpr → List String
  | .object properties _ => properties.map (·.key)
  | _ => []

/-- Fields and properties have the names of the projected fields. -/
theorem ProjectedField.DescribeEach.names_eq {fields : List ProjectedField}
    {nodes : List FieldNode} {properties : List Property}
    (h : DescribeEach page scalars fields nodes properties) :
    nodes.map (·.name) = fields.map (·.name) ∧
      properties.map (·.key) = fields.map (·.name) := by
  induction fields generalizing nodes properties with
  | nil =>
    cases h
    exact ⟨rfl, rfl⟩
  | cons field fields ih =>
    cases h with
    | cons head tail =>
      cases head
      obtain ⟨hnodes, hproperties⟩ := ih tail
      exact ⟨congrArg _ hnodes, congrArg _ hproperties⟩

/-- A level has the same names in the same order on both sides. -/
theorem Projection.Describe.names_eq {projection : Projection} {nodes : List FieldNode}
    {type : TypeExpr} (h : projection.Describe page scalars nodes type) :
    nodes.map (·.name) = type.propertyKeys := by
  cases h with
  | typename => rfl
  | fields nonempty each => exact each.names_eq.1.trans each.names_eq.2.symm

/-- What a field holds has no selection exactly if it is a leaf. -/
theorem ProjectedType.Describe.selection_eq_nil_iff {type : ProjectedType} {nullable : Bool}
    {selection : List FieldNode} {value : TypeExpr}
    (h : type.Describe page scalars nullable selection value) :
    selection = [] ↔ ∃ wire, type = .leaf wire := by
  cases h with
  | leaf => simp
  | object nonempty inner => simp [nonempty]
  | connection => simp
  | unknown => simp

/-! ## All levels -/

/-- A projection never selects nothing, so an object's field has a selection. -/
theorem Projection.nodes_ne_nil : ∀ projection : Projection, projection.nodes page ≠ []
  | ⟨_, []⟩ => by simp [Projection.nodes]
  | ⟨_, field :: rest⟩ => by simp [Projection.nodes, ProjectedField.nodes]

mutual

theorem Projection.describe : ∀ projection : Projection,
    projection.Describe page scalars (projection.nodes page) (projection.expr scalars)
  | ⟨shape, []⟩ => .typename
  | ⟨shape, field :: rest⟩ => .fields (by simp) (ProjectedField.describeEach (field :: rest))

theorem ProjectedField.describeEach : ∀ fields : List ProjectedField,
    ProjectedField.DescribeEach page scalars fields (ProjectedField.nodes page fields)
      (ProjectedField.properties scalars fields)
  | [] => .nil
  | field :: rest => .cons (ProjectedField.describes field) (ProjectedField.describeEach rest)

theorem ProjectedField.describes : ∀ field : ProjectedField,
    field.Describes page scalars (field.node page) (field.property scalars)
  | ⟨_, .leaf _, _, _⟩ => .intro .leaf
  | ⟨_, .object projection _, _, _⟩ =>
    .intro (.object projection.nodes_ne_nil projection.describe)
  | ⟨_, .connection projection, _, _⟩ =>
    .intro (.connection projection.nodes_ne_nil projection.describe)
  | ⟨_, .unknown, _, _⟩ => .intro .unknown

end

/-- The fields that a projection selects and the type of its answer describe that answer on all
levels: the same names stand in the same order on each level, and at any level a field has no
selection exactly if a leaf is projected there. -/
theorem Projection.nodes_and_expr_describe (page : PageNames) (scalars : ScalarSettings)
    (projection : Projection) :
    projection.Describe page scalars (projection.nodes page) (projection.expr scalars) ∧
      (projection.nodes page).map (·.name) = (projection.expr scalars).propertyKeys ∧
      ∀ field : ProjectedField,
        (field.node page).selection = [] ↔ ∃ wire, field.type = .leaf wire := by
  have hdescribe : projection.Describe page scalars _ _ := projection.describe
  refine ⟨hdescribe, hdescribe.names_eq, fun field => ?_⟩
  have hfield : field.Describes page scalars _ (field.property scalars) := field.describes
  generalize field.node page = node at hfield ⊢
  cases hfield with
  | intro held => exact held.selection_eq_nil_iff

end GraphClient
