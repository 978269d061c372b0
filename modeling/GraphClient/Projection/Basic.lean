import GraphClient.Selection.Default

/-!
# Projections

The shape of the answer to a selection. Keys that are no fields of the shape leave no trace; a
relation that is wanted without a selection of its own is projected by the default selection of the
related shape.

* `Projection`, `ProjectedField`, `ProjectedType` : the trees.
* `Selection.project` : the projection of a selection onto a shape.
-/

namespace GraphClient

mutual

/-- What a projected field holds. -/
inductive ProjectedType where
  | leaf (wire : TypeRef)
  /-- An object, or a list of them. -/
  | object (projection : Projection) (list : Bool)
  /-- A page of objects. -/
  | connection (projection : Projection)
  /-- An object whose shape is not in the catalog. -/
  | unknown

/-- A field of an answer. -/
structure ProjectedField where
  name : String
  type : ProjectedType
  nullable : Bool
  arguments : PageArguments

/-- The fields that are selected from a shape. -/
structure Projection where
  shape : String
  fields : List ProjectedField

end

instance : Inhabited Projection := ⟨⟨"", []⟩⟩

namespace Projection

/-- The names of the projected fields. -/
def fieldNames (projection : Projection) : List String := projection.fields.map (·.name)

/-- Whether no field is projected. -/
def isEmpty (projection : Projection) : Bool := projection.fields.isEmpty

end Projection

namespace ShapeField

/-- The projection of a field, where `project` projects the related shape. -/
def projected (catalog : Catalog) (field : ShapeField) (project : Shape → Projection) :
    ProjectedType :=
  match field.type with
  | .leaf => .leaf field.wire
  | .object shape list =>
    match catalog.find? shape with
    | some related => .object (project related) list
    | none => .unknown
  | .connection node =>
    match catalog.find? node with
    | some related => .connection (project related)
    | none => .unknown

/-- The arguments that a projected field keeps: those of a page. -/
def keptArguments (field : ShapeField) (choice : Choice) : PageArguments :=
  match choice, field.type with
  | .nested _ arguments, .connection _ => arguments
  | _, _ => {}

end ShapeField

namespace Shape

/-- The projection of a list of leaves of a shape. -/
def projectLeaves (shape : Shape) (names : List String) : Projection :=
  ⟨shape.name, names.filterMap fun name =>
    (shape.field? name).map fun field => ⟨name, .leaf field.wire, field.nullable, {}⟩⟩

/-- The projection of the default selection of a shape. -/
def projectDefault (policy : DefaultPolicy) (shape : Shape) : Projection :=
  shape.projectLeaves (Selection.defaultFor shape policy).keys

end Shape

mutual

/-- The projected fields of the keys of a level. -/
def Choices.projectFields (catalog : Catalog) (policy : DefaultPolicy) (shape : Shape) :
    List (String × Choice) → List ProjectedField
  | [] => []
  | (key, choice) :: rest =>
    match shape.field? key with
    | none => Choices.projectFields catalog policy shape rest
    | some field =>
      match Choice.project? catalog policy field choice with
      | none => Choices.projectFields catalog policy shape rest
      | some type =>
        ⟨key, type, field.nullable, field.keptArguments choice⟩ ::
          Choices.projectFields catalog policy shape rest

/-- The projection of a field by what is said about it; none for an excluded field. -/
def Choice.project? (catalog : Catalog) (policy : DefaultPolicy) (field : ShapeField) :
    Choice → Option ProjectedType
  | .excluded => none
  | .wanted => some (field.projected catalog (Shape.projectDefault policy))
  | .nested choices _ =>
    some (field.projected catalog fun related =>
      ⟨related.name, Choices.projectFields catalog policy related choices⟩)

end

/-- The projection of the choices of a level onto a shape. -/
def Choices.project (catalog : Catalog) (policy : DefaultPolicy) (shape : Shape)
    (choices : Choices) : Projection := ⟨shape.name, projectFields catalog policy shape choices⟩

/-- The projection of a selection onto a shape. -/
def Selection.project (catalog : Catalog) (policy : DefaultPolicy) (shape : Shape)
    (selection : Selection) : Projection := Choices.project catalog policy shape selection.choices

end GraphClient
