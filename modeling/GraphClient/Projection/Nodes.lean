import GraphClient.Document.Basic
import GraphClient.Projection.Basic

/-!
# Fields of projections

The fields that a document selects to get the answer of a projection. A page is asked for its number
of rows and for the rows themselves. Where no field is projected, the name of the type is selected,
as an object needs a field.
-/

namespace GraphClient

/-- The field that every object has. -/
def FieldNode.typename : FieldNode := .leaf "__typename"

/-- The arguments of a page in a document, under the names that pages use. -/
def PageArguments.literals (page : PageNames) (arguments : PageArguments) :
    List (String × Literal) :=
  (arguments.first.toList.map fun (first : Nat) => ("first", Literal.int first)) ++
    (arguments.filter.toList.map fun filter => (page.filter, Literal.ofJson filter)) ++
    (arguments.orderBy.toList.map fun values =>
      (page.order, Literal.list (values.map Literal.enumeration)))

mutual

/-- The fields that a projection selects. -/
def Projection.nodes (page : PageNames) : Projection → List FieldNode
  | ⟨_, []⟩ => [.typename]
  | ⟨_, field :: rest⟩ => ProjectedField.nodes page (field :: rest)

/-- The fields that some projected fields select. -/
def ProjectedField.nodes (page : PageNames) : List ProjectedField → List FieldNode
  | [] => []
  | field :: rest => ProjectedField.node page field :: ProjectedField.nodes page rest

/-- The field that a projected field selects. -/
def ProjectedField.node (page : PageNames) : ProjectedField → FieldNode
  | ⟨name, .leaf _, _, _⟩ => .leaf name
  | ⟨name, .object projection _, _, _⟩ => .withSelection name (projection.nodes page)
  | ⟨name, .connection projection, _, arguments⟩ =>
    ⟨name, arguments.literals page,
      [.leaf page.count, .withSelection page.rows (projection.nodes page)]⟩
  | ⟨name, .unknown, _, _⟩ => .withSelection name [.typename]

end

theorem ProjectedField.mem_nodes_iff {page : PageNames} {fields : List ProjectedField}
    {node : FieldNode} :
    node ∈ ProjectedField.nodes page fields ↔ ∃ field ∈ fields, field.node page = node := by
  induction fields with
  | nil => simp [ProjectedField.nodes]
  | cons field rest ih => simp [ProjectedField.nodes, ih, eq_comm]

/-- A projection with fields selects one field for each of them. -/
theorem Projection.mem_nodes_iff {page : PageNames} {projection : Projection}
    (h : projection.fields ≠ []) {node : FieldNode} :
    node ∈ projection.nodes page ↔ ∃ field ∈ projection.fields, field.node page = node := by
  obtain ⟨shape, fields⟩ := projection
  cases fields with
  | nil => exact absurd rfl h
  | cons field rest =>
    rw [Projection.nodes]
    exact ProjectedField.mem_nodes_iff

end GraphClient
