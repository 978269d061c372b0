import GraphClient.Projection.Basic
import GraphClient.Typing.Resolve

/-!
# Types of projections

The type of the answer to a selection, the names that this type mentions, and whether it contains
pages. A projection without fields has the name of its type as its only property.
-/

namespace GraphClient

open TypeScript (TypeExpr Property)

/-- The generic type of a page of rows. -/
def connectionType : String := "ConnectionResult"

/-- The property that every object has. -/
def typenameProperty : Property := .plain "__typename" (.named "string")

mutual

/-- The type of the objects of a projection. -/
def Projection.expr (scalars : ScalarSettings) : Projection → TypeExpr
  | ⟨_, []⟩ => .object [typenameProperty] true
  | ⟨_, field :: rest⟩ => .object (ProjectedField.properties scalars (field :: rest)) true

/-- The properties of some projected fields. -/
def ProjectedField.properties (scalars : ScalarSettings) : List ProjectedField → List Property
  | [] => []
  | field :: rest => ProjectedField.property scalars field :: ProjectedField.properties scalars rest

/-- The property of a projected field. -/
def ProjectedField.property (scalars : ScalarSettings) : ProjectedField → Property
  | ⟨name, type, nullable, _⟩ => .plain name (ProjectedType.expr scalars nullable type)

/-- The type of a projected field. A leaf is typed by its wire type alone. -/
def ProjectedType.expr (scalars : ScalarSettings) (nullable : Bool) : ProjectedType → TypeExpr
  | .leaf wire => scalars.nullableExpr wire
  | .object projection list =>
    ((Projection.expr scalars projection).arrayIf list).nullableIf nullable
  | .connection projection =>
    (TypeExpr.generic connectionType [Projection.expr scalars projection]).nullableIf nullable
  | .unknown => (TypeExpr.named "unknown").nullableIf nullable

end

mutual

/-- The named types that the type of a projection mentions. -/
def Projection.mentions : Projection → List String
  | ⟨_, fields⟩ => ProjectedField.allMentions fields

/-- The named types that the types of some projected fields mention. -/
def ProjectedField.allMentions : List ProjectedField → List String
  | [] => []
  | field :: rest => ProjectedField.mentions field ++ ProjectedField.allMentions rest

/-- The named types that the type of a projected field mentions. -/
def ProjectedField.mentions : ProjectedField → List String
  | ⟨_, type, _, _⟩ => ProjectedType.mentions type

/-- The named types that a projected type mentions. -/
def ProjectedType.mentions : ProjectedType → List String
  | .leaf wire => wire.mentions
  | .object projection _ => projection.mentions
  | .connection projection => projection.mentions
  | .unknown => []

end

mutual

/-- Whether the type of a projection contains a page. -/
def Projection.hasConnections : Projection → Bool
  | ⟨_, fields⟩ => ProjectedField.anyHasConnections fields

/-- Whether the type of one of some projected fields contains a page. -/
def ProjectedField.anyHasConnections : List ProjectedField → Bool
  | [] => false
  | field :: rest =>
    ProjectedField.hasConnections field || ProjectedField.anyHasConnections rest

/-- Whether the type of a projected field contains a page. -/
def ProjectedField.hasConnections : ProjectedField → Bool
  | ⟨_, type, _, _⟩ => ProjectedType.hasConnections type

/-- Whether a projected type contains a page. -/
def ProjectedType.hasConnections : ProjectedType → Bool
  | .connection _ => true
  | .object projection _ => projection.hasConnections
  | .leaf _ | .unknown => false

end

end GraphClient
