import GraphClient.TypeScript.TypeExpr
import GraphClient.Typing.References

/-!
# Types of wire types

Each reference to a wire type has a type in the client: list wrappers become arrays, required
wrappers leave no trace, and the innermost type is named. Where null has to be allowed, it is added
once, around the whole type.
-/

namespace GraphClient

open TypeScript (TypeExpr)

namespace ScalarSettings

/-- The type of a scalar; one that is not known is typed as the settings say. -/
def scalarName (settings : ScalarSettings) (name : String) : String :=
  match settings.typeName? name with
  | some text => text
  | none =>
    match settings.unknown with
    | .passThrough => name
    | .unknown => TypeRef.unknownName

/-- The type of the values of a reference that are not null. -/
def expr (settings : ScalarSettings) : TypeRef → TypeExpr
  | .nonNull inner => settings.expr inner
  | .list inner => .array (settings.expr inner)
  | .scalar name => .named (settings.scalarName name)
  | .object name | .inputObject name | .enumeration name => .named name
  | .unresolved => .named TypeRef.unknownName

/-- The type of the values of a reference. -/
def nullableExpr (settings : ScalarSettings) (type : TypeRef) : TypeExpr :=
  (settings.expr type).nullableIf (!type.isRequired)

end ScalarSettings

end GraphClient
