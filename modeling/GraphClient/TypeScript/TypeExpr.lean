import GraphClient.TypeScript.Text

/-!
# Types

Type expressions as trees, and how they are written. A parent decides which of its children stand in
parentheses.
-/

namespace GraphClient

namespace TypeScript

mutual

/-- A type. -/
inductive TypeExpr where
  /-- A name, or any text that stands for a type as a whole. -/
  | named (text : String)
  /-- The type of one string. -/
  | literal (value : String)
  /-- A generic type with its arguments. -/
  | generic (name : String) (arguments : List TypeExpr)
  /-- Lists of an element type. -/
  | array (element : TypeExpr)
  | union (members : List TypeExpr)
  | intersection (members : List TypeExpr)
  /-- An object type, on one line or with a line for each property. -/
  | object (properties : List Property) (multiline : Bool)
  /-- The keys of a type. -/
  | keys (type : TypeExpr)
  /-- The type of a property that is looked up by its key. -/
  | index (type : TypeExpr) (key : TypeExpr)
  | tuple (members : List TypeExpr)
  /-- One of two types, by whether the first type fits the bound. -/
  | conditional (checked bound whenTrue whenFalse : TypeExpr)
  /-- An object type with a property for each member of `source`, perhaps under another key. -/
  | mapped (parameter : String) (source : TypeExpr) (remap : Option TypeExpr) (value : TypeExpr)
      (optional : Bool)

/-- A property of an object type or an interface. -/
structure Property where
  key : String
  value : TypeExpr
  optional : Bool
  readonly : Bool
  docs : Option String

end

namespace TypeExpr

instance : Inhabited TypeExpr := ⟨.named ""⟩

/-- The type of the value null. -/
def null : TypeExpr := .named "null"

/-- The members of a union, or the type itself. -/
def unionMembers : TypeExpr → List TypeExpr
  | .union members => members
  | type => [type]

/-- The members of an intersection, or the type itself. -/
def intersectionMembers : TypeExpr → List TypeExpr
  | .intersection members => members
  | type => [type]

/-- The union of two types, without unions directly inside. -/
def or (a b : TypeExpr) : TypeExpr := .union (a.unionMembers ++ b.unionMembers)

/-- The intersection of two types, without intersections directly inside. -/
def and (a b : TypeExpr) : TypeExpr :=
  .intersection (a.intersectionMembers ++ b.intersectionMembers)

/-- The union of a list of types: `never` for none, the type itself for one. -/
def anyOf : List TypeExpr → TypeExpr
  | [] => .named "never"
  | type :: rest => rest.foldl or type

mutual

/-- Whether null is one of the alternatives of a type. -/
def admitsNull : TypeExpr → Bool
  | .named text => text == "null"
  | .union members => anyAdmitsNull members
  | _ => false

/-- Whether one of some types admits null. -/
def anyAdmitsNull : List TypeExpr → Bool
  | [] => false
  | type :: rest => type.admitsNull || anyAdmitsNull rest

end

/-- The type with null as an alternative. -/
def nullable (type : TypeExpr) : TypeExpr := if type.admitsNull then type else type.or null

/-- Adds null as an alternative if a condition holds. -/
def nullableIf (condition : Bool) (type : TypeExpr) : TypeExpr :=
  if condition then type.nullable else type

/-- An array of the type if a condition holds. -/
def arrayIf (condition : Bool) (type : TypeExpr) : TypeExpr :=
  if condition then .array type else type

/-- The number of array layers around a type. -/
def arrayDepth : TypeExpr → Nat
  | .array element => element.arrayDepth + 1
  | _ => 0

/-- Whether the element of an array stands in parentheses. -/
def wrapsInArray : TypeExpr → Bool
  | .union _ | .intersection _ | .conditional .. | .keys _ => true
  | _ => false

/-- Whether a member of a union stands in parentheses, or the bound of a condition. -/
def wrapsInUnion : TypeExpr → Bool
  | .conditional .. => true
  | _ => false

/-- Whether a member of an intersection stands in parentheses. -/
def wrapsInIntersection : TypeExpr → Bool
  | .union _ | .conditional .. => true
  | _ => false

/-- Whether a type that is indexed stands in parentheses. -/
def wrapsInIndex : TypeExpr → Bool
  | .union _ | .intersection _ | .keys _ => true
  | _ => false

/-- A text in parentheses if a condition holds. -/
def wrapIf (condition : Bool) (text : String) : String :=
  if condition then "(" ++ text ++ ")" else text

/-- Puts each property on a line of its own. -/
def propertyLines (properties : List String) : String :=
  String.join (properties.map fun text => "  " ++ Text.indentLines "  " text ++ ";\n")

/-- A property key; one that is no identifier stands between apostrophes. -/
def keyText (key : String) : String := if isIdentifier key then key else apostrophized key

mutual

/-- The text of a type. -/
def text : TypeExpr → String
  | .named text => text
  | .literal value => apostrophized value
  | .generic name arguments => name ++ "<" ++ String.intercalate ", " (texts arguments) ++ ">"
  | .array element => wrapIf element.wrapsInArray element.text ++ "[]"
  | .union members => String.intercalate " | " (unionTexts members)
  | .intersection members => String.intercalate " & " (intersectionTexts members)
  | .object [] _ => "\x7b\x7d"
  | .object (property :: rest) multiline =>
    if multiline then "\x7b\n" ++ propertyLines (propertyTexts (property :: rest)) ++ "\x7d"
    else "\x7b " ++ String.intercalate "; " (propertyTexts (property :: rest)) ++ " \x7d"
  | .keys type => "keyof " ++ type.text
  | .index type key => wrapIf type.wrapsInIndex type.text ++ "[" ++ key.text ++ "]"
  | .tuple members => "[" ++ String.intercalate ", " (texts members) ++ "]"
  | .conditional checked bound whenTrue whenFalse =>
    checked.text ++ " extends " ++ wrapIf bound.wrapsInUnion bound.text ++ " ? " ++
      whenTrue.text ++ " : " ++ whenFalse.text
  | .mapped parameter source remap value optional =>
    "\x7b [" ++ parameter ++ " in " ++ source.text ++ remapText remap ++ "]" ++
      (if optional then "?" else "") ++ ": " ++ value.text ++ " \x7d"

/-- The texts of some types. -/
def texts : List TypeExpr → List String
  | [] => []
  | type :: rest => type.text :: texts rest

/-- The texts of the members of a union. -/
def unionTexts : List TypeExpr → List String
  | [] => []
  | type :: rest => wrapIf type.wrapsInUnion type.text :: unionTexts rest

/-- The texts of the members of an intersection. -/
def intersectionTexts : List TypeExpr → List String
  | [] => []
  | type :: rest => wrapIf type.wrapsInIntersection type.text :: intersectionTexts rest

/-- The key under which a mapped type puts a property. -/
def remapText : Option TypeExpr → String
  | none => ""
  | some key => " as " ++ key.text

/-- The texts of some properties. -/
def propertyTexts : List Property → List String
  | [] => []
  | property :: rest => propertyText property :: propertyTexts rest

/-- The text of a property, its comment first. -/
def propertyText : Property → String
  | ⟨key, value, optional, readonly, docs⟩ =>
    docComment? docs ++ (if readonly then "readonly " else "") ++ keyText key ++
      (if optional then "?" else "") ++ ": " ++ value.text

end

/-! The lists of texts are those of the parts, one by one. -/

theorem texts_eq_map (types : List TypeExpr) : texts types = types.map text := by
  induction types with
  | nil => rfl
  | cons type rest ih => rw [texts, ih, List.map_cons]

theorem unionTexts_eq_map (types : List TypeExpr) :
    unionTexts types = types.map fun type => wrapIf type.wrapsInUnion type.text := by
  induction types with
  | nil => rfl
  | cons type rest ih => rw [unionTexts, ih, List.map_cons]

theorem intersectionTexts_eq_map (types : List TypeExpr) :
    intersectionTexts types = types.map fun type => wrapIf type.wrapsInIntersection type.text := by
  induction types with
  | nil => rfl
  | cons type rest ih => rw [intersectionTexts, ih, List.map_cons]

theorem propertyTexts_eq_map (properties : List Property) :
    propertyTexts properties = properties.map propertyText := by
  induction properties with
  | nil => rfl
  | cons property rest ih => rw [propertyTexts, ih, List.map_cons]

end TypeExpr

namespace Property

instance : Inhabited Property := ⟨⟨"", .named "", false, false, none⟩⟩

/-- A property that is always there. -/
def plain (key : String) (value : TypeExpr) : Property := ⟨key, value, false, false, none⟩

/-- A property that may be missing. -/
def possible (key : String) (value : TypeExpr) : Property := ⟨key, value, true, false, none⟩

/-- A property that may be missing if a condition holds. -/
def possibleIf (condition : Bool) (key : String) (value : TypeExpr) : Property :=
  ⟨key, value, condition, false, none⟩

/-- The property with a comment. -/
def withDocs (property : Property) (docs : Option String) : Property := { property with docs }

/-- The text of a property, its comment first. -/
def text (property : Property) : String := TypeExpr.propertyText property

end Property

end TypeScript

end GraphClient
