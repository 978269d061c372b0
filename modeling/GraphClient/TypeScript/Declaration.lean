import GraphClient.TypeScript.TypeExpr

/-!
# Declarations

Interfaces and type aliases, with their type parameters and comments.
-/

namespace GraphClient

namespace TypeScript

/-- A type parameter, with a bound and a default. -/
structure TypeParameter where
  name : String
  bound : Option TypeExpr := none
  default : Option TypeExpr := none
deriving Inhabited

/-- The text of a type parameter. -/
def TypeParameter.text (parameter : TypeParameter) : String :=
  parameter.name ++ (parameter.bound.elim "" fun bound => " extends " ++ bound.text) ++
    (parameter.default.elim "" fun default => " = " ++ default.text)

/-- The text of a list of type parameters. -/
def parametersText (parameters : List TypeParameter) : String :=
  if parameters.isEmpty then ""
  else "<" ++ String.intercalate ", " (parameters.map (·.text)) ++ ">"

/-- What a declaration says about its name. -/
inductive DeclarationBody where
  | interface (parents : List TypeExpr) (properties : List Property)
  | typeAlias (definition : TypeExpr)
deriving Inhabited

/-- A declaration of a type. -/
structure Declaration where
  name : String
  parameters : List TypeParameter := []
  body : DeclarationBody
  docs : Option String := none
deriving Inhabited

namespace Declaration

/-- An interface. -/
def interface (name : String) (properties : List Property) (docs : Option String := none) :
    Declaration := { name, body := .interface [] properties, docs }

/-- An interface that extends a type. -/
def extending (name : String) (parent : TypeExpr) (properties : List Property) : Declaration :=
  { name, body := .interface [parent] properties }

/-- A type alias. -/
def typeAlias (name : String) (definition : TypeExpr) (docs : Option String := none) :
    Declaration :=
  { name, body := .typeAlias definition, docs }

/-- The declaration with type parameters. -/
def withParameters (declaration : Declaration) (parameters : List TypeParameter) : Declaration :=
  { declaration with parameters }

/-- The properties of an interface. -/
def properties (declaration : Declaration) : List Property :=
  match declaration.body with
  | .interface _ properties => properties
  | .typeAlias _ => []

/-- The text of a declaration without its comment. -/
def bareText (declaration : Declaration) : String :=
  let head := declaration.name ++ parametersText declaration.parameters
  match declaration.body with
  | .interface parents properties =>
    "interface " ++ head ++
      (if parents.isEmpty then ""
        else " extends " ++ String.intercalate ", " (parents.map (·.text))) ++
      (if properties.isEmpty then " \x7b\x7d"
        else " \x7b\n" ++ TypeExpr.propertyLines (properties.map (·.text)) ++ "\x7d")
  | .typeAlias definition => "type " ++ head ++ " = " ++ definition.text ++ ";"

/-- The text of a declaration. The comment stands above the word that exports it. -/
def text (declaration : Declaration) (exported : Bool) : String :=
  docComment? declaration.docs ++ (if exported then "export " else "") ++ declaration.bareText

end Declaration

end TypeScript

end GraphClient
