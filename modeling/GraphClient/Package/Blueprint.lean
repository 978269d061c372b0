import GraphClient.CacheKey.Store
import GraphClient.Package.Definitions
import GraphClient.Shape.Catalog

/-!
# Blueprints

What all files of a client are made from: the schema and the settings, and the catalog and the key
store that follow from them.
-/

namespace GraphClient

/-- What the files of a client are made from. -/
structure Blueprint where
  schema : Schema
  settings : Settings
  catalog : Catalog
  keys : KeyStore
deriving Inhabited

namespace Blueprint

/-- The blueprint of a schema with some settings. -/
def of (schema : Schema) (settings : Settings) : Blueprint where
  schema := schema
  settings := settings
  catalog := .ofSchema schema settings.page
  keys := .of settings.keys.parents schema.tables (schema.queries.map (·.name))
    (schema.mutations.map (·.name))

/-- The names of page fields and arguments. -/
def page (blueprint : Blueprint) : PageNames := blueprint.settings.page

/-- How scalars are typed. -/
def scalars (blueprint : Blueprint) : ScalarSettings := blueprint.settings.scalars

/-- Whether cache keys are made in shared files. -/
def sharesKeys (blueprint : Blueprint) : Bool := blueprint.settings.keys.style == .centralized

/-- Whether mutation keys are made in a shared file. -/
def sharesMutationKeys (blueprint : Blueprint) : Bool :=
  blueprint.sharesKeys && blueprint.settings.keys.mutationKeys

/-- The definitions that some names need, apart from those that are defined already. -/
def definitions (blueprint : Blueprint) (defined : NameSet) (roots : List String) : Definitions :=
  .of blueprint.schema.registry blueprint.scalars defined roots

end Blueprint

/-- The header of a generated file. -/
def fileHeader (description : String) : String :=
  "/**\n * " ++ description ++ "\n *\n * @generated by graphql-client-codegen\n" ++
    " * DO NOT EDIT. Changes are overwritten on the next run.\n */"

end GraphClient
