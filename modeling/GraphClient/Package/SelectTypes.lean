import GraphClient.Package.Blueprint
import GraphClient.Projection.Typed

/-!
# The file of selection types

The types of pages, and the types that infer the shape of an answer from a selection and check a
selection against the shape of an entity. The check descends a bounded number of levels: a tuple of
depths is indexed by each depth to get the next smaller one, and ends in `never`.
-/

namespace GraphClient

open TypeScript (TypeExpr Property TypeParameter Declaration Item SourceFile)

namespace SelectTypes

/-- A type by its name. -/
def named (name : String) : TypeExpr := .named name

/-- The information about a page. -/
def pageInfo : Declaration :=
  .interface "PageInfo" [.plain "hasNextPage" (named "boolean"),
    .plain "hasPreviousPage" (named "boolean"),
    .plain "startCursor" (named "string").nullable,
    .plain "endCursor" (named "string").nullable]

/-- A page of rows. -/
def connection (page : PageNames) : Declaration :=
  Declaration.withParameters
    (.interface connectionType
      [.plain page.rows (.array (named "T")), .plain page.count (named "number"),
        .possible page.info (named "PageInfo")]
      (some "A page of `T` rows."))
    [{ name := "T" }]

/-- The depths by which the check descends: `never` at zero, and below each depth the next smaller
one. -/
def depthEntries (maxDepth : Nat) : List TypeExpr :=
  named "never" :: (List.range maxDepth).map fun depth => named (toString depth)

/-- The tuple of depths. -/
def strictDepth (maxDepth : Nat) : Declaration :=
  .typeAlias "StrictDepth" (.tuple (depthEntries maxDepth))

/-- The object type with the property `select`. -/
def selectOf (inner : TypeExpr) : TypeExpr := .object [.plain "select" inner] false

/-- Lists, written out. -/
def arrayOf (element : TypeExpr) : TypeExpr := .generic "Array" [element]

/-- Pages of an element type. -/
def pageOf (element : TypeExpr) : TypeExpr := .generic connectionType [element]

/-- What a selection says about a key. -/
def selected : TypeExpr := .index (named "TSelect") (named "K")

/-- The rows behind a relation. -/
def relationNode : Declaration :=
  let present := TypeExpr.generic "NonNullable" [named "T"]
  Declaration.withParameters
    (.typeAlias "RelationNode"
      (.conditional present (pageOf (named "infer N")) (named "N")
        (.conditional present (arrayOf (named "infer E")) (named "E") present)))
    [{ name := "T" }]

/-- The check of a nested selection, one level further down. -/
def strictNested : TypeExpr :=
  (TypeExpr.generic "Omit" [selected, .literal "select"]).and
    (selectOf (.generic "StrictSelect"
      [named "S", .generic "RelationNode" [.index (named "TShape") (named "K")],
        .index (named "StrictDepth") (named "TDepth")]))

/-- The check of a key. -/
def strictField : TypeExpr :=
  .conditional (named "K") (.keys (named "TShape"))
    (.conditional selected (selectOf (named "infer S")) strictNested selected) (named "never")

/-- The check of a selection. -/
def strictSelect (maxDepth : Nat) : Declaration :=
  Declaration.withParameters
    (.typeAlias "StrictSelect"
      (.conditional (.tuple [named "TDepth"]) (.tuple [named "never"]) (named "TSelect")
        (.mapped "K" (.keys (named "TSelect")) none strictField false))
      (some ("Maps keys of `TSelect` that are not fields of `TShape` to `never`, " ++
        toString maxDepth ++ " levels deep.")))
    [{ name := "TSelect" }, { name := "TShape" },
      { name := "TDepth", bound := some (named "number"),
        default := some (named (toString maxDepth)) }]

/-- The answer to a nested selection. -/
def projectRelation : Declaration :=
  let inferred (entity : String) : TypeExpr :=
    .generic "InferSelectResult" [named entity, named "S"]
  Declaration.withParameters
    (.typeAlias "ProjectRelation"
      (.conditional (named "T") .null .null
        (.conditional (named "T") (pageOf (named "infer N")) (pageOf (inferred "N"))
          (.conditional (named "T") (arrayOf (named "infer E")) (arrayOf (inferred "E"))
            (inferred "T")))))
    [{ name := "T" }, { name := "S" }]

/-- The answer to what a selection says about a key. -/
def inferredField : TypeExpr :=
  let entityField := TypeExpr.index (named "TEntity") (named "K")
  .conditional (named "K") (.keys (named "TEntity"))
    (.conditional selected (selectOf (named "infer S"))
      (.generic "ProjectRelation" [entityField, named "S"]) entityField)
    (named "never")

/-- The answer to a selection; excluded keys are dropped. -/
def inferSelectResult : Declaration :=
  Declaration.withParameters
    (.typeAlias "InferSelectResult"
      (.mapped "K" (.keys (named "TSelect"))
        (some (.conditional selected ((named "false").or (named "undefined")) (named "never")
          (named "K")))
        inferredField false)
      (some "The result shape of selecting `TSelect` from `TEntity`."))
    [{ name := "TEntity" }, { name := "TSelect" }]

/-- The file of selection types. -/
def file (blueprint : Blueprint) : SourceFile :=
  let maxDepth := blueprint.settings.selection.strictDepth
  { header := some (fileHeader "Selection helper types")
    items :=
      [.exported pageInfo, .exported (connection blueprint.page), .hidden (strictDepth maxDepth),
        .hidden relationNode, .exported (strictSelect maxDepth), .hidden projectRelation,
        .exported inferSelectResult] }

end SelectTypes

end GraphClient
