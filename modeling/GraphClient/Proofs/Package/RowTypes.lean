import GraphClient.Proofs.Package.Resolution
import GraphClient.Proofs.Projection.Lists

/-!
# Lists in the answers of a package

Whether an answer is typed as an array is decided at the outer wrappers of a wire type, for the
fields of a projection as well as for the answers of custom operations. A list inside a list, or one
under two non-null wrappers, has no array layer of its own there, while a leaf has all of them.

* `Package.row_lists_iff` : which answers have an array layer for each list.
-/

namespace GraphClient

open TypeScript (TypeExpr)

/-- An answer that is projected from a known shape is typed by its rows, in one array layer if its
wire type looks like a list. -/
theorem CustomFiles.withoutNull_resultType (scalars : ScalarSettings) (operation : CustomOperation)
    (projection : Projection) :
    (resultType scalars operation (some projection)).withoutNull =
      TypeExpr.array^[if operation.returnType.isList then 1 else 0] (projection.expr scalars) :=
  projection.withoutNull_rows scalars _ _

namespace Request

/-- The answer of a custom operation is projected if it is an object of a known shape. -/
theorem exists_projection_of_custom {catalog : Catalog} {settings : Settings}
    {operation : CustomOperation} {selection : Option Selection} {values : Option (Entries Json)}
    {request : Request} (h : custom catalog settings operation selection values = .ok request)
    (object : operation.returnType.baseKind = .object) {shape : Shape}
    (hshape : catalog.find? operation.returnType.baseName = some shape) :
    ∃ projection, request.projection = some projection := by
  obtain ⟨binding, -, h⟩ := exists_of_bind_eq_ok h
  obtain ⟨answer, hanswer, h⟩ := exists_of_bind_eq_ok h
  obtain rfl := Except.ok.inj h
  rw [answerProjection?, if_neg (by simp [object]), hshape] at hanswer
  obtain ⟨chosen, -, hanswer⟩ := exists_of_bind_eq_ok hanswer
  exact ⟨_, (Except.ok.inj hanswer).symm⟩

end Request

namespace Package

/-- The file of a custom operation exports the type of its answer, with the root field as the only
property. -/
theorem exists_result_of_operation {schema : Schema} {settings : Settings} {package : Package}
    (h : of schema settings = .ok package) {directory : String} {operation : CustomOperation}
    (hoperation : schema.OperationIn directory operation) :
    ∃ template, Request.custom (.ofSchema schema settings.page) settings operation none none =
        .ok template ∧
      ∃ artifact ∈ package.artifacts, artifact.path = Place.inside directory operation.name ∧
        .exported (.interface (OperationNames.ofField operation.name operation.kind).result
          [.plain operation.name
            (CustomFiles.resultType settings.scalars operation template.projection)]) ∈
              artifact.file.items := by
  obtain ⟨parts, hparts, rfl⟩ := exists_parts_of_eq_ok h
  obtain ⟨template, htemplate, hartifact⟩ :=
    Parts.exists_artifact_of_operationIn (Parts.isOf_of_eq_ok hparts) hoperation
  refine ⟨template, htemplate, _, hartifact, rfl, ?_⟩
  show _ ∈ (CustomFiles.fragment (.of schema settings) operation template).items
  simp [CustomFiles.fragment, Fragment.answer, Blueprint.of, Blueprint.scalars]

/-- Which answers have an array layer for each list of their wire types: at each path of the
projection of a checked selection, all leaves have them, and an object field has them exactly if its
wire type is flat; and so it is for the answer of a custom operation that is an object of a known
shape. -/
theorem row_lists_iff {schema : Schema} (named : schema.registry.Named) (settings : Settings) :
    (∀ type shape, (Catalog.ofSchema schema settings.page).find? type = some shape →
      ∀ (selection : Selection) maxDepth,
        selection.check (.ofSchema schema settings.page) maxDepth shape = .ok () →
        ∀ policy path projection,
          (selection.project (.ofSchema schema settings.page) policy shape).at? path =
            some projection →
          ∃ innerShape level,
            Choices.levelAt? (.ofSchema schema settings.page) shape selection.choices path =
              some (innerShape, level) ∧
            ∀ field ∈ projection.fields, ∃ declared,
              innerShape.field? field.name = some declared ∧
                field.TypedBy settings.scalars declared) ∧
    ∀ package, of schema settings = .ok package → ∀ directory operation,
      schema.OperationIn directory operation → operation.returnType.baseKind = .object →
        ∀ shape, (Catalog.ofSchema schema settings.page).find? operation.returnType.baseName =
          some shape →
        ∃ artifact ∈ package.artifacts, artifact.path = Place.inside directory operation.name ∧
          ∃ type, .exported (.interface
              (OperationNames.ofField operation.name operation.kind).result
              [.plain operation.name type]) ∈ artifact.file.items ∧
            ∃ (projection : Projection) (layers : Nat),
              type.withoutNull = TypeExpr.array^[layers] (projection.expr settings.scalars) ∧
                (layers = operation.returnType.listDepth ↔ operation.returnType.IsFlat) := by
  constructor
  · intro type shape hshape selection maxDepth hcheck policy path projection hat
    exact Selection.typedBy_of_at? named hshape hcheck policy settings.scalars hat
  · intro package h directory operation hoperation object shape hshape
    obtain ⟨template, htemplate, artifact, hartifact, hpath, hitem⟩ :=
      exists_result_of_operation h hoperation
    obtain ⟨projection, hprojection⟩ :=
      Request.exists_projection_of_custom htemplate object hshape
    rw [hprojection] at hitem
    exact ⟨artifact, hartifact, hpath, _, hitem, projection, _,
      CustomFiles.withoutNull_resultType _ _ _, operation.returnType.isFlat_iff.symm⟩

end Package

namespace Sample

/-- A board has a header of cells, and rows of cells. -/
def boardSchema : Schema where
  queries := [{ name := "header", kind := .query, returnType := .list (.object "Cell") },
    { name := "grid", kind := .query, returnType := .list (.list (.object "Cell")) }]
  registry := .ofList [
    ⟨"Board", .object [
      { name := "header", type := .nonNull (.list (.nonNull (.object "Cell"))) },
      { name := "grid", type := .list (.list (.object "Cell")) }], none⟩,
    ⟨"Cell", .object [{ name := "label", type := .scalar "String" }], none⟩]

/-- The labels of all cells. -/
def boardSelection : Selection :=
  (Selection.empty.nest "header" (.ofFields ["label"])).nest "grid" (.ofFields ["label"])

/-- The header of a board keeps its list, as a field and as an answer. -/
theorem header_keeps_list : boardSchema.registry.Named ∧
    (∃ shape, (Catalog.ofSchema boardSchema {}).find? "Board" = some shape ∧
      boardSelection.check (.ofSchema boardSchema {}) 2 shape = .ok () ∧
      ∃ header cells list,
        header ∈ (boardSelection.project (.ofSchema boardSchema {}) .primaryKey shape).fields ∧
        header.type = .object cells list ∧
        (header.property {}).value.withoutNull = .array (cells.expr {})) ∧
    ∃ package, Package.of boardSchema {} = .ok package ∧
      ∃ artifact ∈ package.artifacts, artifact.path = "custom-queries/header.ts" ∧
        ∃ type, .exported (.interface "HeaderQueryResult" [.plain "header" type]) ∈
            artifact.file.items ∧
          ∃ cells : Projection, type.withoutNull = .array (cells.expr {}) := by
  have named : boardSchema.registry.Named := TypeRegistry.named_ofList _
  obtain ⟨hfields, hanswers⟩ := Package.row_lists_iff named {}
  refine ⟨named, ?_, ?_⟩
  · obtain ⟨innerShape, level, hlevel, htyped⟩ :=
      hfields "Board" _ rfl boardSelection 2 rfl .primaryKey [] _ rfl
    cases hlevel
    obtain ⟨declared, hdeclared, typed⟩ := htyped _ List.mem_cons_self
    cases hdeclared
    obtain ⟨layers, hvalue, hlayers⟩ := typed.object _ _ rfl
    obtain rfl : layers = 1 := hlayers.2 (.inr ⟨rfl, rfl⟩)
    exact ⟨_, rfl, rfl, _, _, _, List.mem_cons_self, rfl, hvalue⟩
  · obtain ⟨parts, hparts⟩ : ∃ parts, Package.Parts.of boardSchema {} = .ok parts :=
      Package.exists_parts_of_unconfigured _ _ (fun _ => rfl) (fun _ => rfl)
    have h := Package.of_eq_ok hparts
    obtain ⟨artifact, hartifact, hpath, type, hitem, cells, layers, htype, hlayers⟩ :=
      hanswers _ h _ _ (.query List.mem_cons_self) rfl _ rfl
    obtain rfl : layers = 1 := hlayers.2 (.inr ⟨rfl, rfl⟩)
    exact ⟨_, h, artifact, hartifact, hpath, type, hitem, cells, htype⟩

/-- The grid of a board has two lists and is typed by one array layer, as a field of a checked
selection and as an answer. -/
theorem grid_loses_list :
    (∃ shape declared grid cells list,
      (Catalog.ofSchema boardSchema {}).find? "Board" = some shape ∧
      boardSelection.check (.ofSchema boardSchema {}) 2 shape = .ok () ∧
      grid ∈ (boardSelection.project (.ofSchema boardSchema {}) .primaryKey shape).fields ∧
      shape.field? grid.name = some declared ∧ declared.wire.listDepth = 2 ∧
      grid.type = .object cells list ∧
      (grid.property {}).value.withoutNull = .array (cells.expr {})) ∧
    ∃ operation ∈ boardSchema.queries, operation.returnType.listDepth = 2 ∧
      ∃ template cells, Request.custom (.ofSchema boardSchema {}) {} operation none none =
          .ok template ∧
        template.projection = some cells ∧
        (CustomFiles.resultType {} operation template.projection).withoutNull =
          .array (cells.expr {}) :=
  ⟨⟨_, _, _, _, _, rfl, rfl, List.mem_cons_of_mem _ List.mem_cons_self, rfl, rfl, rfl, rfl⟩,
    _, List.mem_cons_of_mem _ List.mem_cons_self, rfl, _, _, rfl, rfl, rfl⟩

end Sample

end GraphClient
