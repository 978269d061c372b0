import GraphClient.Package.Basic
import GraphClient.Proofs.Request.Layout
import GraphClient.Proofs.Traversal

/-!
# Why a package cannot be made

The one thing that can go wrong is a configured selection that the strict check rejects: that of a
custom operation, or that of a table. Every look-up on the way succeeds: a table has its shape in
the catalog and its factory in the key store, a template binds without values, and its document has
a place for the selection of its accessor.

* `CustomOperation.Rejected`, `Table.Rejected` : a configured selection is rejected.
* `Package.FailsWith` : which rejected selection is reported, and how.
* `Package.fails_iff_rejected` : a package fails exactly with these errors.
-/

namespace GraphClient

/-! ## Rejected selections -/

/-- A configured selection does not fit the shape with a name. -/
structure Settings.Rejects (settings : Settings) (catalog : Catalog)
    (configured : Option Selection) (name : String) (shape : Shape) (violation : Violation) :
    Prop where
  found : catalog.find? name = some shape
  rejected : ∃ selection, configured = some selection ∧
    selection.check catalog settings.selection.strictDepth shape = .error violation

/-- The selection that is configured for a table does not fit the shape of the table. -/
def Table.Rejected (catalog : Catalog) (settings : Settings) (table : Table) (shape : Shape)
    (violation : Violation) : Prop :=
  settings.Rejects catalog (settings.selection.entities.find? table.name) table.name shape violation

/-- The selection that is configured for a custom operation does not fit the shape of its answer,
which is an object of a known shape. -/
def CustomOperation.Rejected (catalog : Catalog) (settings : Settings)
    (operation : CustomOperation) (shape : Shape) (violation : Violation) : Prop :=
  operation.returnType.baseKind = .object ∧
    settings.Rejects catalog (settings.selection.operations.find? operation.name)
      operation.returnType.baseName shape violation

/-- What is reported for a table: why its selection is rejected. -/
def Table.FailsWith (catalog : Catalog) (settings : Settings) (table : Table)
    (error : RequestError) : Prop :=
  ∃ shape violation, table.Rejected catalog settings shape violation ∧
    error = .invalidSelection shape.name violation

/-- What is reported for a custom operation: its name, and why its selection is rejected. -/
def CustomOperation.FailsWith (catalog : Catalog) (settings : Settings)
    (operation : CustomOperation) (error : RequestError) : Prop :=
  ∃ shape violation, operation.Rejected catalog settings shape violation ∧
    error = .customOperation operation.name (.invalidSelection shape.name violation)

/-- Whatever is rejected is reported in some way. -/
theorem exists_reported_iff {rejected : Shape → Violation → Prop}
    (report : Shape → Violation → RequestError) :
    (∃ error shape violation, rejected shape violation ∧ error = report shape violation) ↔
      ∃ shape violation, rejected shape violation := by
  constructor
  · rintro ⟨error, shape, violation, h, -⟩
    exact ⟨shape, violation, h⟩
  · rintro ⟨shape, violation, h⟩
    exact ⟨_, shape, violation, h, rfl⟩

/-- A table fails exactly if its configured selection is rejected. -/
theorem Table.exists_failsWith_iff (catalog : Catalog) (settings : Settings) (table : Table) :
    (∃ error, table.FailsWith catalog settings error) ↔
      ∃ shape violation, table.Rejected catalog settings shape violation :=
  exists_reported_iff _

/-- A custom operation fails exactly if its configured selection is rejected. -/
theorem CustomOperation.exists_failsWith_iff (catalog : Catalog) (settings : Settings)
    (operation : CustomOperation) :
    (∃ error, operation.FailsWith catalog settings error) ↔
      ∃ shape violation, operation.Rejected catalog settings shape violation :=
  exists_reported_iff _

namespace Request

variable {catalog : Catalog} {settings : Settings} {name : String} {shape : Shape}

/-- Without a selection of the caller, only a configured selection can be wrong. -/
theorem chosen_none_eq_error_iff (found : catalog.find? name = some shape)
    (configured : Option Selection) (default : Selection) (error : RequestError) :
    chosen catalog settings shape none configured default = .error error ↔
      ∃ shape violation, settings.Rejects catalog configured name shape violation ∧
        error = .invalidSelection shape.name violation := by
  constructor
  · intro h
    cases configured with
    | none => cases h
    | some selection =>
      cases hcheck : selection.check catalog settings.selection.strictDepth shape with
      | ok u => simp [chosen, checked, hcheck] at h
      | error violation =>
        obtain rfl : .invalidSelection shape.name violation = error := by
          simpa [chosen, checked, hcheck] using h
        exact ⟨shape, violation, ⟨found, selection, rfl, hcheck⟩, rfl⟩
  · rintro ⟨shape', violation, ⟨found', selection, rfl, hcheck⟩, rfl⟩
    obtain rfl : shape = shape' := Option.some.inj (found.symm.trans found')
    simp [chosen, checked, hcheck]

/-- The rows of a table without a selection of the caller. -/
theorem rowProjection_none_eq_error_iff {table : Table}
    (found : catalog.find? table.name = some shape) (error : RequestError) :
    rowProjection catalog settings table none = .error error ↔
      table.FailsWith catalog settings error := by
  have hshape : shapeOf catalog table = .ok shape := by rw [shapeOf, found]
  rw [rowProjection, hshape]
  exact (bind_pure_eq_error_iff _ _).trans (chosen_none_eq_error_iff found _ _ error)

/-- The answer of a custom operation without a selection of the caller. -/
theorem answerProjection?_none_eq_error_iff (operation : CustomOperation) (error : RequestError) :
    answerProjection? catalog settings operation none = .error error ↔
      ∃ shape violation, operation.Rejected catalog settings shape violation ∧
        error = .invalidSelection shape.name violation := by
  -- Nothing is checked where the answer is no object, or its shape is not known.
  have hnone : answerProjection? catalog settings operation none = .ok none →
      (∀ shape violation, ¬ operation.Rejected catalog settings shape violation) →
      (answerProjection? catalog settings operation none = .error error ↔
        ∃ shape violation, operation.Rejected catalog settings shape violation ∧
          error = .invalidSelection shape.name violation) := by
    intro hok hnot
    rw [hok]
    exact ⟨nofun, fun ⟨shape, violation, rejected, _⟩ => absurd rejected (hnot shape violation)⟩
  by_cases hkind : operation.returnType.baseKind = .object
  · cases hfound : catalog.find? operation.returnType.baseName with
    | none =>
      refine hnone (by simp [answerProjection?, hkind, hfound]) fun shape violation rejected => ?_
      simpa [hfound] using rejected.2.found
    | some shape =>
      have hchosen : answerProjection? catalog settings operation none = .error error ↔
          chosen catalog settings shape none
            (settings.selection.operations.find? operation.name)
            (Selection.allScalars catalog shape settings.selection.customDepth) =
              .error error := by
        simp only [answerProjection?, hkind, hfound]
        exact bind_pure_eq_error_iff _ _
      rw [hchosen, chosen_none_eq_error_iff hfound]
      simp only [CustomOperation.Rejected, hkind, true_and]
  · refine hnone (by simp [answerProjection?, hkind]) fun shape violation rejected => ?_
    exact hkind rejected.1

/-- The template of a custom operation fails as its answer does. -/
theorem custom_none_eq_error_iff (operation : CustomOperation) (error : RequestError) :
    custom catalog settings operation none none = .error error ↔
      answerProjection? catalog settings operation none = .error error := by
  rw [custom_none_eq]
  cases answerProjection? catalog settings operation none with
  | error cause =>
    exact ⟨fun h => congrArg _ (Except.error.inj h), fun h => congrArg _ (Except.error.inj h)⟩
  | ok projection =>
    constructor
    · intro h
      cases h
    · intro h
      cases h

end Request

/-! ## Templates -/

/-- The templates of some custom operations fail with the first one that does. -/
theorem CustomFiles.fragments_eq_error_iff (blueprint : Blueprint)
    (operations : List CustomOperation) (error : RequestError) :
    fragments blueprint operations = .error error ↔
      FirstOf (CustomOperation.FailsWith blueprint.catalog blueprint.settings) operations
        error := by
  rw [fragments, mapM_eq_error_iff]
  refine FirstOf.congr (fun operation _ result => ?_) error
  rw [map_eq_error_iff, mapError_eq_error_iff]
  simp only [Request.custom_none_eq_error_iff, Request.answerProjection?_none_eq_error_iff]
  constructor
  · rintro ⟨cause, ⟨shape, violation, rejected, rfl⟩, rfl⟩
    exact ⟨shape, violation, rejected, rfl⟩
  · rintro ⟨shape, violation, rejected, rfl⟩
    exact ⟨_, ⟨shape, violation, rejected, rfl⟩, rfl⟩

/-- The templates can be made if none of them fails. -/
theorem CustomFiles.exists_fragments_iff (blueprint : Blueprint)
    (operations : List CustomOperation) :
    (∃ made, fragments blueprint operations = .ok made) ↔
      ∀ operation ∈ operations, ∀ error,
        ¬ operation.FailsWith blueprint.catalog blueprint.settings error := by
  rw [exists_ok_iff, ← FirstOf.forall_not_iff]
  exact forall_congr' fun error => not_congr (fragments_eq_error_iff blueprint operations error)

namespace Call

/-- Where the rows of a call stand in its answer. -/
def position : Call → RowPosition
  | findMany .. => .page
  | findFirst .. => .first
  | findOne .. | custom .. => .single
  | create .. | update .. | delete .. => .payload

/-- The accessor opens the document where the rows of the call stand. -/
theorem openPath_position (call : Call) (page : PageNames) (path : List String) :
    Accessor.openPath page call.position path = call.rowsPath page path := by
  cases call <;> rfl

variable {catalog : Catalog} {settings : Settings} {selection : Option Selection} {call : Call}
  {table : Table} {projection : Projection}

/-- Where the rows of a table have a projection, every template of the table can be made. -/
theorem exists_template (htable : call.table? = some table)
    (hrows : Request.rowProjection catalog settings table selection = .ok projection) :
    ∃ template answer, call.template catalog settings selection = .ok template ∧
      template.projection = some answer := by
  cases call with
  | custom => cases htable
  | delete =>
    obtain rfl := (Option.some.inj htable).symm
    obtain ⟨deleted, hdeleted⟩ : ∃ deleted,
        Request.deletedProjection catalog settings table selection = .ok deleted := by
      obtain ⟨shape, hshape, -⟩ := exists_of_bind_eq_ok hrows
      rw [Request.deletedProjection]
      cases settings.deleteAnswer with
      | entity => exact ⟨projection, hrows⟩
      | key =>
        rw [hshape]
        exact ⟨_, rfl⟩
    rw [template, Request.delete, hdeleted]
    exact ⟨_, _, rfl, rfl⟩
  | findMany | findFirst | findOne | create | update =>
    obtain rfl := (Option.some.inj htable).symm
    simp only [template, Request.findMany, Request.findFirst, Request.findOne, Request.create,
      Request.update, hrows]
    exact ⟨_, _, rfl, rfl⟩

/-- Such a template has a place for the selection of its accessor. -/
theorem exists_opened (call : Call) (htable : call.table? = some table)
    (hrows : Request.rowProjection catalog settings table selection = .ok projection) :
    ∃ template, call.template catalog settings selection >>=
      Accessor.opened settings.page call.position = .ok template := by
  obtain ⟨template, answer, h, hanswer⟩ := exists_template htable hrows
  obtain ⟨field, hfield⟩ := (laidOut (.inr h) hanswer).exists_fieldAt?_rowsPath
  refine ⟨template, ?_⟩
  rw [h]
  show Accessor.opened settings.page call.position template = .ok template
  rw [Accessor.opened, openPath_position, hfield]

end Call

/-- The templates of a table fail as its rows do. -/
theorem TableTemplates.of_eq_error_iff (blueprint : Blueprint) (table : Table)
    (error : RequestError) :
    TableTemplates.of blueprint table = .error error ↔
      Request.rowProjection blueprint.catalog blueprint.settings table none = .error error := by
  cases hrows : Request.rowProjection blueprint.catalog blueprint.settings table none with
  | error cause =>
    have hall : Request.findMany blueprint.catalog blueprint.settings table none none =
        .error cause := by
      rw [Request.findMany, hrows]
      rfl
    rw [TableTemplates.of, hall]
    exact ⟨fun h => congrArg _ (Except.error.inj h), fun h => congrArg _ (Except.error.inj h)⟩
  | ok projection =>
    -- One template after the other can be made, and has a place for its hole.
    obtain ⟨all, hall⟩ := Call.exists_opened (.findMany table {}) rfl hrows
    obtain ⟨first, hfirst⟩ := Call.exists_opened (.findFirst table {}) rfl hrows
    obtain ⟨one, hone⟩ := Call.exists_opened (.findOne table .null) rfl hrows
    obtain ⟨create, hcreate⟩ := Call.exists_opened (.create table .null) rfl hrows
    obtain ⟨update, hupdate⟩ := Call.exists_opened (.update table (some .null) none rfl) rfl hrows
    obtain ⟨delete, hdelete⟩ := Call.exists_opened (.delete table .null) rfl hrows
    have hof : TableTemplates.of blueprint table =
        .ok ⟨all, first, one, create, update, delete⟩ := by
      refine (bind_eq_of_eq_ok hall).trans ?_
      refine (bind_eq_of_eq_ok hfirst).trans ?_
      refine (bind_eq_of_eq_ok hone).trans ?_
      refine (bind_eq_of_eq_ok hcreate).trans ?_
      refine (bind_eq_of_eq_ok hupdate).trans ?_
      exact bind_eq_of_eq_ok hdelete
    rw [hof]
    simp only [reduceCtorEq]

/-- The files of some tables fail with the first table that does. -/
theorem TableFiles.all_eq_error_iff (schema : Schema) (settings : Settings)
    (error : RequestError) :
    TableFiles.all (.of schema settings) = .error error ↔
      FirstOf (Table.FailsWith (.ofSchema schema settings.page) settings) schema.tables error := by
  rw [TableFiles.all, mapM_eq_error_iff]
  refine FirstOf.congr (fun table htable result => ?_) error
  obtain ⟨factory, hfactory⟩ := KeyStore.exists_factory?_of_mem htable settings.keys.parents
    (schema.queries.map (·.name)) (schema.mutations.map (·.name))
  obtain ⟨shape, hshape⟩ := Catalog.exists_find?_of_mem htable settings.page
  have hkeys : (Blueprint.of schema settings).keys.factory? table.entityKey = some factory :=
    hfactory
  simp only [hkeys]
  rw [map_eq_error_iff, TableTemplates.of_eq_error_iff]
  exact Request.rowProjection_none_eq_error_iff hshape result

/-! ## Packages -/

namespace Package

/-- What is reported for a package: the first custom operation with a rejected selection, queries
before mutations, or else the first such table. -/
inductive FailsWith (schema : Schema) (settings : Settings) : RequestError → Prop
  | operation {error : RequestError}
      (first : FirstOf (CustomOperation.FailsWith (.ofSchema schema settings.page) settings)
        (schema.queries ++ schema.mutations) error) : FailsWith schema settings error
  | table {error : RequestError}
      (operations : ∀ operation ∈ schema.queries ++ schema.mutations, ∀ error,
        ¬ operation.FailsWith (.ofSchema schema settings.page) settings error)
      (first : FirstOf (Table.FailsWith (.ofSchema schema settings.page) settings)
        schema.tables error) : FailsWith schema settings error

variable (schema : Schema) (settings : Settings)

/-- The steps to a package: the custom queries, the custom mutations, the tables. -/
theorem eq_error_iff_steps (error : RequestError) :
    Package.of schema settings = .error error ↔
      CustomFiles.fragments (.of schema settings) schema.queries = .error error ∨
      (∃ queries, CustomFiles.fragments (.of schema settings) schema.queries = .ok queries) ∧
        (CustomFiles.fragments (.of schema settings) schema.mutations = .error error ∨
        (∃ mutations,
            CustomFiles.fragments (.of schema settings) schema.mutations = .ok mutations) ∧
          TableFiles.all (.of schema settings) = .error error) := by
  rw [Package.of, map_eq_error_iff, Parts.of, bind_eq_error_iff]
  simp only [bind_eq_error_iff, pure, Except.pure, reduceCtorEq, and_false, exists_false, or_false,
    exists_and_right]

/-- The steps fail with what is to be reported. -/
theorem eq_error_iff_failsWith (error : RequestError) :
    Package.of schema settings = .error error ↔ FailsWith schema settings error := by
  rw [eq_error_iff_steps, CustomFiles.exists_fragments_iff, CustomFiles.exists_fragments_iff,
    CustomFiles.fragments_eq_error_iff, CustomFiles.fragments_eq_error_iff,
    TableFiles.all_eq_error_iff]
  constructor
  · rintro (first | ⟨queries, first | ⟨mutations, first⟩⟩)
    · exact .operation ((FirstOf.append_iff _ _ _).2 (.inl first))
    · exact .operation ((FirstOf.append_iff _ _ _).2 (.inr ⟨queries, first⟩))
    · exact .table (List.forall_mem_append.2 ⟨queries, mutations⟩) first
  · rintro (first | ⟨operations, first⟩)
    · rcases (FirstOf.append_iff _ _ _).1 first with first | ⟨queries, first⟩
      · exact .inl first
      · exact .inr ⟨queries, .inl first⟩
    · obtain ⟨queries, mutations⟩ := List.forall_mem_append.1 operations
      exact .inr ⟨queries, .inr ⟨mutations, first⟩⟩

/-- There is something to report exactly if a configured selection is rejected. -/
theorem exists_failsWith_iff :
    (∃ error, FailsWith schema settings error) ↔
      (∃ operation ∈ schema.queries ++ schema.mutations, ∃ error,
        operation.FailsWith (.ofSchema schema settings.page) settings error) ∨
      ∃ table ∈ schema.tables, ∃ error,
        table.FailsWith (.ofSchema schema settings.page) settings error := by
  rw [← FirstOf.exists_iff, ← FirstOf.exists_iff]
  constructor
  · rintro ⟨error, first | ⟨-, first⟩⟩
    · exact .inl ⟨error, first⟩
    · exact .inr ⟨error, first⟩
  · rintro (⟨error, first⟩ | ⟨error, first⟩)
    · exact ⟨error, .operation first⟩
    · -- A rejected operation is reported in place of the table.
      by_cases hoperation : ∃ error,
          FirstOf (CustomOperation.FailsWith (.ofSchema schema settings.page) settings)
            (schema.queries ++ schema.mutations) error
      · obtain ⟨error, first⟩ := hoperation
        exact ⟨error, .operation first⟩
      · exact ⟨error, .table ((FirstOf.forall_not_iff _).1 (not_exists.1 hoperation)) first⟩

/-- Where no selection is configured, none is rejected, and the parts of a package can be made. -/
theorem exists_parts_of_unconfigured
    (operations : ∀ name, settings.selection.operations.find? name = none)
    (entities : ∀ name, settings.selection.entities.find? name = none) :
    ∃ parts, Parts.of schema settings = .ok parts := by
  cases hparts : Parts.of schema settings with
  | ok parts => exact ⟨parts, rfl⟩
  | error error =>
    have hfails : FailsWith schema settings error := by
      rw [← eq_error_iff_failsWith, Package.of, hparts]
      rfl
    rcases (exists_failsWith_iff schema settings).1 ⟨error, hfails⟩ with
      ⟨operation, -, _, _, _, rejected, -⟩ | ⟨table, -, _, _, _, rejected, -⟩
    · obtain ⟨selection, hselection, -⟩ := rejected.2.rejected
      rw [operations] at hselection
      cases hselection
    · obtain ⟨selection, hselection, -⟩ := rejected.rejected
      rw [entities] at hselection
      cases hselection

/-- A package cannot be made exactly if the selection that is configured for a custom operation or a
table is rejected. The error is then that of the first custom query, else of the first custom
mutation, else of the first table with such a selection, and there is no other kind of error. -/
theorem fails_iff_rejected :
    ((∃ error, Package.of schema settings = .error error) ↔
      (∃ operation ∈ schema.queries ++ schema.mutations, ∃ shape violation,
        operation.Rejected (.ofSchema schema settings.page) settings shape violation) ∨
      ∃ table ∈ schema.tables, ∃ shape violation,
        table.Rejected (.ofSchema schema settings.page) settings shape violation) ∧
    (∀ error, Package.of schema settings = .error error ↔ FailsWith schema settings error) ∧
    ∀ error, Package.of schema settings = .error error →
      (∃ entity violation, error = .invalidSelection entity violation) ∨
        ∃ name entity violation,
          error = .customOperation name (.invalidSelection entity violation) := by
  refine ⟨?_, eq_error_iff_failsWith schema settings, ?_⟩
  · simp only [eq_error_iff_failsWith, exists_failsWith_iff, CustomOperation.exists_failsWith_iff,
      Table.exists_failsWith_iff]
  · intro error h
    cases (eq_error_iff_failsWith schema settings error).1 h with
    | operation first =>
      obtain ⟨-, operation, -, -, -, shape, violation, -, rfl⟩ := first
      exact .inr ⟨operation.name, shape.name, violation, rfl⟩
    | table _ first =>
      obtain ⟨-, table, -, -, -, shape, violation, -, rfl⟩ := first
      exact .inl ⟨shape.name, violation, rfl⟩

end Package

end GraphClient
