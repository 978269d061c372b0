import GraphClient.Proofs.Naming.Forms
import GraphClient.Proofs.Package.Imports
import Mathlib.Data.List.Pairwise

/-!
# What the files of operations export

The file of an operation exports names that are made from those of the operation. The file of the
lists of a table has a second operation, that for the first row. A file that stands in for the
client, because it is called `client` as well, therefore cannot stand in for it: it has no function
that executes requests.

* `ExportedOperation` : an operation with its role in a client.
* `ExportedOperation.nodup_coreNames_iff` : when the names of some operations are distinct, apart
  from their accessors.
* `TableFiles.exportedNames_list` and others : what the files of operations export.
* `Package.Parts.Operation.hasNoExecutor` : that none of these names is `execute`.
-/

namespace GraphClient

open Text (EndsIn)

/-- The role of an operation in a client. -/
inductive OperationRole where
  /-- An operation on a table has an accessor, and hooks if they are wanted. -/
  | table
  /-- The query for the first row of a list has an accessor, and a type for the row. -/
  | firstRow
  /-- A custom operation has hooks if they are wanted. -/
  | custom
deriving DecidableEq

/-- An operation with its role in a client. -/
structure ExportedOperation where
  names : OperationNames
  role : OperationRole
deriving DecidableEq

namespace ExportedOperation

/-- The forms of the names that an operation has in any case. -/
def ownForms (operation : ExportedOperation) : List NameForm :=
  [.document, .variablesType, .result] ++
    (if operation.role = .firstRow then [.row] else []) ++ [.function]

/-- The forms of the names for the hooks of an operation. -/
def hookForms (hooks : Bool) (operation : ExportedOperation) : List NameForm :=
  if hooks && operation.role != .firstRow then
    match operation.names.kind with
    | .query => [.hook, .prefetch]
    | .mutation => [.hook]
  else []

/-- The forms of the names that are exported for an operation. -/
def forms (hooks : Bool) (operation : ExportedOperation) : List NameForm :=
  operation.ownForms ++ operation.hookForms hooks

/-- The names that are exported for an operation, apart from that of its accessor. -/
def coreNames (hooks : Bool) (operation : ExportedOperation) : List String :=
  (operation.forms hooks).map operation.names.named

/-- The name of the accessor of an operation, if it has one. -/
def accessors (operation : ExportedOperation) : List String :=
  if operation.role = .custom then [] else [operation.names.accessor]

/-- The names that are exported for an operation, in the order of its file. -/
def exportedNames (hooks : Bool) (operation : ExportedOperation) : List String :=
  operation.ownForms.map operation.names.named ++ operation.accessors ++
    (operation.hookForms hooks).map operation.names.named

variable {hooks : Bool} {a b : ExportedOperation}

/-- The exports of an operation are its forms and its accessor, in another order. -/
theorem exportedNames_perm (operation : ExportedOperation) :
    List.Perm (operation.exportedNames hooks)
      (operation.coreNames hooks ++ operation.accessors) := by
  rw [exportedNames, coreNames, forms, List.map_append, List.append_assoc, List.append_assoc]
  exact List.perm_append_comm.append_left _

/-- Every operation exports its document. -/
theorem document_mem_forms (operation : ExportedOperation) :
    .document ∈ operation.forms hooks := List.mem_cons_self

/-- Every operation exports the function that sends it. -/
theorem function_mem_forms (operation : ExportedOperation) :
    .function ∈ operation.forms hooks :=
  List.mem_append_left _ (List.mem_append_right _ List.mem_cons_self)

/-- Only a query is fetched ahead. -/
theorem kind_eq_of_prefetch_mem (h : .prefetch ∈ a.forms hooks) : a.names.kind = .query := by
  obtain ⟨⟨base, kind⟩, role⟩ := a
  cases kind with
  | query => rfl
  | mutation => cases role <;> cases hooks <;> simp [forms, ownForms, hookForms] at h

/-- There are hooks only where the settings want them. -/
theorem hooks_of_hook_mem (h : .hook ∈ a.forms hooks) : hooks = true := by
  obtain ⟨names, role⟩ := a
  cases hooks with
  | true => rfl
  | false => cases role <;> simp [forms, ownForms, hookForms] at h

/-- A mutation that is not there for the first row of a list has a hook if hooks are wanted. -/
theorem hook_mem_forms (hkind : a.names.kind = .mutation)
    (firstRow : a.role = .firstRow → a.names.kind = .query) : .hook ∈ a.forms true := by
  obtain ⟨⟨base, kind⟩, role⟩ := a
  obtain rfl : kind = .mutation := hkind
  cases role with
  | table | custom => exact List.mem_append_right _ List.mem_cons_self
  | firstRow => cases firstRow rfl

/-- Some operations can be told apart, up to the case of their first letters, and no mutation has a
function that is called like a hook. -/
structure Apart (hooks : Bool) (operations : List ExportedOperation) : Prop where
  camel : (operations.map (·.names.camel)).Nodup
  hook : hooks = true → ∀ a ∈ operations, ∀ b ∈ operations, a.names.kind = .mutation →
    b.names.kind = .mutation → a.names.camel ≠ b.names.hook

/-- A name that two operations export. -/
theorem Apart.eq_of_named_eq {operations : List ExportedOperation} (h : Apart hooks operations)
    (ha : a ∈ operations) (hb : b ∈ operations) {form form' : NameForm}
    (hform : form ∈ a.forms hooks) (hform' : form' ∈ b.forms hooks)
    (heq : a.names.named form = b.names.named form') :
    form = form' ∧ a.names.camel = b.names.camel := by
  have hprefetch : form = .prefetch → a.names.kind = .query := by
    rintro rfl
    exact kind_eq_of_prefetch_mem hform
  have hprefetch' : form' = .prefetch → b.names.kind = .query := by
    rintro rfl
    exact kind_eq_of_prefetch_mem hform'
  rcases OperationNames.named_eq_named hprefetch hprefetch' heq with hsame | hclash
  · exact hsame
  · cases hclash with
    | functionHook hka hkb =>
      rw [OperationNames.named_function_of_mutation hka] at heq
      exact absurd heq (h.hook (hooks_of_hook_mem hform') a ha b hb hka hkb)
    | hookFunction hka hkb =>
      rw [OperationNames.named_function_of_mutation hkb] at heq
      exact absurd heq.symm (h.hook (hooks_of_hook_mem hform) b hb a ha hkb hka)

/-- No form of a name occurs twice. -/
theorem nodup_forms (operation : ExportedOperation) : (operation.forms hooks).Nodup := by
  obtain ⟨⟨base, kind⟩, role⟩ := operation
  cases role <;> cases kind <;> cases hooks <;> simp [forms, ownForms, hookForms]

/-- The names of all forms are exported. -/
theorem named_mem_coreNames {form : NameForm} (h : form ∈ a.forms hooks) :
    a.names.named form ∈ a.coreNames hooks := List.mem_map_of_mem h

/-- Operations whose names are distinct can be told apart. -/
theorem apart_of_nodup_coreNames {operations : List ExportedOperation}
    (firstRow : ∀ a ∈ operations, a.role = .firstRow → a.names.kind = .query)
    (h : (operations.flatMap (·.coreNames hooks)).Nodup) : Apart hooks operations := by
  obtain ⟨hown, hdisjoint⟩ := List.nodup_flatMap.1 h
  constructor
  · -- Operations of one name in camel case have documents of one name.
    refine List.pairwise_map.2 (hdisjoint.imp fun {a b} hab heq => ?_)
    refine hab (named_mem_coreNames a.document_mem_forms) ?_
    have hsame : a.names.named .document = b.names.named .document :=
      congrArg (· ++ "Document") heq
    rw [hsame]
    exact named_mem_coreNames b.document_mem_forms
  · rintro rfl a ha b hb hka hkb heq
    have hhook : .hook ∈ b.forms true := hook_mem_forms hkb (firstRow b hb)
    have hsame : a.names.named .function = b.names.named .hook :=
      (OperationNames.named_function_of_mutation hka).trans heq
    by_cases hab : a = b
    · subst hab
      have hforms := List.inj_on_of_nodup_map (hown a ha) a.function_mem_forms hhook hsame
      cases hforms
    · have symm : Std.Symm (Function.onFun List.Disjoint (coreNames true)) :=
        ⟨fun _ _ disjoint _ h h' => disjoint h' h⟩
      exact hdisjoint.forall ha hb hab (named_mem_coreNames a.function_mem_forms)
        (hsame ▸ named_mem_coreNames hhook)

/-- The names of operations that can be told apart are distinct. -/
theorem Apart.nodup_coreNames {operations : List ExportedOperation}
    (h : Apart hooks operations) : (operations.flatMap (·.coreNames hooks)).Nodup := by
  refine List.nodup_flatMap.2 ⟨fun a ha => ?_, ?_⟩
  · exact a.nodup_forms.map_on fun form hform form' hform' heq =>
      (h.eq_of_named_eq ha ha hform hform' heq).1
  · refine (List.pairwise_map.1 h.camel).imp_of_mem fun {a b} ha hb hne => ?_
    refine List.disjoint_left.2 fun name hname hname' => ?_
    obtain ⟨form, hform, rfl⟩ := List.mem_map.1 hname
    obtain ⟨form', hform', heq⟩ := List.mem_map.1 hname'
    exact hne (h.eq_of_named_eq ha hb hform hform' heq.symm).2

/-- The names of some operations are distinct, apart from their accessors, exactly if the operations
can be told apart. -/
theorem nodup_coreNames_iff {operations : List ExportedOperation}
    (firstRow : ∀ a ∈ operations, a.role = .firstRow → a.names.kind = .query) :
    (operations.flatMap (·.coreNames hooks)).Nodup ↔ Apart hooks operations :=
  ⟨apart_of_nodup_coreNames firstRow, Apart.nodup_coreNames⟩

end ExportedOperation

/-! ## The parts of files -/

namespace Fragment

/-- The names that the items of a part export. -/
def exportedNames (fragment : Fragment) : List String := fragment.items.flatMap (·.exportedNames)

/-- Two fragments export what each of them does. -/
@[simp] theorem exportedNames_append (a b : Fragment) :
    (a ++ b).exportedNames = a.exportedNames ++ b.exportedNames := by
  rw [exportedNames, items_append, List.flatMap_append]
  rfl

/-- Imports export nothing. -/
@[simp] theorem exportedNames_importing (imports : TypeScript.ImportSet) :
    (importing imports).exportedNames = [] := rfl

/-- Imports export nothing, be they wanted or not. -/
@[simp] theorem exportedNames_when_importing (condition : Bool) (imports : TypeScript.ImportSet) :
    (when condition (.importing imports)).exportedNames = [] := by
  cases condition <;> rfl

/-- A document exports its constant and the type of its variables. -/
@[simp] theorem exportedNames_document (scalars : ScalarSettings) (names : OperationNames)
    (document : Document) :
    (Fragment.document scalars names document).exportedNames =
      [names.named .document, names.named .variablesType] := by
  have hname : (variablesType scalars names document).name = names.variablesType := by
    rw [variablesType]
    split <;> rfl
  simp [Fragment.document, exportedNames, TypeScript.Item.exportedNames, TypeScript.Item.exported,
    documentConstant, hname, OperationNames.named]

/-- An answer exports its type. -/
@[simp] theorem exportedNames_answer (names : OperationNames) (field : String)
    (type : TypeScript.TypeExpr) :
    (Fragment.answer names field type).exportedNames = [names.named .result] := rfl

/-- A sender exports its function. -/
@[simp] theorem exportedNames_sender (names : OperationNames) (optional : Bool) :
    (Fragment.sender names optional).exportedNames = [names.named .function] := rfl

/-- An accessor exports itself. -/
@[simp] theorem exportedNames_accessor (page : PageNames) (table : String)
    (entityNames : EntityNames) (names : OperationNames) (position : RowPosition)
    (request : Request) :
    (Accessor.fragment page table entityNames names position request).exportedNames =
      [names.accessor] := rfl

/-- What is imported for rows exports nothing. -/
@[simp] theorem exportedNames_rowNeeds (request : Request) :
    (TableFiles.rowNeeds request).exportedNames = [] := by
  rw [TableFiles.rowNeeds]
  cases request.projection <;> rfl

/-- A query exports two hooks if they are wanted. -/
@[simp] theorem exportedNames_queryHook (wanted : Bool) (names : OperationNames) (optional : Bool)
    (key : String) (scope : Option String) :
    (Fragment.queryHook wanted names optional key scope).exportedNames =
      if wanted then [names.named .hook, names.named .prefetch] else [] := by
  cases wanted <;> rfl

/-- A mutation exports one hook if it is wanted. -/
@[simp] theorem exportedNames_mutationHook (wanted : Bool) (names : OperationNames)
    (key : Option String) (invalidated : List String) :
    (Fragment.mutationHook wanted names key invalidated).exportedNames =
      if wanted then [names.named .hook] else [] := by
  cases wanted <;> rfl

end Fragment

/-! ## The files of operations -/

/-- The queries that the files of a table are for. -/
def EntityNames.exportedQueries (names : EntityNames) : List ExportedOperation :=
  [⟨names.all, .table⟩, ⟨names.first, .firstRow⟩, ⟨names.one, .table⟩]

/-- The mutations that the files of a table are for. -/
def EntityNames.exportedMutations (names : EntityNames) : List ExportedOperation :=
  [⟨names.create, .table⟩, ⟨names.update, .table⟩, ⟨names.delete, .table⟩]

/-- What a custom operation is in a client. -/
def CustomOperation.exported (operation : CustomOperation) : ExportedOperation :=
  ⟨.ofField operation.name operation.kind, .custom⟩

section Files

variable {blueprint : Blueprint} {factory : KeyFactory} {table : Table}

namespace TableFiles

/-- The file of a list exports the names for the list and for its first row. -/
theorem exportedNames_list (templates : TableTemplates) :
    (list blueprint factory table templates).exportedNames =
      [⟨table.entityNames.all, .table⟩, ⟨table.entityNames.first, .firstRow⟩].flatMap
        (ExportedOperation.exportedNames blueprint.settings.hooks) := by
  have hfirst : (firstSender blueprint.page table.entityNames).exportedNames =
      [table.entityNames.first.named .row, table.entityNames.first.named .function] := rfl
  have hkeys : (queryKeyImports blueprint factory).exportedNames = [] :=
    Fragment.exportedNames_when_importing _ _
  cases hhooks : blueprint.settings.hooks <;>
    simp [list, hfirst, hkeys, hhooks, ExportedOperation.exportedNames, ExportedOperation.ownForms,
      ExportedOperation.hookForms, ExportedOperation.accessors, EntityNames.all,
      OperationNames.ofField]

/-- The file of a single row exports the names for the row. -/
theorem exportedNames_one (templates : TableTemplates) :
    (one blueprint factory table templates).exportedNames =
      ExportedOperation.exportedNames blueprint.settings.hooks ⟨table.entityNames.one, .table⟩ := by
  have hkeys : (queryKeyImports blueprint factory).exportedNames = [] :=
    Fragment.exportedNames_when_importing _ _
  cases hhooks : blueprint.settings.hooks <;>
    simp [one, hkeys, hhooks, ExportedOperation.exportedNames, ExportedOperation.ownForms,
      ExportedOperation.hookForms, ExportedOperation.accessors, EntityNames.one,
      OperationNames.ofField]

/-- The file of a mutation exports the names for the mutation. -/
theorem exportedNames_mutation {names : OperationNames} (hkind : names.kind = .mutation)
    (action : String) (template : Request) (row : Option RowId) :
    (mutation blueprint factory table names action template row).exportedNames =
      ExportedOperation.exportedNames blueprint.settings.hooks ⟨names, .table⟩ := by
  have hkeys : (mutationKeyImports blueprint factory).exportedNames = [] :=
    Fragment.exportedNames_when_importing _ _
  cases hhooks : blueprint.settings.hooks <;>
    simp [mutation, hkeys, hhooks, hkind, ExportedOperation.exportedNames,
      ExportedOperation.ownForms, ExportedOperation.hookForms, ExportedOperation.accessors]

/-- The queries of a table export what its names say. -/
theorem exportedNames_queries (factory : KeyFactory) (table : Table) (templates : TableTemplates) :
    (entries blueprint factory table templates).queries.flatMap (·.fragment.exportedNames) =
      table.entityNames.exportedQueries.flatMap (·.exportedNames blueprint.settings.hooks) := by
  simp [entries, exportedNames_list, exportedNames_one, EntityNames.exportedQueries]

/-- The mutations of a table export what its names say. -/
theorem exportedNames_mutations (factory : KeyFactory) (table : Table)
    (templates : TableTemplates) :
    (entries blueprint factory table templates).mutations.flatMap (·.fragment.exportedNames) =
      table.entityNames.exportedMutations.flatMap (·.exportedNames blueprint.settings.hooks) := by
  simp [entries, EntityNames.exportedMutations, exportedNames_mutation, EntityNames.create,
    EntityNames.update, EntityNames.delete, OperationNames.ofField]

end TableFiles

namespace CustomFiles

/-- What is imported for an answer exports nothing. -/
theorem exportedNames_resultNeeds (operation : CustomOperation) (projection : Option Projection) :
    (resultNeeds operation projection).exportedNames = [] := by
  cases projection with
  | some projection => rfl
  | none =>
    simp only [resultNeeds]
    split <;> rfl

/-- The hooks of a custom operation export what its names say. -/
theorem exportedNames_hook (operation : CustomOperation) (optional : Bool) :
    (hook blueprint operation operation.exported.names optional).exportedNames =
      (operation.exported.hookForms blueprint.settings.hooks).map
        operation.exported.names.named := by
  obtain ⟨name, kind, arguments, returnType, description⟩ := operation
  cases kind with
  | query =>
    rw [hook, queryHook]
    cases blueprint.settings.hooks <;> cases blueprint.sharesKeys <;> rfl
  | mutation =>
    rw [hook, mutationHook]
    cases blueprint.settings.hooks <;> cases blueprint.settings.keys.mutationKeys <;>
      cases blueprint.sharesKeys <;> rfl

/-- The file of a custom operation exports what its names say. -/
theorem exportedNames_fragment (operation : CustomOperation) (template : Request) :
    (fragment blueprint operation template).exportedNames =
      operation.exported.exportedNames blueprint.settings.hooks := by
  have hhook := @exportedNames_hook blueprint operation
    (Fragment.allOptional template.document)
  rw [CustomOperation.exported] at hhook ⊢
  simp [fragment, hhook, exportedNames_resultNeeds, ExportedOperation.exportedNames,
    ExportedOperation.ownForms, ExportedOperation.accessors]

end CustomFiles

end Files

/-! ## No other executor -/

/-- The names of an operation are not that of the function that executes requests. -/
theorem OperationNames.named_ne_execute (names : OperationNames) (form : NameForm) :
    names.named form ≠ "execute" := by
  rw [← @String.empty_append "execute"]
  exact names.named_ne_append form "" (by decide) (by decide)

/-- The accessor of a mutation ends like its root field. -/
theorem OperationNames.accessor_ne_execute {names : OperationNames}
    (h : names.kind = .mutation → EndsIn ['t', 'T'] names.base) : names.accessor ≠ "execute" := by
  rw [accessor]
  cases hkind : names.kind with
  | query => exact Text.append_ne_of_not_prefix (by decide)
  | mutation => exact ((h hkind).camelCase (by decide)).ne (by decide)

/-- No operation exports the name of the function that sends requests. For the mutation of a table
this rests on the ending of its name. -/
theorem ExportedOperation.execute_not_mem_exportedNames (hooks : Bool)
    {operation : ExportedOperation} (h : operation.role ≠ .custom →
      operation.names.kind = .mutation → EndsIn ['t', 'T'] operation.names.base) :
    "execute" ∉ operation.exportedNames hooks := by
  rw [operation.exportedNames_perm.mem_iff, List.mem_append, not_or]
  constructor
  · intro hmem
    obtain ⟨form, -, heq⟩ := List.mem_map.1 hmem
    exact operation.names.named_ne_execute form heq
  · rw [accessors]
    split
    · exact List.not_mem_nil
    · next hrole =>
      rw [List.mem_singleton]
      exact (OperationNames.accessor_ne_execute (h hrole)).symm

/-- The items of a part export no function that executes requests. -/
def Fragment.HasNoExecutor (fragment : Fragment) : Prop :=
  "execute" ∉ fragment.items.flatMap (·.exportedNames)

/-- A file whose name ends like `client` has no function that executes requests. -/
theorem Package.Parts.Operation.hasNoExecutor {parts : Package.Parts} {schema : Schema}
    {settings : Settings} (h : parts.IsOf schema settings) {directory field : String}
    {fragment : Fragment} (operation : parts.Operation directory field fragment)
    (hfield : EndsIn ['t', 'T'] field) : fragment.HasNoExecutor := by
  show "execute" ∉ fragment.exportedNames
  cases operation.made h with
  | list _ _ templates =>
    rw [TableFiles.exportedNames_list, List.flatMap_cons, List.flatMap_singleton, List.mem_append,
      not_or]
    exact ⟨ExportedOperation.execute_not_mem_exportedNames _ fun _ => nofun,
      ExportedOperation.execute_not_mem_exportedNames _ fun _ => nofun⟩
  | one _ _ templates =>
    rw [TableFiles.exportedNames_one]
    exact ExportedOperation.execute_not_mem_exportedNames _ fun _ => nofun
  | mutation _ _ _ action template row =>
    rw [TableFiles.exportedNames_mutation rfl]
    exact ExportedOperation.execute_not_mem_exportedNames _
      fun _ _ => hfield.pascalCase (by decide)
  | customQuery _ template | customMutation _ template =>
    rw [CustomFiles.exportedNames_fragment]
    exact ExportedOperation.execute_not_mem_exportedNames _ fun hrole => absurd rfl hrole

end GraphClient
