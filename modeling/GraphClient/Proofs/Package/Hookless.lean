import Mathlib.Data.List.Sort
import GraphClient.Package.Basic

/-!
# Files without their hooks

What is left of a file if its hooks are dropped, together with what only they import. Dropping goes
through the parts that a file is put together from, and every part is either dropped as a whole or
kept as it is.

* `SourceFile.withoutHooks`, `Fragment.withoutHooks` : what is left of a file and of a part.
* `Fragment.file_withoutHooks` : the file of what is left is what is left of the file.
* `TableFiles.entries_withoutHooks`, `CustomFiles.fragment_withoutHooks` : what is left of the parts
  made for some settings is what is made for the settings without hooks.
-/

namespace GraphClient

open TypeScript (Definition Import ImportRequests ImportSet Item SourceFile)

/-! ## What is dropped -/

/-- The settings with hooks, or without them. -/
def Settings.withHooks (settings : Settings) (hooks : Bool) : Settings := { settings with hooks }

/-- A source that only hooks import from: the hook library, or the shared keys. -/
def isHookSource (source : String) : Bool :=
  [Fragment.hookLibrary, "../query-keys", "../mutation-keys"].contains source

namespace TypeScript

/-- Whether a definition is a hook, or fills the cache for one: a function called `use…` or
`prefetch…`. The functions that send documents are asynchronous, so that the one of a mutation
called `useCoupon` is no hook. -/
def Definition.isHook (definition : Definition) : Bool :=
  definition.words == "function" &&
    ("use".toList.isPrefixOf definition.name.toList ||
      "prefetch".toList.isPrefixOf definition.name.toList)

/-- Whether an item is a hook. -/
def Item.isHook : Item → Bool
  | .definition value => value.isHook
  | _ => false

/-- The file without its hooks and without the imports from their sources. -/
def SourceFile.withoutHooks (file : SourceFile) : SourceFile :=
  { file with
    imports := file.imports.filter fun statement => !isHookSource statement.source
    items := file.items.filter fun item => !item.isHook }

/-- The requests without those to the sources of hooks. -/
def ImportRequests.withoutHooks (requests : ImportRequests) : ImportRequests :=
  List.filter (fun p => !isHookSource p.1) requests

/-- The imports without those from the sources of hooks. -/
def ImportSet.withoutHooks (set : ImportSet) : ImportSet :=
  ⟨set.values.withoutHooks, set.types.withoutHooks⟩

end TypeScript

/-- The part without its hooks. -/
def Fragment.withoutHooks (fragment : Fragment) : Fragment where
  items := fragment.items.filter fun item => !item.isHook
  imports := fragment.imports.withoutHooks
  mentions := fragment.mentions
  hooks := 0

/-! ## Imports -/

namespace NameSet

/-- A set of names is determined by its members. -/
theorem names_eq_of_mem_iff {set : NameSet} {names : List String} (sorted : names.Pairwise (· < ·))
    (h : ∀ name, name ∈ set ↔ name ∈ names) : set.names = names :=
  set.sorted.eq_of_mem_iff sorted h

/-- The names of a list that are kept are those of the list that is kept. -/
theorem names_ofList_filter (keep : String → Bool) (names : List String) :
    (ofList (names.filter keep)).names = (ofList names).names.filter keep := by
  refine names_eq_of_mem_iff ((ofList names).sorted.filter keep) fun name => ?_
  rw [mem_ofList, List.mem_filter, List.mem_filter, mem_names, mem_ofList]

end NameSet

namespace TypeScript

namespace ImportRequests

variable (requests : ImportRequests) (typeOnly : Bool)

/-- Of a source that is not one of hooks, the same names are imported. -/
theorem namesFrom_withoutHooks {source : String} (h : isHookSource source = false) :
    namesFrom requests.withoutHooks source = namesFrom requests source := by
  have hfilter : List.filter (fun p => p.1 == source) requests.withoutHooks =
      List.filter (fun p => p.1 == source) requests := by
    rw [withoutHooks, List.filter_filter]
    refine List.filter_congr fun p _ => ?_
    by_cases hp : p.1 = source
    · simp [hp, h]
    · simp [hp]
  rw [namesFrom, hfilter, namesFrom]

/-- The statements that are left are those of the requests that are left. -/
theorem statements_withoutHooks :
    requests.withoutHooks.statements typeOnly =
      (requests.statements typeOnly).filter fun statement => !isHookSource statement.source := by
  have hsources : List.map Prod.fst requests.withoutHooks =
      (List.map Prod.fst requests).filter fun source => !isHookSource source := by
    rw [withoutHooks, List.filter_map]
    rfl
  rw [statements, hsources, NameSet.names_ofList_filter, List.filterMap_filter, statements,
    List.filter_filterMap]
  refine List.filterMap_congr fun source _ => ?_
  -- A source is dropped as a whole, or its names stay the same.
  cases hsource : isHookSource source with
  | true =>
    by_cases hempty : (namesFrom requests source).names.isEmpty = true
    · simp [hempty]
    · simp [hempty, hsource, Option.filter_some]
  | false =>
    simp only [Bool.not_false, if_true, namesFrom_withoutHooks requests hsource]
    by_cases hempty : (namesFrom requests source).names.isEmpty = true
    · simp [hempty]
    · simp [hempty, hsource, Option.filter_some]

end ImportRequests

namespace ImportSet

/-- The hooks of two groups of imports are dropped from each of them. -/
@[simp] theorem withoutHooks_append (a b : ImportSet) :
    (a ++ b).withoutHooks = a.withoutHooks ++ b.withoutHooks := by
  show ImportSet.mk _ _ = ImportSet.mk _ _
  simp only [ImportRequests.withoutHooks, values_append, types_append, List.filter_append]
  rfl

/-- The statements that are left are those of the imports that are left. -/
theorem statements_withoutHooks (set : ImportSet) :
    set.withoutHooks.statements =
      set.statements.filter fun statement => !isHookSource statement.source := by
  rw [statements, statements, List.filter_append, withoutHooks]
  simp only [ImportRequests.statements_withoutHooks]

/-- Types that come from another source than one of hooks are kept. -/
theorem withoutHooks_typesFrom {source : String} (names : List String)
    (h : isHookSource source = false) :
    (typesFrom source names).withoutHooks = typesFrom source names := by
  simp [withoutHooks, ImportRequests.withoutHooks, typesFrom, h]

end ImportSet

end TypeScript

/-! ## Parts of files -/

namespace Fragment

/-- Nothing is added by the empty fragment. -/
@[simp] theorem append_empty (a : Fragment) : a ++ {} = a := by
  show Fragment.mk _ ⟨_, _⟩ _ _ = a
  simp

@[simp] theorem withoutHooks_empty : ({} : Fragment).withoutHooks = {} := rfl

/-- The hooks of two fragments are dropped from each of them. -/
@[simp] theorem withoutHooks_append (a b : Fragment) :
    (a ++ b).withoutHooks = a.withoutHooks ++ b.withoutHooks := by
  show Fragment.mk _ _ _ _ = Fragment.mk _ _ _ _
  simp only [items_append, imports_append, mentions_append, List.filter_append,
    ImportSet.withoutHooks_append]
  rfl

/-- The file of what is left of a part is what is left of its file. -/
theorem file_withoutHooks (defined : NameSet) (description : String) (fragment : Fragment) :
    fragment.withoutHooks.file defined description =
      (fragment.file defined description).withoutHooks := by
  have himports : fragment.withoutHooks.allImports defined =
      (fragment.allImports defined).withoutHooks := by
    rw [allImports, allImports, ImportSet.withoutHooks_append, ImportSet.withoutHooks_append,
      ImportSet.withoutHooks_typesFrom _ (by decide),
      ImportSet.withoutHooks_typesFrom _ (by decide)]
    rfl
  rw [file, himports, ImportSet.statements_withoutHooks]
  rfl

/-! ### What is kept -/

/-- The constant of a document and the types beside it are no hooks. -/
@[simp] theorem withoutHooks_document (scalars : ScalarSettings) (names : OperationNames)
    (document : Document) :
    (Fragment.document scalars names document).withoutHooks =
      Fragment.document scalars names document := rfl

/-- The type of an answer is no hook. -/
@[simp] theorem withoutHooks_answer (names : OperationNames) (field : String)
    (type : TypeScript.TypeExpr) :
    (answer names field type).withoutHooks = answer names field type := rfl

/-- The function that sends a request is no hook. -/
@[simp] theorem withoutHooks_sender (names : OperationNames) (optional : Bool) :
    (sender names optional).withoutHooks = sender names optional := rfl

/-- The accessor of an operation needs no hooks, so all of it stays. -/
@[simp] theorem withoutHooks_accessor (page : PageNames) (table : String)
    (entityNames : EntityNames) (names : OperationNames) (position : RowPosition)
    (request : Request) :
    (Accessor.fragment page table entityNames names position request).withoutHooks =
      Accessor.fragment page table entityNames names position request := by
  cases position <;> rfl

/-- What is imported for a projection is kept. -/
@[simp] theorem withoutHooks_projection (projection : Projection) :
    (Fragment.projection projection).withoutHooks = Fragment.projection projection := by
  rw [Fragment.projection]
  split <;> rfl

/-! ### What is dropped -/

/-- A part is dropped if it has nothing but hooks, and imports for them alone. -/
theorem withoutHooks_eq_empty {fragment : Fragment}
    (items : ∀ item ∈ fragment.items, item.isHook = true)
    (imports : fragment.imports.withoutHooks = {}) (mentions : fragment.mentions = []) :
    fragment.withoutHooks = {} := by
  have hitems : (fragment.items.filter fun item => !item.isHook) = [] :=
    List.filter_eq_nil_iff.2 fun item hmem => by simp [items item hmem]
  rw [withoutHooks, hitems, imports, mentions]

/-- A fragment with nothing but hooks is dropped, whether it is wanted or not. -/
theorem withoutHooks_when {fragment : Fragment} (h : fragment.withoutHooks = {})
    (condition : Bool) : (when condition fragment).withoutHooks = {} := by
  cases condition with
  | false => rfl
  | true => exact h

/-- Without hooks no query gets one. -/
@[simp] theorem queryHook_unwanted (names : OperationNames) (optional : Bool) (key : String)
    (scope : Option String) : queryHook false names optional key scope = {} := rfl

/-- Without hooks no mutation gets one. -/
@[simp] theorem mutationHook_unwanted (names : OperationNames) (key : Option String)
    (invalidated : List String) : mutationHook false names key invalidated = {} := rfl

/-- A function of the name that is made for a hook counts as one. -/
theorem isHook_hook (names : OperationNames) (rest : String) :
    (Item.definition ⟨true, "function", names.hook, rest, ""⟩).isHook = true := by
  simp [Item.isHook, Definition.isHook, OperationNames.hook, String.toList_append]

/-- A function that fetches ahead counts as a hook, too. -/
theorem isHook_prefetch (names : OperationNames) (rest : String) :
    (Item.definition ⟨true, "function", names.prefetch, rest, ""⟩).isHook = true := by
  simp [Item.isHook, Definition.isHook, OperationNames.prefetch, String.toList_append]

/-- Of the hooks of a query nothing is left, be they wanted or not. -/
@[simp] theorem withoutHooks_queryHook (wanted : Bool) (names : OperationNames) (optional : Bool)
    (key : String) (scope : Option String) :
    (queryHook wanted names optional key scope).withoutHooks = {} := by
  refine withoutHooks_when (withoutHooks_eq_empty ?_ rfl rfl) wanted
  intro item hitem
  rcases List.mem_pair.1 hitem with rfl | rfl
  · exact isHook_hook names _
  · exact isHook_prefetch names _

/-- Of the hook of a mutation nothing is left, be it wanted or not. -/
@[simp] theorem withoutHooks_mutationHook (wanted : Bool) (names : OperationNames)
    (key : Option String) (invalidated : List String) :
    (mutationHook wanted names key invalidated).withoutHooks = {} := by
  refine withoutHooks_when (withoutHooks_eq_empty ?_ ?_ rfl) wanted
  · intro item hitem
    obtain rfl := List.mem_singleton.1 hitem
    exact isHook_hook names _
  · cases invalidated <;> rfl

/-- What is imported for hooks alone is dropped. -/
theorem withoutHooks_importing {imports : ImportSet} (h : imports.withoutHooks = {})
    (condition : Bool) : (when condition (importing imports)).withoutHooks = {} :=
  withoutHooks_when (withoutHooks_eq_empty (List.forall_mem_nil _) h rfl) condition

end Fragment

/-! ## Files of operations -/

/-- The blueprint for the settings without hooks. -/
def Blueprint.withoutHooks (blueprint : Blueprint) : Blueprint :=
  { blueprint with settings := blueprint.settings.withHooks false }

@[simp] theorem Blueprint.hooks_withoutHooks (blueprint : Blueprint) :
    blueprint.withoutHooks.settings.hooks = false := rfl

namespace TableFiles

variable (blueprint : Blueprint) (factory : KeyFactory) (table : Table)

/-- What is imported for the rows of a request is kept. -/
@[simp] theorem withoutHooks_rowNeeds (request : Request) :
    (rowNeeds request).withoutHooks = rowNeeds request := by
  rw [rowNeeds]
  cases request.projection with
  | none => rfl
  | some projection => exact Fragment.withoutHooks_projection projection

/-- The keys of queries are imported for hooks alone. -/
@[simp] theorem withoutHooks_queryKeyImports :
    (queryKeyImports blueprint factory).withoutHooks = {} := by
  refine Fragment.withoutHooks_importing ?_ _
  rw [scopeType]
  split <;> rfl

/-- The keys of mutations are imported for hooks alone. -/
@[simp] theorem withoutHooks_mutationKeyImports :
    (mutationKeyImports blueprint factory).withoutHooks = {} := by
  refine Fragment.withoutHooks_importing ?_ _
  split <;> rfl

/-- No keys of queries are imported where there are no hooks. -/
@[simp] theorem queryKeyImports_withoutHooks :
    queryKeyImports blueprint.withoutHooks factory = {} := rfl

/-- No keys of mutations are imported where there are no hooks. -/
@[simp] theorem mutationKeyImports_withoutHooks :
    mutationKeyImports blueprint.withoutHooks factory = {} := rfl

/-! Dropping the hooks of a file gives the file for the settings without hooks: its parts for hooks
are not there, and the other parts do not look at that setting. -/

/-- Without hooks, the file of a list is the one with hooks less the hooks. -/
theorem list_withoutHooks (templates : TableTemplates) :
    list blueprint.withoutHooks factory table templates =
      (list blueprint factory table templates).withoutHooks := by
  simp only [list, Fragment.withoutHooks_append, withoutHooks_queryKeyImports,
    Fragment.withoutHooks_queryHook, queryKeyImports_withoutHooks, Blueprint.hooks_withoutHooks,
    Fragment.queryHook_unwanted, Fragment.append_empty, withoutHooks_rowNeeds,
    Fragment.withoutHooks_document, Fragment.withoutHooks_answer, Fragment.withoutHooks_sender,
    Fragment.withoutHooks_accessor]
  rfl

/-- Without hooks, the file of a single row is the one with hooks less the hooks. -/
theorem one_withoutHooks (templates : TableTemplates) :
    one blueprint.withoutHooks factory table templates =
      (one blueprint factory table templates).withoutHooks := by
  simp only [one, Fragment.withoutHooks_append, withoutHooks_queryKeyImports,
    Fragment.withoutHooks_queryHook, queryKeyImports_withoutHooks, Blueprint.hooks_withoutHooks,
    Fragment.queryHook_unwanted, Fragment.append_empty, withoutHooks_rowNeeds,
    Fragment.withoutHooks_document, Fragment.withoutHooks_answer, Fragment.withoutHooks_sender,
    Fragment.withoutHooks_accessor]
  rfl

/-- Without hooks, the file of a mutation is the one with hooks less the hooks. -/
theorem mutation_withoutHooks (names : OperationNames) (action : String) (template : Request)
    (row : Option RowId) :
    mutation blueprint.withoutHooks factory table names action template row =
      (mutation blueprint factory table names action template row).withoutHooks := by
  simp only [mutation, Fragment.withoutHooks_append, withoutHooks_mutationKeyImports,
    Fragment.withoutHooks_mutationHook, mutationKeyImports_withoutHooks,
    Blueprint.hooks_withoutHooks, Fragment.mutationHook_unwanted, Fragment.append_empty,
    withoutHooks_rowNeeds, Fragment.withoutHooks_document, Fragment.withoutHooks_answer,
    Fragment.withoutHooks_sender, Fragment.withoutHooks_accessor]
  rfl

end TableFiles

namespace CustomFiles

variable (blueprint : Blueprint) (operation : CustomOperation)

/-- What is imported for the answer of a custom operation is kept. -/
theorem withoutHooks_resultNeeds (projection : Option Projection) :
    (resultNeeds operation projection).withoutHooks = resultNeeds operation projection := by
  cases projection with
  | some projection => exact Fragment.withoutHooks_projection projection
  | none =>
    rw [resultNeeds]
    split <;> rfl

/-- Of the hook of a custom operation nothing is left. -/
theorem withoutHooks_hook (names : OperationNames) (optional : Bool) :
    (hook blueprint operation names optional).withoutHooks = {} := by
  have himport : ∀ source name, isHookSource source = true →
      (Fragment.when blueprint.settings.hooks
        (.importing (.value source name))).withoutHooks = {} := by
    intro source name hsource
    refine Fragment.withoutHooks_importing ?_ _
    simp [ImportSet.withoutHooks, ImportRequests.withoutHooks, ImportSet.value, hsource]
  rw [hook]
  cases operation.kind with
  | query =>
    simp only [queryHook]
    split
    · rw [Fragment.withoutHooks_append, himport _ _ rfl, Fragment.withoutHooks_queryHook]
      rfl
    · rw [Fragment.withoutHooks_queryHook]
  | mutation =>
    simp only [mutationHook]
    split
    · rw [Fragment.withoutHooks_mutationHook]
    · split
      · rw [Fragment.withoutHooks_append, himport _ _ rfl, Fragment.withoutHooks_mutationHook]
        rfl
      · rw [Fragment.withoutHooks_mutationHook]

/-- Without hooks no custom operation gets one. -/
theorem hook_withoutHooks (names : OperationNames) (optional : Bool) :
    hook blueprint.withoutHooks operation names optional = {} := by
  rw [hook]
  cases operation.kind with
  | query =>
    simp only [queryHook]
    split <;> rfl
  | mutation =>
    simp only [mutationHook]
    split
    · rfl
    · split <;> rfl

/-- Without hooks, the file of a custom operation is the one with hooks less the hooks. -/
theorem fragment_withoutHooks (template : Request) :
    fragment blueprint.withoutHooks operation template =
      (fragment blueprint operation template).withoutHooks := by
  simp only [fragment, Fragment.withoutHooks_append, withoutHooks_hook, hook_withoutHooks,
    Fragment.append_empty, withoutHooks_resultNeeds, Fragment.withoutHooks_document,
    Fragment.withoutHooks_answer, Fragment.withoutHooks_sender]
  rfl

end CustomFiles

end GraphClient
