import GraphClient.Proofs.Package.TopLevel

/-!
# Hooks and re-exports

The file of an operation holds one hook if hooks are wanted, whatever the operation is. Neither it
nor a file at the top of the package exports what another file does; that is left to the indexes.

* `Fragment.Plain` : how many hooks a part holds, and that it re-exports nothing.
* `Package.Parts.plain_of_operation` : what the file of an operation holds.
* `Package.Parts.hookCount_fragments` : the number of all hooks.
* `Package.Parts.reExports_of_mem_topFiles` : the files at the top re-export nothing.
-/

namespace GraphClient

open TypeScript (Item SourceFile)

/-- A file re-exports nothing if none of its items does. -/
theorem TypeScript.SourceFile.reExports_eq_nil {file : SourceFile}
    (h : file.items.any (·.isReExport) = false) : file.reExports = [] := by
  rw [reExports, List.filterMap_eq_nil_iff]
  rw [List.any_eq_false] at h
  intro item hitem
  have hno := h item hitem
  cases item with
  | reExport source => exact absurd rfl hno
  | declaration | definition | code | comment => rfl

/-! ## Files at the top -/

/-- No definition of a registry type is a re-export. -/
theorem Definitions.Defines.isReExport_eq_false {registry : TypeRegistry}
    {scalars : ScalarSettings} {name : String} {item : Item}
    (h : Defines registry scalars name item) : item.isReExport = false := by
  cases h <;> rfl

/-- Collected definitions re-export nothing. -/
theorem Definitions.any_isReExport_items_of (registry : TypeRegistry) (scalars : ScalarSettings)
    (defined : NameSet) (roots : List String) :
    ((of registry scalars defined roots).items.map Prod.snd).any (·.isReExport) = false := by
  rw [List.any_eq_false]
  intro item hitem
  obtain ⟨p, hp, rfl⟩ := List.mem_map.1 hitem
  rw [(defines_of_mem_items_of roots p hp).isReExport_eq_false]
  exact Bool.false_ne_true

/-- The file of the table types re-exports nothing. -/
theorem TypesFile.reExports_file (blueprint : Blueprint) : (file blueprint).reExports = [] := by
  refine SourceFile.reExports_eq_nil ?_
  have hitems : (tableItems blueprint.schema blueprint.scalars blueprint.page).any
      (·.isReExport) = false := by
    rw [List.any_eq_false]
    intro item hitem
    obtain ⟨declaration, -, rfl⟩ := List.mem_map.1 hitem
    exact Bool.false_ne_true
  rw [file, List.any_append, hitems, Bool.or_false, definitions, Blueprint.definitions]
  exact Definitions.any_isReExport_items_of _ _ _ _

namespace KeyStore

variable (store : KeyStore)

/-- The file of the query keys re-exports nothing. -/
theorem any_isReExport_queryKeyItems : store.queryKeyItems.any (·.isReExport) = false := by
  have hfactory : ∀ factory : KeyFactory, factory.queryKeyItems.any (·.isReExport) = false := by
    intro factory
    rw [KeyFactory.queryKeyItems]
    cases factory.keys.isScoped <;> rfl
  rw [queryKeyItems, List.any_append, List.any_append, List.any_flatMap]
  simp only [hfactory]
  cases store.customQueries.isEmpty <;>
    simp [KeyFactory.constObject, Item.isReExport, Item.exported]

/-- The file of the mutation keys re-exports nothing. -/
theorem any_isReExport_mutationKeyItems : store.mutationKeyItems.any (·.isReExport) = false := by
  rw [mutationKeyItems, List.any_append, List.any_append, List.any_map]
  cases store.customMutations.isEmpty <;> simp [KeyFactory.constObject, Item.isReExport]

end KeyStore

/-- The files at the top re-export nothing, apart from the index. -/
theorem Package.Parts.reExports_of_mem_topFiles {parts : Parts} {p : String × SourceFile}
    (h : p ∈ parts.topFiles) : p.2.reExports = [] := by
  simp only [topFiles, List.mem_append, List.mem_cons, List.not_mem_nil, or_false, List.mem_map,
    Option.mem_toList] at h
  rcases h with ((((rfl | rfl) | ⟨file, hfile, rfl⟩) | rfl) | h) | h
  · rfl
  · exact TypesFile.reExports_file _
  · have hmem : ("schema-types", file) ∈ parts.topFiles := by simp [topFiles, hfile]
    refine SourceFile.reExports_eq_nil ?_
    show file.items.any (·.isReExport) = false
    rw [(schemaTypes_of_mem_topFiles hmem).2]
    exact Definitions.any_isReExport_items_of _ _ _ _
  · rfl
  · split at h
    · rw [List.mem_singleton.1 h]
      exact SourceFile.reExports_eq_nil (KeyStore.any_isReExport_queryKeyItems _)
    · cases h
  · split at h
    · rw [List.mem_singleton.1 h]
      exact SourceFile.reExports_eq_nil (KeyStore.any_isReExport_mutationKeyItems _)
    · cases h

/-! ## Parts of operation files -/

namespace Fragment

/-- A part holds so many hooks, and re-exports nothing. -/
structure Plain (fragment : Fragment) (count : Nat) : Prop where
  hooks : fragment.hooks = count
  items : fragment.items.any (·.isReExport) = false

variable {a b : Fragment} {count : Nat}

/-- What follows a part without hooks counts. -/
theorem Plain.zero_append (ha : a.Plain 0) (hb : b.Plain count) : (a ++ b).Plain count := by
  constructor
  · rw [hooks_append, ha.hooks, hb.hooks, Nat.zero_add]
  · rw [items_append, List.any_append, ha.items, hb.items, Bool.or_false]

/-- What comes before a part without hooks counts. -/
theorem Plain.append_zero (ha : a.Plain count) (hb : b.Plain 0) : (a ++ b).Plain count := by
  constructor
  · rw [hooks_append, ha.hooks, hb.hooks, Nat.add_zero]
  · rw [items_append, List.any_append, ha.items, hb.items, Bool.or_false]

/-- A document brings no hook. -/
theorem plain_document (scalars : ScalarSettings) (names : OperationNames)
    (document : Document) : (Fragment.document scalars names document).Plain 0 := ⟨rfl, rfl⟩

/-- The type of an answer brings no hook. -/
theorem plain_answer (names : OperationNames) (field : String) (type : TypeScript.TypeExpr) :
    (Fragment.answer names field type).Plain 0 := ⟨rfl, rfl⟩

/-- A sender brings no hook. -/
theorem plain_sender (names : OperationNames) (optional : Bool) :
    (Fragment.sender names optional).Plain 0 := ⟨rfl, rfl⟩

/-- An accessor brings no hook. -/
theorem plain_accessor (page : PageNames) (table : String) (entityNames : EntityNames)
    (names : OperationNames) (position : RowPosition) (request : Request) :
    (Accessor.fragment page table entityNames names position request).Plain 0 := ⟨rfl, rfl⟩

/-- A query brings one hook if it is wanted. Fetching ahead does not count. -/
theorem plain_queryHook (wanted : Bool) (names : OperationNames) (optional : Bool) (key : String)
    (scope : Option String) :
    (Fragment.queryHook wanted names optional key scope).Plain (if wanted then 1 else 0) := by
  cases wanted <;> exact ⟨rfl, rfl⟩

/-- A mutation brings one hook if it is wanted. -/
theorem plain_mutationHook (wanted : Bool) (names : OperationNames) (key : Option String)
    (invalidated : List String) :
    (Fragment.mutationHook wanted names key invalidated).Plain (if wanted then 1 else 0) := by
  cases wanted <;> exact ⟨rfl, rfl⟩

/-- Imports bring no hook. -/
theorem plain_when_importing (condition : Bool) (imports : TypeScript.ImportSet) :
    (Fragment.when condition (.importing imports)).Plain 0 := by
  cases condition <;> exact ⟨rfl, rfl⟩

/-- What is imported for rows brings no hook. -/
theorem plain_rowNeeds (request : Request) : (TableFiles.rowNeeds request).Plain 0 := by
  rw [TableFiles.rowNeeds]
  cases request.projection <;> exact ⟨rfl, rfl⟩

end Fragment

/-! ## The files of operations -/

open Fragment

section Operations

variable {blueprint : Blueprint} {factory : KeyFactory} {table : Table}

namespace TableFiles

/-- The file of a list has one hook if the settings want hooks. -/
theorem plain_list (templates : TableTemplates) :
    (list blueprint factory table templates).Plain
      (if blueprint.settings.hooks then 1 else 0) := by
  have himport : (Fragment.importing (.typesFrom "../select-types" [connectionType])).Plain 0 :=
    ⟨rfl, rfl⟩
  have hfirst : (firstSender blueprint.page table.entityNames).Plain 0 := ⟨rfl, rfl⟩
  exact himport.zero_append (plain_document _ _ _)
    |>.append_zero (plain_rowNeeds _)
    |>.append_zero (plain_answer _ _ _)
    |>.append_zero (plain_sender _ _)
    |>.append_zero (plain_accessor _ _ _ _ _ _)
    |>.append_zero (plain_when_importing _ _)
    |>.zero_append (plain_queryHook _ _ _ _ _)
    |>.append_zero (plain_document _ _ _)
    |>.append_zero (plain_rowNeeds _)
    |>.append_zero (plain_answer _ _ _)
    |>.append_zero hfirst
    |>.append_zero (plain_accessor _ _ _ _ _ _)

/-- The file of a single row has one hook if the settings want hooks. -/
theorem plain_one (templates : TableTemplates) :
    (one blueprint factory table templates).Plain
      (if blueprint.settings.hooks then 1 else 0) :=
  (plain_document _ _ _).append_zero (plain_rowNeeds _)
    |>.append_zero (plain_answer _ _ _)
    |>.append_zero (plain_sender _ _)
    |>.append_zero (plain_accessor _ _ _ _ _ _)
    |>.append_zero (plain_when_importing _ _)
    |>.zero_append (plain_queryHook _ _ _ _ _)

/-- The file of a mutation has one hook if the settings want hooks. -/
theorem plain_mutation (names : OperationNames) (action : String) (template : Request)
    (row : Option RowId) :
    (mutation blueprint factory table names action template row).Plain
      (if blueprint.settings.hooks then 1 else 0) :=
  (plain_document _ _ _).append_zero (plain_rowNeeds _)
    |>.append_zero (plain_answer _ _ _)
    |>.append_zero (plain_sender _ _)
    |>.append_zero (plain_accessor _ _ _ _ _ _)
    |>.append_zero (plain_when_importing _ _)
    |>.zero_append (plain_mutationHook _ _ _ _)

end TableFiles

namespace CustomFiles

/-- What is imported for an answer brings no hook. -/
theorem plain_resultNeeds (operation : CustomOperation) (projection : Option Projection) :
    (resultNeeds operation projection).Plain 0 := by
  cases projection with
  | some projection => exact ⟨rfl, rfl⟩
  | none =>
    simp only [resultNeeds]
    split <;> exact ⟨rfl, rfl⟩

/-- A custom operation brings one hook if the settings want hooks. -/
theorem plain_hook (operation : CustomOperation) (names : OperationNames) (optional : Bool) :
    (hook blueprint operation names optional).Plain
      (if blueprint.settings.hooks then 1 else 0) := by
  rw [hook]
  cases operation.kind with
  | query =>
    simp only [queryHook]
    split
    · exact (plain_when_importing _ _).zero_append (plain_queryHook _ _ _ _ _)
    · exact plain_queryHook _ _ _ _ _
  | mutation =>
    simp only [mutationHook]
    split
    · exact plain_mutationHook _ _ _ _
    · split
      · exact (plain_when_importing _ _).zero_append (plain_mutationHook _ _ _ _)
      · exact plain_mutationHook _ _ _ _

/-- The file of a custom operation has one hook if the settings want hooks. -/
theorem plain_fragment (operation : CustomOperation) (template : Request) :
    (fragment blueprint operation template).Plain
      (if blueprint.settings.hooks then 1 else 0) :=
  (plain_document _ _ _).append_zero (plain_resultNeeds _ _)
    |>.append_zero (plain_answer _ _ _)
    |>.append_zero (plain_sender _ _)
    |>.zero_append (plain_hook _ _ _)

end CustomFiles

end Operations

namespace Package

namespace Parts

variable {parts : Parts} {schema : Schema} {settings : Settings}

/-- The file of an operation holds one hook if hooks are wanted, and re-exports nothing. -/
theorem plain_of_operation (h : parts.IsOf schema settings) {directory field : String}
    {fragment : Fragment} (operation : parts.Operation directory field fragment) :
    fragment.Plain (if settings.hooks then 1 else 0) := by
  rw [← h.settings]
  cases operation.made h with
  | list _ _ templates => exact TableFiles.plain_list templates
  | one _ _ templates => exact TableFiles.plain_one templates
  | mutation _ _ _ action template row => exact TableFiles.plain_mutation _ action template row
  | customQuery _ template => exact CustomFiles.plain_fragment _ template
  | customMutation _ template => exact CustomFiles.plain_fragment _ template

/-! ## The number of hooks -/

/-- Where all fragments have as many hooks, the hooks of all are as many for each. -/
theorem hookCount_eq {fragments : List Fragment} {count : Nat}
    (h : ∀ fragment ∈ fragments, fragment.hooks = count) :
    hookCount fragments = fragments.length * count := by
  induction fragments with
  | nil => simp [hookCount]
  | cons fragment rest ih =>
    rw [List.forall_mem_cons] at h
    show fragment.hooks + hookCount rest = (rest.length + 1) * count
    rw [h.1, ih h.2, Nat.succ_mul, Nat.add_comm]

/-- Every part belongs to an operation. -/
theorem exists_operation_of_mem_fragments {fragment : Fragment} (h : fragment ∈ parts.fragments) :
    ∃ directory field, parts.Operation directory field fragment := by
  simp only [fragments, List.mem_append, List.mem_flatMap, List.map_append, List.mem_map] at h
  rcases h with (⟨entries, htable, ⟨entry, hentry, rfl⟩ | ⟨entry, hentry, rfl⟩⟩ | ⟨p, hp, rfl⟩) |
    ⟨p, hp, rfl⟩
  · exact ⟨_, _, .tableQuery htable hentry⟩
  · exact ⟨_, _, .tableMutation htable hentry⟩
  · exact ⟨_, _, .customQuery hp⟩
  · exact ⟨_, _, .customMutation hp⟩

/-- A table has five operations. -/
theorem length_fragments (h : parts.IsOf schema settings) :
    parts.fragments.length =
      5 * schema.tables.length + schema.queries.length + schema.mutations.length := by
  have hlengths := TableFiles.map_eq_of_all h.tables_eq
    (fun entries => ((entries.queries ++ entries.mutations).map (·.fragment)).length)
    (fun _ => 5) fun _ _ _ => rfl
  rw [fragments, List.length_append, List.length_append, List.length_flatMap, hlengths, h.tables,
    List.map_const', List.sum_replicate_nat, List.length_map, List.length_map,
    CustomFiles.length_of_fragments h.queries_eq, CustomFiles.length_of_fragments h.mutations_eq,
    Nat.mul_comm]

/-- If hooks are wanted there are five for each table, and one for each custom operation. -/
theorem hookCount_fragments (h : parts.IsOf schema settings) :
    hookCount parts.fragments =
      if settings.hooks then
        5 * schema.tables.length + schema.queries.length + schema.mutations.length
      else 0 := by
  have hcount : ∀ fragment ∈ parts.fragments, fragment.hooks = if settings.hooks then 1 else 0 := by
    intro fragment hfragment
    obtain ⟨directory, field, operation⟩ := exists_operation_of_mem_fragments hfragment
    exact (plain_of_operation h operation).hooks
  rw [hookCount_eq hcount, length_fragments h]
  split
  · rw [Nat.mul_one]
  · rw [Nat.mul_zero]

end Parts

end Package

end GraphClient
