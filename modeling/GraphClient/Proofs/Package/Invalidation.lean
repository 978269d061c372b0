import GraphClient.Proofs.CacheKey.Stale
import GraphClient.Proofs.Package.Imports
import GraphClient.Proofs.Package.Rejection
import GraphClient.Proofs.Request.Restriction

/-!
# What mutation hooks invalidate

The hooks of a table store lists and rows in a cache, and its mutation hooks make some of what is
stored stale. All lists become stale, and a deleted row does. A changed row becomes stale if the
entity has ancestors, or if its id is read off its only key column and the patch does not take the
place of that column among the variables; otherwise some change leaves it.

* `TableFiles.Entries.Hooked` : which keys the hooks in the files of a table use.
* `Call.MakesRowStale` : a mutation makes the row of a key stale.
* `Call.update_leaves_row` : where the id of a row is the text of all variables, a change leaves the
  row in the cache.
* `Package.hooks_make_stale` : what the mutation hooks of a table make stale.
-/

namespace GraphClient

/-! ## Hooks in files -/

namespace Fragment

/-- The items of a part stand one after the other among those of a larger part. -/
def Holds (fragment part : Fragment) : Prop := part.items <:+: fragment.items

/-- A fragment that is added at the end is there. -/
theorem holds_append (fragment part : Fragment) : (fragment ++ part).Holds part :=
  (List.suffix_append fragment.items part.items).isInfix

/-- What is in a fragment stays there when more is added. -/
theorem Holds.append {fragment part : Fragment} (h : fragment.Holds part) (further : Fragment) :
    (fragment ++ further).Holds part :=
  List.infix_append_of_infix_left h

end Fragment

namespace TableFiles

/-- The texts of the keys that a mutation hook makes stale. -/
def invalidatedTexts (blueprint : Blueprint) (factory : KeyFactory) (row : Option RowId) :
    List String :=
  (KeyExpr.invalidated factory.keys row).map (keyText blueprint factory)

/-- The files of a table hold a hook for its lists, one for its rows, and one for each mutation.
They store under the key of the list and of the row, and make stale what a mutation invalidates:
a creation knows no row, and the other mutations are about the row that the query is about. -/
structure Entries.Hooked (blueprint : Blueprint) (factory : KeyFactory) (table : Table)
    (entries : Entries) : Prop where
  list : ∃ entry ∈ entries.queries, entry.field = table.entityNames.allField ∧
    ∃ optional scope, entry.fragment.Holds (.queryHook true table.entityNames.all optional
      (keyText blueprint factory .list) scope)
  one : ∃ entry ∈ entries.queries, entry.field = table.entityNames.oneField ∧
    ∃ optional scope, entry.fragment.Holds (.queryHook true table.entityNames.one optional
      (keyText blueprint factory (.detail (.ofTable table))) scope)
  create : ∃ entry ∈ entries.mutations, entry.field = table.entityNames.createField ∧
    ∃ key, entry.fragment.Holds (.mutationHook true table.entityNames.create key
      (invalidatedTexts blueprint factory none))
  update : ∃ entry ∈ entries.mutations, entry.field = table.entityNames.updateField ∧
    ∃ key, entry.fragment.Holds (.mutationHook true table.entityNames.update key
      (invalidatedTexts blueprint factory (some (.ofTable table))))
  delete : ∃ entry ∈ entries.mutations, entry.field = table.entityNames.deleteField ∧
    ∃ key, entry.fragment.Holds (.mutationHook true table.entityNames.delete key
      (invalidatedTexts blueprint factory (some (.ofTable table))))

variable {blueprint : Blueprint} (factory : KeyFactory) (table : Table)

/-- The file of a mutation has the hook that makes its keys stale. -/
theorem mutation_holds_hook (hooks : blueprint.settings.hooks = true) (names : OperationNames)
    (action : String) (template : Request) (row : Option RowId) :
    (mutation blueprint factory table names action template row).Holds
      (.mutationHook true names (mutationKey blueprint factory action)
        (invalidatedTexts blueprint factory row)) := by
  unfold mutation
  rw [hooks]
  exact Fragment.holds_append _ _

/-- All mutations of a table have such hooks. -/
theorem entries_hooked (hooks : blueprint.settings.hooks = true) (templates : TableTemplates) :
    (entries blueprint factory table templates).Hooked blueprint factory table := by
  constructor
  · refine ⟨_, List.mem_cons_self, rfl, Fragment.allOptional templates.all.document,
      scopeType blueprint factory, ?_⟩
    show (list blueprint factory table templates).Holds _
    unfold list
    rw [hooks]
    -- The first row of a list has no hook: what belongs to it follows the hook of the list.
    iterate 5 apply Fragment.Holds.append
    exact Fragment.holds_append _ _
  · refine ⟨_, List.mem_cons_of_mem _ List.mem_cons_self, rfl,
      Fragment.allOptional templates.one.document, scopeType blueprint factory, ?_⟩
    show (one blueprint factory table templates).Holds _
    unfold one
    rw [hooks]
    exact Fragment.holds_append _ _
  · exact ⟨_, List.mem_cons_self, rfl, _, mutation_holds_hook factory table hooks _ _ _ _⟩
  · exact ⟨_, List.mem_cons_of_mem _ List.mem_cons_self, rfl, _,
      mutation_holds_hook factory table hooks _ _ _ _⟩
  · exact ⟨_, List.mem_cons_of_mem _ (List.mem_cons_of_mem _ List.mem_cons_self), rfl, _,
      mutation_holds_hook factory table hooks _ _ _ _⟩

end TableFiles

/-! ## Rows -/

namespace Call

/-- The calls that are about a row of a table are templates with another binding. -/
structure RowsRebind (catalog : Catalog) (settings : Settings) (table : Table) : Prop where
  one : ∀ key, ∃ template root, Rebinds catalog settings none (findOne table key) template root
  update : ∀ key patch, ∃ template root,
    Rebinds catalog settings none (update table (some key) (some patch) rfl) template root
  delete : ∀ key, ∃ template root, Rebinds catalog settings none (delete table key) template root

/-- Where the templates of a table can be made, its requests bind what the templates declare. -/
theorem rowsRebind_of_eq_ok {blueprint : Blueprint} {table : Table} {templates : TableTemplates}
    (h : TableTemplates.of blueprint table = .ok templates) :
    RowsRebind blueprint.catalog blueprint.settings table := by
  -- Lists and the creation come in between, and are not about a row.
  obtain ⟨_, -, h⟩ := exists_of_bind_eq_ok h
  obtain ⟨_, -, h⟩ := exists_of_bind_eq_ok h
  obtain ⟨_, hone, h⟩ := exists_of_bind_eq_ok h
  obtain ⟨_, -, h⟩ := exists_of_bind_eq_ok h
  obtain ⟨_, hupdate, h⟩ := exists_of_bind_eq_ok h
  obtain ⟨_, hdelete, -⟩ := exists_of_bind_eq_ok h
  obtain ⟨one, hone, -⟩ := exists_of_bind_eq_ok hone
  obtain ⟨update, hupdate, -⟩ := exists_of_bind_eq_ok hupdate
  obtain ⟨delete, hdelete, -⟩ := exists_of_bind_eq_ok hdelete
  constructor
  · exact fun key => ⟨one, exists_rebinds hone⟩
  · exact fun key patch => ⟨update, exists_rebinds hupdate⟩
  · exact fun key => ⟨delete, exists_rebinds hdelete⟩

/-- A mutation makes the row of a key stale, whatever the scope under which the query for the row
stored it. Both read the id of the row off their own variables. -/
def MakesRowStale (catalog : Catalog) (settings : Settings) (keys : EntityKeys) (table : Table)
    (key : Json) (mutation : Call) : Prop :=
  ∀ queried mutated, (findOne table key).request catalog settings none = .ok queried →
    mutation.request catalog settings none = .ok mutated → ∀ scope,
      KeyExpr.MakesStale keys settings.keys.style
        (KeyExpr.invalidated keys (some (.ofTable table))) mutated.values.entries
        ((KeyExpr.detail (.ofTable table)).value keys settings.keys.style queried.values.entries
          scope)

variable {catalog : Catalog} {settings : Settings} {table : Table}

/-- A row is looked up with the values of its key. -/
theorem values_findOne (rebind : RowsRebind catalog settings table) {key : Json}
    {queried : Request}
    (h : (findOne table key).request catalog settings none = .ok queried) :
    queried.values = Slot.values (Request.keySlots table (some key)) := by
  obtain ⟨template, root, hrebinds⟩ := rebind.one key
  rw [hrebinds.values_eq h, slots_findOne]

/-- A row is deleted with the values of its key. -/
theorem values_delete (rebind : RowsRebind catalog settings table) {key : Json}
    {deleted : Request} (h : (delete table key).request catalog settings none = .ok deleted) :
    deleted.values = Slot.values (Request.keySlots table (some key)) := by
  obtain ⟨template, root, hrebinds⟩ := rebind.delete key
  rw [hrebinds.values_eq h, slots_delete]

/-- A change has the patch as one more variable. -/
theorem values_update (rebind : RowsRebind catalog settings table) {key patch : Json}
    {updated : Request}
    (h : (update table (some key) (some patch) rfl).request catalog settings none = .ok updated) :
    updated.values.entries =
      (Slot.values (Request.keySlots table (some key))).entries.insert "patch" patch := by
  obtain ⟨template, root, hrebinds⟩ := rebind.update key patch
  have hslots := slots_update settings table (some key) (some patch) rfl
  rw [hrebinds.values_eq h]
  exact (congrArg (fun slots => (Slot.values slots).entries) hslots).trans
    (Slot.values_append_singleton _ _ _ _)

/-- To delete a row makes the key stale under which the row was looked up. -/
theorem delete_makesRowStale (rebind : RowsRebind catalog settings table) (keys : EntityKeys)
    (key : Json) : (delete table key).MakesRowStale catalog settings keys table key := by
  intro queried deleted hqueried hdeleted scope
  by_cases hscoped : keys.isScoped = true
  · exact KeyExpr.makesStale_of_isScoped keys _ _ _ scope hscoped _ _
  · rw [Bool.not_eq_true] at hscoped
    rw [KeyExpr.makesStale_detail_iff keys _ _ _ scope hscoped, values_findOne rebind hqueried,
      values_delete rebind hdeleted]

/-- Without ancestors, a change makes its row stale exactly if the id of the row stays the same with
the patch as one more variable. -/
theorem update_makesStale_iff (rebind : RowsRebind catalog settings table) {keys : EntityKeys}
    (unscoped : keys.isScoped = false) {key patch : Json} {queried updated : Request}
    (hqueried : (findOne table key).request catalog settings none = .ok queried)
    (hupdated : (update table (some key) (some patch) rfl).request catalog settings none =
      .ok updated) (scope : Entries Json) :
    KeyExpr.MakesStale keys settings.keys.style
        (KeyExpr.invalidated keys (some (.ofTable table))) updated.values.entries
        ((KeyExpr.detail (.ofTable table)).value keys settings.keys.style queried.values.entries
          scope) ↔
      (RowId.ofTable table).value
          ((Slot.values (Request.keySlots table (some key))).entries.insert "patch" patch) =
        (RowId.ofTable table).value (Slot.values (Request.keySlots table (some key))).entries := by
  rw [KeyExpr.makesStale_detail_iff keys _ _ _ scope unscoped, values_findOne rebind hqueried,
    values_update rebind hupdated]

/-- Where the id of a row is the text of all variables, no change makes the row stale: the patch
adds to the text. -/
theorem update_leaves_row (rebind : RowsRebind catalog settings table) {keys : EntityKeys}
    (unscoped : keys.isScoped = false) (composite : table.primaryKey.isSingle = false)
    (hpatch : "patch" ∉ table.primaryKey.names) {key patch : Json} {queried updated : Request}
    (hqueried : (findOne table key).request catalog settings none = .ok queried)
    (hupdated : (update table (some key) (some patch) rfl).request catalog settings none =
      .ok updated) (scope : Entries Json) :
    ¬ KeyExpr.MakesStale keys settings.keys.style
        (KeyExpr.invalidated keys (some (.ofTable table))) updated.values.entries
        ((KeyExpr.detail (.ofTable table)).value keys settings.keys.style queried.values.entries
          scope) := by
  -- Only key columns are variables of the query, so the patch is a new one.
  have hnew : "patch" ∉ (Slot.values (Request.keySlots table (some key))).keys := by
    intro hmem
    obtain ⟨slot, hslot, hname⟩ := List.mem_map.1 ((Slot.mem_keys_values _ _).1 hmem)
    obtain ⟨field, hfield, rfl⟩ := List.mem_map.1 (List.mem_filter.1 hslot).1
    exact hpatch (hname ▸ List.mem_map_of_mem hfield)
  rw [update_makesStale_iff rebind unscoped hqueried hupdated]
  exact RowId.value_insert_ne _ composite hnew patch

/-- A key that gives a value for every column. -/
def fullKey (table : Table) : Json :=
  .object (table.primaryKey.names.map fun name => (name, .string ""))

/-- With a value for every column no slot of a key is left out. -/
theorem isMissing_fullKey {slot : Slot}
    (h : slot ∈ Request.keySlots table (some (fullKey table))) : slot.isMissing = false := by
  obtain ⟨field, hfield, rfl⟩ := List.mem_map.1 h
  have hname : field.name ∈ table.primaryKey.names := List.mem_map_of_mem hfield
  have hkeys : field.name ∈ Entries.keys (table.primaryKey.names.map fun name =>
      (name, Json.string "")) := by
    rw [Entries.keys, List.map_map]
    exact List.mem_map.2 ⟨field.name, hname, rfl⟩
  obtain ⟨value, hvalue⟩ := Option.isSome_iff_exists.1 (Entries.find?_isSome_iff.2 hkeys)
  have hslot : Request.keyValue table.primaryKey field.name (fullKey table) = some value := hvalue
  show (_ && (Request.keyValue table.primaryKey field.name (fullKey table)).isNone) = false
  rw [hslot]
  exact Bool.and_false _

/-- With a value for every column, the row is found and changed. -/
theorem exists_requests_fullKey (rebind : RowsRebind catalog settings table) (patch : Json) :
    (∃ queried, (findOne table (fullKey table)).request catalog settings none = .ok queried) ∧
      ∃ updated, (update table (some (fullKey table)) (some patch) rfl).request catalog settings
        none = .ok updated := by
  constructor
  · obtain ⟨template, root, hrebinds⟩ := rebind.one (fullKey table)
    refine hrebinds.exists_request ?_
    rw [slots_findOne]
    exact fun slot hslot => isMissing_fullKey hslot
  · obtain ⟨template, root, hrebinds⟩ := rebind.update (fullKey table) patch
    refine hrebinds.exists_request fun slot hslot => ?_
    have hslots := slots_update settings table (some (fullKey table)) (some patch) rfl
    replace hslot : slot ∈ Request.keySlots table (some (fullKey table)) ++ _ := hslots ▸ hslot
    rcases List.mem_append.1 hslot with hslot | hslot
    · exact isMissing_fullKey hslot
    · obtain rfl := List.mem_singleton.1 hslot
      rfl

/-- Every change makes its row stale exactly if the entity has ancestors, or the id of a row is read
off the only key column and this is not what the patch is called. -/
theorem update_makesRowStale_iff (rebind : RowsRebind catalog settings table) (keys : EntityKeys) :
    (∀ key patch, (update table (some key) (some patch) rfl).MakesRowStale catalog settings keys
      table key) ↔
      keys.isScoped = true ∨
        (table.primaryKey.isSingle = true ∧ table.primaryKey.first.name ≠ "patch") := by
  by_cases hscoped : keys.isScoped = true
  · refine iff_of_true (fun key patch queried updated _ _ scope => ?_) (.inl hscoped)
    exact KeyExpr.makesStale_of_isScoped keys _ _ _ scope hscoped _ _
  rw [Bool.not_eq_true] at hscoped
  constructor
  · intro hall
    apply Decidable.byContradiction
    intro hneither
    have hpatch : table.primaryKey.isSingle = true → "patch" = table.primaryKey.first.name :=
      fun single => Decidable.byContradiction fun hne => hneither (.inr ⟨single, Ne.symm hne⟩)
    -- The row of some key is not made stale by a change with the right patch.
    obtain ⟨patch, hne⟩ := RowId.exists_value_insert_ne
      (Slot.values (Request.keySlots table (some (fullKey table)))).entries hpatch
    obtain ⟨⟨queried, hqueried⟩, updated, hupdated⟩ := exists_requests_fullKey rebind patch
    have hstale := hall (fullKey table) patch queried updated hqueried hupdated []
    rw [update_makesStale_iff rebind hscoped hqueried hupdated] at hstale
    exact hne hstale
  · rintro (htrue | ⟨single, hname⟩)
    · rw [hscoped] at htrue
      cases htrue
    · intro key patch queried updated hqueried hupdated scope
      rw [update_makesStale_iff rebind hscoped hqueried hupdated]
      exact RowId.value_insert_of_isSingle _ single (Ne.symm hname) patch

end Call

/-! ## Packages -/

/-- Every table of a package has its files, and where hooks are wanted, they hold them. Every
mutation of the table makes all of its lists stale, with whatever variables and under whatever scope
they are stored. A deletion makes its row stale. Every change makes its row stale exactly if the
entity has ancestors, or the id of a row is read off the only key column and this is not what the
patch is called. -/
theorem Package.hooks_make_stale {schema : Schema} {settings : Settings} {parts : Parts}
    (h : Parts.of schema settings = .ok parts) (hooks : settings.hooks = true) {table : Table}
    (htable : table ∈ schema.tables) :
    ∃ factory entries, parts.blueprint.keys.factory? table.entityKey = some factory ∧
      entries ∈ parts.tables ∧ entries.Hooked parts.blueprint factory table ∧
      (∀ row given given' scope, KeyExpr.MakesStale factory.keys settings.keys.style
        (KeyExpr.invalidated factory.keys row) given'
        (KeyExpr.list.value factory.keys settings.keys.style given scope)) ∧
      (∀ key, (Call.delete table key).MakesRowStale parts.blueprint.catalog settings factory.keys
        table key) ∧
      ((∀ key patch, (Call.update table (some key) (some patch) rfl).MakesRowStale
        parts.blueprint.catalog settings factory.keys table key) ↔
        factory.keys.isScoped = true ∨
          (table.primaryKey.isSingle = true ∧ table.primaryKey.first.name ≠ "patch")) := by
  obtain ⟨factory, templates, hfactory, htemplates, hentries⟩ := Parts.exists_of_mem_tables h htable
  have hsettings : parts.blueprint.settings = settings := by
    rw [(Parts.isOf_of_eq_ok h).blueprint_eq]
    rfl
  have rebind : Call.RowsRebind parts.blueprint.catalog settings table := by
    rw [← hsettings]
    exact Call.rowsRebind_of_eq_ok htemplates
  refine ⟨factory, _, hfactory, hentries, ?_, ?_, ?_, ?_⟩
  · exact TableFiles.entries_hooked factory table (hsettings ▸ hooks) templates
  · intro row given given' scope
    exact KeyExpr.makesStale_list factory.keys _ given given' scope row
  · intro key
    exact Call.delete_makesRowStale rebind factory.keys key
  · exact Call.update_makesRowStale_iff rebind factory.keys

namespace Sample

/-- A badge has one key column. -/
def badgeTable : Table where
  name := "Badge"
  fields := [⟨"code", .scalar "ID", none⟩, ⟨"title", .scalar "String", none⟩]
  constraints := some { primaryKey := [{ fields := ["code"] }] }

/-- Badges and memberships. -/
def clubSchema : Schema := { tables := [badgeTable, memberTable] }

/-- The parts of the client for badges and memberships can be made. -/
theorem exists_clubParts : ∃ parts, Package.Parts.of clubSchema {} = .ok parts :=
  Package.exists_parts_of_unconfigured _ _ (fun _ => rfl) (fun _ => rfl)

/-- Every change of a badge makes the badge stale. -/
theorem badge_change_makes_stale :
    ∃ parts factory entries, Package.Parts.of clubSchema {} = .ok parts ∧
      entries ∈ parts.tables ∧ entries.Hooked parts.blueprint factory badgeTable ∧
      ∀ key patch, (Call.update badgeTable (some key) (some patch) rfl).MakesRowStale
        parts.blueprint.catalog {} factory.keys badgeTable key := by
  obtain ⟨parts, hparts⟩ := exists_clubParts
  obtain ⟨factory, entries, -, hmem, hooked, -, -, hupdate⟩ :=
    Package.hooks_make_stale hparts rfl List.mem_cons_self
  exact ⟨parts, factory, entries, hparts, hmem, hooked, hupdate.2 (.inr ⟨rfl, by decide⟩)⟩

/-- The key of a membership. -/
def memberKey : Json := .object [("groupId", .string "g"), ("userId", .string "u")]

/-- After a change of a membership, which sets nothing, the membership is still in the cache: its
query stored it under a key that the hook of the change does not invalidate. -/
theorem member_change_leaves_row :
    ∃ parts factory queried updated, Package.Parts.of clubSchema {} = .ok parts ∧
      parts.blueprint.keys.factory? memberTable.entityKey = some factory ∧
      (Call.findOne memberTable memberKey).request parts.blueprint.catalog {} none = .ok queried ∧
      (Call.update memberTable (some memberKey) (some (.object [])) rfl).request
        parts.blueprint.catalog {} none = .ok updated ∧
      ¬ KeyExpr.MakesStale factory.keys .centralized
        (KeyExpr.invalidated factory.keys (some (.ofTable memberTable))) updated.values.entries
        ((KeyExpr.detail (.ofTable memberTable)).value factory.keys .centralized
          queried.values.entries []) := by
  obtain ⟨parts, hparts⟩ := exists_clubParts
  have hblueprint := (Package.Parts.isOf_of_eq_ok hparts).blueprint_eq
  obtain ⟨factory, templates, hfactory, htemplates, -⟩ := Package.Parts.exists_of_mem_tables hparts
    (List.mem_cons_of_mem _ List.mem_cons_self : memberTable ∈ clubSchema.tables)
  have rebind := Call.rowsRebind_of_eq_ok htemplates
  rw [hblueprint] at hfactory rebind
  obtain ⟨queried, hqueried⟩ : ∃ queried, (Call.findOne memberTable memberKey).request
      (Blueprint.of clubSchema {}).catalog {} none = .ok queried := ⟨_, rfl⟩
  obtain ⟨updated, hupdated⟩ : ∃ updated,
      (Call.update memberTable (some memberKey) (some (.object [])) rfl).request
        (Blueprint.of clubSchema {}).catalog {} none = .ok updated := ⟨_, rfl⟩
  have unscoped : factory.keys.isScoped = false := by
    obtain rfl : KeyFactory.ofTable ({} : Settings).keys.parents memberTable = factory :=
      Option.some.inj hfactory
    rfl
  refine ⟨parts, factory, queried, updated, hparts, ?_⟩
  rw [hblueprint]
  exact ⟨hfactory, hqueried, hupdated,
    Call.update_leaves_row rebind unscoped rfl (by decide) hqueried hupdated []⟩

end Sample

end GraphClient
