import GraphClient.Proofs.Request.Restriction

/-!
# The values of variables

A required variable is bound to what the caller supplies for it: a column of a key, data under the
name of the entity, a patch, or an argument by its name. What is supplied may be a null, with which
the request is made all the same, though no required variable may be null.

A change has a variable for each column of the key and one for the patch. They are apart unless a
column of the key goes by the name of the patch.

* `PrimaryKey.Gives` : what the value of a key tells about a column.
* `Call.Supplies` : what a caller supplies for a required variable.
* `Call.required_bound_iff` : required variables are bound to what is supplied for them, and to
  something other than null exactly if no null is supplied.
* `Request.update_apart_iff` : the variables of a change are apart exactly if no column of the key
  goes by the name of the patch.
-/

namespace GraphClient

/-! ## Values of keys -/

/-- What the value of a key tells about a column: an object holds it under the name of the column,
and any other value is the only column itself. -/
inductive PrimaryKey.Gives (key : PrimaryKey) : Json → String → Json → Prop
  | field {fields : List (String × Json)} {column : String} {value : Json}
      (found : Entries.find? fields column = some value) : Gives key (.object fields) column value
  | bare {value : Json} {column : String} (single : key.isSingle = true)
      (other : ∀ fields, value ≠ .object fields) : Gives key value column value

namespace Request

/-- A key has a value for a column exactly if it gives it. -/
theorem keyValue_eq_some_iff (key : PrimaryKey) (column : String) (given value : Json) :
    keyValue key column given = some value ↔ key.Gives given column value := by
  constructor
  · intro h
    cases given with
    | object fields => exact .field h
    | null | bool | int | float | string | array =>
      obtain ⟨single, heq⟩ := Option.ite_none_right_eq_some.1 h
      obtain rfl := Option.some.inj heq
      exact .bare single (by simp)
  · intro h
    cases h with
    | field found => exact found
    | bare single other =>
      cases given with
      | object fields => exact absurd rfl (other fields)
      | null | bool | int | float | string | array => exact if_pos single

end Request

/-! ## Values of slots -/

namespace Slot

/-- Where the value of a slot depends on its name only, a name among those of the slots is bound to
its value. -/
theorem find?_values {slots : List Slot} (valueOf : String → Option Json)
    (h : ∀ slot ∈ slots, slot.value = valueOf slot.name) (name : String) :
    (values slots).find? name = if name ∈ slots.map (·.name) then valueOf name else none := by
  cases hfind : (values slots).find? name with
  | some value =>
    obtain ⟨slot, hslot, hvalue⟩ := List.mem_filterMap.1 (Entries.mem_of_find?_ofList hfind)
    obtain ⟨_, hsome, heq⟩ := Option.map_eq_some_iff.1 hvalue
    obtain ⟨rfl, rfl⟩ := Prod.mk.inj heq
    rw [if_pos (List.mem_map_of_mem hslot), ← h slot hslot, hsome]
  | none =>
    have hfree : name ∉ (values slots).keys := Entries.find?_eq_none_iff.1 hfind
    rw [mem_keys_values] at hfree
    split
    · next hname =>
      obtain ⟨slot, hslot, rfl⟩ := List.mem_map.1 hname
      rw [← h slot hslot, eq_comm, ← Option.not_isSome_iff_eq_none]
      intro hsome
      exact hfree (List.mem_map_of_mem (List.mem_filter.2 ⟨hslot, hsome⟩))
    · rfl

/-- The slot at the end of a list comes before all others of its name. -/
theorem find?_values_append_singleton (slots : List Slot) (last : String) (type : TypeRef)
    (value : Json) (name : String) :
    (values (slots ++ [⟨last, type, some value⟩])).find? name =
      if last = name then some value else (values slots).find? name := by
  rw [Keyed.find?, values_append_singleton, Entries.find?_insert]
  rfl

/-- Where all slots are required, all of them have a value if none is missing. -/
theorem filter_isSome_of_isRequired {slots : List Slot}
    (required : ∀ slot ∈ slots, slot.type.isRequired = true)
    (complete : ∀ slot ∈ slots, slot.isMissing = false) :
    slots.filter (·.value.isSome) = slots :=
  List.filter_eq_self.2 fun slot hslot =>
    isSome_of_isMissing_eq_false (complete slot hslot) (required slot hslot)

end Slot

namespace Request

/-- There is a slot for every column of the key. -/
theorem map_name_keySlots (table : Table) (key : Option Json) :
    (keySlots table key).map (·.name) = table.primaryKey.names := by
  simp [keySlots, PrimaryKey.names]

/-- All slots of a key are required. -/
theorem isRequired_of_mem_keySlots {table : Table} {key : Option Json} {slot : Slot}
    (h : slot ∈ keySlots table key) : slot.type.isRequired = true := by
  obtain ⟨field, hfield, rfl⟩ := List.mem_map.1 h
  exact Table.isRequired_of_mem_primaryKey hfield

/-- A column of the key is bound to what the given key has for it. -/
theorem find?_values_keySlots (table : Table) (key : Option Json) (name : String) :
    (Slot.values (keySlots table key)).find? name =
      if name ∈ table.primaryKey.names then key.bind (keyValue table.primaryKey name)
      else none := by
  rw [← map_name_keySlots table key]
  refine Slot.find?_values (fun name => key.bind (keyValue table.primaryKey name)) ?_ name
  intro slot hslot
  obtain ⟨field, -, rfl⟩ := List.mem_map.1 hslot
  rfl

/-- The required slots of a key are those of its columns. -/
theorem exists_keySlot_iff (table : Table) (key : Option Json) (name : String) :
    (∃ slot ∈ keySlots table key, slot.name = name ∧ slot.type.isRequired = true) ↔
      name ∈ table.primaryKey.names := by
  rw [← map_name_keySlots table key, List.mem_map]
  constructor
  · rintro ⟨slot, hslot, hname, -⟩
    exact ⟨slot, hslot, hname⟩
  · rintro ⟨slot, hslot, hname⟩
    exact ⟨slot, hslot, hname, isRequired_of_mem_keySlots hslot⟩

/-- A column of the key is bound to what the key gives for it. -/
theorem find?_values_keySlots_eq_some_iff (table : Table) (key : Json) (name : String)
    (value : Json) :
    (Slot.values (keySlots table (some key))).find? name = some value ↔
      name ∈ table.primaryKey.names ∧ table.primaryKey.Gives key name value := by
  rw [find?_values_keySlots, Option.ite_none_right_eq_some, Option.bind_some, keyValue_eq_some_iff]

/-- There is a slot for every declared argument. -/
theorem map_name_argumentSlots (operation : CustomOperation) (values : Option (Entries Json)) :
    (argumentSlots operation values).map (·.name) = operation.arguments.map (·.name) := by
  simp [argumentSlots]

/-- An argument is bound to the value under its name. -/
theorem find?_values_argumentSlots (operation : CustomOperation) (values : Entries Json)
    (name : String) :
    (Slot.values (argumentSlots operation (some values))).find? name =
      if name ∈ operation.arguments.map (·.name) then Entries.find? values name else none := by
  rw [← map_name_argumentSlots operation (some values)]
  refine Slot.find?_values (Entries.find? values) ?_ name
  intro slot hslot
  obtain ⟨argument, -, rfl⟩ := List.mem_map.1 hslot
  rfl

end Request

/-! ## What is supplied -/

namespace Call

/-- What a caller supplies for a required variable. Of a change, a column of the key that goes by
the name of the patch gets the patch. -/
inductive Supplies : Call → String → Json → Prop
  | findOne {table : Table} {key : Json} {column : String} {value : Json}
      (mem : column ∈ table.primaryKey.names) (gives : table.primaryKey.Gives key column value) :
      Supplies (.findOne table key) column value
  | delete {table : Table} {key : Json} {column : String} {value : Json}
      (mem : column ∈ table.primaryKey.names) (gives : table.primaryKey.Gives key column value) :
      Supplies (.delete table key) column value
  | create {table : Table} {data : Json} :
      Supplies (.create table data) "input" (.object [(table.entityNames.entityField, data)])
  | key {table : Table} {key : Json} {patch : Option Json} {given} {column : String} {value : Json}
      (mem : column ∈ table.primaryKey.names) (apart : column ≠ "patch")
      (gives : table.primaryKey.Gives key column value) :
      Supplies (.update table (some key) patch given) column value
  | patch {table : Table} {key : Option Json} {patch : Json} {given} :
      Supplies (.update table key (some patch) given) "patch" patch
  | argument {operation : CustomOperation} {values : Entries Json} {argument : InputValue}
      {value : Json} (mem : argument ∈ operation.arguments)
      (required : argument.type.isRequired = true)
      (found : Entries.find? values argument.name = some value) :
      Supplies (.custom operation values) argument.name value

variable {catalog : Catalog} {settings : Settings} {selection : Option Selection}

/-- The values that are bound to the names of required slots are those that the caller supplies, by
the kind of the call. -/
theorem supplies_iff {call : Call}
    (complete : ∀ slot ∈ call.slots settings, slot.isMissing = false) (name : String)
    (value : Json) :
    call.Supplies name value ↔
      (∃ slot ∈ call.slots settings, slot.name = name ∧ slot.type.isRequired = true) ∧
        (Slot.values (call.slots settings)).find? name = some value := by
  cases call with
  | findMany | findFirst =>
    -- Nothing is required of a list.
    constructor
    · intro supplied
      cases supplied
    · rintro ⟨⟨slot, hslot, -, required⟩, -⟩
      simp only [slots, List.mem_cons, List.not_mem_nil, or_false] at hslot
      rcases hslot with rfl | rfl | rfl | rfl | rfl | rfl | rfl <;> cases required
  | findOne table key =>
    rw [slots_findOne, Request.exists_keySlot_iff, Request.find?_values_keySlots_eq_some_iff]
    constructor
    · intro supplied
      cases supplied with
      | findOne mem gives => exact ⟨mem, mem, gives⟩
    · rintro ⟨-, mem, gives⟩
      exact .findOne mem gives
  | delete table key =>
    rw [slots_delete, Request.exists_keySlot_iff, Request.find?_values_keySlots_eq_some_iff]
    constructor
    · intro supplied
      cases supplied with
      | delete mem gives => exact ⟨mem, mem, gives⟩
    · rintro ⟨-, mem, gives⟩
      exact .delete mem gives
  | create table data =>
    have hvalues : (Slot.values ((create table data).slots settings)).find? name =
        if "input" = name then some (.object [(table.entityNames.entityField, data)]) else none :=
      Slot.find?_values_append_singleton [] "input" _ _ name
    rw [hvalues, Option.ite_none_right_eq_some]
    constructor
    · intro supplied
      cases supplied with
      | create => exact ⟨⟨_, List.mem_cons_self, rfl, rfl⟩, rfl, rfl⟩
    · rintro ⟨-, rfl, heq⟩
      obtain rfl := Option.some.inj heq
      exact .create
  | update table key patch given =>
    -- The patch is required, so that it is not left out.
    obtain ⟨patch, rfl⟩ : ∃ change, patch = some change :=
      Option.isSome_iff_exists.1 (Slot.isSome_of_isMissing_eq_false
        (complete _ (List.mem_append_right _ List.mem_cons_self)) rfl)
    rw [slots_update, Slot.find?_values_append_singleton]
    constructor
    · intro supplied
      cases supplied with
      | patch => exact ⟨⟨_, List.mem_append_right _ List.mem_cons_self, rfl, rfl⟩, if_pos rfl⟩
      | key mem apart gives =>
        obtain ⟨slot, hslot, hname⟩ := (Request.exists_keySlot_iff table _ name).2 mem
        refine ⟨⟨slot, List.mem_append_left _ hslot, hname⟩, ?_⟩
        rw [if_neg apart.symm, Request.find?_values_keySlots_eq_some_iff]
        exact ⟨mem, gives⟩
    · rintro ⟨-, hfind⟩
      split at hfind
      · next hname =>
        obtain rfl := Option.some.inj hfind
        subst hname
        exact .patch
      · next apart =>
        cases key with
        | none => simp [Request.find?_values_keySlots] at hfind
        | some key =>
          rw [Request.find?_values_keySlots_eq_some_iff] at hfind
          exact .key hfind.1 (Ne.symm apart) hfind.2
  | custom operation values =>
    rw [slots_custom, Request.find?_values_argumentSlots, Option.ite_none_right_eq_some]
    constructor
    · intro supplied
      cases supplied with
      | argument mem required found =>
        exact ⟨⟨_, List.mem_map_of_mem mem, rfl, required⟩, List.mem_map_of_mem mem, found⟩
    · rintro ⟨⟨slot, hslot, rfl, required⟩, -, found⟩
      obtain ⟨argument, hargument, rfl⟩ := List.mem_map.1 hslot
      exact .argument hargument required found

/-- A request misses no required slot, binds the values of its slots, and declares all of them that
are required. -/
theorem declares_required_slots {call : Call} {request : Request}
    (h : call.request catalog settings selection = .ok request) :
    (∀ slot ∈ call.slots settings, slot.isMissing = false) ∧
      request.values = Slot.values (call.slots settings) ∧
      ∀ declaration, declaration.type.isRequired = true →
        (declaration ∈ request.document.declarations ↔
          ∃ slot ∈ call.slots settings, slot.declaration = declaration) := by
  obtain ⟨template, htemplate⟩ := exists_template_of_request h
  obtain ⟨root, hrebinds⟩ := exists_rebinds htemplate
  obtain ⟨complete, rfl⟩ := hrebinds.eq_rebound h
  refine ⟨complete, rfl, ?_⟩
  intro declaration required
  show declaration ∈ ((call.slots settings).filter _).map _ ↔ _
  rw [List.mem_map]
  constructor
  · rintro ⟨slot, hslot, heq⟩
    exact ⟨slot, (List.mem_filter.1 hslot).1, heq⟩
  · rintro ⟨slot, hslot, rfl⟩
    have hvalue := Slot.isSome_of_isMissing_eq_false (complete slot hslot) required
    exact ⟨slot, List.mem_filter.2 ⟨hslot, hvalue⟩, rfl⟩

/-- Every required variable of a request is bound to what the caller supplies for it. It is never
null exactly if the caller supplies no null for a required variable. -/
theorem required_bound_iff {call : Call} {request : Request}
    (h : call.request catalog settings selection = .ok request) :
    (∀ declaration ∈ request.document.declarations, declaration.type.isRequired = true →
      ∃ value, call.Supplies declaration.name value ∧
        request.values.find? declaration.name = some value) ∧
    ((∀ declaration ∈ request.document.declarations, declaration.type.isRequired = true →
      ∃ value, request.values.find? declaration.name = some value ∧ value ≠ .null) ↔
        ∀ name, ¬ call.Supplies name .null) := by
  obtain ⟨complete, hvalues, hdeclared⟩ := declares_required_slots h
  rw [hvalues]
  have bound : ∀ declaration ∈ request.document.declarations,
      declaration.type.isRequired = true → ∃ value, call.Supplies declaration.name value ∧
        (Slot.values (call.slots settings)).find? declaration.name = some value := by
    intro declaration hmem required
    obtain ⟨slot, hslot, rfl⟩ := (hdeclared declaration required).1 hmem
    have hkey : slot.name ∈ (Slot.values (call.slots settings)).keys := by
      rw [Slot.mem_keys_values]
      have hvalue := Slot.isSome_of_isMissing_eq_false (complete slot hslot) required
      exact List.mem_map_of_mem (List.mem_filter.2 ⟨hslot, hvalue⟩)
    obtain ⟨value, hvalue⟩ := Option.isSome_iff_exists.1 (Entries.find?_isSome_iff.2 hkey)
    exact ⟨value, (supplies_iff complete _ _).2 ⟨⟨slot, hslot, rfl, required⟩, hvalue⟩, hvalue⟩
  refine ⟨bound, ?_, ?_⟩
  · intro never name supplied
    obtain ⟨⟨slot, hslot, rfl, required⟩, hnull⟩ := (supplies_iff complete _ _).1 supplied
    have hmem := (hdeclared slot.declaration required).2 ⟨slot, hslot, rfl⟩
    obtain ⟨value, hvalue, hne⟩ := never slot.declaration hmem required
    exact hne (Option.some.inj (hvalue.symm.trans hnull))
  · intro never declaration hmem required
    obtain ⟨value, supplied, hvalue⟩ := bound declaration hmem required
    refine ⟨value, hvalue, ?_⟩
    rintro rfl
    exact never _ supplied

end Call

namespace Sample

/-- Both columns of the key of a member. -/
def bothColumns : Json := .object [("groupId", .string "a"), ("userId", .string "b")]

/-- A member is asked for by a key without a null, and no variable is null. -/
theorem bothColumns_not_null : ∃ request,
    (Call.findOne memberTable bothColumns).request members {} none = .ok request ∧
    ∀ declaration ∈ request.document.declarations, declaration.type.isRequired = true →
      ∃ value, request.values.find? declaration.name = some value ∧ value ≠ .null := by
  obtain ⟨request, h⟩ : ∃ request,
      (Call.findOne memberTable bothColumns).request members {} none = .ok request := ⟨_, rfl⟩
  refine ⟨request, h, (Call.required_bound_iff h).2.2 ?_⟩
  intro name supplied
  cases supplied with
  | findOne mem gives =>
    cases gives with
    | field found =>
      obtain ⟨-, hnull⟩ | ⟨-, hnull⟩ : name = "groupId" ∧ Json.string "a" = .null ∨
          name = "userId" ∧ Json.string "b" = .null := by
        simpa using Entries.mem_of_find? found
      · cases hnull
      · cases hnull

/-- A draft is addressed by its number. -/
def draftTable : Table where
  name := "Draft"
  fields := [⟨"id", .scalar "Int", none⟩, ⟨"title", .scalar "String", none⟩]

def drafts : Catalog := ⟨Keyed.ofList [("Draft", .ofTable {} {} draftTable)]⟩

/-- The request for the draft of the number null is made, with a required variable that is null. -/
theorem draft_by_null : ∃ request,
    (Call.findOne draftTable .null).request drafts {} none = .ok request ∧
    ∃ declaration ∈ request.document.declarations, declaration.type.isRequired = true ∧
      request.values.find? declaration.name = some .null :=
  ⟨_, rfl, _, List.mem_cons_self, rfl, rfl⟩

end Sample

/-! ## Changes -/

namespace Request

/-- The key and the patch of a change are apart: its variables have different names, and so have the
entries of its input. If values are given, each column of the key is bound to what the key gives for
it, and the patch is bound to what is given as the patch. -/
structure ChangesApart (request : Request) (table : Table) (key patch : Option Json) : Prop where
  declared : (request.document.declarations.map (·.name)).Nodup
  inputs : ∃ root fields, request.document.selection = [root] ∧
    root.arguments = [("input", .object fields)] ∧ (Entries.keys fields).Nodup
  bound : (key <|> patch).isSome = true → ∃ given change, key = some given ∧ patch = some change ∧
    (∀ column ∈ table.primaryKey.names, ∃ value, table.primaryKey.Gives given column value ∧
      request.values.find? column = some value) ∧
    request.values.find? "patch" = some change

/-- The slots of a change. -/
def changeSlots (table : Table) (key patch : Option Json) : List Slot :=
  keySlots table key ++ [⟨"patch", .nonNull (.inputObject table.entityNames.patchType), patch⟩]

/-- There is a slot for every column of the key, and one for the patch. -/
theorem map_name_changeSlots (table : Table) (key patch : Option Json) :
    (changeSlots table key patch).map (·.name) = table.primaryKey.names ++ ["patch"] := by
  rw [changeSlots, List.map_append, map_name_keySlots]
  rfl

/-- All slots of an update are required. -/
theorem isRequired_of_mem_changeSlots {table : Table} {key patch : Option Json} {slot : Slot}
    (h : slot ∈ changeSlots table key patch) : slot.type.isRequired = true := by
  rcases List.mem_append.1 h with h | h
  · exact isRequired_of_mem_keySlots h
  · rw [List.mem_singleton.1 h]
    rfl

variable {catalog : Catalog} {settings : Settings} {table : Table} {selection : Option Selection}
  {key patch : Option Json} {request : Request}

/-- A change declares all its slots, be it a template or not, since they are required. If values are
given, none of them is missing, and their values are bound. -/
theorem exists_of_update (h : update catalog settings table selection key patch = .ok request) :
    ∃ projection values, request = rowMutation table.entityNames settings.page
        table.entityNames.update table.entityNames.updateField
        (.of (changeSlots table key patch) values)
        [("input", .object ((changeSlots table key patch).map (·.argument)))] projection ∧
      ((key <|> patch).isSome = true →
        (∀ slot ∈ changeSlots table key patch, slot.isMissing = false) ∧
          values = Slot.values (changeSlots table key patch)) := by
  obtain ⟨projection, -, h⟩ := exists_of_bind_eq_ok h
  obtain ⟨binding, hbinding, h⟩ := exists_of_bind_eq_ok h
  obtain rfl := Except.ok.inj h
  replace hbinding : bind table.entityNames.update.operation (.ofSupplied (key <|> patch))
      (changeSlots table key patch) = .ok binding := hbinding
  rcases cases_of_bind hbinding with ⟨hmode, rfl⟩ | ⟨-, complete, rfl⟩
  · refine ⟨projection, _, rfl, fun given => ?_⟩
    rw [BindingMode.ofSupplied, if_pos given] at hmode
    cases hmode
  · rw [Slot.filter_isSome_of_isRequired (fun _ => isRequired_of_mem_changeSlots) complete]
    exact ⟨projection, _, rfl, fun _ => ⟨complete, rfl⟩⟩

/-- Where no slot of a change is missing, a key and a patch are given, and each column of the key is
among what the key gives. -/
theorem exists_given_of_complete
    (complete : ∀ slot ∈ changeSlots table key patch, slot.isMissing = false) :
    ∃ given change, key = some given ∧ patch = some change ∧
      ∀ column ∈ table.primaryKey.names, ∃ value, table.primaryKey.Gives given column value := by
  have hvalue : ∀ slot ∈ changeSlots table key patch, slot.value.isSome = true :=
    fun slot hslot => Slot.isSome_of_isMissing_eq_false (complete slot hslot)
      (isRequired_of_mem_changeSlots hslot)
  obtain ⟨change, hchange⟩ := Option.isSome_iff_exists.1
    (hvalue _ (List.mem_append_right _ List.mem_cons_self))
  have hcolumn : ∀ field ∈ table.primaryKey.fields,
      ∃ given value, key = some given ∧ table.primaryKey.Gives given field.name value := by
    intro field hfield
    obtain ⟨value, h⟩ := Option.isSome_iff_exists.1
      (hvalue _ (List.mem_append_left _ (List.mem_map_of_mem hfield)))
    obtain ⟨given, hgiven, hgives⟩ := Option.bind_eq_some_iff.1 h
    exact ⟨given, value, hgiven, (keyValue_eq_some_iff _ _ _ _).1 hgives⟩
  -- A key has a first column, so that it is given even where nothing else is asked of it.
  obtain ⟨given, -, hgiven, -⟩ := hcolumn table.primaryKey.first List.mem_cons_self
  refine ⟨given, change, hgiven, hchange, fun column hmem => ?_⟩
  obtain ⟨field, hfield, rfl⟩ := List.mem_map.1 hmem
  obtain ⟨given', value, hgiven', hgives⟩ := hcolumn field hfield
  obtain rfl := Option.some.inj (hgiven.symm.trans hgiven')
  exact ⟨value, hgives⟩

/-- The key and the patch of a change are apart exactly if no column of the key goes by the name of
the patch. -/
theorem update_apart_iff (nodup : table.primaryKey.names.Nodup)
    (h : update catalog settings table selection key patch = .ok request) :
    request.ChangesApart table key patch ↔ "patch" ∉ table.primaryKey.names := by
  obtain ⟨projection, values, rfl, hgiven⟩ := exists_of_update h
  have hnames : ((Binding.of (changeSlots table key patch) values).declarations.map (·.name)) =
      table.primaryKey.names ++ ["patch"] := by
    rw [← map_name_changeSlots table key patch, Binding.of, List.map_map]
    rfl
  have hkeys : Entries.keys ((changeSlots table key patch).map (·.argument)) =
      table.primaryKey.names ++ ["patch"] := by
    rw [← map_name_changeSlots table key patch, Entries.keys, List.map_map]
    rfl
  constructor
  · intro apart hmem
    have hvariables : (table.primaryKey.names ++ ["patch"]).Nodup := hnames ▸ apart.declared
    exact (List.nodup_append.1 hvariables).2.2 _ hmem _ List.mem_cons_self rfl
  · intro apart
    have hnodup : (table.primaryKey.names ++ ["patch"]).Nodup := by
      refine List.nodup_append.2 ⟨nodup, by simp, fun column hmem last hlast => ?_⟩
      rw [List.mem_singleton.1 hlast]
      rintro rfl
      exact apart hmem
    refine ⟨hnames.symm ▸ hnodup, ⟨_, _, rfl, rfl, hkeys.symm ▸ hnodup⟩, fun hsome => ?_⟩
    obtain ⟨complete, rfl⟩ := hgiven hsome
    obtain ⟨given, change, rfl, rfl, hgives⟩ := exists_given_of_complete complete
    refine ⟨given, change, rfl, rfl, fun column hmem => ?_, ?_⟩
    · obtain ⟨value, hvalue⟩ := hgives column hmem
      refine ⟨value, hvalue, ?_⟩
      show (Slot.values (changeSlots table (some given) (some change))).find? column = some value
      -- The patch stands at the end, and would come before a column of its name.
      have hne : "patch" ≠ column := by
        rintro rfl
        exact apart hmem
      rw [changeSlots, Slot.find?_values_append_singleton, if_neg hne,
        find?_values_keySlots_eq_some_iff]
      exact ⟨hmem, hvalue⟩
    · show (Slot.values (changeSlots table (some given) (some change))).find? "patch" = some change
      rw [changeSlots, Slot.find?_values_append_singleton, if_pos rfl]

end Request

namespace Sample

/-- Gives a member another role. -/
def memberRole : Json := .object [("role", .string "owner")]

/-- The role of a member is changed apart from its key. -/
theorem memberRole_apart : memberTable.primaryKey.names.Nodup ∧ ∃ request,
    Request.update members {} memberTable none (some bothColumns) (some memberRole) = .ok request ∧
    request.ChangesApart memberTable (some bothColumns) (some memberRole) := by
  have nodup : memberTable.primaryKey.names.Nodup := by decide
  obtain ⟨request, h⟩ : ∃ request, Request.update members {} memberTable none
      (some bothColumns) (some memberRole) = .ok request := ⟨_, rfl⟩
  exact ⟨nodup, request, h, (Request.update_apart_iff nodup h).2 (by decide)⟩

/-- A release is addressed by the number of its patch. -/
def releaseTable : Table where
  name := "Release"
  fields := [⟨"patch", .scalar "Int", none⟩, ⟨"notes", .scalar "String", none⟩]
  constraints := some { primaryKey := [{ fields := ["patch"] }] }

def releases : Catalog := ⟨Keyed.ofList [("Release", .ofTable {} {} releaseTable)]⟩

/-- The change of a release declares one variable twice, and the number is lost to the patch. -/
theorem release_not_apart : releaseTable.primaryKey.names.Nodup ∧ ∃ request,
    Request.update releases {} releaseTable none (some (.int 3))
      (some (.object [("notes", .string "x")])) = .ok request ∧
    ¬ request.ChangesApart releaseTable (some (.int 3)) (some (.object [("notes", .string "x")])) ∧
    request.values.find? "patch" = some (.object [("notes", .string "x")]) := by
  refine ⟨by decide, _, rfl, fun apart => ?_, rfl⟩
  have hvariables : ["patch", "patch"].Nodup := apart.declared
  simp at hvariables

end Sample

end GraphClient
