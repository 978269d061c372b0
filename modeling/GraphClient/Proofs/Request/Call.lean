import GraphClient.Proofs.Schema.WellFormed
import GraphClient.Request.Custom
import GraphClient.Request.Table

/-!
# Calls and their templates

The seven ways to make a request differ in their slots and in where the arguments stand below the
root field. Apart from that they do the same: a request is its template with another binding in
place.

* `Call` : a request with the values of a caller; `Call.request`, `Call.template`.
* `Call.slots`, `Call.placed` : what sets one kind of call apart from another, told from the names
  of the table or the operation and from the values of the caller alone.
* `Request.rebound` : a request with another binding in place.
* `Call.DeclaresAll`, `Call.Rebinds` : what a template holds, and that a call is its template
  rebound.
-/

namespace GraphClient

/-- What a caller gives for a column of a key: an object holds it under the name of the column, and
any other value is the column itself, if the key has no other one. -/
def PrimaryKey.given? (key : PrimaryKey) (column : String) : Json → Option Json
  | .object fields => Entries.find? fields column
  | value => if key.fields.length = 1 then some value else none

/-- A request for a table or a custom operation, with the values that a caller gives. A change needs
a key or a patch: with neither of them it is a template. -/
inductive Call where
  | findMany (table : Table) (arguments : ListArguments)
  | findFirst (table : Table) (arguments : ListArguments)
  | findOne (table : Table) (key : Json)
  | create (table : Table) (data : Json)
  | update (table : Table) (key patch : Option Json) (given : (key <|> patch).isSome = true)
  | delete (table : Table) (key : Json)
  | custom (operation : CustomOperation) (values : Entries Json)

namespace Call

/-- The request with the values of the caller. -/
def request (catalog : Catalog) (settings : Settings) (selection : Option Selection) :
    Call → Except RequestError Request
  | findMany table arguments => Request.findMany catalog settings table selection (some arguments)
  | findFirst table arguments => Request.findFirst catalog settings table selection (some arguments)
  | findOne table key => Request.findOne catalog settings table selection (some key)
  | create table data => Request.create catalog settings table selection (some data)
  | update table key patch _ => Request.update catalog settings table selection key patch
  | delete table key => Request.delete catalog settings table selection (some key)
  | custom operation values => Request.custom catalog settings operation selection (some values)

/-- The same request without any value. -/
def template (catalog : Catalog) (settings : Settings) (selection : Option Selection) :
    Call → Except RequestError Request
  | findMany table _ => Request.findMany catalog settings table selection none
  | findFirst table _ => Request.findFirst catalog settings table selection none
  | findOne table _ => Request.findOne catalog settings table selection none
  | create table _ => Request.create catalog settings table selection none
  | update table _ _ _ => Request.update catalog settings table selection none none
  | delete table _ => Request.delete catalog settings table selection none
  | custom operation _ => Request.custom catalog settings operation selection none

/-- The slots, with the values that the caller gives for them. A list is chosen by a filter and an
order, and all but the first row of it can be cut to a part. A row is told by a column of its key
each, data comes as an object with the entity in it, and a custom operation has its arguments. -/
def slots (settings : Settings) : Call → List Slot
  | findMany table arguments =>
    [⟨settings.page.filter, .inputObject table.entityNames.filterType, arguments.filter⟩,
      ⟨settings.page.order, .list (.nonNull (.enumeration table.entityNames.orderByType)),
        arguments.orderBy.map fun values => .array (values.map .string)⟩,
      ⟨"first", .scalar "Int", arguments.first.map fun n => .int n⟩,
      ⟨"last", .scalar "Int", arguments.last.map fun n => .int n⟩,
      ⟨"offset", .scalar "Int", arguments.offset.map fun n => .int n⟩,
      ⟨"before", .scalar "Cursor", arguments.before.map .string⟩,
      ⟨"after", .scalar "Cursor", arguments.after.map .string⟩]
  | findFirst table arguments =>
    [⟨settings.page.filter, .inputObject table.entityNames.filterType, arguments.filter⟩,
      ⟨settings.page.order, .list (.nonNull (.enumeration table.entityNames.orderByType)),
        arguments.orderBy.map fun values => .array (values.map .string)⟩]
  | findOne table key | delete table key =>
    table.primaryKey.fields.map fun column =>
      ⟨column.name, column.type, table.primaryKey.given? column.name key⟩
  | create table data =>
    [⟨"input", .nonNull (.inputObject table.entityNames.createInputType),
      some (.object [(table.entityNames.entityField, data)])⟩]
  | update table key patch _ =>
    (table.primaryKey.fields.map fun column =>
      ⟨column.name, column.type, key.bind (table.primaryKey.given? column.name)⟩) ++
        [⟨"patch", .nonNull (.inputObject table.entityNames.patchType), patch⟩]
  | custom operation values =>
    operation.arguments.map fun argument =>
      ⟨argument.name, argument.type, Entries.find? values argument.name⟩

/-- The table that a call is about, if it is not a custom operation. -/
def table? : Call → Option Table
  | findMany table _ | findFirst table _ | findOne table _ | create table _ | update table _ _ _
  | delete table _ => some table
  | custom .. => none

/-- The arguments of the root field, where the arguments that pass variables on are given. -/
def placed (arguments : List (String × Literal)) : Call → List (String × Literal)
  | findFirst .. => arguments ++ [("first", .int 1)]
  | update .. | delete .. => [("input", .object arguments)]
  | findMany .. | findOne .. | create .. | custom .. => arguments

/-! ## Slots and requests -/

/-- What a key gives for a column does not depend on how the request reads it. -/
theorem keyValue_eq_given? (key : PrimaryKey) (column : String) (value : Json) :
    Request.keyValue key column value = key.given? column value := by
  cases value <;> simp [Request.keyValue, PrimaryKey.given?, PrimaryKey.isSingle, PrimaryKey.fields]

variable (settings : Settings) (table : Table)

/-- The slots of a list are those that a request for a list binds. -/
theorem slots_findMany (arguments : ListArguments) :
    (findMany table arguments).slots settings =
      Request.choosingSlots table.entityNames settings.page arguments ++
        Request.pagingSlots arguments := rfl

/-- The slots of a first row are those that a request for it binds. -/
theorem slots_findFirst (arguments : ListArguments) :
    (findFirst table arguments).slots settings =
      Request.choosingSlots table.entityNames settings.page arguments := rfl

/-- The slots of a row are those that a request by its key binds. -/
theorem slots_findOne (key : Json) :
    (findOne table key).slots settings = Request.keySlots table (some key) := by
  simp [slots, Request.keySlots, keyValue_eq_given?]

/-- The slots of a deletion are those of the row. -/
theorem slots_delete (key : Json) :
    (delete table key).slots settings = Request.keySlots table (some key) :=
  slots_findOne settings table key

/-- The slots of a change are those of the row, and the patch. -/
theorem slots_update (key patch : Option Json) (given : (key <|> patch).isSome = true) :
    (update table key patch given).slots settings = Request.keySlots table key ++
      [⟨"patch", .nonNull (.inputObject table.entityNames.patchType), patch⟩] := by
  have hvalue (column : String) : Request.keyValue table.primaryKey column =
      table.primaryKey.given? column := funext fun value => keyValue_eq_given? _ column value
  simp [slots, Request.keySlots, hvalue]

/-- The slots of a custom operation are those that a request for it binds. -/
theorem slots_custom (operation : CustomOperation) (values : Entries Json) :
    (custom operation values).slots settings = Request.argumentSlots operation (some values) := rfl

end Call

/-! ## Slots without values -/

/-- A slot whose value is taken away. -/
def Slot.blank (slot : Slot) : Slot := { slot with value := none }

/-- The values of slots do not count for what a template declares. -/
theorem Binding.of_map_blank (slots : List Slot) (values : Keyed Json) :
    Binding.of (slots.map Slot.blank) values = Binding.of slots values := by
  simp [Binding.of, Slot.blank, Slot.declaration, Slot.argument, Function.comp_def]

namespace Request

/-- Without values, the slots that choose rows are those of a template. -/
theorem map_blank_choosingSlots (names : EntityNames) (page : PageNames)
    (arguments : ListArguments) :
    (choosingSlots names page arguments).map Slot.blank = choosingSlots names page {} := rfl

/-- Without values, the slots for pages are those of a template. -/
theorem map_blank_pagingSlots (arguments : ListArguments) :
    (pagingSlots arguments).map Slot.blank = pagingSlots {} := rfl

/-- Without values, the slots of a key are those of a template. -/
theorem map_blank_keySlots (table : Table) (key : Option Json) :
    (keySlots table key).map Slot.blank = keySlots table none := by
  simp [keySlots, Slot.blank]

/-- Without values, the slots for arguments are those of a template. -/
theorem map_blank_argumentSlots (operation : CustomOperation) (values : Option (Entries Json)) :
    (argumentSlots operation values).map Slot.blank = argumentSlots operation none := by
  simp [argumentSlots, Slot.blank]

/-! ## Another binding in the place of the old one -/

/-- A request with another binding: the declarations, the values and the arguments of the root field
are replaced. -/
def rebound (request : Request) (root : FieldNode) (arguments : List (String × Literal))
    (binding : Binding) : Request :=
  { request with
    document := { request.document with
      declarations := binding.declarations
      selection := [{ root with arguments := arguments }] }
    values := binding.values }

/-- The request for a custom operation, where the projection of the answer is known. -/
def answered (page : PageNames) (operation : CustomOperation) (projection : Option Projection)
    (binding : Binding) : Request where
  document := {
    kind := operation.kind
    name := (OperationNames.ofField operation.name operation.kind).operation
    declarations := binding.declarations
    selection := [⟨operation.name, binding.arguments, answerNodes page operation projection⟩] }
  values := binding.values
  path := [operation.name]
  firstRow := false
  projection := projection

/-- A template binds all slots, and none to a value. -/
theorem bind_template (operation : String) (slots : List Slot) :
    bind operation .template slots = .ok (Binding.of slots Keyed.empty) := rfl

/-- The answer of a custom operation is looked at last, which makes no difference for a template:
its binding does not fail. -/
theorem custom_none_eq (catalog : Catalog) (settings : Settings) (operation : CustomOperation)
    (selection : Option Selection) :
    custom catalog settings operation selection none = (do
      let projection ← answerProjection? catalog settings operation selection
      let binding ← bind (OperationNames.ofField operation.name operation.kind).operation .template
        (argumentSlots operation none)
      return answered settings.page operation projection binding) := by
  rw [custom]
  cases answerProjection? catalog settings operation selection <;> rfl

end Request

namespace Call

/-- A template declares a variable for every slot, passes all of them on below its root field, and
binds nothing. -/
structure DeclaresAll (settings : Settings) (call : Call) (template : Request) (root : FieldNode) :
    Prop where
  selection_eq : template.document.selection = [root]
  declared : template.document.declarations =
    (call.slots settings).map fun slot => ⟨slot.name, slot.type⟩
  passed : root.arguments =
    call.placed ((call.slots settings).map fun slot => (slot.name, .reference slot.name))
  values_eq : template.values = Keyed.empty

namespace DeclaresAll

variable {settings : Settings} {call : Call} {template : Request} {root : FieldNode}

/-- A template declares one variable for every slot of the call. -/
theorem declarations_eq (h : DeclaresAll settings call template root) :
    template.document.declarations = (call.slots settings).map (·.declaration) := h.declared

/-- The root field of a template passes every slot of the call on. -/
theorem arguments_eq (h : DeclaresAll settings call template root) :
    root.arguments = call.placed ((call.slots settings).map (·.argument)) := h.passed

end DeclaresAll

/-- A call is its template rebound: it puts the binding at run time in the place of the binding of
the template. -/
structure Rebinds (catalog : Catalog) (settings : Settings) (selection : Option Selection)
    (call : Call) (template : Request) (root : FieldNode) : Prop where
  declaresAll : call.DeclaresAll settings template root
  request_eq : call.request catalog settings selection =
    (Request.bind template.document.name .runtime (call.slots settings)).map fun binding =>
      template.rebound root (call.placed binding.arguments) binding

variable {catalog : Catalog} {settings : Settings} {selection : Option Selection}

/-- A call is its template rebound if both complete a binding in the same way, with something that
does not depend on the values of the caller. -/
theorem Rebinds.of_complete {α : Type} {call : Call} {template : Request} {operation : String}
    {blank : List Slot} (fixed : Except RequestError α) (complete : α → Binding → Request)
    (root : α → FieldNode) (hblank : (call.slots settings).map Slot.blank = blank)
    (htemplate : (do
      let value ← fixed
      let binding ← Request.bind operation .template blank
      return complete value binding) = .ok template)
    (hrequest : ∀ value, fixed = .ok value → call.request catalog settings selection =
      (Request.bind operation .runtime (call.slots settings)).map (complete value))
    (hname : ∀ value binding, (complete value binding).document.name = operation)
    (hcomplete : ∀ value binding binding', complete value binding' =
      (complete value binding).rebound (root value) (call.placed binding'.arguments) binding') :
    ∃ root, Rebinds catalog settings selection call template root := by
  cases fixed with
  | error cause => cases htemplate
  | ok value =>
    -- What the template holds is read off from replacing its binding by itself.
    have heq : complete value (.of (call.slots settings) Keyed.empty) = template := by
      rw [Request.bind_template, ← hblank, Binding.of_map_blank] at htemplate
      exact Except.ok.inj htemplate
    have hself := hcomplete value (.of (call.slots settings) Keyed.empty)
      (.of (call.slots settings) Keyed.empty)
    rw [heq] at hself
    refine ⟨{ root value with arguments := call.placed ((call.slots settings).map (·.argument)) },
      ⟨?_, ?_, rfl, ?_⟩, ?_⟩
    · rw [hself]
      rfl
    · rw [hself]
      rfl
    · rw [hself]
      rfl
    · rw [hrequest value rfl, ← heq, hname]
      congr 1
      funext binding
      exact hcomplete value _ binding

/-- Every call is its template rebound: by the kind of the call. -/
theorem exists_rebinds {call : Call} {template : Request}
    (h : call.template catalog settings selection = .ok template) :
    ∃ root, Rebinds catalog settings selection call template root := by
  cases call with
  | findMany table arguments =>
    refine Rebinds.of_complete (Request.rowProjection catalog settings table selection) _
      (fun projection => ⟨table.entityNames.allField, [],
        Request.pageNodes settings.page projection⟩) ?_ h ?_ (fun _ _ => rfl) (fun _ _ _ => ?_)
    · rw [slots_findMany, List.map_append, Request.map_blank_choosingSlots,
        Request.map_blank_pagingSlots]
      rfl
    · intro projection hprojection
      rw [request, Request.findMany, hprojection]
      rfl
    · simp [Request.rebound, Request.listDocument, placed]
  | findFirst table arguments =>
    refine Rebinds.of_complete (Request.rowProjection catalog settings table selection) _
      (fun projection => ⟨table.entityNames.allField, [],
        Request.pageNodes settings.page projection⟩)
      (Request.map_blank_choosingSlots table.entityNames settings.page arguments) h ?_
      (fun _ _ => rfl) (fun _ _ _ => rfl)
    intro projection hprojection
    rw [request, Request.findFirst, hprojection]
    rfl
  | findOne table key =>
    refine Rebinds.of_complete (Request.rowProjection catalog settings table selection) _
      (fun projection => ⟨table.entityNames.oneField, [], projection.nodes settings.page⟩)
      ?_ h ?_ (fun _ _ => rfl) (fun _ _ _ => rfl)
    all_goals rw [slots_findOne]
    · exact Request.map_blank_keySlots table (some key)
    · intro projection hprojection
      rw [request, Request.findOne, hprojection]
      rfl
  | create table data =>
    refine Rebinds.of_complete (Request.rowProjection catalog settings table selection) _
      (fun projection => ⟨table.entityNames.createField, [],
        [.withSelection table.entityNames.entityField (projection.nodes settings.page)]⟩)
      rfl h ?_ (fun _ _ => rfl) (fun _ _ _ => rfl)
    intro projection hprojection
    rw [request, Request.create, hprojection]
    rfl
  | update table key patch given =>
    refine Rebinds.of_complete (Request.rowProjection catalog settings table selection) _
      (fun projection => ⟨table.entityNames.updateField, [],
        [.withSelection table.entityNames.entityField (projection.nodes settings.page)]⟩)
      ?_ h ?_ (fun _ _ => rfl) (fun _ _ _ => rfl)
    all_goals rw [slots_update]
    · rw [List.map_append, Request.map_blank_keySlots]
      rfl
    · -- Only because something is given, the request is not a template itself.
      intro projection hprojection
      rw [request, Request.update, hprojection, BindingMode.ofSupplied, if_pos given]
      rfl
  | delete table key =>
    refine Rebinds.of_complete (Request.deletedProjection catalog settings table selection) _
      (fun projection => ⟨table.entityNames.deleteField, [],
        [.withSelection table.entityNames.entityField (projection.nodes settings.page)]⟩)
      ?_ h ?_ (fun _ _ => rfl) (fun _ _ _ => rfl)
    all_goals rw [slots_delete]
    · exact Request.map_blank_keySlots table (some key)
    · intro projection hprojection
      rw [request, Request.delete, hprojection]
      rfl
  | custom operation values =>
    -- The template is made in the order of the other calls, the answer first.
    refine Rebinds.of_complete (Request.answerProjection? catalog settings operation selection)
      (Request.answered settings.page operation) (fun projection => ⟨operation.name, [],
        Request.answerNodes settings.page operation projection⟩)
      (Request.map_blank_argumentSlots operation (some values))
      ((Request.custom_none_eq catalog settings operation selection).symm.trans h) ?_
      (fun _ _ => rfl) (fun _ _ _ => rfl)
    intro projection hprojection
    rw [request, Request.custom, hprojection]
    rfl

/-- A call that succeeds misses no required slot, and puts the slots that have a value in the place
of those of its template. -/
theorem Rebinds.eq_rebound {call : Call} {template request : Request} {root : FieldNode}
    (h : Rebinds catalog settings selection call template root)
    (hrequest : call.request catalog settings selection = .ok request) :
    (∀ slot ∈ call.slots settings, slot.isMissing = false) ∧
      request = template.rebound root
        (call.placed (((call.slots settings).filter (·.value.isSome)).map (·.argument)))
        (.of ((call.slots settings).filter (·.value.isSome))
          (Slot.values (call.slots settings))) := by
  rw [h.request_eq] at hrequest
  cases hbinding : Request.bind template.document.name .runtime (call.slots settings) with
  | error cause =>
    rw [hbinding] at hrequest
    cases hrequest
  | ok binding =>
    rw [hbinding] at hrequest
    rcases Request.cases_of_bind hbinding with ⟨hmode, -⟩ | ⟨-, hmissing, rfl⟩
    · cases hmode
    · exact ⟨hmissing, (Except.ok.inj hrequest).symm⟩

/-- A call binds the values of its slots. -/
theorem Rebinds.values_eq {call : Call} {template request : Request} {root : FieldNode}
    (h : Rebinds catalog settings selection call template root)
    (hrequest : call.request catalog settings selection = .ok request) :
    request.values = Slot.values (call.slots settings) := by
  rw [(h.eq_rebound hrequest).2]
  rfl

/-- A call that succeeds has a template. -/
theorem exists_template_of_request {call : Call} {request : Request}
    (h : call.request catalog settings selection = .ok request) :
    ∃ template, call.template catalog settings selection = .ok template := by
  cases call with
  | custom operation values =>
    obtain ⟨binding, -, h⟩ := exists_of_bind_eq_ok h
    obtain ⟨projection, hprojection, -⟩ := exists_of_bind_eq_ok h
    rw [template, Request.custom_none_eq, hprojection]
    exact ⟨_, rfl⟩
  | findMany | findFirst | findOne | create | update | delete =>
    obtain ⟨projection, hprojection, -⟩ := exists_of_bind_eq_ok h
    -- The binding of a template does not fail.
    exact ⟨_, congrArg (· >>= _) hprojection⟩

/-- A call succeeds if it leaves no required slot out. -/
theorem Rebinds.exists_request {call : Call} {template : Request} {root : FieldNode}
    (h : Rebinds catalog settings selection call template root)
    (hslots : ∀ slot ∈ call.slots settings, slot.isMissing = false) :
    ∃ request, call.request catalog settings selection = .ok request := by
  have hmissing : (call.slots settings).find? (·.isMissing) = none :=
    List.find?_eq_none.2 fun slot hmem => by simp [hslots slot hmem]
  rw [h.request_eq, Request.bind, Slot.bind, hmissing]
  exact ⟨_, rfl⟩

end Call

end GraphClient
