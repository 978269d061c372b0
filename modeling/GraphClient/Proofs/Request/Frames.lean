import GraphClient.Proofs.Document.Frame
import GraphClient.Proofs.Document.Harmless
import GraphClient.Proofs.Naming.Spelling
import GraphClient.Proofs.Request.Layout

/-!
# What stands around the rows of a request

The rows of a template stand at the end of a path through its document: below the root field, in the
page of a list or in the payload of a mutation. What stands around them is told by the call alone,
and is written on lines without an end in them if the names that it is made of are spelled.

* `Call.frames` : the fields that lead to the rows.
* `Call.selection_template` : a template is its rows at the end of those fields.
* `Call.oneLine_head`, `Call.oneLine_root` : the first two lines of a template.
-/

namespace GraphClient

open FieldNode (Frame)
open Text (OneLine)

/-! ## Lines without an end in them -/

/-- What is spelled in characters of names is on one line. -/
theorem Spelled.oneLine {text : String} (h : Spelled text) : OneLine text :=
  Text.oneLine_of_forall isNameChar (by decide) h

/-- Fields of spelled keys whose values are on one line. -/
theorem Literal.oneLine_fieldTexts {fields : List (String × Literal)}
    (h : ∀ field ∈ fields, Spelled field.1 ∧ OneLine field.2.text) :
    OneLine (String.intercalate ", " (fieldTexts fields)) := by
  refine Text.oneLine_intercalate (by decide) fun text htext => ?_
  rw [fieldTexts_eq_map] at htext
  obtain ⟨field, hfield, rfl⟩ := List.mem_map.1 htext
  obtain ⟨hkey, hvalue⟩ := h field hfield
  exact (hkey.oneLine.append (by decide)).append hvalue

/-- An object is on one line if its keys and its values are. -/
theorem Literal.oneLine_object {fields : List (String × Literal)}
    (h : ∀ field ∈ fields, Spelled field.1 ∧ OneLine field.2.text) :
    OneLine (Literal.object fields).text := by
  cases fields with
  | nil => decide
  | cons field rest =>
    have hopen : OneLine "\x7b " := by decide
    exact (hopen.append (oneLine_fieldTexts h)).append (by decide)

/-- The head of a field is on one line if its arguments are. -/
theorem FieldNode.oneLine_head {name : String} {arguments : List (String × Literal)}
    (hname : Spelled name)
    (h : ∀ argument ∈ arguments, Spelled argument.1 ∧ OneLine argument.2.text) :
    OneLine (head name arguments) := by
  unfold head
  split
  · exact hname.oneLine
  · exact ((hname.oneLine.append (by decide)).append (Literal.oneLine_fieldTexts h)).append
      (by decide)

/-- Declarations of spelled variables of spelled types are on one line. -/
theorem Document.oneLine_head {document : Document} (hname : Spelled document.name)
    (h : ∀ declaration ∈ document.declarations,
      Spelled declaration.name ∧ Spelled declaration.type.baseName) : OneLine document.head := by
  have hkeyword : OneLine document.kind.keyword := by
    cases document.kind <;> decide
  have hfront := (hkeyword.append (by decide : OneLine " ")).append hname.oneLine
  unfold head
  split
  · exact hfront.append (by decide)
  · have hopen : OneLine "(" := by decide
    refine hfront.append ((hopen.append ?_).append (by decide))
    refine Text.oneLine_intercalate (by decide) fun text htext => ?_
    obtain ⟨declaration, hdeclaration, rfl⟩ := List.mem_map.1 htext
    obtain ⟨hvariable, htype⟩ := h declaration hdeclaration
    have hdollar : OneLine "$" := by decide
    have htext : OneLine declaration.type.text :=
      Text.oneLine_of_forall TypeRef.isTextChar (by decide) (TypeRef.isTextChar_of_mem_text htype)
    exact ((hdollar.append hvariable.oneLine).append (by decide)).append htext

namespace Call

/-! ## The fields that lead to the rows -/

/-- The names of the operation that a call asks for. -/
def names : Call → OperationNames
  | findMany table _ => table.entityNames.all
  | findFirst table _ => table.entityNames.first
  | findOne table _ => table.entityNames.one
  | create table _ => table.entityNames.create
  | update table _ _ _ => table.entityNames.update
  | delete table _ => table.entityNames.delete
  | custom operation _ => .ofField operation.name operation.kind

/-- The fields that lead from the root field to the rows, with what stands beside them. -/
def framesBelow (page : PageNames) : Call → List Frame
  | findMany .. | findFirst .. =>
    [⟨[.leaf page.count], page.rows, [], [.withSelection page.info Request.pageInfoNodes]⟩]
  | create table _ | update table _ _ _ | delete table _ =>
    [⟨[], table.entityNames.entityField, [], []⟩]
  | findOne .. | custom .. => []

/-- The fields that lead to the rows of a template, which passes all its slots on. -/
def frames (settings : Settings) (call : Call) : List Frame :=
  ⟨[], call.rootField, call.placed ((call.slots settings).map (·.argument)), []⟩ ::
    call.framesBelow settings.page

variable {catalog : Catalog} {settings : Settings} {selection : Option Selection} {call : Call}
  {template : Request} {projection : Projection}

/-- The document of a template is called as its operation. -/
theorem name_template (h : call.template catalog settings selection = .ok template) :
    template.document.name = call.names.operation := by
  cases call
  all_goals
    obtain ⟨_, -, h⟩ := exists_of_bind_eq_ok h
    obtain ⟨_, -, h⟩ := exists_of_bind_eq_ok h
    obtain rfl := Except.ok.inj h
    rfl

/-- The document of a template has its rows at the end of the path to them. -/
theorem selection_template (h : call.template catalog settings selection = .ok template)
    (hprojection : template.projection = some projection) :
    template.document.selection =
        Frame.plug (call.frames settings) (projection.nodes settings.page) ∧
      call.rowsPath settings.page template.path = (call.frames settings).map (·.name) := by
  have layout := laidOut (.inr h) hprojection
  obtain ⟨arguments, hselection⟩ := layout.selection_eq
  obtain ⟨root, hrebinds⟩ := exists_rebinds h
  have hroot : root = ⟨call.rootField, arguments, call.rootSelection settings.page projection⟩ :=
    List.singleton_inj.1 (hrebinds.declaresAll.selection_eq.symm.trans hselection)
  have harguments : arguments = call.placed ((call.slots settings).map (·.argument)) := by
    rw [← hrebinds.declaresAll.arguments_eq, hroot]
  constructor
  · rw [hselection, harguments, frames, Frame.plug]
    cases call <;> rfl
  · rw [layout.path_eq, frames]
    cases call <;> rfl

/-! ## Spelled calls -/

/-- The names that a call writes into its document are spelled. -/
structure Spelled (settings : Settings) (call : Call) : Prop where
  operation : GraphClient.Spelled call.names.operation
  root : GraphClient.Spelled call.rootField
  slots : ∀ slot ∈ call.slots settings,
    GraphClient.Spelled slot.name ∧ GraphClient.Spelled slot.type.baseName

/-- The first line of a template is one line. -/
theorem Spelled.oneLine_head (spelled : call.Spelled settings)
    (h : call.template catalog settings selection = .ok template) :
    OneLine template.document.head := by
  obtain ⟨root, hrebinds⟩ := exists_rebinds h
  refine Document.oneLine_head (name_template h ▸ spelled.operation) fun declaration hmem => ?_
  rw [hrebinds.declaresAll.declarations_eq] at hmem
  obtain ⟨slot, hslot, rfl⟩ := List.mem_map.1 hmem
  exact spelled.slots slot hslot

/-- Wherever the slots are passed on, the header of the root field is one line. -/
theorem Spelled.oneLine_root (spelled : call.Spelled settings) :
    OneLine (FieldNode.head call.rootField
      (call.placed ((call.slots settings).map (·.argument)))) := by
  have hpassed : ∀ argument ∈ (call.slots settings).map (·.argument),
      GraphClient.Spelled argument.1 ∧ OneLine argument.2.text := by
    intro argument hargument
    obtain ⟨slot, hslot, rfl⟩ := List.mem_map.1 hargument
    have hname := (spelled.slots slot hslot).1
    have hdollar : OneLine "$" := by decide
    exact ⟨hname, hdollar.append hname.oneLine⟩
  have hinput : GraphClient.Spelled "input" := by decide
  refine FieldNode.oneLine_head spelled.root ?_
  cases call with
  | findFirst =>
    refine List.forall_mem_append.2 ⟨hpassed, List.forall_mem_singleton.2 ?_⟩
    decide
  | update | delete =>
    exact List.forall_mem_singleton.2 ⟨hinput, Literal.oneLine_object hpassed⟩
  | findMany | findOne | create | custom => exact hpassed

/-- The name of an operation is spelled like what it is made from. -/
theorem spelled_operation {names : OperationNames} (h : GraphClient.Spelled names.base) :
    GraphClient.Spelled names.operation := by
  have hending : GraphClient.Spelled names.kind.ending := by
    cases names.kind <;> decide
  exact h.append hending

/-- The slots of a key are spelled in characters of names. -/
theorem spelled_keySlots {table : Table} (named : table.WellNamed) {key : Option Json} :
    ∀ slot ∈ Request.keySlots table key,
      GraphClient.Spelled slot.name ∧ GraphClient.Spelled slot.type.baseName := by
  intro slot hslot
  obtain ⟨field, hfield, rfl⟩ := List.mem_map.1 hslot
  have hnames := Table.isName_of_mem_primaryKey named.columns named.keys hfield
  exact ⟨spelled_of_isName hnames.1, spelled_of_isName hnames.2⟩

/-- The slots that choose rows are spelled in characters of names. -/
theorem spelled_choosingSlots {names : EntityNames} (spelled : names.Spelled) {page : PageNames}
    (worded : page.Worded) {arguments : ListArguments} :
    ∀ slot ∈ Request.choosingSlots names page arguments,
      GraphClient.Spelled slot.name ∧ GraphClient.Spelled slot.type.baseName := by
  simp only [Request.choosingSlots, List.forall_mem_cons]
  exact ⟨⟨spelled_of_isName worded.filter, spelled.filterType⟩,
    ⟨spelled_of_isName worded.order, spelled.orderByType⟩, by simp⟩

/-- A call on a table whose names are names writes nothing but spelled names. -/
theorem spelled_of_table {table : Table} (htable : call.table? = some table)
    (named : table.WellNamed) (worded : settings.page.Worded) : call.Spelled settings := by
  have names := named.spelled
  have hfirst : GraphClient.Spelled "First" := by decide
  have hinput : GraphClient.Spelled "input" := by decide
  have hpatch : GraphClient.Spelled "patch" := by decide
  cases call with
  | custom => cases htable
  | findMany =>
    obtain rfl := Option.some.inj htable
    refine ⟨spelled_operation names.allField.pascalCase, names.allField, ?_⟩
    rw [slots_findMany]
    refine List.forall_mem_append.2 ⟨spelled_choosingSlots names worded, ?_⟩
    simp only [Request.pagingSlots, List.forall_mem_cons]
    decide
  | findFirst =>
    obtain rfl := Option.some.inj htable
    exact ⟨spelled_operation (hfirst.append names.typeName), names.allField,
      spelled_choosingSlots names worded⟩
  | findOne =>
    obtain rfl := Option.some.inj htable
    refine ⟨spelled_operation names.oneField.pascalCase, names.oneField, ?_⟩
    rw [slots_findOne]
    exact spelled_keySlots named
  | create =>
    obtain rfl := Option.some.inj htable
    exact ⟨spelled_operation names.createField.pascalCase, names.createField,
      List.forall_mem_singleton.2 ⟨hinput, names.createInputType⟩⟩
  | update =>
    obtain rfl := Option.some.inj htable
    refine ⟨spelled_operation names.updateField.pascalCase, names.updateField, ?_⟩
    rw [slots_update]
    exact List.forall_mem_append.2 ⟨spelled_keySlots named,
      List.forall_mem_singleton.2 ⟨hpatch, names.patchType⟩⟩
  | delete =>
    obtain rfl := Option.some.inj htable
    refine ⟨spelled_operation names.deleteField.pascalCase, names.deleteField, ?_⟩
    rw [slots_delete]
    exact spelled_keySlots named

end Call

end GraphClient
