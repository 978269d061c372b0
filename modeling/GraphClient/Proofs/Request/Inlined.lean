import GraphClient.Proofs.Document.Harmless
import GraphClient.Proofs.Naming.Spelling
import GraphClient.Proofs.Projection.Arguments
import GraphClient.Proofs.Shape.Origin
import GraphClient.Request.Table

/-!
# Arguments inside documents

The document of a row by its key is read back as it is exactly if the arguments that the selection
puts into it are self-contained. So they are if no bracket and no quotation mark occurs in the keys
of their filters and in their orderings, whatever strings the filters hold. An ordering is written
as it is, and can end the arguments.

* `Schema.ProperNames` : what is called by a name in a schema has a proper one.
* `Request.rowDocument` : the document of a row by its key.
* `Request.findOne_read_iff` : when the document of a row is read back.
-/

namespace GraphClient

open FieldOutline (IsWord isWordChar)

/-! ## Names -/

theorem isWordChar_of_isNameChar {c : Char} (h : isNameChar c = true) : isWordChar c = true := by
  have hmarks := List.all_eq_true.1
    (show marks.all (fun mark => !isNameChar mark) = true by decide)
  have hblanks := List.all_eq_true.1
    (show [' ', '\t', '\r', '\n'].all (fun blank => !isNameChar blank) = true by decide)
  refine FieldOutline.isWordChar_iff.2 ⟨?_, fun hmark => ?_⟩
  · rw [Bool.eq_false_iff]
    intro hblank
    have hmem : c ∈ [' ', '\t', '\r', '\n'] := by
      simpa [Char.isWhitespace, or_assoc] using hblank
    have hother := hblanks c hmem
    rw [h] at hother
    cases hother
  · have hother := hmarks c hmark
    rw [h] at hother
    cases hother

/-- A name is a word. -/
theorem isWord_of_isName {name : String} (h : isName name = true) : IsWord name.toList := by
  obtain ⟨c, rest, htext, -, hchars⟩ := exists_of_isName h
  rw [htext]
  exact ⟨List.cons_ne_nil _ _, fun d hd => isWordChar_of_isNameChar (hchars d hd)⟩

/-- An operation on a root field is called by a word. -/
theorem OperationNames.isWord_operation {field : String} (h : isName field = true)
    (kind : OperationKind) : IsWord (ofField field kind).operation.toList := by
  have hbase : ∀ c ∈ (Text.pascalCase field).toList, isWordChar c = true :=
    fun c hc => isWordChar_of_isNameChar ((spelled_of_isName h).pascalCase c hc)
  have hending : kind.ending.toList ≠ [] ∧ ∀ c ∈ kind.ending.toList, isWordChar c = true := by
    cases kind
    · exact ⟨by decide, List.all_eq_true.1 (by decide)⟩
    · exact ⟨by decide, List.all_eq_true.1 (by decide)⟩
  have hwrite : (ofField field kind).operation.toList =
      (Text.pascalCase field).toList ++ kind.ending.toList := String.toList_append
  rw [hwrite]
  exact ⟨List.append_ne_nil_of_right_ne_nil _ hending.1,
    List.forall_mem_append.2 ⟨hbase, hending.2⟩⟩

/-- What is called by a name in a schema has a proper one. -/
structure Schema.ProperNames (schema : Schema) : Prop where
  columns : ∀ table ∈ schema.tables, ∀ column ∈ table.fields,
    isName column.name = true ∧ isName column.type.baseName = true
  relations : ∀ table ∈ schema.tables, ∀ relation ∈ table.relations.fields,
    isName relation.name = true
  keys : ∀ table ∈ schema.tables, ∀ name ∈ table.declaredKey, isName name = true
  rows : ∀ table ∈ schema.tables, isName table.entityNames.oneField = true
  declared : ∀ type fields, schema.registry.objectFields? type = some fields →
    ∀ definition ∈ fields, isName definition.name = true

namespace Schema.ProperNames

variable {schema : Schema}

/-- The columns of a primary key have proper names, and so have their types. -/
theorem keyField (proper : schema.ProperNames) {table : Table} (htable : table ∈ schema.tables)
    {field : KeyField} (hfield : field ∈ table.primaryKey.fields) :
    isName field.name = true ∧ isName field.type.baseName = true :=
  Table.isName_of_mem_primaryKey (proper.columns table htable) (proper.keys table htable) hfield

/-- The fields that can be selected in a schema with proper names are called by words. -/
theorem worded_catalog (proper : schema.ProperNames) (named : schema.registry.Named)
    {page : PageNames} (hpage : page.Worded) : (Catalog.ofSchema schema page).Worded page where
  count := isWord_of_isName hpage.count
  rows := isWord_of_isName hpage.rows
  field type shape name field hshape hfield := by
    refine isWord_of_isName ?_
    rcases (Catalog.origin_of_find? named hshape).of_field? hfield with
      ⟨wire, declares, -⟩ | ⟨table, htable, -, relation, hrelation, rfl, -⟩
    · cases declares with
      | object found mem => exact proper.declared _ _ found _ mem
      | column htable mem => exact (proper.columns _ htable _ mem).1
    · exact proper.relations table htable relation hrelation

end Schema.ProperNames

/-! ## Documents -/

/-- Declarations of variables with proper names and types are self-contained. -/
theorem Document.selfContained_variablesText {document : Document}
    (h : ∀ declaration ∈ document.declarations,
      isName declaration.name = true ∧ isName declaration.type.baseName = true) :
    SelfContained document.variablesText.toList := by
  have hlist : document.variablesText.toList =
      VariableDeclaration.script.listed document.shownVariables :=
    Script.toList_intercalate_map VariableDeclaration.toList_text _
  rw [hlist]
  refine (neutral_intercalate fun text htext => ?_).selfContained
  obtain ⟨shown, hshown, rfl⟩ := List.mem_map.1 htext
  obtain ⟨declaration, hdeclaration, rfl⟩ := List.mem_map.1 hshown
  obtain ⟨hname, htype⟩ := h declaration hdeclaration
  rw [← VariableDeclaration.toList_text, VariableDeclaration.text, String.toList_append,
    String.toList_append, String.toList_append]
  have hplain : Plain declaration.type.text.toList :=
    plain_of_forall TypeRef.isTextChar (by decide)
      (TypeRef.isTextChar_of_mem_text (isNameChar_of_isName _ htype))
  have hdollar : Plain "$".toList := by decide
  have hcolon : Plain ": ".toList := by decide
  exact neutral_of_plain (((hdollar.append (plain_of_isName hname)).append hcolon).append hplain)

namespace Request

/-- A selection that passes the check is projected as it stands. -/
theorem rowProjection_of_check {catalog : Catalog} {settings : Settings} {table : Table}
    {shape : Shape} (hshape : catalog.find? table.name = some shape) {selection : Selection}
    (accepted : selection.check catalog settings.selection.strictDepth shape = .ok ()) :
    rowProjection catalog settings table (some selection) =
      .ok (selection.project catalog settings.selection.policy shape) := by
  have hshapeOf : shapeOf catalog table = .ok shape := by rw [shapeOf, hshape]
  have hchosen : chosen catalog settings shape (some selection)
      (settings.selection.entities.find? table.name)
      (Selection.defaultFor shape settings.selection.policy) = .ok selection := by
    show checked catalog settings shape selection = .ok selection
    rw [checked, accepted]
  rw [rowProjection, hshapeOf]
  show (chosen _ _ _ _ _ _ >>= _) = _
  rw [hchosen]
  rfl

/-- The document of a row by its key, where some slots are passed on and some fields are
selected. -/
def rowDocument (table : Table) (slots : List Slot) (nodes : List FieldNode) : Document where
  kind := .query
  name := table.entityNames.one.operation
  declarations := slots.map (·.declaration)
  selection := [⟨table.entityNames.oneField, slots.map (·.argument), nodes⟩]

/-- A row by its key is asked for with some of the columns of the key. -/
theorem exists_of_findOne {catalog : Catalog} {settings : Settings} {table : Table}
    {selection : Option Selection} {projection : Projection}
    (hprojection : rowProjection catalog settings table selection = .ok projection)
    {key : Option Json} {request : Request}
    (h : findOne catalog settings table selection key = .ok request) :
    ∃ slots ⊆ keySlots table key,
      request.document = rowDocument table slots (projection.nodes settings.page) := by
  rw [findOne, hprojection] at h
  obtain ⟨binding, hbinding, hrequest⟩ := exists_of_bind_eq_ok
    (show (bind _ _ _ >>= _) = Except.ok request from h)
  obtain ⟨slots, values, rfl, hslots, -⟩ := exists_slots_of_bind hbinding
  obtain rfl := Except.ok.inj hrequest
  exact ⟨slots, hslots, rfl⟩

/-- Only the selected fields decide whether the document of a row is read back: the root field
passes variables on, which have no brackets. -/
theorem rowDocument_read_iff {table : Table} (hrow : isName table.entityNames.oneField = true)
    {slots : List Slot}
    (hslots : ∀ slot ∈ slots, isName slot.name = true ∧ isName slot.type.baseName = true)
    {nodes : List FieldNode} (hnodes : ∀ node ∈ nodes, node.Worded) :
    FieldOutline.read (rowDocument table slots nodes).text.toList =
        some (rowDocument table slots nodes).outline ↔
      ∀ node ∈ nodes, node.Contained := by
  have harguments : SelfContained (FieldNode.argumentsText (slots.map (·.argument))).toList := by
    refine selfContained_argumentsText (fun argument hargument => ?_) fun argument hargument => ?_
    · obtain ⟨slot, hslot, rfl⟩ := List.mem_map.1 hargument
      exact plain_of_isName (hslots slot hslot).1
    · obtain ⟨slot, hslot, rfl⟩ := List.mem_map.1 hargument
      exact .reference (plain_of_isName (hslots slot hslot).1)
  have worded : (rowDocument table slots nodes).Worded := by
    refine ⟨OperationNames.isWord_operation hrow _, ?_, ?_⟩
    · refine Document.selfContained_variablesText fun declaration hdeclaration => ?_
      obtain ⟨slot, hslot, rfl⟩ := List.mem_map.1 hdeclaration
      exact hslots slot hslot
    · exact List.forall_mem_singleton.2 (.intro (isWord_of_isName hrow) hnodes)
  rw [Document.read_text_iff worded]
  show (∀ field ∈ [_], FieldNode.Contained field) ↔ _
  rw [List.forall_mem_singleton]
  constructor
  · intro hroot
    cases hroot with
    | intro _ below => exact below
  · exact fun below => .intro harguments below

/-- The document of a row by its key, for a selection that passes the check: it can be made, and its
outline is read off its text exactly if the arguments that the selection puts into it are
self-contained. So they are if no bracket and no quotation mark occurs in the keys of their filters
and in their orderings. -/
theorem findOne_read_iff {schema : Schema} (named : schema.registry.Named)
    (proper : schema.ProperNames) {settings : Settings} (hpage : settings.page.Worded)
    {table : Table} (htable : table ∈ schema.tables) {shape : Shape}
    (hshape : (Catalog.ofSchema schema settings.page).find? table.name = some shape)
    {selection : Selection}
    (accepted : selection.check (.ofSchema schema settings.page) settings.selection.strictDepth
      shape = .ok ()) :
    (∃ template, findOne (.ofSchema schema settings.page) settings table (some selection) none =
      .ok template) ∧
    ∀ key request, findOne (.ofSchema schema settings.page) settings table (some selection) key =
      .ok request →
      (FieldOutline.read request.document.text.toList = some request.document.outline ↔
        ∀ arguments,
          Choices.Inlines (.ofSchema schema settings.page) shape selection.choices arguments →
            SelfContained (FieldNode.argumentsText (arguments.literals settings.page)).toList) ∧
      ((∀ arguments,
          Choices.Inlines (.ofSchema schema settings.page) shape selection.choices arguments →
            arguments.Plain) →
        FieldOutline.read request.document.text.toList = some request.document.outline) := by
  have worded := proper.worded_catalog named hpage
  have hprojection := rowProjection_of_check hshape accepted
  constructor
  · rw [findOne, hprojection]
    exact ⟨_, rfl⟩
  · intro key request hrequest
    obtain ⟨slots, hsubset, hdocument⟩ := exists_of_findOne hprojection hrequest
    have hslots : ∀ slot ∈ slots, isName slot.name = true ∧ isName slot.type.baseName = true := by
      intro slot hslot
      obtain ⟨field, hfield, rfl⟩ := List.mem_map.1 (hsubset hslot)
      exact proper.keyField htable hfield
    have hnodes : ∀ node ∈ (selection.project (.ofSchema schema settings.page)
        settings.selection.policy shape).nodes settings.page, node.Worded :=
      Choices.worded_nodes worded hshape selection.choices
    have hread : FieldOutline.read request.document.text.toList = some request.document.outline ↔
        ∀ arguments,
          Choices.Inlines (.ofSchema schema settings.page) shape selection.choices arguments →
            SelfContained (FieldNode.argumentsText (arguments.literals settings.page)).toList := by
      rw [hdocument]
      exact (rowDocument_read_iff (proper.rows table htable) hslots hnodes).trans
        (Choices.contained_iff worded hshape selection.choices)
    refine ⟨hread, fun hplain => hread.2 fun arguments hinlines => ?_⟩
    exact (hplain arguments hinlines).selfContained hpage

end Request

namespace Sample

/-- A shelf leads to its books. -/
def shelfTable : Table where
  name := "Shelf"
  fields := [⟨"id", .scalar "ID", none⟩, ⟨"label", .scalar "String", none⟩]
  relations := { hasMany := [⟨some "books", "Book"⟩] }

def shelfSchema : Schema where
  tables := [shelfTable,
    { name := "Book", fields := [⟨"id", .scalar "ID", none⟩, ⟨"title", .scalar "String", none⟩] }]
  registry := .ofList []

theorem properNames_shelfSchema : shelfSchema.ProperNames where
  columns := by decide
  relations := by decide
  keys := by decide
  rows := by decide
  declared := by
    intro type fields h
    cases h

/-- The titles of some books of a shelf. -/
def bookTitles (arguments : PageArguments) : Selection :=
  Selection.empty.nest "books" (.ofFields ["title"]) arguments

/-- A filter for a title that looks like the end of the arguments. -/
def quotedEnd : PageArguments where
  filter := some (.object [("title", .string "\") \x7b label \x7d")])
  orderBy := some ["TITLE_ASC"]

/-- An ordering that ends the arguments, and opens others after two more fields. -/
def writtenEnd : PageArguments where
  orderBy := some ["ID_ASC]) \x7b totalCount \x7d label books(orderBy: [ID_ASC"]

theorem plain_quotedEnd : quotedEnd.Plain where
  filter filter h := by
    obtain rfl := Option.some.inj h
    exact .object (List.forall_mem_singleton.2 (by decide)) (List.forall_mem_singleton.2 .string)
  orderBy values h := by
    obtain rfl := Option.some.inj h
    exact List.forall_mem_singleton.2 (by decide)

/-- The title in the filter ends nothing, as it is quoted. -/
theorem quotedEnd_read : ∃ template,
    Request.findOne (.ofSchema shelfSchema {}) {} shelfTable (some (bookTitles quotedEnd)) none =
      .ok template ∧
    FieldOutline.read template.document.text.toList = some template.document.outline := by
  have named : shelfSchema.registry.Named := TypeRegistry.named_ofList []
  have hpage : ({} : Settings).page.Worded := ⟨by decide, by decide, by decide, by decide⟩
  have htable : shelfTable ∈ shelfSchema.tables := List.mem_cons_self
  have accepted : (bookTitles quotedEnd).check (.ofSchema shelfSchema {})
      ({} : Settings).selection.strictDepth (.ofTable shelfSchema.registry {} shelfTable) =
        .ok () := rfl
  obtain ⟨⟨template, htemplate⟩, hread⟩ :=
    Request.findOne_read_iff named properNames_shelfSchema hpage htable rfl accepted
  refine ⟨template, htemplate, (hread none template htemplate).2 fun arguments hinlines => ?_⟩
  -- There is one nested selection, and none in it.
  cases hinlines with
  | here mem =>
    cases mem with
    | head => exact plain_quotedEnd
    | tail _ h => cases h
  | deeper mem _ _ _ rest =>
    cases mem with
    | tail _ h => cases h
    | head =>
      cases rest with
      | here mem => cases mem with | tail _ h => cases h
      | deeper mem => cases mem with | tail _ h => cases h

/-- The words for the fields below the root fields of a document. -/
def belowRoots (parts : List FieldOutline) : List (List Char) :=
  (parts.flatMap (·.fields)).flatMap fun root => root.fields.map (·.word)

/-- The ordering passes the check, and two more fields than the document has are read. -/
theorem writtenEnd_read :
    (bookTitles writtenEnd).check (.ofSchema shelfSchema {})
      ({} : Settings).selection.strictDepth (.ofTable shelfSchema.registry {} shelfTable) = .ok () ∧
    ∃ template,
      Request.findOne (.ofSchema shelfSchema {}) {} shelfTable (some (bookTitles writtenEnd)) none =
        .ok template ∧
      (FieldOutline.read template.document.text.toList).map belowRoots =
        some ["books".toList, "label".toList, "books".toList] ∧
      belowRoots template.document.outline = ["books".toList] := by
  refine ⟨rfl, _, rfl, ?_, rfl⟩
  rw [Document.toList_text]
  decide +kernel

end Sample

end GraphClient
