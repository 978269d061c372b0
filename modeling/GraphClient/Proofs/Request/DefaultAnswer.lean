import GraphClient.Proofs.Projection.Faithful
import GraphClient.Proofs.Projection.Skeleton
import GraphClient.Proofs.Request.Call
import GraphClient.Proofs.Request.Sites

/-!
# Answers that nobody selected

Where neither the caller nor the settings select the answer of a custom operation, all leaves of its
shape and of the shapes below are asked for. The shapes come from the schema, so every field of the
document is selected where the schema has it. They do not hold all that the schema says: a page may
declare no number of rows, and yet every page is asked for it; and a field below the root field
passes no arguments, whether it requires some or not.

* `FieldNode.SelectedFor.fits` : the field that is selected for a field of a shape fits.
* `Choices.nodes_allScalars` : the fields of all leaves fit the schema.
* `Request.custom_accepted_iff` : when the registry accepts the document of a custom operation
  without a selection.
-/

namespace GraphClient

/-! ## One field -/

/-- The field that is selected for a field of a shape with a name and a type. What is selected below
it stands where an object of the related type does. -/
inductive FieldNode.SelectedFor (schema : Schema) (page : PageNames) (name : String) :
    ShapeType → FieldNode → Prop
  | leaf : SelectedFor schema page name .leaf (.leaf name)
  | object {related : String} {list : Bool} {selection : List FieldNode} (nonempty : selection ≠ [])
      (below : ∀ node ∈ selection, node.Fits schema page (.object related)) :
      SelectedFor schema page name (.object related list) ⟨name, [], selection⟩
  | connection {related : String} {selection : List FieldNode} (nonempty : selection ≠ [])
      (below : ∀ node ∈ selection, node.Fits schema page (.object related)) :
      SelectedFor schema page name (.connection related)
        ⟨name, [], [.leaf page.count, ⟨page.rows, [], selection⟩]⟩

namespace FieldNode.SelectedFor

variable {schema : Schema} {page : PageNames} {name : String} {node : FieldNode}

/-- A field of a wire type fits. Below a type that counts as a page stand its number of rows and
its rows. -/
theorem fits_of_typed {wire : TypeRef}
    (h : SelectedFor schema page name (.ofWire schema.registry page wire) node) {type : String}
    (found : schema.fieldDeclaration? type name = some (.typed wire)) :
    node.Fits schema page (.object type) := by
  rcases ShapeType.ofWire_cases schema.registry page wire with
    ⟨hkind, htype⟩ | ⟨hkind, hpage, list, htype⟩ | ⟨hkind, hlist, related, hpage, htype⟩
  all_goals rw [htype] at h
  · cases h
    exact .declared found (by simp [FieldDeclaration.HoldsObject, hkind]) (by simp)
  · cases h with
    | object nonempty below =>
      refine .declared found (iff_of_true nonempty hkind) ?_
      have hsite : wire.site schema.registry page = .object wire.baseName :=
        if_neg (by rcases hpage with h | h <;> simp [h])
      rw [FieldDeclaration.site, hsite]
      exact below
  · cases h with
    | connection nonempty below =>
      refine .declared found (iff_of_true (List.cons_ne_nil _ _) hkind) ?_
      have hsite : wire.site schema.registry page = .wrapper wire.baseName :=
        if_pos (by simp [hlist, hpage])
      rw [FieldDeclaration.site, hsite]
      intro child hchild
      rcases List.mem_cons.1 hchild with rfl | hchild
      · exact .count hpage
      · obtain rfl := List.mem_singleton.1 hchild
        exact .rows hpage nonempty below

/-- A relation fits, to one row or to the pages of many. -/
theorem fits_of_relation {relation : RelationField}
    (h : SelectedFor schema page name relation.shapeField.type node) {type : String}
    (found : schema.fieldDeclaration? type name = some (.relation relation)) :
    node.Fits schema page (.object type) := by
  unfold RelationField.shapeField at h
  split at h
  · next hcollection =>
    cases h with
    | connection nonempty below =>
      refine .declared found (iff_of_true (List.cons_ne_nil _ _) trivial) ?_
      rw [FieldDeclaration.site, RelationField.site, if_pos hcollection]
      intro child hchild
      rcases List.mem_cons.1 hchild with rfl | hchild
      · exact .relationCount
      · obtain rfl := List.mem_singleton.1 hchild
        exact .relationRows nonempty below
  · next hsingle =>
    cases h with
    | object nonempty below =>
      refine .declared found (iff_of_true nonempty trivial) ?_
      rw [FieldDeclaration.site, RelationField.site, if_neg hsingle]
      exact below

/-- Whatever the schema says about a field of a shape, its field in a document fits. -/
theorem fits (named : schema.registry.Named) {type : String} {shape : Shape}
    (hshape : (Catalog.ofSchema schema page).find? type = some shape) {field : ShapeField}
    (hfield : shape.field? name = some field) (h : SelectedFor schema page name field.type node) :
    node.Fits schema page (.object type) := by
  have hheld := Catalog.type_field?_of_find? named hshape name
  rw [hfield] at hheld
  obtain ⟨declaration, found, htype⟩ : ∃ declaration,
      schema.fieldDeclaration? type name = some declaration ∧
        declaration.shapeType schema.registry page = field.type :=
    Option.map_eq_some_iff.1 hheld.symm
  rw [← htype] at h
  cases declaration with
  | typed wire => exact h.fits_of_typed found
  | relation relation => exact h.fits_of_relation found

end FieldNode.SelectedFor

/-! ## All levels -/

namespace Choices

variable {schema : Schema} {page : PageNames} {policy : DefaultPolicy}

/-- What is chosen for a type is chosen from its shape, and selects fields that fit where an object
of the type stands. -/
def FitsType (schema : Schema) (page : PageNames) (policy : DefaultPolicy) (type : String)
    (choices : Choices) : Prop :=
  ∃ shape, (Catalog.ofSchema schema page).find? type = some shape ∧
    ∀ node ∈ (project (Catalog.ofSchema schema page) policy shape choices).nodes page,
      node.Fits schema page (.object type)

/-- By default a field that leads on is chosen together with something below it. -/
theorem eq_nested_of_ofField? {inner : String → Choices} {field : ShapeField} {choice : Choice}
    {related : String} (hrelated : field.type.related? = some related)
    (h : ofField? inner field = some choice) :
    isBare (inner related) = false ∧ choice = .nested (inner related) {} := by
  rw [ofField?, hrelated] at h
  cases hbare : isBare (inner related) with
  | true => simp [hbare] at h
  | false => exact ⟨rfl, by simpa [hbare] using h.symm⟩

/-- A default selection wants a leaf, and of any other field what is chosen for the related type. -/
theorem selectedFor_of_ofField? {inner : String → Choices}
    (hinner : ∀ type, isBare (inner type) = false → FitsType schema page policy type (inner type))
    {field : ShapeField} {choice : Choice} (hchoice : ofField? inner field = some choice)
    {type : ProjectedType}
    (htype : choice.project? (Catalog.ofSchema schema page) policy field = some type)
    (name : String) :
    (ProjectedField.node page ⟨name, type, field.nullable, field.keptArguments choice⟩).SelectedFor
      schema page name field.type := by
  obtain ⟨held, wire, nullable, description⟩ := field
  cases held with
  | leaf =>
    obtain rfl : .wanted = choice := Option.some.inj hchoice
    obtain rfl : .leaf wire = type := Option.some.inj htype
    exact .leaf
  | object related list =>
    obtain ⟨hbare, rfl⟩ := eq_nested_of_ofField? rfl hchoice
    obtain ⟨shape, hshape, below⟩ := hinner related hbare
    obtain rfl : .object (project _ policy shape (inner related)) list = type := by
      simpa [Choice.project?, ShapeField.projected, hshape, project] using htype
    exact .object (Projection.nodes_ne_nil _) below
  | connection related =>
    obtain ⟨hbare, rfl⟩ := eq_nested_of_ofField? rfl hchoice
    obtain ⟨shape, hshape, below⟩ := hinner related hbare
    obtain rfl : .connection (project _ policy shape (inner related)) = type := by
      simpa [Choice.project?, ShapeField.projected, hshape, project] using htype
    exact .connection (Projection.nodes_ne_nil _) below

/-- The keys of a default selection are fields of the shape, so nothing is projected only if nothing
is chosen. -/
theorem fields_project_ofFields_eq_nil_iff (catalog : Catalog) (inner : String → Choices)
    (shape : Shape) :
    (project catalog policy shape (ofFields inner shape.fields.entries)).fields = [] ↔
      isBare (ofFields inner shape.fields.entries) = true := by
  have hnames : (project catalog policy shape (ofFields inner shape.fields.entries)).fieldNames =
      Entries.keys (chosen (ofFields inner shape.fields.entries)) := by
    refine map_name_projectFields fun p hp => ?_
    obtain ⟨field, hmem, -⟩ := mem_ofFields.1 hp
    exact ⟨field, Entries.find?_of_mem shape.fields.nodup hmem⟩
  rw [isBare_iff]
  constructor
  · intro hnil
    rw [Projection.fieldNames, hnil] at hnames
    exact List.map_eq_nil_iff.1 hnames.symm
  · intro hnone
    rw [hnone] at hnames
    exact List.map_eq_nil_iff.1 hnames

/-- One level of a default selection: the fields of a shape fit if what is chosen for the types
below does. -/
theorem fits_ofFields (named : schema.registry.Named) {inner : String → Choices}
    (hinner : ∀ type, isBare (inner type) = false → FitsType schema page policy type (inner type))
    {type : String} {shape : Shape}
    (hshape : (Catalog.ofSchema schema page).find? type = some shape)
    (hbare : isBare (ofFields inner shape.fields.entries) = false) :
    FitsType schema page policy type (ofFields inner shape.fields.entries) := by
  have hnonempty : (project (Catalog.ofSchema schema page) policy shape
      (ofFields inner shape.fields.entries)).fields ≠ [] := by
    intro hnil
    rw [fields_project_ofFields_eq_nil_iff, hbare] at hnil
    cases hnil
  refine ⟨shape, hshape, ?_⟩
  intro node hnode
  obtain ⟨projected, hprojected, rfl⟩ := (Projection.mem_nodes_iff hnonempty).1 hnode
  obtain ⟨p, hp, field, projectedType, hfound, htype, rfl⟩ := eq_of_mem_projectFields hprojected
  obtain ⟨field', hmem, hchoice⟩ := mem_ofFields.1 hp
  have hfound' : shape.field? p.1 = some field' := Entries.find?_of_mem shape.fields.nodup hmem
  obtain rfl : field = field' := Option.some.inj (hfound.symm.trans hfound')
  exact (selectedFor_of_ofField? hinner hchoice htype p.1).fits named hshape hfound

/-- All leaves of a shape, by induction on the levels below it: the last level has leaves alone, and
each other one leads to shapes that are chosen from with one level less. -/
theorem fits_allScalars (named : schema.registry.Named) (levels : Nat) :
    ∀ (path : List String) {type : String} {shape : Shape},
      (Catalog.ofSchema schema page).find? type = some shape →
      isBare (allScalars (Catalog.ofSchema schema page) levels path shape) = false →
        FitsType schema page policy type
          (allScalars (Catalog.ofSchema schema page) levels path shape) := by
  induction levels with
  | zero =>
    intro path type shape hshape hbare
    refine fits_ofFields named (fun related hrelated => ?_) hshape hbare
    cases hrelated
  | succ levels ih =>
    intro path type shape hshape hbare
    refine fits_ofFields named (fun related hrelated => ?_) hshape hbare
    by_cases hpath : path.contains related = true
    · -- Nothing is chosen from a shape that was entered on the way.
      rw [if_pos hpath] at hrelated
      cases hrelated
    · rw [if_neg hpath] at hrelated ⊢
      cases hfind : (Catalog.ofSchema schema page).find? related with
      | none =>
        rw [hfind] at hrelated
        cases hrelated
      | some inner =>
        simp only [hfind] at hrelated
        exact ih (related :: path) hfind hrelated

/-- Every level of the default choices is made from the fields of its shape. -/
theorem exists_allScalars_eq_ofFields (catalog : Catalog) (levels : Nat) (path : List String)
    (shape : Shape) :
    ∃ inner, allScalars catalog levels path shape = ofFields inner shape.fields.entries := by
  cases levels with
  | zero => exact ⟨_, rfl⟩
  | succ levels => exact ⟨_, rfl⟩

/-- All leaves of a shape select the name of the type alone, or fields that fit. -/
theorem nodes_allScalars (named : schema.registry.Named) (policy : DefaultPolicy) {type : String}
    {shape : Shape} (hshape : (Catalog.ofSchema schema page).find? type = some shape)
    (levels : Nat) (path : List String) :
    let choices := allScalars (.ofSchema schema page) levels path shape
    let nodes := (project (.ofSchema schema page) policy shape choices).nodes page
    if isBare choices then nodes = [.typename]
    else nodes ≠ [] ∧ ∀ node ∈ nodes, node.Fits schema page (.object type) := by
  intro choices nodes
  split
  · next hbare =>
    obtain ⟨inner, hinner⟩ :=
      exists_allScalars_eq_ofFields (.ofSchema schema page) levels path shape
    have hfields : (project (.ofSchema schema page) policy shape choices).fields = [] := by
      show (project _ policy shape (allScalars _ levels path shape)).fields = []
      rw [hinner, fields_project_ofFields_eq_nil_iff, ← hinner]
      exact hbare
    show Projection.nodes page ⟨shape.name, (project _ policy shape choices).fields⟩ = _
    rw [hfields, Projection.nodes]
  · next hbare =>
    rw [Bool.not_eq_true] at hbare
    have htype : FitsType schema page policy type choices :=
      fits_allScalars named levels path hshape hbare
    obtain ⟨shape', hshape', hfits⟩ := htype
    obtain rfl : shape = shape' := Option.some.inj (hshape.symm.trans hshape')
    exact ⟨Projection.nodes_ne_nil _, hfits⟩

end Choices

/-! ## Documents -/

namespace Request

/-- Whether a request is a template or not, it passes every required slot on. -/
theorem argument_mem_of_bind {operation : String} {mode : BindingMode} {slots : List Slot}
    {binding : Binding} (h : bind operation mode slots = .ok binding) {slot : Slot}
    (hslot : slot ∈ slots) (required : slot.type.isRequired = true) :
    slot.argument ∈ binding.arguments := by
  obtain ⟨passed, values, rfl, -, hpassed⟩ := exists_slots_of_bind h
  exact List.mem_map_of_mem (hpassed slot hslot required)

/-- Without a selection all leaves of the shape of the answer are projected. -/
theorem answerProjection?_default {catalog : Catalog} {settings : Settings}
    {operation : CustomOperation} {shape : Shape} (object : operation.returnType.baseKind = .object)
    (hshape : catalog.find? operation.returnType.baseName = some shape)
    (free : settings.selection.operations.find? operation.name = none) :
    answerProjection? catalog settings operation none =
      .ok (some ((Selection.allScalars catalog shape settings.selection.customDepth).project catalog
        settings.selection.policy shape)) := by
  have hchosen : chosen catalog settings shape none
      (settings.selection.operations.find? operation.name)
      (Selection.allScalars catalog shape settings.selection.customDepth) =
        .ok (Selection.allScalars catalog shape settings.selection.customDepth) := by
    rw [free]
    rfl
  rw [answerProjection?, if_neg (by simp [object]), hshape]
  simp only [hchosen]
  rfl

/-- Without a selection, the document of a custom operation that answers an object is made from the
schema, be it a template or not. Its root field passes every required argument on. Below the root
field stands the name of the type alone, if there is nothing to choose; otherwise every field below
it is selected as the schema says. The registry accepts all of them exactly if every type that
counts as a page declares the number of rows where it is asked for, every field of a table is also
declared by the object type of its name, and no argument of a selected field is required. -/
theorem custom_accepted_iff {schema : Schema} (named : schema.registry.Named) {settings : Settings}
    {operation : CustomOperation} {shape : Shape}
    (object : operation.returnType.baseKind = .object)
    (hshape : (Catalog.ofSchema schema settings.page).find? operation.returnType.baseName =
      some shape)
    (free : settings.selection.operations.find? operation.name = none) :
    (∃ template, custom (.ofSchema schema settings.page) settings operation none none =
      .ok template) ∧
    ∀ values request, custom (.ofSchema schema settings.page) settings operation none values =
      .ok request → ∃ root, request.document.selection = [root] ∧ root.name = operation.name ∧
        (∀ argument ∈ operation.arguments, argument.type.isRequired = true →
          (argument.name, .reference argument.name) ∈ root.arguments) ∧
        let site := Site.object operation.returnType.baseName
        (if (Selection.allScalars (.ofSchema schema settings.page) shape
            settings.selection.customDepth).isBare then root.selection = [.typename]
          else root.selection ≠ [] ∧
            ∀ node ∈ root.selection, node.Fits schema settings.page site) ∧
        ((∀ place ∈ schema.selectionPlaces settings.page site root.selection,
            place.Accepted schema.registry) ↔
          ∀ place ∈ schema.selectionPlaces settings.page site root.selection,
            place.Covered schema settings.page) := by
  have hanswer := answerProjection?_default object hshape free
  constructor
  · rw [custom_none_eq, hanswer]
    exact ⟨_, rfl⟩
  · intro values request hrequest
    rw [custom] at hrequest
    obtain ⟨binding, hbinding, hrequest⟩ := exists_of_bind_eq_ok hrequest
    rw [hanswer] at hrequest
    obtain rfl := Except.ok.inj hrequest
    have hnodes := Choices.nodes_allScalars named settings.selection.policy hshape
      (settings.selection.customDepth - 1) [shape.name]
    refine ⟨_, rfl, rfl, ?_, hnodes, ?_⟩
    · intro argument hargument required
      exact argument_mem_of_bind hbinding (List.mem_map_of_mem hargument) required
    · refine forall₂_congr fun place hplace => PlacedField.accepted_iff_covered ?_ hplace
      dsimp only at hnodes
      split at hnodes
      · exact .inl hnodes
      · exact .inr hnodes.2

end Request

namespace Sample

/-- A feed has a text and a page of posts. The text has the arguments, and the page another field
beside the posts. -/
def feedSchema (arguments : List InputValue) (beside : FieldDefinition) : Schema where
  registry := .ofList [
    ⟨"Feed", .object [{ name := "snippet", type := .scalar "String", arguments },
      { name := "posts", type := .object "PostsConnection" }], none⟩,
    ⟨"PostsConnection", .object [beside,
      { name := "nodes", type := .list (.object "Post") }], none⟩,
    ⟨"Post", .object [{ name := "id", type := .nonNull (.scalar "ID") }], none⟩]

/-- The number of rows of a page. -/
def countField : FieldDefinition := { name := "totalCount", type := .scalar "Int" }

/-- Information about a page. -/
def infoField : FieldDefinition := { name := "pageInfo", type := .object "PageInfo" }

/-- The length that a text has to be cut to. -/
def lengthArgument : InputValue := { name := "length", type := .nonNull (.scalar "Int") }

/-- The query for the feed of a reader. -/
def feedQuery : CustomOperation where
  name := "feed"
  kind := .query
  arguments := [{ name := "reader", type := .nonNull (.scalar "ID") }]
  returnType := .object "Feed"

/-- Where the page declares its number of rows and the text has no required argument, the document
for the feed passes the reader, and the registry accepts all of its fields. -/
theorem feed_accepted : ∃ template root,
    Request.custom (.ofSchema (feedSchema [] countField) {}) {} feedQuery none none =
      .ok template ∧
    template.document.selection = [root] ∧ ("reader", .reference "reader") ∈ root.arguments ∧
    (root.selection ≠ [] ∧
      ∀ node ∈ root.selection, node.Fits (feedSchema [] countField) {} (.object "Feed")) ∧
    ∀ place ∈ (feedSchema [] countField).selectionPlaces {} (.object "Feed") root.selection,
      place.Accepted (feedSchema [] countField).registry := by
  obtain ⟨shape, hshape, hbare⟩ : ∃ shape,
      (Catalog.ofSchema (feedSchema [] countField) ({} : Settings).page).find?
        feedQuery.returnType.baseName = some shape ∧
      (Selection.allScalars (.ofSchema (feedSchema [] countField) ({} : Settings).page) shape
        ({} : Settings).selection.customDepth).isBare = false := ⟨_, rfl, rfl⟩
  obtain ⟨-, haccepted⟩ :=
    Request.custom_accepted_iff (TypeRegistry.named_ofList _) rfl hshape rfl
  obtain ⟨template, htemplate, hcovered⟩ : ∃ template,
      Request.custom (.ofSchema (feedSchema [] countField) ({} : Settings).page) {} feedQuery
        none none = .ok template ∧
      ∀ root, template.document.selection = [root] →
        ∀ place ∈ (feedSchema [] countField).selectionPlaces {} (.object "Feed") root.selection,
          place.Covered (feedSchema [] countField) {} := by
    refine ⟨_, rfl, ?_⟩
    intro root hroot
    obtain rfl := (List.cons.inj hroot).1
    decide +kernel
  obtain ⟨root, hroot, -, harguments, hselection, hiff⟩ := haccepted none template htemplate
  rw [if_neg (by simp [hbare])] at hselection
  exact ⟨template, root, htemplate, hroot, harguments _ List.mem_cons_self rfl, hselection,
    hiff.2 (hcovered root hroot)⟩

/-- The registry accepts neither the text of the feed without its required argument, nor the number
of rows of a page that declares information about the page in its place. -/
theorem feed_not_accepted :
    (∃ template root,
      Request.custom (.ofSchema (feedSchema [lengthArgument] countField) {}) {} feedQuery
        none none = .ok template ∧
      template.document.selection = [root] ∧
      ∃ place ∈ (feedSchema [lengthArgument] countField).selectionPlaces {} (.object "Feed")
          root.selection,
        place = ⟨.object "Feed", .leaf "snippet"⟩ ∧
        ¬ place.Accepted (feedSchema [lengthArgument] countField).registry) ∧
    ∃ template root,
      Request.custom (.ofSchema (feedSchema [] infoField) {}) {} feedQuery none none =
        .ok template ∧
      template.document.selection = [root] ∧
      ∃ place ∈ (feedSchema [] infoField).selectionPlaces {} (.object "Feed") root.selection,
        place = ⟨.wrapper "PostsConnection", .leaf "totalCount"⟩ ∧
        ¬ place.Accepted (feedSchema [] infoField).registry :=
  ⟨⟨_, _, rfl, rfl, _, List.mem_cons_self, rfl, by decide +kernel⟩,
    ⟨_, _, rfl, rfl, _, List.mem_cons_of_mem _ (List.mem_cons_of_mem _ List.mem_cons_self), rfl,
      by decide +kernel⟩⟩

end Sample

end GraphClient
