import GraphClient.Projection.Nodes
import GraphClient.Proofs.Shape.Invariant

/-!
# Where fields stand

A field of a document stands below a field that holds an object, and whether a server accepts it is
said by the type of the object. The walk over a selection gives every field its site: the type of
the object, a type that counts as a page, or the page of a relation, whose type has no name in the
schema.

* `Site`, `Schema.siteBelow?`, `Schema.places` : the sites of all fields of a selection.
* `PlacedField.Accepted` : the registry accepts a field where it stands.
* `FieldNode.Fits` : a field without arguments is selected as the schema says.
* `PlacedField.accepted_iff_covered` : what the registry may refuse of the fields that fit.
-/

namespace GraphClient

/-- Where a field stands in a document. -/
inductive Site where
  /-- Below a field that holds an object of the type, or a list of them. -/
  | object (type : String)
  /-- Below a field that holds one object of a type that counts as a page. -/
  | wrapper (type : String)
  /-- Below a relation to many rows of the table. The type of the page has no name in the schema. -/
  | page (table : String)
deriving DecidableEq

/-- The name of the type whose fields can be selected there. -/
def Site.typeName? : Site → Option String
  | .object type => some type
  | .wrapper type => some type
  | .page _ => none

/-- Where the fields below a field of a wire type stand. -/
def TypeRef.site (registry : TypeRegistry) (page : PageNames) (wire : TypeRef) : Site :=
  if !wire.isList && (registry.connectionNode? page wire.baseName).isSome then
    .wrapper wire.baseName
  else .object wire.baseName

/-- Where the fields below a relation stand. -/
def RelationField.site (relation : RelationField) : Site :=
  if relation.kind.isCollection then .page relation.relatedTable else .object relation.relatedTable

namespace FieldDeclaration

/-- Where the fields below a declared field stand. -/
def site (registry : TypeRegistry) (page : PageNames) : FieldDeclaration → Site
  | .typed wire => wire.site registry page
  | .relation field => field.site

/-- Whether a declared field has fields of its own. -/
def HoldsObject : FieldDeclaration → Prop
  | .typed wire => wire.baseKind = .object
  | .relation _ => True

end FieldDeclaration

/-! ## The walk -/

/-- A field of a document and where it stands. -/
structure PlacedField where
  site : Site
  node : FieldNode

namespace Schema

variable (schema : Schema) (page : PageNames)

/-- Where the fields below a field of some name stand. -/
def siteBelow? : Site → String → Option Site
  | .object type, name => (schema.fieldDeclaration? type name).map (·.site schema.registry page)
  | .wrapper type, name =>
    if name = page.rows then (schema.registry.connectionNode? page type).map .object else none
  | .page table, name => if name = page.rows then some (.object table) else none

mutual

/-- A field and the fields below it, each with where it stands. -/
def places (site : Site) : FieldNode → List PlacedField
  | ⟨name, arguments, selection⟩ =>
    ⟨site, ⟨name, arguments, selection⟩⟩ ::
      match siteBelow? schema page site name with
      | some below => selectionPlaces below selection
      | none => []

/-- Some fields and the fields below them, each with where it stands. -/
def selectionPlaces (site : Site) : List FieldNode → List PlacedField
  | [] => []
  | node :: rest => places site node ++ selectionPlaces site rest

end

variable {schema page}

theorem mem_selectionPlaces_iff {site : Site} {nodes : List FieldNode} {place : PlacedField} :
    place ∈ schema.selectionPlaces page site nodes ↔
      ∃ node ∈ nodes, place ∈ schema.places page site node := by
  induction nodes with
  | nil => simp [selectionPlaces]
  | cons node rest ih => simp [selectionPlaces, ih]

/-- A field stands at its own site. All others are below it, where the schema says. -/
theorem mem_places_iff {site : Site} {node : FieldNode} {place : PlacedField} :
    place ∈ schema.places page site node ↔ place = ⟨site, node⟩ ∨
      ∃ below, schema.siteBelow? page site node.name = some below ∧
        ∃ child ∈ node.selection, place ∈ schema.places page below child := by
  obtain ⟨name, arguments, selection⟩ := node
  rw [places, List.mem_cons]
  cases schema.siteBelow? page site name with
  | none => simp
  | some below => simp [mem_selectionPlaces_iff]

end Schema

/-! ## What a server accepts -/

/-- An object with the fields has one of the name, or what is asked for is the name of its type. -/
def FieldDefinition.Provides (fields : List FieldDefinition) (name : String) : Prop :=
  name = "__typename" ∨ ∃ definition ∈ fields, definition.name = name

instance (fields : List FieldDefinition) (name : String) :
    Decidable (FieldDefinition.Provides fields name) :=
  inferInstanceAs (Decidable (_ ∨ _))

/-- A field passes every required argument of a definition. -/
def FieldNode.Passes (node : FieldNode) (definition : FieldDefinition) : Prop :=
  ∀ argument ∈ definition.arguments, argument.type.isRequired = true →
    argument.name ∈ Entries.keys node.arguments

instance (node : FieldNode) (definition : FieldDefinition) : Decidable (node.Passes definition) :=
  inferInstanceAs (Decidable (∀ argument ∈ definition.arguments, argument.type.isRequired = true →
    argument.name ∈ Entries.keys node.arguments))

namespace PlacedField

/-- The registry accepts a field: if it knows the type of the object that the field stands below,
then the type declares the field, and the field passes every required argument. -/
def Accepted (registry : TypeRegistry) (place : PlacedField) : Prop :=
  ∀ type ∈ place.site.typeName?, ∀ fields ∈ registry.objectFields? type,
    FieldDefinition.Provides fields place.node.name ∧
      ∀ definition ∈ fields, definition.name = place.node.name → place.node.Passes definition

/-- Nothing goes wrong with a field that fits. The number of rows is declared by the page that it is
asked for, a column or a relation also by the object type of the name of the table, and no argument
of the field is required. -/
def Covered (schema : Schema) (page : PageNames) (place : PlacedField) : Prop :=
  ∀ type ∈ place.site.typeName?, ∀ fields ∈ schema.registry.objectFields? type,
    (place.site = .wrapper type → place.node.name = page.count →
      FieldDefinition.Provides fields page.count) ∧
    ((∃ table ∈ schema.tables, table.name = type) →
      FieldDefinition.Provides fields place.node.name) ∧
    ∀ definition ∈ fields, definition.name = place.node.name →
      ∀ argument ∈ definition.arguments, argument.type.isRequired = false

instance (registry : TypeRegistry) (place : PlacedField) : Decidable (place.Accepted registry) :=
  inferInstanceAs (Decidable (∀ type ∈ place.site.typeName?,
    ∀ fields ∈ registry.objectFields? type, _ ∧ ∀ definition ∈ fields, _ → _))

instance (schema : Schema) (page : PageNames) (place : PlacedField) :
    Decidable (place.Covered schema page) :=
  inferInstanceAs (Decidable (∀ type ∈ place.site.typeName?,
    ∀ fields ∈ schema.registry.objectFields? type, _ ∧ _ ∧ _))

end PlacedField

/-! ## Fields as the schema says -/

/-- A field without arguments is selected where it stands as the schema says, and so is all that is
selected below it. -/
inductive FieldNode.Fits (schema : Schema) (page : PageNames) : Site → FieldNode → Prop
  /-- The type declares the field. Something is selected below it exactly if it holds an object. -/
  | declared {type name : String} {declaration : FieldDeclaration} {selection : List FieldNode}
      (found : schema.fieldDeclaration? type name = some declaration)
      (nonempty : selection ≠ [] ↔ declaration.HoldsObject)
      (below : ∀ node ∈ selection,
        Fits schema page (declaration.site schema.registry page) node) :
      Fits schema page (.object type) ⟨name, [], selection⟩
  /-- The number of rows of a type that counts as a page, declared or not. -/
  | count {type node : String} (found : schema.registry.connectionNode? page type = some node) :
      Fits schema page (.wrapper type) (.leaf page.count)
  /-- The rows of a type that counts as a page. -/
  | rows {type node : String} {selection : List FieldNode}
      (found : schema.registry.connectionNode? page type = some node) (nonempty : selection ≠ [])
      (below : ∀ child ∈ selection, Fits schema page (.object node) child) :
      Fits schema page (.wrapper type) ⟨page.rows, [], selection⟩
  /-- The number of rows of a relation. -/
  | relationCount {table : String} : Fits schema page (.page table) (.leaf page.count)
  /-- The rows of a relation. -/
  | relationRows {table : String} {selection : List FieldNode} (nonempty : selection ≠ [])
      (below : ∀ node ∈ selection, Fits schema page (.object table) node) :
      Fits schema page (.page table) ⟨page.rows, [], selection⟩

namespace FieldNode.Fits

variable {schema : Schema} {page : PageNames} {site : Site} {node : FieldNode}

theorem arguments_eq_nil (h : node.Fits schema page site) : node.arguments = [] := by
  cases h <;> rfl

/-- All that stands below a field that fits is selected as the schema says, too. -/
theorem of_mem_below (h : node.Fits schema page site) {below : Site}
    (hbelow : schema.siteBelow? page site node.name = some below) :
    ∀ child ∈ node.selection, child.Fits schema page below := by
  cases h with
  | declared found nonempty fits =>
    rw [Schema.siteBelow?, found] at hbelow
    obtain rfl := Option.some.inj hbelow
    exact fits
  | count | relationCount =>
    intro child hchild
    cases hchild
  | rows found nonempty fits =>
    rw [Schema.siteBelow?, if_pos rfl, found] at hbelow
    obtain rfl := Option.some.inj hbelow
    exact fits
  | relationRows nonempty fits =>
    rw [Schema.siteBelow?, if_pos rfl] at hbelow
    obtain rfl := Option.some.inj hbelow
    exact fits

/-- By recursion over the document: every place of the walk has a field that fits. -/
theorem of_mem_places {place : PlacedField} : ∀ {node : FieldNode} {site : Site},
    node.Fits schema page site → place ∈ schema.places page site node →
      place.node.Fits schema page place.site
  | ⟨name, arguments, selection⟩, site, h, hplace => by
    rcases Schema.mem_places_iff.1 hplace with rfl | ⟨below, hbelow, child, hchild, hplace⟩
    · exact h
    · exact of_mem_places (h.of_mem_below hbelow child hchild) hplace
termination_by node => node

/-- Where the registry knows the type, it declares a field that fits, unless it is the number of
rows of a page, or a table has the name of the type. -/
theorem provides_or (h : node.Fits schema page site) {type : String}
    {fields : List FieldDefinition} (htype : site.typeName? = some type)
    (hfields : schema.registry.objectFields? type = some fields) :
    FieldDefinition.Provides fields node.name ∨
      (site = .wrapper type ∧ node.name = page.count) ∨
      ∃ table ∈ schema.tables, table.name = type := by
  cases h with
  | declared found =>
    obtain rfl := (Option.some.inj htype).symm
    cases hlast : schema.lastTable? type with
    | some table => exact .inr (.inr ((schema.exists_lastTable?_iff type).1 ⟨table, hlast⟩))
    | none =>
      rw [Schema.fieldDeclaration?, hlast, hfields] at found
      obtain ⟨definition, hdefinition, -⟩ := Option.map_eq_some_iff.1 found
      refine .inl (.inr ⟨definition, ?_, by simpa using List.find?_some hdefinition⟩)
      exact List.mem_reverse.1 (List.mem_of_find?_eq_some hdefinition)
  | count =>
    obtain rfl := Option.some.inj htype
    exact .inr (.inl ⟨rfl, rfl⟩)
  | rows found =>
    obtain rfl := Option.some.inj htype
    obtain ⟨held, rows, hheld, hrows, hname, -⟩ := TypeRegistry.exists_of_connectionNode? found
    obtain rfl := Option.some.inj (hfields.symm.trans hheld)
    exact .inl (.inr ⟨rows, hrows, hname⟩)
  | relationCount | relationRows => cases htype

end FieldNode.Fits

namespace PlacedField

variable {schema : Schema} {page : PageNames} {place : PlacedField}

/-- A field without arguments passes the required ones exactly if there are none. -/
theorem accepted_iff_covered_of_provides (harguments : place.node.arguments = [])
    (hprovides : ∀ type ∈ place.site.typeName?, ∀ fields ∈ schema.registry.objectFields? type,
      FieldDefinition.Provides fields place.node.name ∨
        (place.site = .wrapper type ∧ place.node.name = page.count) ∨
        ∃ table ∈ schema.tables, table.name = type) :
    place.Accepted schema.registry ↔ place.Covered schema page := by
  constructor
  · intro accepted type htype fields hfields
    obtain ⟨provided, passed⟩ := accepted type htype fields hfields
    refine ⟨fun _ hcount => hcount ▸ provided, fun _ => provided, ?_⟩
    intro definition hdefinition hname argument hargument
    cases required : argument.type.isRequired with
    | false => rfl
    | true =>
      have hpassed : argument.name ∈ Entries.keys place.node.arguments :=
        passed definition hdefinition hname argument hargument required
      rw [harguments] at hpassed
      cases hpassed
  · intro covered type htype fields hfields
    obtain ⟨count, table, free⟩ := covered type htype fields hfields
    refine ⟨?_, ?_⟩
    · rcases hprovides type htype fields hfields with provided | ⟨hsite, hcount⟩ | htable
      · exact provided
      · exact hcount ▸ count hsite hcount
      · exact table htable
    · intro definition hdefinition hname argument hargument required
      rw [free definition hdefinition hname argument hargument] at required
      cases required

/-- In a selection that fits, or that has nothing but the name of the type, a field is accepted
exactly if none of what may go wrong does. -/
theorem accepted_iff_covered {site : Site} {nodes : List FieldNode}
    (h : nodes = [.typename] ∨ ∀ node ∈ nodes, node.Fits schema page site)
    (hplace : place ∈ schema.selectionPlaces page site nodes) :
    place.Accepted schema.registry ↔ place.Covered schema page := by
  obtain ⟨node, hnode, hplace⟩ := Schema.mem_selectionPlaces_iff.1 hplace
  rcases h with rfl | hfits
  · obtain rfl := List.mem_singleton.1 hnode
    rcases Schema.mem_places_iff.1 hplace with rfl | ⟨-, -, child, hchild, -⟩
    · exact accepted_iff_covered_of_provides rfl fun _ _ _ _ => .inl (.inl rfl)
    · cases hchild
  · have fits : place.node.Fits schema page place.site := (hfits node hnode).of_mem_places hplace
    exact accepted_iff_covered_of_provides fits.arguments_eq_nil fun _ htype _ hfields =>
      fits.provides_or htype hfields

end PlacedField

end GraphClient
