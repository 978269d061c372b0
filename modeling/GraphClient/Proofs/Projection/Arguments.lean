import GraphClient.Projection.Nodes
import GraphClient.Proofs.Document.Outline
import GraphClient.Proofs.Projection.Faithful

/-!
# Arguments of nested selections

A nested selection for a page puts its arguments into the document. The field of a relation that
leads to one row has no arguments, and neither has one whose shape is not in the catalog.

* `Choices.Inlines` : a selection puts some arguments into a document.
* `Choices.worded_nodes`, `Choices.contained_iff` : the fields that a selection makes up are called
  by words, and are contained exactly if the arguments are self-contained.
-/

namespace GraphClient

open FieldOutline (IsWord)

/-! ## Pages in selections -/

/-- Some choices for a shape put some arguments into a document: they are those of a nested
selection, at some depth, for a page of rows whose shape is known. -/
inductive Choices.Inlines (catalog : Catalog) : Shape → Choices → PageArguments → Prop
  | here {shape rowShape : Shape} {choices inner : Choices} {key row : String}
      {arguments : PageArguments} {field : ShapeField}
      (mem : (key, .nested inner arguments) ∈ choices) (isField : shape.field? key = some field)
      (isPage : field.type = .connection row) (found : catalog.find? row = some rowShape) :
      Inlines catalog shape choices arguments
  | deeper {shape innerShape : Shape} {choices inner : Choices} {key related : String}
      {outer arguments : PageArguments} {field : ShapeField}
      (mem : (key, .nested inner outer) ∈ choices) (isField : shape.field? key = some field)
      (isRelation : field.type.related? = some related)
      (found : catalog.find? related = some innerShape)
      (rest : Inlines catalog innerShape inner arguments) : Inlines catalog shape choices arguments

theorem Choices.Inlines.mono {catalog : Catalog} {shape : Shape} {choices more : Choices}
    {arguments : PageArguments} (h : Inlines catalog shape choices arguments)
    (hsubset : choices ⊆ more) : Inlines catalog shape more arguments := by
  cases h with
  | here mem isField isPage found => exact .here (hsubset mem) isField isPage found
  | deeper mem isField isRelation found rest =>
    exact .deeper (hsubset mem) isField isRelation found rest

/-- The fields that can be selected from a catalog are called by words. -/
structure Catalog.Worded (catalog : Catalog) (page : PageNames) : Prop where
  count : IsWord page.count.toList
  rows : IsWord page.rows.toList
  field : ∀ type shape name field, catalog.find? type = some shape →
    shape.field? name = some field → IsWord name.toList

/-! ## Fields of projections -/

namespace FieldNode

/-- A field is called by a word, and something holds of its arguments. -/
def Holds (list : List (String × Literal) → Prop) (name : String)
    (arguments : List (String × Literal)) : Prop := IsWord name.toList ∧ list arguments

variable {list : List (String × Literal) → Prop}

theorem all_leaf {name : String} (hname : IsWord name.toList) (hnil : list []) :
    (leaf name).All (Holds list) :=
  .intro ⟨hname, hnil⟩ fun _ hmem => absurd hmem List.not_mem_nil

theorem all_typename (hnil : list []) : typename.All (Holds list) :=
  all_leaf ⟨by decide, List.all_eq_true.1 (by decide)⟩ hnil

end FieldNode

section Projection

variable {catalog : Catalog} {page : PageNames} {policy : DefaultPolicy}
  {list : List (String × Literal) → Prop}

open FieldNode (Holds)

/-- The fields of a projection are those of its projected fields, or the name of the type. -/
theorem Projection.all_nodes (hnil : list []) {projection : Projection}
    (hfields : ∀ field ∈ projection.fields, (field.node page).All (Holds list)) :
    ∀ node ∈ projection.nodes page, node.All (Holds list) := by
  intro node hnode
  obtain ⟨shape, fields⟩ := projection
  cases fields with
  | nil =>
    obtain rfl := List.mem_singleton.1 hnode
    exact FieldNode.all_typename hnil
  | cons field rest =>
    obtain ⟨field, hfield, rfl⟩ := (Projection.mem_nodes_iff (List.cons_ne_nil _ _)).1 hnode
    exact hfields field hfield

/-- A field of a shape, where something is known of the related shape, and of the arguments if there
is a page of it. -/
theorem ShapeField.all_node (worded : catalog.Worded page) (hnil : list []) {name : String}
    (hname : IsWord name.toList) {field : ShapeField} {project : Shape → Projection}
    {arguments : PageArguments}
    (hrelated : ∀ type related, field.type.related? = some type →
      catalog.find? type = some related →
        ∀ node ∈ (project related).nodes page, node.All (Holds list))
    (hpage : ∀ row rowShape, field.type = .connection row → catalog.find? row = some rowShape →
      list (arguments.literals page)) (nullable : Bool) :
    (ProjectedField.node page ⟨name, field.projected catalog project, nullable, arguments⟩).All
      (Holds list) := by
  obtain ⟨type, wire, isNullable, description⟩ := field
  have hunknown : (ProjectedField.node page ⟨name, .unknown, nullable, arguments⟩).All
      (Holds list) :=
    .intro ⟨hname, hnil⟩ (List.forall_mem_singleton.2 (FieldNode.all_typename hnil))
  cases type with
  | leaf => exact FieldNode.all_leaf hname hnil
  | object related _ =>
    unfold ShapeField.projected
    cases hfound : catalog.find? related with
    | none => simpa only [hfound] using hunknown
    | some shape =>
      simp only [hfound]
      exact .intro ⟨hname, hnil⟩ (hrelated related shape rfl hfound)
  | connection row =>
    unfold ShapeField.projected
    cases hfound : catalog.find? row with
    | none => simpa only [hfound] using hunknown
    | some shape =>
      simp only [hfound]
      refine .intro ⟨hname, hpage row shape rfl hfound⟩ (List.forall_mem_cons.2
        ⟨FieldNode.all_leaf worded.count hnil, List.forall_mem_singleton.2 ?_⟩)
      exact .intro ⟨worded.rows, hnil⟩ (hrelated row shape rfl hfound)

/-- A default selection has leaves only. -/
theorem Shape.all_projectDefault (worded : catalog.Worded page) (hnil : list []) {type : String}
    {shape : Shape} (hshape : catalog.find? type = some shape) :
    ∀ node ∈ (shape.projectDefault policy).nodes page, node.All (Holds list) := by
  refine Projection.all_nodes hnil fun field hfield => ?_
  obtain ⟨name, found, hfound, rfl⟩ := Shape.eq_of_mem_projectLeaves hfield
  exact FieldNode.all_leaf (worded.field type shape name found hshape hfound) hnil

mutual

/-- What is said about a key puts the arguments of a page at most into the document. -/
theorem Choice.all_node (worded : catalog.Worded page) (hnil : list []) {type key : String}
    {shape : Shape} (hshape : catalog.find? type = some shape) {field : ShapeField}
    (isField : shape.field? key = some field) : ∀ choice,
      (∀ arguments, Choices.Inlines catalog shape [(key, choice)] arguments →
        list (arguments.literals page)) →
      ∀ projected, choice.project? catalog policy field = some projected →
        (ProjectedField.node page
          ⟨key, projected, field.nullable, field.keptArguments choice⟩).All (Holds list)
  | .excluded, _, projected, hprojected => by
    simp [Choice.project?] at hprojected
  | .wanted, _, projected, hprojected => by
    have hkey := worded.field type shape key field hshape isField
    rw [Choice.project?] at hprojected
    obtain rfl := Option.some.inj hprojected
    have hkept : field.keptArguments .wanted = {} := by simp [ShapeField.keptArguments]
    have hnone : list (PageArguments.literals page {}) := hnil
    rw [hkept]
    refine ShapeField.all_node worded hnil hkey (fun related relatedShape _ hfound => ?_)
      (fun _ _ _ _ => hnone) _
    exact Shape.all_projectDefault worded hnil hfound
  | .nested inner arguments, hpages, projected, hprojected => by
    have hkey := worded.field type shape key field hshape isField
    rw [Choice.project?] at hprojected
    obtain rfl := Option.some.inj hprojected
    refine ShapeField.all_node worded hnil hkey
      (fun related relatedShape isRelation hfound => ?_) (fun row rowShape isPage hfound => ?_) _
    · refine Projection.all_nodes hnil (Choices.all_nodes worded hnil hfound inner ?_)
      exact fun more hmore => hpages more
        (.deeper List.mem_cons_self isField isRelation hfound hmore)
    · rw [ShapeField.keptArguments_nested isPage]
      exact hpages arguments (.here List.mem_cons_self isField isPage hfound)

/-- The projected fields of some choices for a shape are called by words, and their arguments are
those that the choices put into the document. -/
theorem Choices.all_nodes (worded : catalog.Worded page) (hnil : list []) {type : String}
    {shape : Shape} (hshape : catalog.find? type = some shape) : ∀ choices : List (String × Choice),
      (∀ arguments, Choices.Inlines catalog shape choices arguments →
        list (arguments.literals page)) →
      ∀ projected ∈ Choices.projectFields catalog policy shape choices,
        (projected.node page).All (Holds list)
  | [], _, projected, hprojected => by
    simp [Choices.projectFields] at hprojected
  | (key, choice) :: rest, hpages, projected, hprojected => by
    have hrest := Choices.all_nodes worded hnil hshape rest fun arguments hinlines =>
      hpages arguments (hinlines.mono (List.subset_cons_self _ _))
    rw [Choices.projectFields_cons, List.mem_append, Option.mem_toList] at hprojected
    rcases hprojected with hprojected | hprojected
    · obtain ⟨field, found, isField, hproject, rfl⟩ :=
        Choice.projectField?_eq_some_iff.1 hprojected
      exact Choice.all_node worded hnil hshape isField choice
        (fun arguments hinlines => hpages arguments (hinlines.mono (by simp))) found hproject
    · exact hrest projected hprojected

end

/-! ## Contained fields -/

namespace Choices

/-- What is chosen of a field is projected. -/
theorem mem_projectFields {shape : Shape} {choices : Choices} {p : String × Choice}
    (hp : p ∈ choices) {field : ShapeField} (isField : shape.field? p.1 = some field)
    {type : ProjectedType} (hproject : p.2.project? catalog policy field = some type) :
    ⟨p.1, type, field.nullable, field.keptArguments p.2⟩ ∈
      projectFields catalog policy shape choices := by
  rw [projectFields_eq_filterMap]
  exact List.mem_filterMap.2
    ⟨p, hp, Choice.projectField?_eq_some_iff.2 ⟨field, type, isField, hproject, rfl⟩⟩

/-- A nested selection has its field in the document. -/
theorem nested_mem_nodes {shape : Shape} {choices inner : Choices} {key : String}
    {arguments : PageArguments} (mem : (key, .nested inner arguments) ∈ choices)
    {field : ShapeField} (isField : shape.field? key = some field) :
    ProjectedField.node page ⟨key,
      field.projected catalog fun related => project catalog policy related inner,
      field.nullable, field.keptArguments (.nested inner arguments)⟩ ∈
        (project catalog policy shape choices).nodes page := by
  have hproject : Choice.project? catalog policy field (.nested inner arguments) =
      some (field.projected catalog fun related => project catalog policy related inner) := by
    rw [Choice.project?]
    rfl
  have hprojected := mem_projectFields mem isField hproject
  exact (Projection.mem_nodes_iff (List.ne_nil_of_mem hprojected)).2 ⟨_, hprojected, rfl⟩

/-- A page has its arguments in parentheses. -/
theorem selfContained_of_page {name row : String} {field : ShapeField} {rowShape : Shape}
    {project : Shape → Projection} {nullable : Bool} {arguments : PageArguments}
    (isPage : field.type = .connection row) (found : catalog.find? row = some rowShape)
    (h : (ProjectedField.node page
      ⟨name, field.projected catalog project, nullable, arguments⟩).Contained) :
    SelfContained (FieldNode.argumentsText (arguments.literals page)).toList := by
  simp only [ShapeField.projected, isPage, found] at h
  cases h with
  | intro here _ => exact here

/-- Below a field stand the fields of the related shape. -/
theorem contained_of_related {name related : String} {field : ShapeField} {innerShape : Shape}
    {project : Shape → Projection} {nullable : Bool} {arguments : PageArguments}
    (isRelation : field.type.related? = some related)
    (found : catalog.find? related = some innerShape)
    (h : (ProjectedField.node page
      ⟨name, field.projected catalog project, nullable, arguments⟩).Contained) :
    ∀ node ∈ (project innerShape).nodes page, node.Contained := by
  obtain ⟨type, wire, isNullable, description⟩ := field
  cases type with
  | leaf => cases isRelation
  | object type list =>
    obtain rfl : type = related := Option.some.inj isRelation
    simp only [ShapeField.projected, found] at h
    cases h with
    | intro _ below => exact below
  | connection row =>
    obtain rfl : row = related := Option.some.inj isRelation
    simp only [ShapeField.projected, found] at h
    cases h with
    | intro _ below =>
      cases below _ (List.mem_cons_of_mem _ List.mem_cons_self) with
      | intro _ rows => exact rows

/-- Arguments that some choices put into a document are self-contained if its fields are
contained. -/
theorem Inlines.selfContained {shape : Shape} {choices : Choices} {arguments : PageArguments}
    (h : Inlines catalog shape choices arguments)
    (hfields : ∀ node ∈ (project catalog policy shape choices).nodes page, node.Contained) :
    SelfContained (FieldNode.argumentsText (arguments.literals page)).toList := by
  induction h with
  | here mem isField isPage found =>
    have hnode := hfields _ (nested_mem_nodes mem isField)
    rw [ShapeField.keptArguments_nested isPage] at hnode
    exact selfContained_of_page isPage found hnode
  | deeper mem isField isRelation found rest ih =>
    exact ih (contained_of_related isRelation found (hfields _ (nested_mem_nodes mem isField)))

/-- The fields that some choices select are called by words. -/
theorem worded_nodes (worded : catalog.Worded page) {type : String} {shape : Shape}
    (hshape : catalog.find? type = some shape) (choices : Choices) :
    ∀ node ∈ (project catalog policy shape choices).nodes page, node.Worded := by
  intro node hnode
  have hall : node.All (Holds fun _ => True) := Projection.all_nodes trivial
    (all_nodes worded trivial hshape choices fun _ _ => trivial) node hnode
  exact hall.imp fun _ _ h => h.1

/-- The fields that some choices select are contained exactly if all arguments are self-contained
that the choices put into the document. -/
theorem contained_iff (worded : catalog.Worded page) {type : String} {shape : Shape}
    (hshape : catalog.find? type = some shape) (choices : Choices) :
    (∀ node ∈ (project catalog policy shape choices).nodes page, node.Contained) ↔
      ∀ arguments, Inlines catalog shape choices arguments →
        SelfContained (FieldNode.argumentsText (arguments.literals page)).toList := by
  constructor
  · intro hfields arguments hinlines
    exact hinlines.selfContained hfields
  · intro hinlines node hnode
    have hnil : SelfContained (FieldNode.argumentsText []).toList := rfl
    have hall : node.All
        (Holds fun arguments => SelfContained (FieldNode.argumentsText arguments).toList) :=
      Projection.all_nodes hnil (all_nodes worded hnil hshape choices hinlines) node hnode
    exact hall.imp fun _ _ h => h.2

end Choices

end Projection

end GraphClient
