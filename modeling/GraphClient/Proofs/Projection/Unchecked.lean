import GraphClient.Proofs.Projection.Faithful
import GraphClient.Proofs.Selection.Depth
import Mathlib.Data.List.Basic

/-!
# Projections of unchecked selections

A selection is projected whether or not it passes the strict check. Keys that are excluded or are no
fields leave no trace, and a relation that is wanted without a selection of its own is projected by
the default selection of the related shape. That one has leaves only, so it goes no level deeper,
also where the shapes of the catalog lead back to each other.

* `ProjectedField.Answers` : what a projected field holds.
* `Projection.depth` : the number of levels of a projection.
* `Choices.Pruned` : some keys that leave no trace are deleted.
* `Selection.project_unchecked` : the projection of any selection.
-/

namespace GraphClient

variable {catalog : Catalog} {policy : DefaultPolicy}

/-! ## Default selections -/

namespace Shape

variable {shape : Shape} {name : String}

/-- The name of a leaf is one. -/
theorem hasLeaf_of_mem_leafNames (h : name ∈ shape.leafNames) : shape.hasLeaf name = true := by
  obtain ⟨⟨key, field⟩, hmem, rfl⟩ := List.mem_map.1 h
  obtain ⟨hfield, hleaf⟩ := List.mem_filter.1 hmem
  have hfind : shape.field? key = some field := Entries.find?_of_mem shape.fields.nodup hfield
  simpa [hasLeaf, hfind] using hleaf

/-- A default selection wants leaves only. -/
theorem hasLeaf_of_mem_defaultNames (h : name ∈ shape.defaultNames policy) :
    shape.hasLeaf name = true := by
  cases policy with
  | allScalars => exact hasLeaf_of_mem_leafNames h
  | primaryKey =>
    rw [defaultNames] at h
    split at h
    · exact hasLeaf_of_mem_leafNames (List.mem_of_mem_take h)
    · next names hnames => exact (List.mem_filter.1 h).2

end Shape

namespace Selection

/-- Wanting fields one after the other merges repeated names. -/
theorem choices_ofFields (names : List String) :
    (ofFields names).choices = Entries.ofList (names.map fun name => (name, .wanted)) := by
  have hfoldl : ∀ selection : Selection, (names.foldl want selection).choices =
      (names.map fun name => (name, Choice.wanted)).foldl
        (fun choices p => Entries.insert choices p.1 p.2) selection.choices := by
    induction names with
    | nil => exact fun _ => rfl
    | cons name rest ih => exact fun selection => ih (selection.want name)
  exact hfoldl empty

/-- Every key of a default selection is a leaf, and is wanted. -/
theorem wanted_of_mem_defaultFor {shape : Shape} {p : String × Choice}
    (h : p ∈ (defaultFor shape policy).choices) :
    p.2 = .wanted ∧ shape.hasLeaf p.1 = true := by
  -- Names may repeat before they are merged, so the choice is looked up by its key.
  have hfind := Entries.find?_of_mem (defaultFor shape policy).distinct.nodup h
  rw [defaultFor, choices_ofFields] at hfind
  obtain ⟨name, hname, heq⟩ := List.mem_map.1 (Entries.mem_of_find?_ofList hfind)
  obtain ⟨rfl, hwanted⟩ := Prod.mk.inj heq
  exact ⟨hwanted.symm, Shape.hasLeaf_of_mem_defaultNames hname⟩

end Selection

namespace Choices

variable {shape : Shape}

/-- Wanted leaves are projected without a look at the catalog. -/
theorem projectFields_of_leaves {choices : Choices}
    (h : ∀ p ∈ choices, p.2 = .wanted ∧ shape.hasLeaf p.1 = true) :
    projectFields catalog policy shape choices =
      (shape.projectLeaves (Entries.keys choices)).fields := by
  have hleaf : ∀ p ∈ choices, p.2.projectField? catalog policy shape p.1 =
      (shape.field? p.1).map fun field => ⟨p.1, .leaf field.wire, field.nullable, {}⟩ := by
    rintro ⟨key, choice⟩ hp
    obtain ⟨rfl, hleaf⟩ := h _ hp
    rw [Shape.hasLeaf, Option.any_eq_true] at hleaf
    obtain ⟨⟨type, wire, nullable, description⟩, hfield, hleaf⟩ := hleaf
    cases type with
    | leaf =>
      simp [Choice.projectField?, hfield, Choice.project?, ShapeField.projected,
        ShapeField.keptArguments]
    | object related list => cases hleaf
    | connection row => cases hleaf
  rw [projectFields_eq_filterMap, List.filterMap_congr hleaf, Shape.projectLeaves, Entries.keys,
    List.filterMap_map]
  rfl

/-- The default selection of a shape is projected like any other selection. -/
theorem project_defaultFor (shape : Shape) :
    project catalog policy shape (Selection.defaultFor shape policy).choices =
      shape.projectDefault policy := by
  have hleaves : ∀ p ∈ (Selection.defaultFor shape policy).choices,
      p.2 = .wanted ∧ shape.hasLeaf p.1 = true :=
    fun _ hp => Selection.wanted_of_mem_defaultFor hp
  rw [project, projectFields_of_leaves hleaves]
  rfl

end Choices

/-! ## Projected fields -/

/-- What a field of a shape holds when it is projected: the wire type of a leaf, the projection of
the related shape as one object, a list or a page, or nothing that is known. -/
inductive ShapeField.Yields (catalog : Catalog) (project : Shape → Projection)
    (field : ShapeField) : ProjectedType → Prop
  | leaf (isLeaf : field.type = .leaf) : Yields catalog project field (.leaf field.wire)
  | object {name : String} {list : Bool} {related : Shape}
      (isObject : field.type = .object name list) (found : catalog.find? name = some related) :
      Yields catalog project field (.object (project related) list)
  | connection {name : String} {related : Shape} (isPage : field.type = .connection name)
      (found : catalog.find? name = some related) :
      Yields catalog project field (.connection (project related))
  | unknown {name : String} (isRelation : field.type.related? = some name)
      (missing : catalog.find? name = none) : Yields catalog project field .unknown

/-- A field yields what is projected for it. -/
theorem ShapeField.yields_projected (field : ShapeField) (project : Shape → Projection) :
    field.Yields catalog project (field.projected catalog project) := by
  unfold projected
  split
  · next isLeaf => exact .leaf isLeaf
  · next name list isObject =>
    split
    · next related found => exact .object isObject found
    · next missing => exact .unknown (by rw [isObject]; rfl) missing
  · next name isPage =>
    split
    · next related found => exact .connection isPage found
    · next missing => exact .unknown (by rw [isPage]; rfl) missing

/-- The choices that are applied to a related shape: those of a nested selection, or else the
default selection of the shape. -/
def Choice.applied (policy : DefaultPolicy) (related : Shape) : Choice → Choices
  | .nested inner _ => inner
  | .wanted | .excluded => (Selection.defaultFor related policy).choices

/-- A projected field holds what is said about a field of a shape. Only the nested selection of a
page has arguments. -/
structure ProjectedField.Answers (catalog : Catalog) (policy : DefaultPolicy) (field : ShapeField)
    (choice : Choice) (projected : ProjectedField) : Prop where
  nullable_eq : projected.nullable = field.nullable
  yields : field.Yields catalog
    (fun related => Choices.project catalog policy related (choice.applied policy related))
    projected.type
  arguments_of_page : ∀ row inner arguments, field.type = .connection row →
    choice = .nested inner arguments → projected.arguments = arguments
  arguments_else : (∀ row inner arguments, field.type = .connection row →
    choice ≠ .nested inner arguments) → projected.arguments = {}

namespace Choice

/-- What is projected for a choice is what the field yields, with what the choice applies to the
related shape. -/
theorem yields_of_project? {field : ShapeField} {choice : Choice} {type : ProjectedType}
    (h : choice.project? catalog policy field = some type) :
    field.Yields catalog
      (fun related => Choices.project catalog policy related (choice.applied policy related))
      type := by
  cases choice with
  | excluded => simp [project?] at h
  | wanted =>
    have hdefault : (fun related => Choices.project catalog policy related
        (Choice.wanted.applied policy related)) = Shape.projectDefault policy :=
      funext fun related => Choices.project_defaultFor related
    rw [hdefault, ← Option.some.inj h]
    exact field.yields_projected _
  | nested inner arguments =>
    rw [← Option.some.inj h]
    exact field.yields_projected _

/-- The projected field answers the choice that it was made for. -/
theorem answers_of_project? {field : ShapeField} {choice : Choice} {type : ProjectedType}
    (h : choice.project? catalog policy field = some type) (key : String) :
    ProjectedField.Answers catalog policy field choice
      ⟨key, type, field.nullable, field.keptArguments choice⟩ where
  nullable_eq := rfl
  yields := yields_of_project? h
  arguments_of_page row inner arguments isPage hchoice := by
    rw [hchoice, ShapeField.keptArguments_nested isPage]
  arguments_else hnot := by
    simp only [ShapeField.keptArguments]
    split
    · next inner arguments row isPage => exact absurd rfl (hnot row inner arguments isPage)
    · rfl

end Choice

/-! ## Depth -/

mutual

/-- The number of levels of a projection: one, if all fields are leaves. -/
def Projection.depth : Projection → Nat
  | ⟨_, fields⟩ => ProjectedField.levelsBelow fields + 1

/-- The number of levels below some projected fields of one level. -/
def ProjectedField.levelsBelow : List ProjectedField → Nat
  | [] => 0
  | field :: rest => max (ProjectedField.levels field) (ProjectedField.levelsBelow rest)

/-- The number of levels that a projected field adds. -/
def ProjectedField.levels : ProjectedField → Nat
  | ⟨_, type, _, _⟩ => ProjectedType.levels type

/-- The number of levels of what a projected field holds. -/
def ProjectedType.levels : ProjectedType → Nat
  | .leaf _ => 0
  | .object projection _ => projection.depth
  | .connection projection => projection.depth
  | .unknown => 0

end

/-- There are no levels below leaves. -/
theorem ProjectedField.levelsBelow_eq_zero {fields : List ProjectedField}
    (h : ∀ field ∈ fields, ∃ wire, field.type = .leaf wire) : levelsBelow fields = 0 := by
  induction fields with
  | nil => rfl
  | cons field rest ih =>
    obtain ⟨⟨wire, hwire⟩, hrest⟩ := List.forall_mem_cons.1 h
    obtain ⟨name, type, nullable, arguments⟩ := field
    obtain rfl : type = .leaf wire := hwire
    rw [levelsBelow, ih hrest]
    rfl

/-- A default selection has one level. -/
theorem Shape.depth_projectDefault (shape : Shape) : (shape.projectDefault policy).depth = 1 := by
  have hleaves : ∀ field ∈ (shape.projectDefault policy).fields, ∃ wire,
      field.type = .leaf wire := by
    intro field hfield
    obtain ⟨name, found, -, rfl⟩ := eq_of_mem_projectLeaves hfield
    exact ⟨found.wire, rfl⟩
  show ProjectedField.levelsBelow (shape.projectDefault policy).fields + 1 = 1
  rw [ProjectedField.levelsBelow_eq_zero hleaves]

/-- A field has no more levels than the projections that it yields. -/
theorem ShapeField.Yields.levels_le {field : ShapeField} {project : Shape → Projection}
    {type : ProjectedType} (h : field.Yields catalog project type) {bound : Nat}
    (hproject : ∀ related, (project related).depth ≤ bound) : type.levels ≤ bound := by
  cases h with
  | leaf => exact Nat.zero_le bound
  | object _ found => exact hproject _
  | connection _ found => exact hproject _
  | unknown => exact Nat.zero_le bound

mutual

/-- By the structure of the choice: only a nested selection brings levels of its own, and only a
wanted relation gets one more, from its default selection. -/
theorem Choice.levels_le_of_project? {field : ShapeField} {type : ProjectedType} :
    ∀ choice : Choice, choice.project? catalog policy field = some type →
      type.levels ≤ choice.levels + 1
  | .excluded, h => by simp [Choice.project?] at h
  | .wanted, h => by
    refine (Choice.yields_of_project? h).levels_le fun related => ?_
    show (Choices.project catalog policy related _).depth ≤ 0 + 1
    rw [Choice.applied, Choices.project_defaultFor, Shape.depth_projectDefault]
  | .nested inner arguments, h => by
    refine (Choice.yields_of_project? h).levels_le fun related => ?_
    exact Nat.succ_le_succ (Choices.levelsBelow_projectFields_le related inner)

/-- Some choices project at most one level more than they have, by recursion over the choices. -/
theorem Choices.levelsBelow_projectFields_le (shape : Shape) :
    ∀ choices : List (String × Choice),
      ProjectedField.levelsBelow (Choices.projectFields catalog policy shape choices) ≤
        Choices.levelsBelow choices + 1
  | [] => Nat.zero_le _
  | (key, choice) :: rest => by
    have hrest := Choices.levelsBelow_projectFields_le shape rest
    rw [Choices.levelsBelow, Choices.projectFields_cons]
    cases hproject : choice.projectField? catalog policy shape key with
    | none =>
      rw [Option.toList_none, List.nil_append]
      omega
    | some projected =>
      obtain ⟨field, type, -, htype, rfl⟩ := Choice.projectField?_eq_some_iff.1 hproject
      have hlevels := Choice.levels_le_of_project? choice htype
      rw [Option.toList_some, List.singleton_append, ProjectedField.levelsBelow,
        ProjectedField.levels]
      omega

end

/-! ## Keys that leave no trace -/

/-- Choices of which some keys are deleted, at any depth. A key may be deleted if it is excluded, or
if it is no field of the shape that its level is applied to; below a leaf, and below a relation
whose shape is not known, there is no such shape. -/
inductive Choices.Pruned (catalog : Catalog) : Option Shape → Choices → Choices → Prop
  | nil {shape : Option Shape} : Pruned catalog shape [] []
  | deleted {shape : Option Shape} {key : String} {choice : Choice} {choices pruned : Choices}
      (traceless : choice.isExcluded = true ∨ shape.bind (·.field? key) = none)
      (rest : Pruned catalog shape choices pruned) :
      Pruned catalog shape ((key, choice) :: choices) pruned
  | kept {shape : Option Shape} {key : String} {choice : Choice} {choices pruned : Choices}
      (rest : Pruned catalog shape choices pruned) :
      Pruned catalog shape ((key, choice) :: choices) ((key, choice) :: pruned)
  | within {shape : Option Shape} {key : String} {arguments : PageArguments}
      {inner innerPruned choices pruned : Choices}
      (below : Pruned catalog (((shape.bind (·.field? key)).bind (·.type.related?)).bind
        catalog.find?) inner innerPruned)
      (rest : Pruned catalog shape choices pruned) :
      Pruned catalog shape ((key, .nested inner arguments) :: choices)
        ((key, .nested innerPruned arguments) :: pruned)

/-- Which arguments are kept does not depend on the choices beside them. -/
theorem ShapeField.keptArguments_nested_congr (field : ShapeField) (inner inner' : Choices)
    (arguments : PageArguments) :
    field.keptArguments (.nested inner arguments) =
      field.keptArguments (.nested inner' arguments) := by
  obtain ⟨type, wire, nullable, description⟩ := field
  cases type <;> rfl

namespace Choices

variable {shape : Shape} {key : String}

/-- A key that leaves no trace is passed over. -/
theorem projectFields_cons_of_traceless {choice : Choice} (rest : Choices)
    (traceless : choice.isExcluded = true ∨ shape.field? key = none) :
    projectFields catalog policy shape ((key, choice) :: rest) =
      projectFields catalog policy shape rest := by
  rw [projectFields_cons, Choice.projectField?_eq_none_iff.2 traceless]
  rfl

/-- What is said about a key matters only by the projection of its field and its arguments. -/
theorem projectFields_cons_congr {choice choice' : Choice} {rest rest' : Choices}
    (hproject : ∀ field, shape.field? key = some field →
      choice.project? catalog policy field = choice'.project? catalog policy field ∧
        field.keptArguments choice = field.keptArguments choice')
    (hrest : projectFields catalog policy shape rest = projectFields catalog policy shape rest') :
    projectFields catalog policy shape ((key, choice) :: rest) =
      projectFields catalog policy shape ((key, choice') :: rest') := by
  have hfield : choice.projectField? catalog policy shape key =
      choice'.projectField? catalog policy shape key := by
    refine Option.bind_congr fun field isField => ?_
    obtain ⟨htype, harguments⟩ := hproject field isField
    rw [htype, harguments]
  rw [projectFields_cons, projectFields_cons, hfield, hrest]

/-- Pruned choices have the same projection. By induction on what is deleted: a nested selection is
pruned for the shape that it is projected onto. -/
theorem Pruned.projectFields_eq {choices pruned : Choices} {known : Option Shape}
    (h : Pruned catalog known choices pruned) : ∀ shape, known = some shape →
      projectFields catalog policy shape pruned = projectFields catalog policy shape choices := by
  induction h with
  | nil => exact fun _ _ => rfl
  | deleted traceless _ ih =>
    rintro shape rfl
    rw [projectFields_cons_of_traceless _ traceless]
    exact ih shape rfl
  | kept _ ih =>
    rintro shape rfl
    exact projectFields_cons_congr (fun _ _ => ⟨rfl, rfl⟩) (ih shape rfl)
  | within _ _ ihBelow ih =>
    rintro shape rfl
    refine projectFields_cons_congr (fun field isField =>
      ⟨?_, field.keptArguments_nested_congr _ _ _⟩) (ih shape rfl)
    rw [Choice.project?, Choice.project?, ShapeField.projected_congr]
    intro related innerShape isRelation found
    rw [ihBelow innerShape (by simp [isField, isRelation, found])]

end Choices

/-! ## Selections -/

/-- The projection of any selection onto any shape. Its fields are the chosen keys that are fields
of the shape, in their order and each of them once; each has the nullability and the type of the
field, and the arguments of the nested selection of a page. It has at most one level more than the
selection, and it stays the same if keys that leave no trace are deleted. -/
theorem Selection.project_unchecked (catalog : Catalog) (policy : DefaultPolicy) (shape : Shape)
    (selection : Selection) :
    (selection.project catalog policy shape).fieldNames =
        selection.chosenKeys.filter (fun key => (shape.field? key).isSome) ∧
      (selection.project catalog policy shape).fieldNames.Nodup ∧
      (∀ projected ∈ (selection.project catalog policy shape).fields,
        ∃ field choice, shape.field? projected.name = some field ∧
          selection.find? projected.name = some choice ∧
          projected.Answers catalog policy field choice) ∧
      (selection.project catalog policy shape).depth ≤ selection.depth + 1 ∧
      ∀ pruned : Selection,
        Choices.Pruned catalog (some shape) selection.choices pruned.choices →
          pruned.project catalog policy shape = selection.project catalog policy shape := by
  have hnames : (selection.project catalog policy shape).fieldNames =
      selection.chosenKeys.filter (fun key => (shape.field? key).isSome) :=
    Choices.map_name_projectFields_eq_filter selection.choices
  refine ⟨hnames, ?_, fun projected hprojected => ?_, ?_, fun pruned h => ?_⟩
  · rw [hnames]
    have hkeys : selection.chosenKeys.Sublist selection.keys := List.filter_sublist.map _
    exact (hkeys.nodup selection.distinct.nodup).filter _
  · obtain ⟨p, hp, field, type, isField, htype, rfl⟩ :=
      Choices.eq_of_mem_projectFields hprojected
    exact ⟨field, p.2, isField, Entries.find?_of_mem selection.distinct.nodup hp,
      Choice.answers_of_project? htype p.1⟩
  · exact Nat.succ_le_succ (Choices.levelsBelow_projectFields_le shape selection.choices)
  · rw [project, project, Choices.project, Choices.project, h.projectFields_eq shape rfl]

namespace Sample

/-- A selection that would not pass the check: of a nickname and of ratings nothing is known, and an
author needs a selection of its own. -/
def looseSelection : Selection :=
  let posts := ((Selection.ofFields ["title", "author"]).nest "ratings" (.ofFields ["stars"]))
  ((Selection.ofFields ["id", "nickname"]).exclude "name").nest "posts" posts { first := some 3 }

/-- The keys of the loose selection that leave a trace. -/
def tightSelection : Selection :=
  (Selection.ofFields ["id"]).nest "posts" (.ofFields ["title", "author"]) { first := some 3 }

/-- The two selections have the same projection, of which the posts are a page of three. It has one
level more than the tight selection, as the author of a post is projected by default. -/
theorem looseSelection_project :
    Choices.Pruned shapes (some userShape) looseSelection.choices tightSelection.choices ∧
      tightSelection.project shapes .primaryKey userShape =
        looseSelection.project shapes .primaryKey userShape ∧
      (looseSelection.project shapes .primaryKey userShape).fieldNames = ["id", "posts"] ∧
      (looseSelection.project shapes .primaryKey userShape).depth ≤ 3 ∧
      ∃ projected ∈ (looseSelection.project shapes .primaryKey userShape).fields,
        projected.name = "posts" ∧ projected.arguments.first = some 3 := by
  have hposts : Choices.Pruned shapes (some postShape)
      ((Selection.ofFields ["title", "author"]).nest "ratings" (.ofFields ["stars"])).choices
      (Selection.ofFields ["title", "author"]).choices :=
    .kept (.kept (.deleted (.inr rfl) .nil))
  have hpruned : Choices.Pruned shapes (some userShape) looseSelection.choices
      tightSelection.choices :=
    .kept (.deleted (.inr rfl) (.deleted (.inl rfl) (.within hposts .nil)))
  obtain ⟨hnames, -, hfields, -, hsame⟩ :=
    Selection.project_unchecked shapes .primaryKey userShape looseSelection
  have hdepth : (tightSelection.project shapes .primaryKey userShape).depth ≤ 3 :=
    (Selection.project_unchecked shapes .primaryKey userShape tightSelection).2.2.2.1
  have hnames : (looseSelection.project shapes .primaryKey userShape).fieldNames =
      ["id", "posts"] := hnames
  refine ⟨hpruned, hsame tightSelection hpruned, hnames, hsame tightSelection hpruned ▸ hdepth, ?_⟩
  have hmem : "posts" ∈ (looseSelection.project shapes .primaryKey userShape).fieldNames := by
    rw [hnames]
    decide
  obtain ⟨projected, hprojected, hname⟩ := List.mem_map.1 hmem
  obtain ⟨field, choice, hfield, hchoice, answers⟩ := hfields projected hprojected
  rw [hname] at hfield hchoice
  refine ⟨projected, hprojected, hname, ?_⟩
  have isPage : field.type = .connection "Post" := by
    rw [← Option.some.inj hfield]
    rfl
  rw [answers.arguments_of_page "Post" _ _ isPage (Option.some.inj hchoice).symm]

end Sample

end GraphClient
