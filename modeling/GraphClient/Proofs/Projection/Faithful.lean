import GraphClient.Proofs.Selection.Verdict
import GraphClient.Projection.Basic

/-!
# Projections of checked selections

A selection that passes the strict check is projected as it stands: no key is dropped, and no
default selection steps in. A level of the selection and the projection at the same path belong
together, and neither of the two trees has a path that the other one lacks.

* `Choices.projectFields_eq_filterMap` : the fields of a level, one by one.
* `Projection.at?` : the projection at the end of a path of field names.
* `Projection.Shows` : a projection holds what one level of a selection asks for.
-/

namespace GraphClient

variable {catalog : Catalog} {maxDepth : Nat} {policy policy' : DefaultPolicy}

/-! ## Paths in projections -/

/-- The projection below a projected field, if there is one. -/
def ProjectedType.inner? : ProjectedType → Option Projection
  | .object projection _ | .connection projection => some projection
  | .leaf _ | .unknown => none

/-- The projection at the end of a path of field names, the first of its name on every level. -/
def Projection.at? : Projection → List String → Option Projection
  | projection, [] => some projection
  | projection, name :: path =>
    ((projection.fields.find? (·.name == name)).bind (·.type.inner?)).bind (·.at? path)

/-- A projection holds what one level of a selection asks of a shape: its fields are the chosen
keys in their order, there is at least one, and the type of a field is unknown exactly if the field
leads to a shape that the catalog lacks. -/
structure Projection.Shows (catalog : Catalog) (shape : Shape) (choices : Choices)
    (projection : Projection) : Prop where
  shape_eq : projection.shape = shape.name
  fieldNames_eq : projection.fieldNames = Entries.keys (Choices.chosen choices)
  fields_ne_nil : projection.fields ≠ []
  unknown_iff : ∀ field ∈ projection.fields, field.type = .unknown ↔
    ∃ declared related, shape.field? field.name = some declared ∧
      declared.type.related? = some related ∧ catalog.find? related = none

/-! ## The projection of one field -/

namespace ShapeField

/-- Only the shapes that the catalog has for a field count for its projection. -/
theorem projected_congr {field : ShapeField} {project project' : Shape → Projection}
    (h : ∀ related innerShape, field.type.related? = some related →
      catalog.find? related = some innerShape → project innerShape = project' innerShape) :
    field.projected catalog project = field.projected catalog project' := by
  unfold projected
  cases htype : field.type with
  | leaf => rfl
  | object related list =>
    cases hfound : catalog.find? related with
    | none => simp [hfound]
    | some innerShape =>
      simp [hfound, h related innerShape (by simp [htype, ShapeType.related?]) hfound]
  | connection related =>
    cases hfound : catalog.find? related with
    | none => simp [hfound]
    | some innerShape =>
      simp [hfound, h related innerShape (by simp [htype, ShapeType.related?]) hfound]

/-- What stands below the projection of a field is the projection of the related shape. -/
theorem inner?_projected (field : ShapeField) (project : Shape → Projection) :
    (field.projected catalog project).inner? =
      (field.type.related?.bind catalog.find?).map project := by
  unfold projected
  cases field.type with
  | leaf => rfl
  | object related list =>
    cases hfound : catalog.find? related <;> simp [ShapeType.related?, hfound, ProjectedType.inner?]
  | connection related =>
    cases hfound : catalog.find? related <;> simp [ShapeType.related?, hfound, ProjectedType.inner?]

/-- A field is unknown exactly if it leads to a shape that is not there. -/
theorem projected_eq_unknown_iff (field : ShapeField) (project : Shape → Projection) :
    field.projected catalog project = .unknown ↔
      ∃ related, field.type.related? = some related ∧ catalog.find? related = none := by
  unfold projected
  cases field.type with
  | leaf => simp [ShapeType.related?]
  | object related list =>
    cases hfound : catalog.find? related <;> simp [ShapeType.related?, hfound]
  | connection related =>
    cases hfound : catalog.find? related <;> simp [ShapeType.related?, hfound]

/-- A page keeps the arguments of a nested selection. -/
theorem keptArguments_nested {field : ShapeField} {row : String} {inner : Choices}
    {arguments : PageArguments} (isPage : field.type = .connection row) :
    field.keptArguments (.nested inner arguments) = arguments := by
  simp [keptArguments, isPage]

end ShapeField

namespace Choice

/-- Exactly the chosen keys have a projection. -/
theorem isSome_project? (choice : Choice) (field : ShapeField) :
    (choice.project? catalog policy field).isSome = !choice.isExcluded := by
  cases choice <;> simp [project?, isExcluded]

/-- What is projected for a choice is what the field says, with some projection of the shape that it
leads to. -/
theorem projected_of_project? {field : ShapeField} {choice : Choice} {type : ProjectedType}
    (h : choice.project? catalog policy field = some type) :
    ∃ project, type = field.projected catalog project := by
  cases choice with
  | excluded => simp [project?] at h
  | wanted => exact ⟨_, by simpa [project?] using h.symm⟩
  | nested inner arguments => exact ⟨_, by simpa [project?] using h.symm⟩

/-- The projected field of a key by what is said about it, if it leaves a trace. -/
def projectField? (catalog : Catalog) (policy : DefaultPolicy) (shape : Shape) (key : String)
    (choice : Choice) : Option ProjectedField :=
  (shape.field? key).bind fun field => (choice.project? catalog policy field).map fun type =>
    ⟨key, type, field.nullable, field.keptArguments choice⟩

variable {shape : Shape} {key : String} {choice : Choice} {projected : ProjectedField}

/-- A field is projected exactly if the shape has it and the choice wants it. -/
theorem projectField?_eq_some_iff :
    choice.projectField? catalog policy shape key = some projected ↔
      ∃ field type, shape.field? key = some field ∧
        choice.project? catalog policy field = some type ∧
          projected = ⟨key, type, field.nullable, field.keptArguments choice⟩ := by
  rw [projectField?, Option.bind_eq_some_iff]
  refine exists_congr fun field => ?_
  rw [Option.map_eq_some_iff, exists_and_left]
  simp only [eq_comm]

/-- A projected field has the key that chose it. -/
theorem name_of_projectField? (h : choice.projectField? catalog policy shape key = some projected) :
    projected.name = key := by
  obtain ⟨field, type, -, -, rfl⟩ := projectField?_eq_some_iff.1 h
  rfl

/-- Excluded keys, and keys that are no fields of the shape, leave no trace. -/
theorem projectField?_eq_none_iff :
    choice.projectField? catalog policy shape key = none ↔
      choice.isExcluded = true ∨ shape.field? key = none := by
  cases hfield : shape.field? key with
  | none => simp [projectField?, hfield]
  | some field =>
    rw [projectField?, hfield, Option.bind_some, Option.map_eq_none_iff,
      ← Option.not_isSome_iff_eq_none, choice.isSome_project? field]
    simp

end Choice

namespace Shape

/-- The projection of a leaf has the wire type of the field. -/
theorem eq_of_mem_projectLeaves {shape : Shape} {names : List String} {projected : ProjectedField}
    (h : projected ∈ (shape.projectLeaves names).fields) :
    ∃ name field, shape.field? name = some field ∧
      projected = ⟨name, .leaf field.wire, field.nullable, {}⟩ := by
  obtain ⟨name, -, hname⟩ := List.mem_filterMap.1 h
  obtain ⟨field, hfield, rfl⟩ := Option.map_eq_some_iff.1 hname
  exact ⟨name, field, hfield, rfl⟩

end Shape

/-! ## The default selection does not step in -/

mutual

/-- A wanted field is a leaf, and a nested selection brings its own keys. -/
theorem Choice.project?_eq_of_fits {shape : Shape} {depth : Nat} {key : String}
    {field : ShapeField} : ∀ choice, Choice.Fits catalog maxDepth shape depth key choice →
      shape.field? key = some field →
      choice.project? catalog policy field = choice.project? catalog policy' field
  | .excluded, _, _ => by simp [Choice.project?]
  | .wanted, fits, isField => by
    have hleaf := (ShapeType.isLeaf_iff _).1 (fits.isLeaf isField)
    rw [Choice.project?, Choice.project?, ShapeField.projected_congr]
    simp [hleaf]
  | .nested inner arguments, fits, isField => by
    rw [Choice.project?, Choice.project?, ShapeField.projected_congr]
    intro related innerShape isRelation found
    rw [Choices.projectFields_eq_of_fits inner (fits.legal isField isRelation found).fits]

/-- Choices that fit leave nothing to the policy, by recursion over the choices. -/
theorem Choices.projectFields_eq_of_fits {shape : Shape} {depth : Nat} :
    ∀ (choices : List (String × Choice)),
      (∀ p ∈ choices, Choice.Fits catalog maxDepth shape depth p.1 p.2) →
      Choices.projectFields catalog policy shape choices =
        Choices.projectFields catalog policy' shape choices
  | [], _ => by simp [Choices.projectFields]
  | (key, choice) :: rest, fits => by
    -- Key by key, as both projections go through the same list.
    rw [List.forall_mem_cons] at fits
    rw [Choices.projectFields, Choices.projectFields,
      Choices.projectFields_eq_of_fits rest fits.2]
    cases hf : shape.field? key with
    | none => rfl
    | some field =>
      simp only
      rw [Choice.project?_eq_of_fits choice fits.1 hf]

end

/-! ## The fields of one level -/

namespace Choices

variable {shape : Shape} {depth : Nat}

/-- The fields of a level are projected one by one. -/
theorem projectFields_eq_filterMap (choices : Choices) :
    projectFields catalog policy shape choices =
      choices.filterMap fun p => p.2.projectField? catalog policy shape p.1 := by
  induction choices with
  | nil => rw [projectFields, List.filterMap_nil]
  | cons p rest ih =>
    obtain ⟨key, choice⟩ := p
    rw [projectFields, ih, List.filterMap_cons]
    simp only [Choice.projectField?]
    cases shape.field? key with
    | none => rfl
    | some field =>
      simp only [Option.bind_some]
      cases choice.project? catalog policy field <;> rfl

/-- The first choice gives a field or none, and the others follow. -/
theorem projectFields_cons (key : String) (choice : Choice) (rest : Choices) :
    projectFields catalog policy shape ((key, choice) :: rest) =
      (choice.projectField? catalog policy shape key).toList ++
        projectFields catalog policy shape rest := by
  rw [projectFields_eq_filterMap, projectFields_eq_filterMap, List.filterMap_cons]
  cases choice.projectField? catalog policy shape key <;> rfl

/-- Where no key occurs twice, what is projected of a key is found by its name. -/
theorem find?_projectFields {choices : Choices} (nodup : (Entries.keys choices).Nodup)
    (key : String) :
    (projectFields catalog policy shape choices).find? (·.name == key) =
      (Entries.find? choices key).bind (·.projectField? catalog policy shape key) := by
  induction choices with
  | nil => simp [projectFields]
  | cons p rest ih =>
    obtain ⟨first, choice⟩ := p
    rw [Entries.keys_cons, List.nodup_cons] at nodup
    rw [projectFields_cons, List.find?_append, ih nodup.2]
    by_cases hfirst : first = key
    · subst hfirst
      -- If this choice is not projected, no later one of the same key takes its place.
      rw [Entries.find?_eq_none_iff.2 nodup.1]
      cases hproject : choice.projectField? catalog policy shape first with
      | none => simp [Entries.find?, hproject]
      | some projected =>
        simp [Entries.find?, hproject, Choice.name_of_projectField? hproject]
    · cases hproject : choice.projectField? catalog policy shape first with
      | none => simp [Entries.find?, hfirst]
      | some projected => simp [Entries.find?, hfirst, Choice.name_of_projectField? hproject]

/-- The chosen keys that are fields are projected in their order. -/
theorem map_name_projectFields_eq_filter (choices : Choices) :
    (projectFields catalog policy shape choices).map (·.name) =
      (Entries.keys (chosen choices)).filter fun key => (shape.field? key).isSome := by
  induction choices with
  | nil => rfl
  | cons p rest ih =>
    obtain ⟨key, choice⟩ := p
    rw [projectFields_cons, List.map_append, ih]
    cases hproject : choice.projectField? catalog policy shape key with
    | none =>
      rcases Choice.projectField?_eq_none_iff.1 hproject with hexcluded | hfield
      · simp [chosen, hexcluded]
      · cases hchosen : choice.isExcluded <;> simp [chosen, hchosen, hfield]
    | some projected =>
      obtain ⟨field, type, hfield, htype, rfl⟩ := Choice.projectField?_eq_some_iff.1 hproject
      have hsome : (choice.project? catalog policy field).isSome = !choice.isExcluded :=
        choice.isSome_project? field
      have hchosen : choice.isExcluded = false := by simpa [htype] using hsome
      simp [chosen, hchosen, hfield]

/-- Where every key is a field, the chosen keys are projected in their order. -/
theorem map_name_projectFields {choices : Choices}
    (isField : ∀ p ∈ choices, ∃ field, shape.field? p.1 = some field) :
    (projectFields catalog policy shape choices).map (·.name) =
      Entries.keys (chosen choices) := by
  rw [map_name_projectFields_eq_filter, List.filter_eq_self]
  intro key hkey
  obtain ⟨p, hp, rfl⟩ := List.mem_map.1 hkey
  exact Option.isSome_iff_exists.2 (isField p (List.mem_filter.1 hp).1)

/-- Every projected field is the projection of a field of the shape by what is said about it. -/
theorem eq_of_mem_projectFields {choices : Choices} {projected : ProjectedField}
    (h : projected ∈ projectFields catalog policy shape choices) :
    ∃ p ∈ choices, ∃ field type, shape.field? p.1 = some field ∧
      p.2.project? catalog policy field = some type ∧
        projected = ⟨p.1, type, field.nullable, field.keptArguments p.2⟩ := by
  rw [projectFields_eq_filterMap] at h
  obtain ⟨p, hp, hproject⟩ := List.mem_filterMap.1 h
  exact ⟨p, hp, Choice.projectField?_eq_some_iff.1 hproject⟩

/-- Every projected field comes from a field of the shape. -/
theorem exists_of_mem_projectFields {choices : Choices} {projected : ProjectedField}
    (h : projected ∈ projectFields catalog policy shape choices) :
    ∃ field project, shape.field? projected.name = some field ∧
      projected.type = field.projected catalog project := by
  obtain ⟨p, -, field, type, hf, ht, rfl⟩ := eq_of_mem_projectFields h
  obtain ⟨project, hproject⟩ := Choice.projected_of_project? ht
  exact ⟨field, project, hf, hproject⟩

/-- The projection of a legal level shows it. -/
theorem shows_project {choices : Choices} (legal : Legal catalog maxDepth shape depth choices) :
    (project catalog policy shape choices).Shows catalog shape choices := by
  have hnames : (projectFields catalog policy shape choices).map (·.name) =
      Entries.keys (chosen choices) :=
    map_name_projectFields fun p hp => (legal.fits p hp).exists_field
  refine ⟨rfl, hnames, ?_, ?_⟩
  · intro hnil
    have hchosen : Entries.keys (chosen choices) = [] := by
      rw [← hnames]
      simpa [project] using hnil
    exact legal.chosen_ne_nil (List.map_eq_nil_iff.1 hchosen)
  · intro projected hprojected
    obtain ⟨field, inner, hf, htype⟩ := exists_of_mem_projectFields hprojected
    rw [htype, ShapeField.projected_eq_unknown_iff]
    simp [hf]

/-! ## All levels -/

/-- Below a key stands the projection of the nested selection for the related shape, and below any
other key there is nothing. -/
theorem inner?_find?_project {choices : Choices}
    (legal : Legal catalog maxDepth shape depth choices) (distinct : Distinct choices)
    (key : String) :
    ((project catalog policy shape choices).fields.find? (·.name == key)).bind (·.type.inner?) =
      (levelAt? catalog shape choices [key]).map fun level =>
        project catalog policy level.1 level.2 := by
  rw [project, find?_projectFields distinct.nodup, levelAt?]
  cases hfind : Entries.find? choices key with
  | none => rfl
  | some choice =>
    have fits := legal.fits _ (Entries.mem_of_find? hfind)
    obtain ⟨field, isField⟩ := fits.exists_field
    rw [Option.bind_some, Choice.projectField?, isField]
    cases choice with
    | excluded => rfl
    | wanted =>
      have hleaf := (ShapeType.isLeaf_iff _).1 (fits.isLeaf isField)
      simp [Choice.project?, ShapeField.inner?_projected, hleaf]
    | nested inner arguments =>
      simp only [Choice.project?, Option.bind_some, Option.map_some,
        ShapeField.inner?_projected]
      cases field.type.related?.bind catalog.find? <;> rfl

/-- The projection at a path is that of the level at the path. -/
theorem at?_project {choices : Choices} (legal : Legal catalog maxDepth shape depth choices)
    (distinct : Distinct choices) (path : List String) :
    (project catalog policy shape choices).at? path =
      (levelAt? catalog shape choices path).map fun level =>
        project catalog policy level.1 level.2 := by
  -- On the path: legality and distinct keys go down with the level.
  induction path generalizing shape depth choices with
  | nil => rfl
  | cons key path ih =>
    rw [Projection.at?, inner?_find?_project legal distinct,
      levelAt?_cons_eq_bind catalog shape choices key path]
    cases hlevel : levelAt? catalog shape choices [key] with
    | none => rfl
    | some level =>
      obtain ⟨legal', distinct'⟩ := legal.step_down distinct hlevel
      exact ih legal' distinct'

/-- Choices that are legal are so at every level, with the depth of the level. -/
theorem Legal.at {choices : Choices} (legal : Legal catalog maxDepth shape depth choices)
    (distinct : Distinct choices) {path : List String} {innerShape : Shape} {level : Choices}
    (h : levelAt? catalog shape choices path = some (innerShape, level)) :
    Legal catalog maxDepth innerShape (depth + path.length) level := by
  induction path generalizing shape depth choices with
  | nil =>
    obtain ⟨rfl, rfl⟩ : shape = innerShape ∧ choices = level := by simpa using h
    exact legal
  | cons key path ih =>
    rw [levelAt?_cons_eq_bind] at h
    obtain ⟨next, hnext, h⟩ := Option.bind_eq_some_iff.1 h
    obtain ⟨legal', distinct'⟩ := legal.step_down distinct hnext
    rw [List.length_cons, Nat.add_comm path.length, ← Nat.add_assoc]
    exact ih legal' distinct' h

end Choices

/-! ## Checked selections -/

namespace Sample

/-- A user leads to posts, and to an owner whose shape is nowhere to be found. -/
def userShape : Shape where
  name := "User"
  fields := Keyed.ofList
    [("id", .ofWire .leaf (.scalar "ID")),
      ("name", .ofWire .leaf (.scalar "String")),
      ("posts", .ofWire (.connection "Post") (.object "Post")),
      ("owner", .ofWire (.object "Ghost" false) (.object "Ghost"))]
  keyNames := ["id"]

/-- A post leads back to a user. -/
def postShape : Shape where
  name := "Post"
  fields := Keyed.ofList
    [("title", .ofWire .leaf (.scalar "String")),
      ("author", .ofWire (.object "User" false) (.object "User"))]
  keyNames := []

def shapes : Catalog := ⟨Keyed.ofList [("User", userShape), ("Post", postShape)]⟩

/-- A selection that goes around the cycle between users and posts. -/
def selection : Selection :=
  let posts := (Selection.ofFields ["title"]).nest "author" (.ofFields ["name"])
  (((Selection.empty.want "id").exclude "name").nest "posts" posts).nest "owner" .empty

end Sample

/-- A selection that passes the check is projected without loss and without defaults: both policies
give the same projection, projection and selection have the same paths, and the projection at each
path shows the level of the selection there. -/
theorem Selection.project_of_check {catalog : Catalog} {maxDepth : Nat} {shape : Shape}
    {selection : Selection} (h : selection.check catalog maxDepth shape = .ok ()) :
    (∀ policy policy',
      selection.project catalog policy shape = selection.project catalog policy' shape) ∧
    ∀ policy path,
      (((selection.project catalog policy shape).at? path).isSome =
        (Choices.levelAt? catalog shape selection.choices path).isSome) ∧
      ∀ projection innerShape level,
        (selection.project catalog policy shape).at? path = some projection →
        Choices.levelAt? catalog shape selection.choices path = some (innerShape, level) →
        projection.Shows catalog innerShape level := by
  have legal : Choices.Legal catalog maxDepth shape 1 selection.choices :=
    (Choices.check_eq_ok_iff_of_agrees (Choices.agrees_of_mem selection.choices) shape
      [shape.name] 1).1 h
  constructor
  · intro policy policy'
    rw [project, project, Choices.project, Choices.project,
      Choices.projectFields_eq_of_fits _ legal.fits]
  · intro policy path
    rw [project, Choices.at?_project legal selection.distinct path]
    constructor
    · exact Option.isSome_map
    · intro projection innerShape level hprojection hlevel
      obtain rfl : Choices.project catalog policy innerShape level = projection := by
        simpa [hlevel] using hprojection
      exact Choices.shows_project (legal.at selection.distinct hlevel)

/-- The sample selection is legal at a depth of three, and the names of its fields two relations
below the user are those of the selection there. -/
theorem Sample.project_selection :
    Sample.selection.check Sample.shapes 3 Sample.userShape = .ok () ∧
    ∀ policy projection, (Sample.selection.project Sample.shapes policy Sample.userShape).at?
        ["posts", "author"] = some projection → projection.fieldNames = ["name"] := by
  have hcheck : Sample.selection.check Sample.shapes 3 Sample.userShape = .ok () := rfl
  refine ⟨hcheck, fun policy projection hat => ?_⟩
  have hshows := ((Selection.project_of_check hcheck).2 policy ["posts", "author"]).2 projection
    Sample.userShape [("name", .wanted)] hat rfl
  exact hshows.fieldNames_eq

end GraphClient
