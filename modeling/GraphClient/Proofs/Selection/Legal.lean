import GraphClient.Selection.Check

/-!
# Legal selections

What a selection has to satisfy to fit a shape, stated by rules and not by a traversal, and what it
means that a violation is the first one on the way through the tree.

* `Choices.Legal`, `Choice.Fits` : the rules.
* `Choices.FirstViolation`, `Choice.FirstViolation` : a violation before which everything is in
  order.
* `Choices.levelAt?` : the level at the end of a path of keys, with the shape it is applied to.
-/

namespace GraphClient

mutual

/-- The choices of a level are legal for a shape at a depth: the depth is allowed, every key fits,
and some key is not excluded. -/
inductive Choices.Legal (catalog : Catalog) (maxDepth : Nat) : Shape → Nat → Choices → Prop
  | intro {shape : Shape} {depth : Nat} {choices : Choices} (depth_le : depth ≤ maxDepth)
      (fits : ∀ p ∈ choices, Choice.Fits catalog maxDepth shape depth p.1 p.2)
      (chosen : ∃ p ∈ choices, p.2.isExcluded = false) :
      Choices.Legal catalog maxDepth shape depth choices

/-- A key with its choice fits a shape: the key is a field, a wanted field is a leaf, and a nested
selection sits on a relation and is legal for the related shape, if that is in the catalog. -/
inductive Choice.Fits (catalog : Catalog) (maxDepth : Nat) :
    Shape → Nat → String → Choice → Prop
  | excluded {shape : Shape} {depth : Nat} {key : String} {field : ShapeField}
      (isField : shape.field? key = some field) :
      Choice.Fits catalog maxDepth shape depth key .excluded
  | wanted {shape : Shape} {depth : Nat} {key : String} {field : ShapeField}
      (isField : shape.field? key = some field) (isLeaf : field.type.isLeaf = true) :
      Choice.Fits catalog maxDepth shape depth key .wanted
  | missing {shape : Shape} {depth : Nat} {key related : String} {field : ShapeField}
      {inner : Choices} {arguments : PageArguments} (isField : shape.field? key = some field)
      (isRelation : field.type.related? = some related) (free : catalog.find? related = none) :
      Choice.Fits catalog maxDepth shape depth key (.nested inner arguments)
  | nested {shape innerShape : Shape} {depth : Nat} {key related : String} {field : ShapeField}
      {inner : Choices} {arguments : PageArguments} (isField : shape.field? key = some field)
      (isRelation : field.type.related? = some related)
      (found : catalog.find? related = some innerShape)
      (legal : Choices.Legal catalog maxDepth innerShape (depth + 1) inner) :
      Choice.Fits catalog maxDepth shape depth key (.nested inner arguments)

end

mutual

/-- The first violation of a level on the way through it: its depth is looked at before its keys,
the keys in their order, and that some key is not excluded comes last. -/
inductive Choices.FirstViolation (catalog : Catalog) (maxDepth : Nat) :
    Shape → List String → Nat → Choices → Violation → Prop
  | tooDeep {shape : Shape} {path : List String} {depth : Nat} {choices : Choices}
      (deep : maxDepth < depth) :
      Choices.FirstViolation catalog maxDepth shape path depth choices (.tooDeep path maxDepth)
  | key {shape : Shape} {path : List String} {depth : Nat} {before after : Choices}
      {key : String} {choice : Choice} {violation : Violation} (depth_le : depth ≤ maxDepth)
      (fits : ∀ p ∈ before, Choice.Fits catalog maxDepth shape depth p.1 p.2)
      (first : Choice.FirstViolation catalog maxDepth shape path depth key choice violation) :
      Choices.FirstViolation catalog maxDepth shape path depth (before ++ (key, choice) :: after)
        violation
  | nothingSelected {shape : Shape} {path : List String} {depth : Nat} {choices : Choices}
      (depth_le : depth ≤ maxDepth)
      (fits : ∀ p ∈ choices, Choice.Fits catalog maxDepth shape depth p.1 p.2)
      (bare : ∀ p ∈ choices, p.2.isExcluded = true) :
      Choices.FirstViolation catalog maxDepth shape path depth choices (.nothingSelected path)

/-- The first violation of a key with its choice: a nested selection is gone through where its key
stands, under a path that is longer by the key. -/
inductive Choice.FirstViolation (catalog : Catalog) (maxDepth : Nat) :
    Shape → List String → Nat → String → Choice → Violation → Prop
  | unknownField {shape : Shape} {path : List String} {depth : Nat} {key : String}
      {choice : Choice} (noField : shape.field? key = none) :
      Choice.FirstViolation catalog maxDepth shape path depth key choice
        (.unknownField path key shape.name)
  | bareRelation {shape : Shape} {path : List String} {depth : Nat} {key : String}
      {field : ShapeField} (isField : shape.field? key = some field)
      (noLeaf : field.type.isLeaf = false) :
      Choice.FirstViolation catalog maxDepth shape path depth key .wanted (.bareRelation path key)
  | nestedLeaf {shape : Shape} {path : List String} {depth : Nat} {key : String}
      {field : ShapeField} {inner : Choices} {arguments : PageArguments}
      (isField : shape.field? key = some field) (isLeaf : field.type.isLeaf = true) :
      Choice.FirstViolation catalog maxDepth shape path depth key (.nested inner arguments)
        (.nestedLeaf path key)
  | nested {shape innerShape : Shape} {path : List String} {depth : Nat} {key related : String}
      {field : ShapeField} {inner : Choices} {arguments : PageArguments} {violation : Violation}
      (isField : shape.field? key = some field)
      (isRelation : field.type.related? = some related)
      (found : catalog.find? related = some innerShape)
      (first : Choices.FirstViolation catalog maxDepth innerShape (path ++ [key]) (depth + 1) inner
        violation) :
      Choice.FirstViolation catalog maxDepth shape path depth key (.nested inner arguments)
        violation

end

namespace Violation

/-- The path of a violation: the name of the shape, then the keys that lead to the level. -/
def path : Violation → List String
  | .unknownField path _ _ | .bareRelation path _ | .nestedLeaf path _ | .tooDeep path _
  | .nothingSelected path => path

/-- A level itself meets a violation, whatever there is below it. -/
def MetAt (maxDepth : Nat) (shape : Shape) (depth : Nat) (choices : Choices) : Violation → Prop
  | .unknownField _ key name => key ∈ Entries.keys choices ∧ shape.field? key = none ∧
      name = shape.name
  | .bareRelation _ key => Entries.find? choices key = some .wanted ∧
      ∃ field, shape.field? key = some field ∧ field.type.isLeaf = false
  | .nestedLeaf _ key => (∃ inner arguments,
        Entries.find? choices key = some (.nested inner arguments)) ∧
      ∃ field, shape.field? key = some field ∧ field.type.isLeaf = true
  | .tooDeep _ bound => bound = maxDepth ∧ maxDepth < depth
  | .nothingSelected _ => ∀ p ∈ choices, p.2.isExcluded = true

end Violation

namespace Choices

/-- The level that a path of keys leads to through nested selections, with the shape that it is
applied to. -/
def levelAt? (catalog : Catalog) : Shape → Choices → List String → Option (Shape × Choices)
  | shape, choices, [] => some (shape, choices)
  | shape, choices, key :: keys =>
    match Entries.find? choices key,
        ((shape.field? key).bind (·.type.related?)).bind catalog.find? with
    | some (.nested inner _), some innerShape => levelAt? catalog innerShape inner keys
    | _, _ => none

/-- At the empty path are the choices themselves. -/
@[simp] theorem levelAt?_nil (catalog : Catalog) (shape : Shape) (choices : Choices) :
    levelAt? catalog shape choices [] = some (shape, choices) := rfl

/-- A path goes on below a key that carries a nested selection for a known shape. -/
theorem levelAt?_cons {catalog : Catalog} {shape innerShape : Shape} {choices inner : Choices}
    {key related : String} {field : ShapeField} {arguments : PageArguments}
    (h : Entries.find? choices key = some (.nested inner arguments))
    (isField : shape.field? key = some field) (isRelation : field.type.related? = some related)
    (found : catalog.find? related = some innerShape) (keys : List String) :
    levelAt? catalog shape choices (key :: keys) = levelAt? catalog innerShape inner keys := by
  simp [levelAt?, h, isField, isRelation, found]

/-- A path is walked key by key. -/
theorem levelAt?_cons_eq_bind (catalog : Catalog) (shape : Shape) (choices : Choices)
    (key : String) (keys : List String) :
    levelAt? catalog shape choices (key :: keys) =
      (levelAt? catalog shape choices [key]).bind fun level =>
        levelAt? catalog level.1 level.2 keys := by
  simp only [levelAt?]
  split <;> rfl

/-- A level further down stands under a key with a nested selection for a known shape. -/
theorem exists_of_levelAt?_singleton {catalog : Catalog} {shape innerShape : Shape}
    {choices inner : Choices} {key : String}
    (h : levelAt? catalog shape choices [key] = some (innerShape, inner)) :
    ∃ arguments field related, Entries.find? choices key = some (.nested inner arguments) ∧
      shape.field? key = some field ∧ field.type.related? = some related ∧
      catalog.find? related = some innerShape := by
  simp only [levelAt?] at h
  split at h
  · next hfind hshape =>
    obtain ⟨rfl, rfl⟩ : _ = innerShape ∧ _ = inner := by simpa using h
    obtain ⟨related, hrelated, hfound⟩ := Option.bind_eq_some_iff.1 hshape
    obtain ⟨field, isField, isRelation⟩ := Option.bind_eq_some_iff.1 hrelated
    exact ⟨_, field, related, hfind, isField, isRelation, hfound⟩
  · simp at h

/-- Distinct choices have distinct keys. -/
theorem Distinct.nodup {choices : Choices} (h : Distinct choices) :
    (Entries.keys choices).Nodup := ((distinct_iff choices).1 h).1

/-- Distinct choices are distinct below each key. -/
theorem Distinct.choice {choices : Choices} (h : Distinct choices) {p : String × Choice}
    (hp : p ∈ choices) : p.2.Distinct := ((distinct_iff choices).1 h).2 p hp

/-- Legal choices are not too deep. -/
theorem Legal.depth_le {catalog : Catalog} {maxDepth depth : Nat} {shape : Shape}
    {choices : Choices} (h : Legal catalog maxDepth shape depth choices) : depth ≤ maxDepth := by
  cases h; assumption

/-- Each of legal choices fits its field. -/
theorem Legal.fits {catalog : Catalog} {maxDepth depth : Nat} {shape : Shape}
    {choices : Choices} (h : Legal catalog maxDepth shape depth choices) :
    ∀ p ∈ choices, Choice.Fits catalog maxDepth shape depth p.1 p.2 := by
  cases h; assumption

/-- Legal choices choose something. -/
theorem Legal.chosen_ne_nil {catalog : Catalog} {maxDepth depth : Nat} {shape : Shape}
    {choices : Choices} (h : Legal catalog maxDepth shape depth choices) :
    chosen choices ≠ [] := by
  obtain ⟨-, -, p, hp, hchosen⟩ := h
  intro hnil
  have hmem : p ∈ chosen choices := by simp [chosen, hp, hchosen]
  rw [hnil] at hmem
  simp at hmem

end Choices

namespace Choice.Fits

variable {catalog : Catalog} {maxDepth depth : Nat} {shape : Shape} {key : String}

/-- A choice that fits is one for a field of the shape. -/
theorem exists_field {choice : Choice} (h : Fits catalog maxDepth shape depth key choice) :
    ∃ field, shape.field? key = some field := by
  cases h <;> exact ⟨_, ‹_›⟩

/-- What may be wanted as it is, is a leaf. -/
theorem isLeaf {field : ShapeField} (h : Fits catalog maxDepth shape depth key .wanted)
    (isField : shape.field? key = some field) : field.type.isLeaf = true := by
  cases h
  simp_all

/-- A nested selection for a known shape is legal one level further down. -/
theorem legal {field : ShapeField} {related : String} {innerShape : Shape} {inner : Choices}
    {arguments : PageArguments}
    (h : Fits catalog maxDepth shape depth key (.nested inner arguments))
    (isField : shape.field? key = some field) (isRelation : field.type.related? = some related)
    (found : catalog.find? related = some innerShape) :
    Choices.Legal catalog maxDepth innerShape (depth + 1) inner := by
  cases h <;> simp_all

end Choice.Fits

/-- One step down from a legal level leads to a legal level. -/
theorem Choices.Legal.step_down {catalog : Catalog} {maxDepth depth : Nat}
    {shape innerShape : Shape} {choices inner : Choices} {key : String}
    (legal : Legal catalog maxDepth shape depth choices) (distinct : Distinct choices)
    (h : levelAt? catalog shape choices [key] = some (innerShape, inner)) :
    Legal catalog maxDepth innerShape (depth + 1) inner ∧ Distinct inner := by
  obtain ⟨arguments, field, related, hfind, isField, isRelation, found⟩ :=
    exists_of_levelAt?_singleton h
  have hmem := Entries.mem_of_find? hfind
  exact ⟨(legal.fits _ hmem).legal isField isRelation found, distinct.choice hmem⟩

end GraphClient
