import GraphClient.Selection.Basic
import GraphClient.Shape.Catalog

/-!
# Default selections

What is selected where a caller names nothing: a few leaves of the shape itself, or all leaves
within some levels of nesting. The second selection enters no shape twice on one path, so it is
finite on cyclic catalogs.
-/

namespace GraphClient

namespace Shape

/-- The names that a default selection wants: the leaves among the key fields, or else the first
leaf; or all leaves. -/
def defaultNames (shape : Shape) : DefaultPolicy → List String
  | .allScalars => shape.leafNames
  | .primaryKey =>
    match shape.keyNames.filter shape.hasLeaf with
    | [] => shape.leafNames.take 1
    | names => names

end Shape

namespace Choices

/-- What a default selection says about a field: a leaf is wanted, and a relation carries the
choices that are made for the related shape, unless they are bare. -/
def ofField? (inner : String → Choices) (field : ShapeField) : Option Choice :=
  match field.type.related? with
  | none => some .wanted
  | some related =>
    let choices := inner related
    if isBare choices then none else some (.nested choices {})

/-- What a default selection says about the fields of a shape. -/
def ofFields (inner : String → Choices) (fields : Entries ShapeField) : Choices :=
  fields.filterMap fun p => (ofField? inner p.2).map fun choice => (p.1, choice)

/-- The choices that want all leaves, with `levels` levels of relations below the shape. `path`
holds the shapes that were entered on the way. -/
def allScalars (catalog : Catalog) : Nat → List String → Shape → Choices
  | 0, _, shape => ofFields (fun _ => []) shape.fields.entries
  | levels + 1, path, shape =>
    ofFields (fun related =>
        if path.contains related then []
        else
          match catalog.find? related with
          | none => []
          | some inner => allScalars catalog levels (related :: path) inner)
      shape.fields.entries

theorem mem_ofFields {inner : String → Choices} {fields : Entries ShapeField}
    {p : String × Choice} :
    p ∈ ofFields inner fields ↔
      ∃ field, (p.1, field) ∈ fields ∧ ofField? inner field = some p.2 := by
  unfold ofFields
  rw [List.mem_filterMap]
  constructor
  · rintro ⟨⟨name, field⟩, hm, h⟩
    obtain ⟨choice, hc, rfl⟩ := Option.map_eq_some_iff.1 h
    exact ⟨field, hm, hc⟩
  · rintro ⟨field, hm, hc⟩
    exact ⟨(p.1, field), hm, by simp [hc]⟩

/-- What is chosen from some fields has keys among theirs, in their order. -/
theorem sublist_keys_ofFields (inner : String → Choices) (fields : Entries ShapeField) :
    (Entries.keys (ofFields inner fields)).Sublist (Entries.keys fields) := by
  induction fields with
  | nil => exact List.Sublist.refl _
  | cons p rest ih =>
    cases h : ofField? inner p.2 with
    | none => simpa [ofFields, h] using List.Sublist.cons p.1 (by simpa [ofFields] using ih)
    | some choice =>
      simpa [ofFields, h] using List.Sublist.cons_cons p.1 (by simpa [ofFields] using ih)

theorem distinct_ofFields {inner : String → Choices} (hi : ∀ name, Distinct (inner name))
    {fields : Entries ShapeField} (h : fields.keys.Nodup) : Distinct (ofFields inner fields) := by
  rw [distinct_iff]
  refine ⟨List.Sublist.nodup (sublist_keys_ofFields inner fields) h, fun p hp => ?_⟩
  obtain ⟨field, -, hf⟩ := mem_ofFields.1 hp
  unfold ofField? at hf
  split at hf
  · simp only [Option.some.injEq] at hf
    exact hf ▸ trivial
  · simp only at hf
    split at hf
    · simp at hf
    · simp only [Option.some.injEq] at hf
      exact hf ▸ hi _

/-- All leaves are distinct choices, at every level. -/
theorem distinct_allScalars (catalog : Catalog) (levels : Nat) :
    ∀ (path : List String) (shape : Shape), Distinct (allScalars catalog levels path shape) := by
  induction levels with
  | zero =>
    intro _ shape
    have h : ∀ name : String, Distinct ((fun _ => []) name) := fun _ => trivial
    exact distinct_ofFields h shape.fields.nodup
  | succ levels ih =>
    intro path shape
    refine distinct_ofFields (fun name => ?_) shape.fields.nodup
    split
    · trivial
    · split
      · trivial
      · exact ih _ _

end Choices

namespace Selection

/-- The selection that is used where a caller names none. -/
def defaultFor (shape : Shape) (policy : DefaultPolicy) : Selection :=
  ofFields (shape.defaultNames policy)

/-- All leaves of a shape and of the shapes it leads to, `depth` levels deep. -/
def allScalars (catalog : Catalog) (shape : Shape) (depth : Nat) : Selection :=
  ⟨Choices.allScalars catalog (depth - 1) [shape.name] shape,
    Choices.distinct_allScalars catalog (depth - 1) [shape.name] shape⟩

end Selection

end GraphClient
