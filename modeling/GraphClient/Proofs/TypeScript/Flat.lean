import GraphClient.Proofs.TypeScript.Weight

/-!
# Flat types

Nested unions and intersections say the same as one with all members, and one of a single member
says the same as the member. A type is bracketed if the parentheses in its text keep its operators
apart. None is written around a union, an intersection or a condition behind `keyof`, and none
around a condition that is indexed or checked by another one.

* `TypeExpr.flat` : a type without nested joins of one kind, and without joins of one member.
* `TypeExpr.bracketed` : the types whose operators are kept apart.
* `TypeExpr.weight_value_phrase` : what a type is read as weighs as much as the flat type.
-/

namespace GraphClient

namespace TypeScript

namespace TypeExpr

/-! ## Flat types -/

mutual

/-- The type with nested unions and intersections taken apart, and without those of one member. -/
def flat : TypeExpr → TypeExpr
  | .named text => .named text
  | .literal value => .literal value
  | .generic name arguments => .generic name (flatAll arguments)
  | .array element => .array element.flat
  | .union members => Join.or.combine (flatAll members)
  | .intersection members => Join.and.combine (flatAll members)
  | .object properties multiline => .object (flatProperties properties) multiline
  | .keys type => .keys type.flat
  | .index type key => .index type.flat key.flat
  | .tuple members => .tuple (flatAll members)
  | .conditional checked bound whenTrue whenFalse =>
    .conditional checked.flat bound.flat whenTrue.flat whenFalse.flat
  | .mapped parameter source remap value optional =>
    .mapped parameter source.flat (flatRemap remap) value.flat optional

/-- Some types, each of them flat. -/
def flatAll : List TypeExpr → List TypeExpr
  | [] => []
  | type :: rest => type.flat :: flatAll rest

/-- The flat key of a mapped property. -/
def flatRemap : Option TypeExpr → Option TypeExpr
  | none => none
  | some key => some key.flat

/-- Some properties, each of them with a flat type. -/
def flatProperties : List Property → List Property
  | [] => []
  | property :: rest => flatProperty property :: flatProperties rest

/-- A property with a flat type. -/
def flatProperty : Property → Property
  | ⟨key, value, optional, readonly, docs⟩ => ⟨key, value.flat, optional, readonly, docs⟩

end

/-! ## Types whose operators are kept apart -/

/-- Whether a type is one operand behind `keyof`: it is no condition, and it is not joined from
several members. -/
def standsAlone : TypeExpr → Bool
  | .union [member] => member.wrapsInUnion || member.standsAlone
  | .intersection [member] => member.wrapsInIntersection || member.standsAlone
  | .union _ | .intersection _ | .conditional .. => false
  | _ => true

mutual

/-- Whether the parentheses of a type keep its operators apart: behind each `keyof` stands one
operand, and a condition is neither indexed nor checked, unless it stands in parentheses. -/
def bracketed : TypeExpr → Bool
  | .named _ => true
  | .literal _ => true
  | .generic _ arguments => bracketedAll arguments
  | .array element => element.bracketed
  | .union members => bracketedAll members
  | .intersection members => bracketedAll members
  | .object properties _ => bracketedProperties properties
  | .keys type => type.standsAlone && type.bracketed
  | .index type key => !type.wrapsInUnion && type.bracketed && key.bracketed
  | .tuple members => bracketedAll members
  | .conditional checked bound whenTrue whenFalse =>
    !checked.wrapsInUnion && checked.bracketed && bound.bracketed && whenTrue.bracketed &&
      whenFalse.bracketed
  | .mapped _ source remap value _ =>
    source.bracketed && bracketedRemap remap && value.bracketed

/-- All of some types keep their operators apart. -/
def bracketedAll : List TypeExpr → Bool
  | [] => true
  | type :: rest => type.bracketed && bracketedAll rest

/-- The key of a mapped property keeps its operators apart. -/
def bracketedRemap : Option TypeExpr → Bool
  | none => true
  | some key => key.bracketed

/-- The types of some properties keep their operators apart. -/
def bracketedProperties : List Property → Bool
  | [] => true
  | property :: rest => bracketedProperty property && bracketedProperties rest

/-- The type of a property keeps its operators apart. -/
def bracketedProperty : Property → Bool
  | ⟨_, value, _, _, _⟩ => value.bracketed

end

/-! ## Types in lists -/

/-- A list of types is flattened one by one. -/
theorem flatAll_eq_map (types : List TypeExpr) : flatAll types = types.map flat := by
  induction types with
  | nil => rfl
  | cons type rest ih => rw [flatAll, ih, List.map_cons]

/-- The phrases of members are those of the types, in parentheses where they need them. -/
theorem memberPhrases_eq_map (join : Join) (types : List TypeExpr) :
    memberPhrases join types = types.map fun type => type.phrase.wrapIf (join.wraps type) := by
  induction types with
  | nil => rfl
  | cons type rest ih => rw [memberPhrases, ih, List.map_cons]

/-- To test a list is to test each of its types. -/
theorem plainAll_iff {types : List TypeExpr} :
    plainAll types = true ↔ ∀ type ∈ types, type.plain = true := by
  induction types with
  | nil => exact iff_of_true rfl (List.forall_mem_nil _)
  | cons type rest ih => rw [plainAll, Bool.and_eq_true, ih, List.forall_mem_cons]

/-- To test a list is to test each of its types. -/
theorem bracketedAll_iff {types : List TypeExpr} :
    bracketedAll types = true ↔ ∀ type ∈ types, type.bracketed = true := by
  induction types with
  | nil => exact iff_of_true rfl (List.forall_mem_nil _)
  | cons type rest ih => rw [bracketedAll, Bool.and_eq_true, ih, List.forall_mem_cons]

/-- Flat types are combined to a proper one if each of them is proper. -/
theorem proper_combine_flatAll (join : Join) {types : List TypeExpr} (nonempty : types ≠ [])
    (h : ∀ type ∈ types, type.flat.Proper) : (join.combine (flatAll types)).Proper := by
  rw [flatAll_eq_map]
  exact .combine (List.map_eq_nil_iff.not.2 nonempty) (List.forall_mem_map.2 h) join

/-- Types that are joined weigh the same as their flat types that are joined. -/
theorem weight_combine_flatAll (join : Join) {types : List TypeExpr} (nonempty : types ≠ [])
    (h : ∀ type ∈ types, type.flat.Proper) (hweight : weightAll (flatAll types) = weightAll types) :
    (join.combine (flatAll types)).weight = (join.node types).weight := by
  rw [weight_node nonempty, ← hweight, flatAll_eq_map]
  exact weight_combine (List.map_eq_nil_iff.not.2 nonempty) (List.forall_mem_map.2 h) join

mutual

/-- A plain type is proper once it is flat, by recursion over the type. -/
theorem proper_flat : ∀ type : TypeExpr, type.plain = true → type.flat.Proper
  | .union members, h => by
    simp only [plain, Bool.and_eq_true] at h
    rw [flat]
    exact proper_combine_flatAll .or (ne_nil_of_plain h.1) (proper_flatAll members h.2)
  | .intersection members, h => by
    simp only [plain, Bool.and_eq_true] at h
    rw [flat]
    exact proper_combine_flatAll .and (ne_nil_of_plain h.1) (proper_flatAll members h.2)
  | .named _, _ | .literal _, _ | .generic _ _, _ | .array _, _ | .object _ _, _ | .keys _, _
  | .index _ _, _ | .tuple _, _ | .conditional _ _ _ _, _ | .mapped _ _ _ _ _, _ =>
    .of_isJoined_eq_false rfl

/-- Plain types are proper once they are flat. -/
theorem proper_flatAll : ∀ types : List TypeExpr, plainAll types = true →
    ∀ type ∈ types, type.flat.Proper
  | [], _ => List.forall_mem_nil _
  | type :: rest, h => by
    simp only [plainAll, Bool.and_eq_true] at h
    exact List.forall_mem_cons.2 ⟨proper_flat type h.1, proper_flatAll rest h.2⟩

end

mutual

/-- A flat type weighs as much as the type. -/
theorem weight_flat : ∀ type : TypeExpr, type.plain = true → type.flat.weight = type.weight
  | .named _, _ => rfl
  | .literal _, _ => rfl
  | .generic _ arguments, h => by
    simp only [plain, Bool.and_eq_true] at h
    rw [flat, weight, weightAll_flatAll arguments h.2, weight]
  | .array element, h => by
    rw [flat, weight, weight_flat element h, weight]
  | .union members, h => by
    simp only [plain, Bool.and_eq_true] at h
    rw [flat]
    exact weight_combine_flatAll .or (ne_nil_of_plain h.1) (proper_flatAll members h.2)
      (weightAll_flatAll members h.2)
  | .intersection members, h => by
    simp only [plain, Bool.and_eq_true] at h
    rw [flat]
    exact weight_combine_flatAll .and (ne_nil_of_plain h.1) (proper_flatAll members h.2)
      (weightAll_flatAll members h.2)
  | .object properties _, h => by
    simp only [plain, Bool.and_eq_true] at h
    rw [flat, weight, weight_flatProperties properties h.2, weight]
  | .keys type, h => by
    rw [flat, weight, weight_flat type h, weight]
  | .index type key, h => by
    simp only [plain, Bool.and_eq_true] at h
    rw [flat, weight, weight_flat type h.1, weight_flat key h.2, weight]
  | .tuple members, h => by
    rw [flat, weight, weightAll_flatAll members h, weight]
  | .conditional checked bound whenTrue whenFalse, h => by
    simp only [plain, Bool.and_eq_true] at h
    rw [flat, weight, weight_flat checked h.1.1.1, weight_flat bound h.1.1.2,
      weight_flat whenTrue h.1.2, weight_flat whenFalse h.2, weight]
  | .mapped _ source remap value _, h => by
    simp only [plain, Bool.and_eq_true] at h
    rw [flat, weight, weight_flat source h.1.1.2, weight_flatRemap remap h.1.2,
      weight_flat value h.2, weight]

/-- To flatten some plain types changes nothing of their weight. -/
theorem weightAll_flatAll : ∀ types : List TypeExpr, plainAll types = true →
    weightAll (flatAll types) = weightAll types
  | [], _ => rfl
  | type :: rest, h => by
    simp only [plainAll, Bool.and_eq_true] at h
    rw [flatAll, weightAll, weight_flat type h.1, weightAll_flatAll rest h.2, weightAll]

/-- To flatten the key of a mapped property changes nothing of its weight. -/
theorem weight_flatRemap : ∀ remap : Option TypeExpr, plainRemap remap = true →
    weightRemap (flatRemap remap) = weightRemap remap
  | none, _ => rfl
  | some key, h => weight_flat key h

/-- To flatten plain properties changes nothing of their weight. -/
theorem weight_flatProperties : ∀ properties : List Property, plainProperties properties = true →
    weightProperties (flatProperties properties) = weightProperties properties
  | [], _ => rfl
  | property :: rest, h => by
    simp only [plainProperties, Bool.and_eq_true] at h
    rw [flatProperties, weightProperties, weight_flatProperty property h.1,
      weight_flatProperties rest h.2, weightProperties]

/-- To flatten a plain property changes nothing of its weight. -/
theorem weight_flatProperty : ∀ property : Property, plainProperty property = true →
    weightProperty (flatProperty property) = weightProperty property
  | ⟨_, value, _, _, _⟩, h => by
    simp only [plainProperty, Bool.and_eq_true] at h
    exact weight_flat value h.1.2

end

/-- What a plain type is read as weighs as much as the flat type. -/
theorem weight_value_phrase {type : TypeExpr} (h : type.plain = true) :
    type.phrase.read.value.weight = type.flat.weight := by
  rw [Phrase.weight_value, weight_phrase type h, weight_flat type h]

end TypeExpr

end TypeScript

end GraphClient
