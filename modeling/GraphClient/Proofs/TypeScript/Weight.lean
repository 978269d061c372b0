import GraphClient.Proofs.TypeScript.Reading

/-!
# The weight of a type

The number of names, strings and operators of a type, other than those that join. It is the same for
a type and for the phrase that is written for it, and for a phrase and for the type that it is read
as, however the parts are put together. So where two lists of joined types are the same, those that
come from the same phrases are the same.

* `TypeExpr.weight`, `Phrase.weight` : what is counted.
* `Phrase.weight_value` : nothing is lost or added when a phrase is read.
* `TypeExpr.forall_eq_of_flatMap_eq` : joined types that come from the same phrases are the same.
-/

namespace GraphClient

namespace TypeScript

namespace TypeExpr

mutual

/-- The number of names, strings and operators of a type, and at least one. -/
def weight : TypeExpr → Nat
  | .named _ => 1
  | .literal _ => 1
  | .generic _ arguments => weightAll arguments + 1
  | .array element => element.weight + 1
  | .union members => max 1 (weightAll members)
  | .intersection members => max 1 (weightAll members)
  | .object properties _ => weightProperties properties + 1
  | .keys type => type.weight + 1
  | .index type key => type.weight + key.weight + 1
  | .tuple members => weightAll members + 1
  | .conditional checked bound whenTrue whenFalse =>
    checked.weight + bound.weight + whenTrue.weight + whenFalse.weight + 1
  | .mapped _ source remap value _ => source.weight + weightRemap remap + value.weight + 1

/-- The weight of some types together. -/
def weightAll : List TypeExpr → Nat
  | [] => 0
  | type :: rest => type.weight + weightAll rest

/-- The weight of the key of a mapped property. -/
def weightRemap : Option TypeExpr → Nat
  | none => 0
  | some key => key.weight

/-- The weight of some properties together. -/
def weightProperties : List Property → Nat
  | [] => 0
  | property :: rest => weightProperty property + weightProperties rest

/-- The weight of a property. -/
def weightProperty : Property → Nat
  | ⟨_, value, _, _, _⟩ => value.weight

end

end TypeExpr

mutual

/-- The number of names, strings and operators of a phrase. -/
def Phrase.weight : Phrase → Nat
  | .keys phrase => phrase.weight + 1
  | .headed head rest => head.weight + rest.weight

/-- The weight of what follows a head. -/
def Rest.weight : Rest → Nat
  | .stop => 0
  | .list rest => rest.weight + 1
  | .lookup key rest => key.weight + rest.weight + 1
  | .joined _ phrase => phrase.weight
  | .condition bound whenTrue whenFalse => bound.weight + whenTrue.weight + whenFalse.weight + 1

/-- The weight of a head. -/
def Head.weight : Head → Nat
  | .parens phrase => phrase.weight
  | .name _ => 1
  | .generic _ arguments => Phrase.weightAll arguments + 1
  | .literal _ => 1
  | .tuple members => Phrase.weightAll members + 1
  | .object fields _ => Field.weightAll fields + 1
  | .mapped _ source remap value _ =>
    source.weight + Phrase.weightRemap remap + value.weight + 1

/-- The weight of some phrases together. -/
def Phrase.weightAll : List Phrase → Nat
  | [] => 0
  | phrase :: rest => phrase.weight + Phrase.weightAll rest

/-- The weight of the key of a mapped property. -/
def Phrase.weightRemap : Option Phrase → Nat
  | none => 0
  | some key => key.weight

/-- The weight of some texts of properties together. -/
def Field.weightAll : List Field → Nat
  | [] => 0
  | field :: rest => field.weight + Field.weightAll rest

/-- The weight of the text of a property. -/
def Field.weight : Field → Nat
  | .mk _ value _ _ => value.weight

end

/-! ## Joined types -/

namespace TypeExpr

/-- No type weighs nothing, not even a union without members. -/
theorem one_le_weight (type : TypeExpr) : 1 ≤ type.weight := by
  cases type <;> simp only [weight] <;> omega

/-- The weights of two lists add up. -/
theorem weightAll_append (a b : List TypeExpr) :
    weightAll (a ++ b) = weightAll a + weightAll b := by
  induction a with
  | nil => simp [weightAll]
  | cons type rest ih =>
    rw [List.cons_append, weightAll, weightAll, ih]
    omega

/-- Some types weigh at least as much as there are of them. -/
theorem length_le_weightAll (types : List TypeExpr) : types.length ≤ weightAll types := by
  induction types with
  | nil => exact Nat.le_refl 0
  | cons type rest ih =>
    have hpos := one_le_weight type
    rw [List.length_cons, weightAll]
    omega

/-- A node of joined types weighs what the types do. -/
theorem weight_node {types : List TypeExpr} (h : types ≠ []) (join : Join) :
    (join.node types).weight = weightAll types := by
  have hlength := length_le_weightAll types
  have hpos := List.length_pos_of_ne_nil h
  cases join <;> simp only [Join.node, weight] <;> omega

/-- The members of a type weigh as much as the type. -/
theorem Proper.weightAll_members {type : TypeExpr} (h : type.Proper) (join : Join) :
    weightAll (join.members type) = type.weight := by
  by_cases hnode : ∃ types, type = join.node types
  · have hne := h.members_ne_nil join
    obtain ⟨types, rfl⟩ := hnode
    rw [Join.members_node] at hne ⊢
    rw [weight_node hne]
  · rw [Join.members_of_ne_node (not_exists.1 hnode)]
    rfl

/-- The members of proper types weigh what the types do. An improper one could be a union without
members, which weighs one more than its members. -/
theorem weightAll_flatMap_members {types : List TypeExpr} (h : ∀ type ∈ types, type.Proper)
    (join : Join) : weightAll (types.flatMap join.members) = weightAll types := by
  induction types with
  | nil => rfl
  | cons type rest ih =>
    rw [List.forall_mem_cons] at h
    rw [List.flatMap_cons, weightAll_append, h.1.weightAll_members, ih h.2, weightAll]

/-- To combine proper types changes nothing of their weight. -/
theorem weight_combine {types : List TypeExpr} (nonempty : types ≠ [])
    (h : ∀ type ∈ types, type.Proper) (join : Join) :
    (join.combine types).weight = weightAll types := by
  rw [← (Proper.combine nonempty h join).weightAll_members join, Join.members_combine,
    weightAll_flatMap_members h]

/-- Lists that begin another one are the same if they weigh the same. -/
theorem append_inj_of_weight {a b r s : List TypeExpr} (hweight : weightAll a = weightAll b)
    (h : a ++ r = b ++ s) : a = b ∧ r = s := by
  induction a generalizing b with
  | nil =>
    have hlength := length_le_weightAll b
    cases b with
    | nil => exact ⟨rfl, h⟩
    | cons type rest =>
      rw [← hweight] at hlength
      cases hlength
  | cons type rest ih =>
    cases b with
    | nil =>
      have hlength := length_le_weightAll (type :: rest)
      rw [hweight] at hlength
      cases hlength
    | cons other others =>
      obtain ⟨rfl, hrest⟩ := List.cons.inj h
      rw [weightAll, weightAll] at hweight
      obtain ⟨rfl, hend⟩ := ih (by omega) hrest
      exact ⟨rfl, hend⟩

/-- Two lists that are put together from parts are the same if all parts are, as long as these weigh
the same. -/
theorem forall_eq_of_flatMap_eq {ι : Type} {f g : ι → List TypeExpr} {items : List ι}
    (hweight : ∀ i ∈ items, weightAll (f i) = weightAll (g i))
    (h : items.flatMap f = items.flatMap g) : ∀ i ∈ items, f i = g i := by
  induction items with
  | nil => exact List.forall_mem_nil _
  | cons i rest ih =>
    rw [List.forall_mem_cons] at hweight
    rw [List.flatMap_cons, List.flatMap_cons] at h
    obtain ⟨hi, hrest⟩ := append_inj_of_weight hweight.1 h
    exact List.forall_mem_cons.2 ⟨hi, ih hweight.2 hrest⟩

end TypeExpr

/-! ## Operands of a reading -/

namespace Reading

/-- All operands of a reading that are joined types have several members. -/
def Proper (reading : Reading) : Prop :=
  reading.first.Proper ∧ ∀ p ∈ reading.others, p.2.Proper

/-- The weight of a condition. -/
def conditionWeight : Option (TypeExpr × TypeExpr × TypeExpr) → Nat
  | none => 0
  | some (bound, whenTrue, whenFalse) => bound.weight + whenTrue.weight + whenFalse.weight + 1

/-- The weight of what is read. -/
def weight (reading : Reading) : Nat :=
  TypeExpr.weightAll (reading.first :: reading.others.map Prod.snd) +
    conditionWeight reading.condition

variable {reading : Reading}

/-- All types of a proper reading are proper. -/
theorem Proper.forall_mem (h : reading.Proper) :
    ∀ type ∈ reading.first :: reading.others.map Prod.snd, type.Proper := by
  rw [List.forall_mem_cons, List.forall_mem_map]
  exact h

/-- The types stay proper in the groups between the weaker joins. -/
theorem Proper.forall_mem_groups (h : reading.Proper) :
    ∀ group ∈ groups reading.first reading.others, ∀ type ∈ group, type.Proper := by
  intro group hgroup type htype
  refine h.forall_mem type ?_
  rw [← flatten_groups]
  exact List.mem_flatten_of_mem hgroup htype

/-- The parts of a proper reading are proper. -/
theorem Proper.forall_mem_parts (h : reading.Proper) (join : Join) :
    ∀ type ∈ reading.parts join, type.Proper := by
  cases join with
  | and => exact h.forall_mem
  | or =>
    rw [parts, List.forall_mem_map]
    intro group hgroup
    exact .combine (ne_nil_of_mem_groups hgroup) (h.forall_mem_groups group hgroup) .and

/-- The parts of a proper reading weigh what its types do. -/
theorem Proper.weightAll_parts (h : reading.Proper) (join : Join) :
    TypeExpr.weightAll (reading.parts join) =
      TypeExpr.weightAll (reading.first :: reading.others.map Prod.snd) := by
  cases join with
  | and => rfl
  | or =>
    have hgroups := h.forall_mem_groups
    have hnonempty : ∀ group ∈ groups reading.first reading.others, group ≠ [] :=
      fun group => ne_nil_of_mem_groups
    rw [← flatten_groups, parts]
    generalize groups reading.first reading.others = lists at hgroups hnonempty
    induction lists with
    | nil => rfl
    | cons group rest ih =>
      rw [List.forall_mem_cons] at hgroups hnonempty
      rw [List.map_cons, TypeExpr.weightAll, List.flatten_cons, TypeExpr.weightAll_append,
        TypeExpr.weight_combine hnonempty.1 hgroups.1, ih hgroups.2 hnonempty.2]

/-- The operand of a proper reading is proper. -/
theorem Proper.operand (h : reading.Proper) : reading.operand.Proper :=
  .combine (reading.parts_ne_nil .or) (h.forall_mem_parts .or) .or

/-- The type that a proper reading stands for is proper. -/
theorem Proper.value (h : reading.Proper) : reading.value.Proper := by
  unfold Reading.value
  split
  · exact h.operand
  · exact .of_isJoined_eq_false rfl

/-- The operand of a proper reading weighs what its types do. -/
theorem Proper.weight_operand (h : reading.Proper) :
    reading.operand.weight =
      TypeExpr.weightAll (reading.first :: reading.others.map Prod.snd) := by
  rw [Reading.operand, TypeExpr.weight_combine (reading.parts_ne_nil .or) (h.forall_mem_parts .or),
    h.weightAll_parts]

/-- The type that a proper reading stands for weighs what the reading does. -/
theorem Proper.weight_value (h : reading.Proper) : reading.value.weight = reading.weight := by
  unfold Reading.value Reading.weight
  cases hcondition : reading.condition with
  | none => exact h.weight_operand
  | some condition =>
    obtain ⟨bound, whenTrue, whenFalse⟩ := condition
    have hoperand := h.weight_operand
    simp only [TypeExpr.weight, conditionWeight]
    omega

end Reading

/-! ## Reading keeps the weight -/

mutual

/-- Every phrase is read properly, by recursion over its parts. -/
theorem Phrase.proper_read : ∀ phrase : Phrase, phrase.read.Proper
  | .keys phrase => ⟨.of_isJoined_eq_false rfl, phrase.proper_read.2⟩
  | .headed head rest => rest.proper_read head.value head.proper_value

/-- What follows a proper operand is read properly. -/
theorem Rest.proper_read : ∀ (rest : Rest) (operand : TypeExpr), operand.Proper →
    (rest.read operand).Proper
  | .stop, _, h => ⟨h, List.forall_mem_nil _⟩
  | .list rest, _, _ => rest.proper_read _ (.of_isJoined_eq_false rfl)
  | .lookup _ rest, _, _ => rest.proper_read _ (.of_isJoined_eq_false rfl)
  | .joined _ phrase, _, h =>
    ⟨h, List.forall_mem_cons.2 ⟨phrase.proper_read.1, phrase.proper_read.2⟩⟩
  | .condition _ _ _, _, h => ⟨h, List.forall_mem_nil _⟩

/-- Every head is a proper type. -/
theorem Head.proper_value : ∀ head : Head, head.value.Proper
  | .parens phrase => phrase.proper_read.value
  | .name _ | .generic _ _ | .literal _ | .tuple _ | .object _ _ | .mapped _ _ _ _ _ =>
    .of_isJoined_eq_false rfl

end

/-- Every phrase stands for a proper type. -/
theorem Phrase.proper_value (phrase : Phrase) : phrase.read.value.Proper :=
  phrase.proper_read.value

mutual

/-- A phrase is read as something of its weight, by recursion over its parts. -/
theorem Phrase.weight_read : ∀ phrase : Phrase, phrase.read.weight = phrase.weight
  | .keys phrase => by
    have hphrase := phrase.weight_read
    simp only [Reading.weight, TypeExpr.weightAll] at hphrase
    simp only [Phrase.read, Reading.weight, TypeExpr.weightAll, TypeExpr.weight, Phrase.weight]
    omega
  | .headed head rest => by
    rw [Phrase.read, Rest.weight_read rest head.value, Head.weight_value head, Phrase.weight]

/-- What follows an operand adds its own weight to that of the operand. -/
theorem Rest.weight_read : ∀ (rest : Rest) (operand : TypeExpr),
    (rest.read operand).weight = operand.weight + rest.weight
  | .stop, _ => rfl
  | .list rest, operand => by
    rw [Rest.read, Rest.weight_read rest, TypeExpr.weight, Rest.weight]
    omega
  | .lookup key rest, operand => by
    rw [Rest.read, Rest.weight_read rest, TypeExpr.weight, Rest.weight,
      key.proper_read.weight_value, Phrase.weight_read key]
    omega
  | .joined join phrase, operand => by
    have hphrase := Phrase.weight_read phrase
    simp only [Reading.weight, TypeExpr.weightAll] at hphrase
    simp only [Rest.read, Reading.weight, List.map_cons, TypeExpr.weightAll, Rest.weight]
    omega
  | .condition bound whenTrue whenFalse, operand => by
    have hbound := bound.proper_read.weight_value.trans (Phrase.weight_read bound)
    have htrue := whenTrue.proper_read.weight_value.trans (Phrase.weight_read whenTrue)
    have hfalse := whenFalse.proper_read.weight_value.trans (Phrase.weight_read whenFalse)
    simp only [Rest.read, Reading.weight, List.map_nil, TypeExpr.weightAll,
      Reading.conditionWeight, Rest.weight, hbound, htrue, hfalse]
    omega

/-- A head stands for a type of its weight. -/
theorem Head.weight_value : ∀ head : Head, head.value.weight = head.weight
  | .parens phrase => by
    rw [Head.value, phrase.proper_read.weight_value, Phrase.weight_read phrase, Head.weight]
  | .name _ => rfl
  | .generic _ arguments => by
    rw [Head.value, TypeExpr.weight, Phrase.weightAll_values arguments, Head.weight]
  | .literal _ => rfl
  | .tuple members => by
    rw [Head.value, TypeExpr.weight, Phrase.weightAll_values members, Head.weight]
  | .object fields _ => by
    rw [Head.value, TypeExpr.weight, Field.weight_properties fields, Head.weight]
  | .mapped _ source remap value _ => by
    rw [Head.value, TypeExpr.weight, source.proper_read.weight_value, Phrase.weight_read source,
      Phrase.weight_remapValue remap, value.proper_read.weight_value, Phrase.weight_read value,
      Head.weight]

/-- Some phrases stand for types of their weight. -/
theorem Phrase.weightAll_values : ∀ phrases : List Phrase,
    TypeExpr.weightAll (Phrase.values phrases) = Phrase.weightAll phrases
  | [] => rfl
  | phrase :: rest => by
    rw [Phrase.values, TypeExpr.weightAll, phrase.proper_read.weight_value,
      Phrase.weight_read phrase, Phrase.weightAll_values rest, Phrase.weightAll]

/-- The key of a mapped property keeps its weight. -/
theorem Phrase.weight_remapValue : ∀ remap : Option Phrase,
    TypeExpr.weightRemap (Phrase.remapValue remap) = Phrase.weightRemap remap
  | none => rfl
  | some key => by
    rw [Phrase.remapValue, TypeExpr.weightRemap, key.proper_read.weight_value,
      Phrase.weight_read key, Phrase.weightRemap]

/-- Some fields stand for properties of their weight. -/
theorem Field.weight_properties : ∀ fields : List Field,
    TypeExpr.weightProperties (Field.properties fields) = Field.weightAll fields
  | [] => rfl
  | field :: rest => by
    rw [Field.properties, TypeExpr.weightProperties, Field.weight_property field,
      Field.weight_properties rest, Field.weightAll]

/-- A field stands for a property of its weight. -/
theorem Field.weight_property : ∀ field : Field,
    TypeExpr.weightProperty field.property = field.weight
  | .mk _ value _ _ => by
    rw [Field.property, TypeExpr.weightProperty, value.proper_read.weight_value,
      Phrase.weight_read value, Field.weight]

end

/-- A phrase weighs as much as the type that it is read as. -/
theorem Phrase.weight_value (phrase : Phrase) : phrase.read.value.weight = phrase.weight := by
  rw [phrase.proper_read.weight_value, phrase.weight_read]

/-! ## The phrase of a type keeps the weight -/

mutual

/-- More that follows a phrase adds its own weight. -/
theorem Phrase.weight_extend (more : Rest) : ∀ phrase : Phrase,
    (phrase.extend more).weight = phrase.weight + more.weight
  | .keys phrase => by
    rw [Phrase.extend, Phrase.weight, Phrase.weight_extend more phrase, Phrase.weight]
    omega
  | .headed head rest => by
    rw [Phrase.extend, Phrase.weight, Rest.weight_extend more rest, Phrase.weight]
    omega

/-- More that follows what follows adds its own weight. -/
theorem Rest.weight_extend (more : Rest) : ∀ rest : Rest,
    (rest.extend more).weight = rest.weight + more.weight
  | .stop => (Nat.zero_add _).symm
  | .list rest => by
    rw [Rest.extend, Rest.weight, Rest.weight_extend more rest, Rest.weight]
    omega
  | .lookup key rest => by
    rw [Rest.extend, Rest.weight, Rest.weight_extend more rest, Rest.weight]
    omega
  | .joined join phrase => by
    rw [Rest.extend, Rest.weight, Phrase.weight_extend more phrase, Rest.weight]
  | .condition bound whenTrue whenFalse => by
    rw [Rest.extend, Rest.weight, Phrase.weight_extend more whenFalse, Rest.weight]
    omega

end

/-- Parentheses weigh nothing. -/
theorem Phrase.weight_wrapIf (condition : Bool) (phrase : Phrase) :
    (phrase.wrapIf condition).weight = phrase.weight := by
  cases condition <;> rfl

/-- Joined phrases weigh what they do one by one. -/
theorem Phrase.weight_joinAll (join : Join) {phrases : List Phrase} (nonempty : phrases ≠ []) :
    (joinAll join phrases).weight = weightAll phrases := by
  induction phrases with
  | nil => exact absurd rfl nonempty
  | cons phrase rest ih =>
    cases rest with
    | nil => rfl
    | cons next rest =>
      rw [joinAll, weight_extend, Rest.weight, ih (List.cons_ne_nil _ _)]
      rfl

namespace TypeExpr

mutual

/-- A plain type weighs as much as its phrase. -/
theorem weight_phrase : ∀ type : TypeExpr, type.plain = true → type.phrase.weight = type.weight
  | .named _, _ => rfl
  | .literal _, _ => rfl
  | .generic _ arguments, h => by
    simp only [plain, Bool.and_eq_true] at h
    rw [phrase, Phrase.weight, Head.weight, weight_phrases arguments h.2, weight]
    rfl
  | .array element, h => by
    rw [phrase, Phrase.weight_extend, Phrase.weight_wrapIf, weight_phrase element h, weight]
    rfl
  | .union members, h => by
    simp only [plain, Bool.and_eq_true] at h
    rw [phrase, Phrase.weight_joinAll .or (memberPhrases_ne_nil .or h.1),
      weight_memberPhrases .or members h.2]
    exact (weight_node (ne_nil_of_plain h.1) .or).symm
  | .intersection members, h => by
    simp only [plain, Bool.and_eq_true] at h
    rw [phrase, Phrase.weight_joinAll .and (memberPhrases_ne_nil .and h.1),
      weight_memberPhrases .and members h.2]
    exact (weight_node (ne_nil_of_plain h.1) .and).symm
  | .object properties _, h => by
    simp only [plain, Bool.and_eq_true] at h
    rw [phrase, Phrase.weight, Head.weight, weight_fields properties h.2, weight]
    rfl
  | .keys type, h => by
    rw [phrase, Phrase.weight, weight_phrase type h, weight]
  | .index type key, h => by
    simp only [plain, Bool.and_eq_true] at h
    rw [phrase, Phrase.weight_extend, Phrase.weight_wrapIf, weight_phrase type h.1, Rest.weight,
      weight_phrase key h.2, weight, Rest.weight]
    omega
  | .tuple members, h => by
    rw [phrase, Phrase.weight, Head.weight, weight_phrases members h, weight]
    rfl
  | .conditional checked bound whenTrue whenFalse, h => by
    simp only [plain, Bool.and_eq_true] at h
    rw [phrase, Phrase.weight_extend, weight_phrase checked h.1.1.1, Rest.weight,
      Phrase.weight_wrapIf, weight_phrase bound h.1.1.2, weight_phrase whenTrue h.1.2,
      weight_phrase whenFalse h.2, weight]
    omega
  | .mapped _ source remap value _, h => by
    simp only [plain, Bool.and_eq_true] at h
    rw [phrase, Phrase.weight, Head.weight, weight_phrase source h.1.1.2,
      weight_remapPhrase remap h.1.2, weight_phrase value h.2, weight]
    rfl

/-- Plain types are written as phrases of their weight. -/
theorem weight_phrases : ∀ types : List TypeExpr, plainAll types = true →
    Phrase.weightAll (phrases types) = weightAll types
  | [], _ => rfl
  | type :: rest, h => by
    simp only [plainAll, Bool.and_eq_true] at h
    rw [phrases, Phrase.weightAll, weight_phrase type h.1, weight_phrases rest h.2, weightAll]

/-- The members of a union or an intersection are written as phrases of their weight. -/
theorem weight_memberPhrases (join : Join) : ∀ types : List TypeExpr, plainAll types = true →
    Phrase.weightAll (memberPhrases join types) = weightAll types
  | [], _ => rfl
  | type :: rest, h => by
    simp only [plainAll, Bool.and_eq_true] at h
    rw [memberPhrases, Phrase.weightAll, Phrase.weight_wrapIf, weight_phrase type h.1,
      weight_memberPhrases join rest h.2, weightAll]

/-- The key of a mapped property is written as a phrase of its weight. -/
theorem weight_remapPhrase : ∀ remap : Option TypeExpr, plainRemap remap = true →
    Phrase.weightRemap (remapPhrase remap) = weightRemap remap
  | none, _ => rfl
  | some key, h => weight_phrase key h

/-- Plain properties are written as fields of their weight. -/
theorem weight_fields : ∀ properties : List Property, plainProperties properties = true →
    Field.weightAll (fields properties) = weightProperties properties
  | [], _ => rfl
  | property :: rest, h => by
    simp only [plainProperties, Bool.and_eq_true] at h
    rw [fields, Field.weightAll, weight_field property h.1, weight_fields rest h.2,
      weightProperties]

/-- A plain property is written as a field of its weight. -/
theorem weight_field : ∀ property : Property, plainProperty property = true →
    (field property).weight = weightProperty property
  | ⟨_, value, _, _, _⟩, h => by
    simp only [plainProperty, Bool.and_eq_true] at h
    exact weight_phrase value h.1.2

end

end TypeExpr

end TypeScript

end GraphClient
