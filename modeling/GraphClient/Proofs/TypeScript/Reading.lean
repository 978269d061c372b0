import GraphClient.Proofs.TypeScript.Rendered

/-!
# How phrases are read

The types that phrases mean. The brackets of an array and of a key bind most tightly, then `keyof`,
then the operator of intersections, that of unions, and last a condition. So `keyof` belongs to the
first operand of what follows it, and the part of a phrase up to the first condition is checked by
this one.

* `Join.combine` : types that are joined, without the same operator directly inside.
* `Reading` : the operands of a phrase with their operators, up to the first condition.
* `Phrase.read`, `Reading.value` : the type that a phrase means.
* `Phrase.read_extend` : how a phrase is read with more behind it.
-/

namespace GraphClient

namespace TypeScript

/-! ## Joined types -/

namespace Join

/-- The members of a type that is joined by an operator, or the type itself. -/
def members : Join → TypeExpr → List TypeExpr
  | .or => TypeExpr.unionMembers
  | .and => TypeExpr.intersectionMembers

/-- The type with some members. -/
def node : Join → List TypeExpr → TypeExpr
  | .or => .union
  | .and => .intersection

/-- Some types joined, without the same operator directly inside; the type itself for one. -/
def combine (join : Join) : List TypeExpr → TypeExpr
  | [type] => type
  | types => join.node (types.flatMap join.members)

variable {join : Join} {types : List TypeExpr}

/-- The members of a node are those that it was made from. -/
theorem members_node (join : Join) (types : List TypeExpr) :
    join.members (join.node types) = types := by
  cases join <;> rfl

/-- Any type but a node of the operator has itself for its only member. -/
theorem members_of_ne_node {type : TypeExpr} (h : ∀ types, type ≠ join.node types) :
    join.members type = [type] := by
  cases join with
  | or =>
    cases type with
    | union members => exact absurd rfl (h members)
    | _ => rfl
  | and =>
    cases type with
    | intersection members => exact absurd rfl (h members)
    | _ => rfl

/-- A node tells its operator and its members. -/
theorem node_inj {other : Join} {others : List TypeExpr} (h : join.node types = other.node others) :
    join = other ∧ types = others := by
  cases join <;> cases other <;> cases h <;> exact ⟨rfl, rfl⟩

/-- Several types are joined to one node, and the nodes among them are taken apart. -/
theorem combine_of_two_le (h : 2 ≤ types.length) :
    join.combine types = join.node (types.flatMap join.members) := by
  match types, h with
  | _ :: _ :: _, _ => rfl

/-- To combine types joins their members. -/
theorem members_combine (join : Join) (types : List TypeExpr) :
    join.members (join.combine types) = types.flatMap join.members := by
  unfold combine
  split
  · rw [List.flatMap_singleton]
  · rw [members_node]

end Join

/-- A type that is joined has several members. -/
def TypeExpr.Proper (type : TypeExpr) : Prop :=
  ∀ (join : Join) (types : List TypeExpr), type = join.node types → 2 ≤ types.length

namespace TypeExpr

/-- Whether a type is joined by an operator. -/
def isJoined : TypeExpr → Bool
  | .union _ | .intersection _ => true
  | _ => false

/-- A node counts as joined, whatever its operator. -/
theorem isJoined_node (join : Join) (types : List TypeExpr) :
    (join.node types).isJoined = true := by
  cases join <;> rfl

/-- A type that is not joined is proper. -/
theorem Proper.of_isJoined_eq_false {type : TypeExpr} (h : type.isJoined = false) :
    type.Proper := by
  rintro join types rfl
  rw [isJoined_node] at h
  cases h

/-- A proper type has members. -/
theorem Proper.members_ne_nil {type : TypeExpr} (h : type.Proper) (join : Join) :
    join.members type ≠ [] := by
  by_cases hnode : ∃ types, type = join.node types
  · obtain ⟨types, rfl⟩ := hnode
    have htwo := h join types rfl
    rw [Join.members_node]
    rintro rfl
    exact absurd htwo (by decide)
  · rw [Join.members_of_ne_node (not_exists.1 hnode)]
    exact List.cons_ne_nil _ _

/-- The members of a type tell the type. -/
theorem Proper.eq_of_members_eq {a b : TypeExpr} (ha : a.Proper) (hb : b.Proper) {join : Join}
    (h : join.members a = join.members b) : a = b := by
  by_cases hnode : ∃ types, a = join.node types
  · obtain ⟨types, rfl⟩ := hnode
    by_cases hnode' : ∃ types, b = join.node types
    · obtain ⟨others, rfl⟩ := hnode'
      rw [Join.members_node, Join.members_node] at h
      rw [h]
    · have htwo := ha join types rfl
      rw [Join.members_node, Join.members_of_ne_node (not_exists.1 hnode')] at h
      rw [h] at htwo
      exact absurd htwo (Nat.not_succ_le_self 1)
  · rw [Join.members_of_ne_node (not_exists.1 hnode)] at h
    by_cases hnode' : ∃ types, b = join.node types
    · obtain ⟨others, rfl⟩ := hnode'
      have htwo := hb join others rfl
      rw [Join.members_node] at h
      rw [← h] at htwo
      exact absurd htwo (Nat.not_succ_le_self 1)
    · rw [Join.members_of_ne_node (not_exists.1 hnode')] at h
      exact List.singleton_inj.1 h

/-- Proper types have no fewer members than there are types. -/
theorem length_le_length_flatMap_members {types : List TypeExpr} (h : ∀ type ∈ types, type.Proper)
    (join : Join) : types.length ≤ (types.flatMap join.members).length := by
  induction types with
  | nil => exact Nat.le_refl 0
  | cons type rest ih =>
    rw [List.forall_mem_cons] at h
    have hpos := List.length_pos_of_ne_nil (h.1.members_ne_nil join)
    have hrest := ih h.2
    rw [List.flatMap_cons, List.length_append, List.length_cons]
    omega

/-- Proper types are combined to a proper one. -/
theorem Proper.combine {types : List TypeExpr} (nonempty : types ≠ [])
    (h : ∀ type ∈ types, type.Proper) (join : Join) : (join.combine types).Proper := by
  cases types with
  | nil => exact absurd rfl nonempty
  | cons type rest =>
    cases rest with
    | nil => exact h type List.mem_cons_self
    | cons next rest =>
      intro other others heq
      obtain ⟨rfl, rfl⟩ := Join.node_inj heq
      have hlength := length_le_length_flatMap_members h join
      simp only [List.length_cons] at hlength
      omega

end TypeExpr

/-! ## Readings -/

/-- The operands of a phrase with the operators between them, up to the first condition; and the
bound and the two types of this condition. -/
structure Reading where
  first : TypeExpr
  others : List (Join × TypeExpr)
  condition : Option (TypeExpr × TypeExpr × TypeExpr)

/-- Operands in groups that have the operator of unions between them. -/
def groups : TypeExpr → List (Join × TypeExpr) → List (List TypeExpr)
  | first, [] => [[first]]
  | first, (.or, next) :: rest => [first] :: groups next rest
  | first, (.and, next) :: rest =>
    match groups next rest with
    | [] => [[first]]
    | group :: more => (first :: group) :: more

namespace Reading

/-- The operands that are joined by an operator: those of a union are intersections. -/
def parts (reading : Reading) : Join → List TypeExpr
  | .or => (groups reading.first reading.others).map Join.and.combine
  | .and => reading.first :: reading.others.map Prod.snd

/-- The type up to the first condition. -/
def operand (reading : Reading) : TypeExpr := Join.or.combine (reading.parts .or)

/-- The type that is read. -/
def value (reading : Reading) : TypeExpr :=
  match reading.condition with
  | none => reading.operand
  | some (bound, whenTrue, whenFalse) =>
    .conditional reading.operand bound whenTrue whenFalse

/-- A reading and then another one behind an operator. -/
def joined (reading : Reading) (join : Join) (next : Reading) : Reading :=
  ⟨reading.first, reading.others ++ (join, next.first) :: next.others, next.condition⟩

/-- A reading is not torn apart by an operator next to it: it is no condition, and no union if the
operator is that of intersections. -/
def Clean (join : Join) (reading : Reading) : Prop :=
  reading.condition = none ∧ (join = .and → ∀ p ∈ reading.others, p.1 = .and)

/-- A reading of one operand. -/
def IsSingle (reading : Reading) : Prop := reading.others = [] ∧ reading.condition = none

end Reading

/-- Without the operator of unions there is one group. -/
theorem groups_of_forall_and {others : List (Join × TypeExpr)} (h : ∀ p ∈ others, p.1 = .and)
    (first : TypeExpr) : groups first others = [first :: others.map Prod.snd] := by
  induction others generalizing first with
  | nil => rfl
  | cons p rest ih =>
    obtain ⟨join, next⟩ := p
    obtain ⟨rfl, hrest⟩ := List.forall_mem_cons.1 h
    rw [groups, ih hrest]
    rfl

/-- There is always a group. -/
theorem groups_ne_nil (first : TypeExpr) (others : List (Join × TypeExpr)) :
    groups first others ≠ [] := by
  unfold groups
  split
  · exact List.cons_ne_nil _ _
  · exact List.cons_ne_nil _ _
  · split <;> exact List.cons_ne_nil _ _

/-- The operator of unions separates groups. -/
theorem groups_append_or (others more : List (Join × TypeExpr)) (first next : TypeExpr) :
    groups first (others ++ (.or, next) :: more) = groups first others ++ groups next more := by
  induction others generalizing first with
  | nil => rfl
  | cons p rest ih =>
    obtain ⟨join, second⟩ := p
    cases join with
    | or => rw [List.cons_append, groups, groups, ih, List.cons_append]
    | and =>
      obtain ⟨group, tail, heq⟩ := List.exists_cons_of_ne_nil (groups_ne_nil second rest)
      rw [List.cons_append, groups, groups, ih, heq]
      rfl

/-- The operator of unions makes a second group. -/
theorem two_le_length_groups {others : List (Join × TypeExpr)} {p : Join × TypeExpr}
    (hmem : p ∈ others) (hp : p.1 = .or) (first : TypeExpr) :
    2 ≤ (groups first others).length := by
  obtain ⟨before, after, rfl⟩ := List.append_of_mem hmem
  obtain ⟨join, next⟩ := p
  obtain rfl : join = .or := hp
  have hbefore := List.length_pos_of_ne_nil (groups_ne_nil first before)
  have hafter := List.length_pos_of_ne_nil (groups_ne_nil next after)
  rw [groups_append_or, List.length_append]
  omega

/-- The groups hold the operands. -/
theorem flatten_groups (first : TypeExpr) (others : List (Join × TypeExpr)) :
    (groups first others).flatten = first :: others.map Prod.snd := by
  induction others generalizing first with
  | nil => rfl
  | cons p rest ih =>
    obtain ⟨join, next⟩ := p
    have hnext := ih next
    cases join with
    | or => rw [groups, List.flatten_cons, hnext]; rfl
    | and =>
      obtain ⟨group, tail, heq⟩ := List.exists_cons_of_ne_nil (groups_ne_nil next rest)
      rw [heq, List.flatten_cons] at hnext
      rw [groups, heq]
      show (first :: group) ++ tail.flatten = _
      rw [List.cons_append, hnext]
      rfl

/-- No group is empty. -/
theorem ne_nil_of_mem_groups {first : TypeExpr} {others : List (Join × TypeExpr)}
    {group : List TypeExpr} (h : group ∈ groups first others) : group ≠ [] := by
  induction others generalizing first with
  | nil =>
    obtain rfl := List.mem_singleton.1 h
    exact List.cons_ne_nil _ _
  | cons p rest ih =>
    obtain ⟨join, next⟩ := p
    cases join with
    | or =>
      rcases List.mem_cons.1 h with rfl | h
      · exact List.cons_ne_nil _ _
      · exact ih h
    | and =>
      obtain ⟨g, tail, heq⟩ := List.exists_cons_of_ne_nil (groups_ne_nil next rest)
      rw [groups, heq] at h
      rcases List.mem_cons.1 h with rfl | h
      · exact List.cons_ne_nil _ _
      · exact ih (heq ▸ List.mem_cons_of_mem _ h)

namespace Reading

variable {reading next : Reading} {join : Join}

/-- A reading has parts for each operator. -/
theorem parts_ne_nil (reading : Reading) (join : Join) : reading.parts join ≠ [] := by
  cases join with
  | or => exact fun h => groups_ne_nil _ _ (List.map_eq_nil_iff.1 h)
  | and => exact List.cons_ne_nil _ _

/-- Without a condition a reading stands for its operand. -/
theorem value_of_condition_eq_none (h : reading.condition = none) :
    reading.value = reading.operand := by
  rw [value, h]

/-- A reading that is not torn apart is made from its parts. -/
theorem Clean.value_eq (h : reading.Clean join) :
    reading.value = join.combine (reading.parts join) := by
  rw [value_of_condition_eq_none h.1]
  cases join with
  | or => rfl
  | and =>
    rw [operand, parts, groups_of_forall_and (h.2 rfl)]
    rfl

/-- If neither of two readings is torn apart, joining them joins their parts. -/
theorem Clean.parts_joined (h : reading.Clean join) (hnext : next.Clean join) :
    (reading.joined join next).parts join = reading.parts join ++ next.parts join := by
  cases join with
  | or =>
    rw [parts, joined, groups_append_or, List.map_append]
    rfl
  | and =>
    rw [parts, joined, List.map_append]
    rfl

/-- Two readings that are joined stay whole exactly if each of them does. -/
theorem clean_joined_iff (h : reading.condition = none) :
    (reading.joined join next).Clean join ↔ reading.Clean join ∧ next.Clean join := by
  unfold Clean joined
  simp only [List.forall_mem_append, List.forall_mem_cons]
  constructor
  · rintro ⟨hcondition, hothers⟩
    exact ⟨⟨h, fun hjoin => (hothers hjoin).1⟩, hcondition, fun hjoin => (hothers hjoin).2.2⟩
  · rintro ⟨⟨-, hothers⟩, hcondition, hnext⟩
    exact ⟨hcondition, fun hjoin => ⟨hothers hjoin, hjoin, hnext hjoin⟩⟩

/-- Without a condition, only the operator of unions tears an intersection apart. -/
theorem exists_value_eq_union (hcondition : reading.condition = none)
    (h : ¬ reading.Clean .and) : ∃ types, reading.value = .union types := by
  have hor : ∃ p ∈ reading.others, p.1 = .or := by
    by_contra hnot
    refine h ⟨hcondition, fun _ p hp => ?_⟩
    cases hjoin : p.1 with
    | and => rfl
    | or => exact absurd ⟨p, hp, hjoin⟩ hnot
  obtain ⟨p, hp, hjoin⟩ := hor
  have htwo : 2 ≤ (reading.parts .or).length := by
    rw [parts, List.length_map]
    exact two_le_length_groups hp hjoin reading.first
  exact ⟨_, (value_of_condition_eq_none hcondition).trans (Join.combine_of_two_le htwo)⟩

/-- With a condition a reading stands for a conditional type. -/
theorem exists_value_eq_conditional (h : reading.condition ≠ none) :
    ∃ checked bound whenTrue whenFalse,
      reading.value = .conditional checked bound whenTrue whenFalse := by
  obtain ⟨⟨bound, whenTrue, whenFalse⟩, hcondition⟩ := Option.ne_none_iff_exists'.1 h
  exact ⟨_, bound, whenTrue, whenFalse, by rw [value, hcondition]⟩

/-- A reading that is torn apart is not joined by the operator. -/
theorem value_ne_node_of_not_clean (h : ¬ reading.Clean join) (types : List TypeExpr) :
    reading.value ≠ join.node types := by
  by_cases hcondition : reading.condition = none
  · cases join with
    | or => exact absurd ⟨hcondition, fun hjoin => by cases hjoin⟩ h
    | and =>
      obtain ⟨others, hvalue⟩ := exists_value_eq_union hcondition h
      rw [hvalue]
      rintro ⟨⟩
  · obtain ⟨checked, bound, whenTrue, whenFalse, hvalue⟩ := exists_value_eq_conditional hcondition
    rw [hvalue]
    cases join <;> rintro ⟨⟩

/-- A single operand is not torn apart by any operator. -/
theorem IsSingle.clean (h : reading.IsSingle) (join : Join) : reading.Clean join := by
  refine ⟨h.2, fun _ => ?_⟩
  rw [h.1]
  exact List.forall_mem_nil _

/-- A single operand stands for itself. -/
theorem IsSingle.value_eq (h : reading.IsSingle) : reading.value = reading.first := by
  rw [(h.clean .and).value_eq, parts, h.1]
  rfl

/-- A reading of several operands is a joined type, and one with a condition is conditional. -/
theorem value_of_not_isSingle (h : ¬ reading.IsSingle) :
    (∃ join types, reading.value = Join.node join types) ∨
      ∃ checked bound whenTrue whenFalse,
        reading.value = .conditional checked bound whenTrue whenFalse := by
  by_cases hcondition : reading.condition = none
  · refine .inl ?_
    by_cases hclean : reading.Clean .and
    · have hothers : reading.others ≠ [] := fun heq => h ⟨heq, hcondition⟩
      have htwo : 2 ≤ (reading.parts .and).length := by
        have hpos := List.length_pos_of_ne_nil hothers
        rw [parts, List.length_cons, List.length_map]
        omega
      exact ⟨.and, _, hclean.value_eq.trans (Join.combine_of_two_le htwo)⟩
    · obtain ⟨types, hvalue⟩ := exists_value_eq_union hcondition hclean
      exact ⟨.or, types, hvalue⟩
  · exact .inr (exists_value_eq_conditional hcondition)

end Reading

/-! ## Reading a phrase -/

mutual

/-- How a phrase is read. -/
def Phrase.read : Phrase → Reading
  | .keys phrase => { phrase.read with first := .keys phrase.read.first }
  | .headed head rest => rest.read head.value

/-- How an operand is read with what follows it. -/
def Rest.read : Rest → TypeExpr → Reading
  | .stop, operand => ⟨operand, [], none⟩
  | .list rest, operand => rest.read (.array operand)
  | .lookup key rest, operand => rest.read (.index operand key.read.value)
  | .joined join phrase, operand =>
    ⟨operand, (join, phrase.read.first) :: phrase.read.others, phrase.read.condition⟩
  | .condition bound whenTrue whenFalse, operand =>
    ⟨operand, [], some (bound.read.value, whenTrue.read.value, whenFalse.read.value)⟩

/-- The type of a head. -/
def Head.value : Head → TypeExpr
  | .parens phrase => phrase.read.value
  | .name name => .named name
  | .generic name arguments => .generic name (Phrase.values arguments)
  | .literal value => .literal value
  | .tuple members => .tuple (Phrase.values members)
  | .object fields multiline => .object (Field.properties fields) multiline
  | .mapped parameter source remap value optional =>
    .mapped parameter source.read.value (Phrase.remapValue remap) value.read.value optional

/-- The types of some phrases. -/
def Phrase.values : List Phrase → List TypeExpr
  | [] => []
  | phrase :: rest => phrase.read.value :: Phrase.values rest

/-- The type of the key of a mapped property. -/
def Phrase.remapValue : Option Phrase → Option TypeExpr
  | none => none
  | some key => some key.read.value

/-- The properties of some texts. -/
def Field.properties : List Field → List Property
  | [] => []
  | field :: rest => field.property :: Field.properties rest

/-- The property of a text. -/
def Field.property : Field → Property
  | .mk key value optional readonly => ⟨key, value.read.value, optional, readonly, none⟩

end

/-- Whether only brackets follow a head. -/
def Rest.isSuffix : Rest → Bool
  | .stop => true
  | .list rest => rest.isSuffix
  | .lookup _ rest => rest.isSuffix
  | _ => false

/-- Whether a phrase is a head with brackets behind it. -/
def Phrase.isSimple : Phrase → Bool
  | .keys _ => false
  | .headed _ rest => rest.isSuffix

/-- What can only follow an operand leaves it single, and more that follows is read after it. -/
theorem Rest.read_of_isSuffix : ∀ rest : Rest, rest.isSuffix = true → ∀ operand,
    (rest.read operand).IsSingle ∧ ∀ more,
      (rest.extend more).read operand = more.read (rest.read operand).first
  | .stop, _, _ => ⟨⟨rfl, rfl⟩, fun _ => rfl⟩
  | .list rest, h, operand => Rest.read_of_isSuffix rest h (.array operand)
  | .lookup key rest, h, operand =>
    Rest.read_of_isSuffix rest h (.index operand key.read.value)

/-- A simple phrase is read as a single operand. -/
theorem Phrase.isSingle_of_isSimple {phrase : Phrase} (h : phrase.isSimple = true) :
    phrase.read.IsSingle := by
  cases phrase with
  | keys phrase => cases h
  | headed head rest => exact (Rest.read_of_isSuffix rest h head.value).1

/-- Brackets behind a head go on with the type that stands there. -/
theorem Phrase.read_extend_of_isSimple {phrase : Phrase} (h : phrase.isSimple = true)
    (more : Rest) : (phrase.extend more).read = more.read phrase.read.first := by
  cases phrase with
  | keys phrase => cases h
  | headed head rest => exact (Rest.read_of_isSuffix rest h head.value).2 more

/-- Suffixes behind suffixes are suffixes. -/
theorem Rest.isSuffix_extend {more : Rest} (hmore : more.isSuffix = true) :
    ∀ rest : Rest, rest.isSuffix = true → (rest.extend more).isSuffix = true
  | .stop, _ => hmore
  | .list rest, h => Rest.isSuffix_extend hmore rest h
  | .lookup _ rest, h => Rest.isSuffix_extend hmore rest h

/-- A simple phrase stays simple with a suffix behind it. -/
theorem Phrase.isSimple_extend {more : Rest} (hmore : more.isSuffix = true) {phrase : Phrase}
    (h : phrase.isSimple = true) : (phrase.extend more).isSimple = true := by
  cases phrase with
  | keys phrase => cases h
  | headed head rest => exact Rest.isSuffix_extend hmore rest h

mutual

/-- What stands behind a condition belongs to the condition. -/
theorem Phrase.read_extend_of_condition (more : Rest) : ∀ phrase : Phrase,
    phrase.read.condition ≠ none → (phrase.extend more).read.first = phrase.read.first ∧
      (phrase.extend more).read.others = phrase.read.others ∧
      (phrase.extend more).read.condition ≠ none
  | .keys phrase, h => by
    obtain ⟨hfirst, hothers, hcondition⟩ := Phrase.read_extend_of_condition more phrase h
    exact ⟨congrArg TypeExpr.keys hfirst, hothers, hcondition⟩
  | .headed head rest, h => Rest.read_extend_of_condition more rest head.value h

/-- Behind a condition, more text only changes the condition. -/
theorem Rest.read_extend_of_condition (more : Rest) : ∀ (rest : Rest) (operand : TypeExpr),
    (rest.read operand).condition ≠ none →
      ((rest.extend more).read operand).first = (rest.read operand).first ∧
      ((rest.extend more).read operand).others = (rest.read operand).others ∧
      ((rest.extend more).read operand).condition ≠ none
  | .stop, _, h => absurd rfl h
  | .list rest, operand, h => Rest.read_extend_of_condition more rest (.array operand) h
  | .lookup key rest, operand, h =>
    Rest.read_extend_of_condition more rest (.index operand key.read.value) h
  | .joined join phrase, operand, h => by
    obtain ⟨hfirst, hothers, hcondition⟩ := Phrase.read_extend_of_condition more phrase h
    refine ⟨rfl, ?_, hcondition⟩
    rw [Rest.extend, Rest.read, Rest.read, hfirst, hothers]
  | .condition bound whenTrue whenFalse, operand, _ =>
    ⟨rfl, rfl, Option.some_ne_none _⟩

end

mutual

/-- What stands behind a phrase without a condition is put behind its operands. -/
theorem Phrase.read_extend {more : Rest} {others : List (Join × TypeExpr)}
    {condition : Option (TypeExpr × TypeExpr × TypeExpr)}
    (hmore : ∀ operand, more.read operand = ⟨operand, others, condition⟩) : ∀ phrase : Phrase,
    phrase.read.condition = none → (phrase.extend more).read =
      ⟨phrase.read.first, phrase.read.others ++ others, condition⟩
  | .keys phrase, h => by
    rw [Phrase.extend, Phrase.read, Phrase.read_extend hmore phrase h, Phrase.read]
  | .headed head rest, h => Rest.read_extend hmore rest head.value h

/-- Without a condition, the operands that follow come behind those that were read. -/
theorem Rest.read_extend {more : Rest} {others : List (Join × TypeExpr)}
    {condition : Option (TypeExpr × TypeExpr × TypeExpr)}
    (hmore : ∀ operand, more.read operand = ⟨operand, others, condition⟩) :
    ∀ (rest : Rest) (operand : TypeExpr), (rest.read operand).condition = none →
      (rest.extend more).read operand =
        ⟨(rest.read operand).first, (rest.read operand).others ++ others, condition⟩
  | .stop, operand, _ => hmore operand
  | .list rest, operand, h => Rest.read_extend hmore rest (.array operand) h
  | .lookup key rest, operand, h =>
    Rest.read_extend hmore rest (.index operand key.read.value) h
  | .joined join phrase, operand, h => by
    rw [Rest.extend, Rest.read, Phrase.read_extend hmore phrase h, Rest.read]
    rfl
  | .condition bound whenTrue whenFalse, operand, h => by cases h

end

/-- An operator and another phrase go on with the operands. -/
theorem Phrase.read_extend_joined (join : Join) (next : Phrase) {phrase : Phrase}
    (h : phrase.read.condition = none) :
    (phrase.extend (.joined join next)).read = phrase.read.joined join next.read :=
  Phrase.read_extend (fun _ => rfl) phrase h

/-- A condition checks the phrase in front of it. -/
theorem Phrase.read_extend_condition (bound whenTrue whenFalse : Phrase) {phrase : Phrase}
    (h : phrase.read.condition = none) :
    (phrase.extend (.condition bound whenTrue whenFalse)).read =
      ⟨phrase.read.first, phrase.read.others,
        some (bound.read.value, whenTrue.read.value, whenFalse.read.value)⟩ := by
  rw [Phrase.read_extend (fun _ => rfl) phrase h, List.append_nil]

/-- Parentheses do not change what a phrase means. -/
theorem Phrase.value_wrapIf (condition : Bool) (phrase : Phrase) :
    (phrase.wrapIf condition).read.value = phrase.read.value := by
  cases condition <;> rfl

/-! ## Readings of joined phrases -/

/-- The reading of joined phrases is torn apart if that of one of them is, and otherwise it is made
from the parts of all of them. -/
theorem Phrase.read_joinAll (join : Join) {phrases : List Phrase} (nonempty : phrases ≠ []) :
    ((joinAll join phrases).read.Clean join ↔ ∀ phrase ∈ phrases, phrase.read.Clean join) ∧
      ((∀ phrase ∈ phrases, phrase.read.Clean join) →
        (joinAll join phrases).read.parts join =
          phrases.flatMap fun phrase => phrase.read.parts join) := by
  induction phrases with
  | nil => exact absurd rfl nonempty
  | cons phrase rest ih =>
    cases rest with
    | nil => simp [joinAll]
    | cons next rest =>
      obtain ⟨hclean, hparts⟩ := ih (List.cons_ne_nil _ _)
      rw [joinAll, List.forall_mem_cons]
      by_cases hcondition : phrase.read.condition = none
      · rw [read_extend_joined join _ hcondition, Reading.clean_joined_iff hcondition, hclean]
        refine ⟨Iff.rfl, fun h => ?_⟩
        rw [h.1.parts_joined (hclean.2 h.2), hparts h.2]
        rfl
      · have hextend := (read_extend_of_condition (.joined join (joinAll join (next :: rest)))
          phrase hcondition).2.2
        refine ⟨iff_of_false (fun h => hextend h.1) (fun h => hcondition h.1.1), fun h => ?_⟩
        exact absurd h.1.1 hcondition

end TypeScript

end GraphClient
