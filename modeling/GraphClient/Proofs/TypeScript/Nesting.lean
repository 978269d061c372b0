import GraphClient.Proofs.TypeScript.Flat

/-!
# The nesting of types in their texts

Types whose parentheses keep their operators apart are told by their texts. A type whose operators
are not kept apart never has the structure of such a type that has the same text.

* `TypeExpr.clean_member` : members that are not torn apart by the operator next to them.
* `TypeExpr.value_phrase_eq_flat_iff` : the types that are read as they are written.
* `TypeExpr.flat_eq_iff_bracketed` : the types that are told by their texts.
-/

namespace GraphClient

namespace TypeScript

namespace TypeExpr

/-! ## How a type is read -/

/-- The phrase of a condition is read as a condition. -/
theorem condition_phrase_conditional (checked bound whenTrue whenFalse : TypeExpr) :
    (conditional checked bound whenTrue whenFalse).phrase.read.condition ≠ none := by
  rw [phrase]
  by_cases hcondition : checked.phrase.read.condition = none
  · rw [Phrase.read_extend_condition _ _ _ hcondition]
    exact Option.some_ne_none _
  · exact (Phrase.read_extend_of_condition _ checked.phrase hcondition).2.2

/-- What needs parentheses in a union is read with a condition. -/
theorem condition_of_wrapsInUnion {type : TypeExpr} (h : type.wrapsInUnion = true) :
    type.phrase.read.condition ≠ none := by
  cases type with
  | conditional checked bound whenTrue whenFalse => exact condition_phrase_conditional _ _ _ _
  | _ => cases h

/-- What stands behind a phrase that is a head, or that has a condition, is read the same way. -/
theorem isSimple_or_condition_extend {phrase : Phrase} {more : Rest}
    (hmore : more.isSuffix = true)
    (h : phrase.isSimple = true ∨ phrase.read.condition ≠ none) :
    (phrase.extend more).isSimple = true ∨ (phrase.extend more).read.condition ≠ none := by
  rcases h with h | h
  · exact .inl (Phrase.isSimple_extend hmore h)
  · exact .inr (Phrase.read_extend_of_condition more phrase h).2.2

/-- A type that is neither joined nor conditional and has no `keyof` in front is a head with
brackets, unless a condition is indexed. -/
theorem isSimple_or_condition : ∀ type : TypeExpr, type.wrapsInArray = false →
    type.phrase.isSimple = true ∨ type.phrase.read.condition ≠ none
  | .named _, _ | .literal _, _ | .generic _ _, _ | .object _ _, _ | .tuple _, _
  | .mapped _ _ _ _ _, _ => .inl rfl
  | .array element, _ => by
    refine isSimple_or_condition_extend rfl ?_
    cases hwraps : element.wrapsInArray with
    | true => exact .inl rfl
    | false => exact isSimple_or_condition element hwraps
  | .index type key, _ => by
    refine isSimple_or_condition_extend rfl ?_
    cases hwraps : type.wrapsInIndex with
    | true => exact .inl rfl
    | false =>
      by_cases hconditional : type.wrapsInUnion = true
      · exact .inr (condition_of_wrapsInUnion hconditional)
      · refine isSimple_or_condition type ?_
        cases type <;> simp_all [wrapsInArray, wrapsInIndex, wrapsInUnion]
  | .union _, h | .intersection _, h | .keys _, h | .conditional _ _ _ _, h => by cases h

/-- If all operators are kept apart, no condition is indexed. -/
theorem isSimple_of_bracketed : ∀ type : TypeExpr, type.bracketed = true →
    type.wrapsInArray = false → type.phrase.isSimple = true
  | .named _, _, _ | .literal _, _, _ | .generic _ _, _, _ | .object _ _, _, _ | .tuple _, _, _
  | .mapped _ _ _ _ _, _, _ => rfl
  | .array element, h, _ => by
    refine Phrase.isSimple_extend rfl ?_
    cases hwraps : element.wrapsInArray with
    | true => rfl
    | false => exact isSimple_of_bracketed element h hwraps
  | .index type key, h, _ => by
    simp only [bracketed, Bool.and_eq_true, Bool.not_eq_true'] at h
    refine Phrase.isSimple_extend rfl ?_
    cases hwraps : type.wrapsInIndex with
    | true => rfl
    | false =>
      refine isSimple_of_bracketed type h.1.2 ?_
      cases type <;> simp_all [wrapsInArray, wrapsInIndex, wrapsInUnion]
  | .union _, _, h | .intersection _, _, h | .keys _, _, h | .conditional _ _ _ _, _, h => by
    cases h

/-- Joined phrases are several operands, or they have a condition. -/
theorem not_isSingle_extend_joined (join : Join) (phrase next : Phrase) :
    ¬ (phrase.extend (.joined join next)).read.IsSingle := by
  rintro ⟨hothers, hcondition⟩
  by_cases h : phrase.read.condition = none
  · rw [Phrase.read_extend_joined join next h] at hothers
    exact absurd (List.append_eq_nil_iff.1 hothers).2 (List.cons_ne_nil _ _)
  · exact (Phrase.read_extend_of_condition _ phrase h).2.2 hcondition

section Member

variable {member : TypeExpr} {wraps : Bool}

/-- The only member of a type stands alone if it is read as one operand without parentheses. -/
theorem standsAlone_of_isSingle_wrapIf
    (h : member.phrase.read.IsSingle → member.standsAlone = true)
    (hsingle : (member.phrase.wrapIf wraps).read.IsSingle) :
    (wraps || member.standsAlone) = true := by
  cases wraps with
  | true => rfl
  | false => exact h hsingle

/-- The only member of a type is read as one operand if it stands alone or in parentheses. -/
theorem isSingle_wrapIf (h : member.standsAlone = true → member.phrase.read.IsSingle)
    (halone : (wraps || member.standsAlone) = true) :
    (member.phrase.wrapIf wraps).read.IsSingle := by
  cases wraps with
  | true => exact Phrase.isSingle_of_isSimple rfl
  | false => exact h halone

end Member

/-- A type that is read as one operand is one. -/
theorem standsAlone_of_isSingle : ∀ type : TypeExpr, type.plain = true →
    type.phrase.read.IsSingle → type.standsAlone = true
  | .union [], h, _ | .intersection [], h, _ => by cases h
  | .union [member], h, hsingle => by
    simp only [plain, plainAll, Bool.and_eq_true] at h
    rw [standsAlone]
    exact standsAlone_of_isSingle_wrapIf (standsAlone_of_isSingle member h.2.1) hsingle
  | .intersection [member], h, hsingle => by
    simp only [plain, plainAll, Bool.and_eq_true] at h
    rw [standsAlone]
    exact standsAlone_of_isSingle_wrapIf (standsAlone_of_isSingle member h.2.1) hsingle
  | .union (_ :: _ :: _), _, hsingle => absurd hsingle (not_isSingle_extend_joined .or _ _)
  | .intersection (_ :: _ :: _), _, hsingle =>
    absurd hsingle (not_isSingle_extend_joined .and _ _)
  | .conditional _ _ _ _, _, hsingle =>
    absurd hsingle.2 (condition_phrase_conditional _ _ _ _)
  | .named _, _, _ | .literal _, _, _ | .generic _ _, _, _ | .array _, _, _ | .object _ _, _, _
  | .keys _, _, _ | .index _ _, _, _ | .tuple _, _, _ | .mapped _ _ _ _ _, _, _ => rfl

/-- One operand is read as one, if all operators are kept apart. -/
theorem isSingle_of_bracketed : ∀ type : TypeExpr, type.bracketed = true →
    type.standsAlone = true → type.phrase.read.IsSingle
  | .union [], _, h | .intersection [], _, h => by cases h
  | .union [member], h, halone => by
    simp only [bracketed, bracketedAll, Bool.and_eq_true] at h
    rw [standsAlone] at halone
    exact isSingle_wrapIf (isSingle_of_bracketed member h.1) halone
  | .intersection [member], h, halone => by
    simp only [bracketed, bracketedAll, Bool.and_eq_true] at h
    rw [standsAlone] at halone
    exact isSingle_wrapIf (isSingle_of_bracketed member h.1) halone
  | .union (_ :: _ :: _), _, h | .intersection (_ :: _ :: _), _, h
  | .conditional _ _ _ _, _, h => by cases h
  | .keys type, h, _ => by
    simp only [bracketed, Bool.and_eq_true] at h
    exact isSingle_of_bracketed type h.2 h.1
  | .named _, h, _ | .literal _, h, _ | .generic _ _, h, _ | .array _, h, _ | .object _ _, h, _
  | .index _ _, h, _ | .tuple _, h, _ | .mapped _ _ _ _ _, h, _ =>
    Phrase.isSingle_of_isSimple (isSimple_of_bracketed _ h rfl)

end TypeExpr

/-- What is checked by a condition weighs less than the condition. -/
theorem Reading.weight_operand_lt {reading : Reading} (h : reading.condition ≠ none) :
    reading.operand.weight < reading.value.weight := by
  obtain ⟨⟨bound, whenTrue, whenFalse⟩, hcondition⟩ := Option.ne_none_iff_exists'.1 h
  rw [value, hcondition]
  simp only [TypeExpr.weight]
  omega

/-- What intersections do not tear apart, unions do not either. -/
theorem Reading.Clean.or_of_and {reading : Reading} (h : reading.Clean .and) :
    reading.Clean .or := ⟨h.1, fun hjoin => by cases hjoin⟩

/-- Phrases that are not torn apart are joined to one that is not. -/
theorem Phrase.clean_joinAll {join : Join} {phrases : List Phrase} (nonempty : phrases ≠ [])
    (h : ∀ phrase ∈ phrases, phrase.read.Clean join) : (joinAll join phrases).read.Clean join :=
  (read_joinAll join nonempty).1.2 h

namespace TypeExpr

mutual

/-- A member that keeps its own operators apart is not torn apart by the operator next to it. -/
theorem clean_member : ∀ (type : TypeExpr) (join : Join), type.plain = true →
    type.bracketed = true → (type.phrase.wrapIf (join.wraps type)).read.Clean join
  | .union members, .or, hplain, h => by
    simp only [plain, Bool.and_eq_true] at hplain
    exact Phrase.clean_joinAll (memberPhrases_ne_nil .or hplain.1)
      (clean_members members .or hplain.2 h)
  | .intersection members, join, hplain, h => by
    simp only [plain, Bool.and_eq_true] at hplain
    have hclean := Phrase.clean_joinAll (memberPhrases_ne_nil .and hplain.1)
      (clean_members members .and hplain.2 h)
    cases join with
    | or => exact hclean.or_of_and
    | and => exact hclean
  | .keys type, join, _, h => by
    have hsingle := isSingle_of_bracketed (.keys type) h rfl
    cases join <;> exact hsingle.clean _
  | .union _, .and, _, _ => (Phrase.isSingle_of_isSimple rfl).clean .and
  | .conditional _ _ _ _, join, _, _ => by
    cases join <;> exact (Phrase.isSingle_of_isSimple rfl).clean _
  | .named _, join, _, h | .literal _, join, _, h | .generic _ _, join, _, h
  | .array _, join, _, h | .object _ _, join, _, h | .index _ _, join, _, h
  | .tuple _, join, _, h | .mapped _ _ _ _ _, join, _, h => by
    have hsimple := isSimple_of_bracketed _ h rfl
    cases join <;> exact (Phrase.isSingle_of_isSimple hsimple).clean _

/-- The members of a bracketed type are not torn apart where they are joined. -/
theorem clean_members : ∀ (types : List TypeExpr) (join : Join), plainAll types = true →
    bracketedAll types = true → ∀ phrase ∈ memberPhrases join types, phrase.read.Clean join
  | [], _, _, _ => List.forall_mem_nil _
  | type :: rest, join, hplain, h => by
    simp only [plainAll, Bool.and_eq_true] at hplain
    simp only [bracketedAll, Bool.and_eq_true] at h
    exact List.forall_mem_cons.2
      ⟨clean_member type join hplain.1 h.1, clean_members rest join hplain.2 h.2⟩

end

/-- If all operators are kept apart, only a condition is read as one. -/
theorem condition_eq_none_of_bracketed {type : TypeExpr} (hplain : type.plain = true)
    (h : type.bracketed = true) (hwraps : type.wrapsInUnion = false) :
    type.phrase.read.condition = none := by
  have hclean := clean_member type .or hplain h
  rw [Join.wraps, hwraps] at hclean
  exact hclean.1

/-! ## Which types are read as they are written -/

section Joined

variable {join : Join} {types : List TypeExpr}

/-- What joined types are read as, if none of them is torn apart. -/
theorem members_value_joinAll (nonempty : types ≠ [])
    (h : ∀ phrase ∈ memberPhrases join types, phrase.read.Clean join) :
    join.members (Phrase.joinAll join (memberPhrases join types)).read.value =
      types.flatMap fun type => join.members type.phrase.read.value := by
  have hnonempty : memberPhrases join types ≠ [] := by
    rwa [memberPhrases_eq_map, Ne, List.map_eq_nil_iff]
  obtain ⟨hclean, hparts⟩ := Phrase.read_joinAll join hnonempty
  rw [(hclean.2 h).value_eq, Join.members_combine, hparts h, List.flatMap_assoc]
  rw [memberPhrases_eq_map, List.forall_mem_map] at h
  rw [memberPhrases_eq_map, List.flatMap_map]
  refine List.flatMap_congr fun type htype => ?_
  rw [← Phrase.value_wrapIf (join.wraps type), (h type htype).value_eq, Join.members_combine]

/-- The members of combined flat types are those of the types, one after the other. -/
theorem members_combine_flatAll (join : Join) (types : List TypeExpr) :
    join.members (join.combine (flatAll types)) =
      types.flatMap fun type => join.members type.flat := by
  rw [Join.members_combine, flatAll_eq_map, List.flatMap_map]

/-- Several types that are joined are read as their flat types are joined only if each of them is
read as its flat type: the members of both weigh the same, so one by one they are the same. -/
theorem value_eq_flat_of_value_joinAll_eq (two : 2 ≤ types.length)
    (hplain : plainAll types = true)
    (h : (Phrase.joinAll join (memberPhrases join types)).read.value =
      join.combine (flatAll types)) :
    ∀ type ∈ types, type.phrase.read.value = type.flat := by
  have nonempty : types ≠ [] := by
    rintro rfl
    cases two
  have hnonempty : memberPhrases join types ≠ [] := by
    rwa [memberPhrases_eq_map, Ne, List.map_eq_nil_iff]
  -- A reading that is torn apart is not joined by this operator at all.
  have hclean : ∀ phrase ∈ memberPhrases join types, phrase.read.Clean join := by
    rw [← (Phrase.read_joinAll join hnonempty).1]
    by_contra hnot
    have htwo : 2 ≤ (flatAll types).length := by rwa [flatAll_eq_map, List.length_map]
    rw [Join.combine_of_two_le htwo] at h
    exact Reading.value_ne_node_of_not_clean hnot _ h
  have hmembers := congrArg join.members h
  rw [members_value_joinAll nonempty hclean, members_combine_flatAll] at hmembers
  have hplain' := plainAll_iff.1 hplain
  have hflat := proper_flatAll types hplain
  have hweight : ∀ type ∈ types, weightAll (join.members type.phrase.read.value) =
      weightAll (join.members type.flat) := by
    intro type htype
    rw [(Phrase.proper_value _).weightAll_members, (hflat type htype).weightAll_members,
      weight_value_phrase (hplain' type htype)]
  intro type htype
  exact (Phrase.proper_value _).eq_of_members_eq (hflat type htype)
    (forall_eq_of_flatMap_eq hweight hmembers type htype)

/-- A joined type is read as it is written exactly if its members are. -/
theorem value_joinAll_eq_iff (nonempty : types ≠ []) (hplain : plainAll types = true)
    (ih : ∀ type ∈ types, (type.phrase.read.value = type.flat ↔ type.bracketed = true)) :
    (Phrase.joinAll join (memberPhrases join types)).read.value = join.combine (flatAll types) ↔
      bracketedAll types = true := by
  constructor
  · intro h
    match types, nonempty with
    | [type], _ =>
      have hvalue : type.phrase.read.value = type.flat := by
        rw [← Phrase.value_wrapIf (join.wraps type)]
        exact h
      rw [bracketedAll, (ih type List.mem_cons_self).1 hvalue]
      rfl
    | first :: second :: rest, _ =>
      have htwo : 2 ≤ (first :: second :: rest).length := Nat.le_add_left 2 rest.length
      have hvalue := value_eq_flat_of_value_joinAll_eq htwo hplain h
      exact bracketedAll_iff.2 fun type htype => (ih type htype).1 (hvalue type htype)
  · intro h
    have hmembers : join.members (Phrase.joinAll join (memberPhrases join types)).read.value =
        join.members (join.combine (flatAll types)) := by
      rw [members_value_joinAll nonempty (clean_members types join hplain h),
        members_combine_flatAll]
      rw [bracketedAll_iff] at h
      exact List.flatMap_congr fun type htype =>
        congrArg join.members ((ih type htype).2 (h type htype))
    exact (Phrase.proper_value _).eq_of_members_eq
      (proper_combine_flatAll join nonempty (proper_flatAll types hplain)) hmembers

end Joined

/-- Brackets behind a condition belong to the condition. -/
theorem value_extend_ne_of_condition {phrase : Phrase} (h : phrase.read.condition ≠ none)
    (more : Rest) {type : TypeExpr} (htype : type.wrapsInUnion = false) :
    (phrase.extend more).read.value ≠ type := by
  obtain ⟨checked, bound, whenTrue, whenFalse, hvalue⟩ := Reading.exists_value_eq_conditional
    (Phrase.read_extend_of_condition more phrase h).2.2
  rw [hvalue]
  rintro rfl
  cases htype

/-- The brackets of an array behind a head make an array of what stands there. -/
theorem value_extend_list {phrase : Phrase} (h : phrase.isSimple = true) :
    (phrase.extend (.list .stop)).read.value = .array phrase.read.value := by
  rw [Phrase.read_extend_of_isSimple h, (Phrase.isSingle_of_isSimple h).value_eq]
  rfl

/-- A key behind a head is looked up in what stands there. -/
theorem value_extend_lookup {phrase : Phrase} (h : phrase.isSimple = true) (key : Phrase) :
    (phrase.extend (.lookup key .stop)).read.value =
      .index phrase.read.value key.read.value := by
  rw [Phrase.read_extend_of_isSimple h, (Phrase.isSingle_of_isSimple h).value_eq]
  rfl

section Kinds

variable {element type key checked bound whenTrue whenFalse : TypeExpr}

/-- An array is read as it is written exactly if its element is. -/
theorem value_array_eq_iff
    (ih : element.phrase.read.value = element.flat ↔ element.bracketed = true) :
    (array element).phrase.read.value = (array element).flat ↔
      (array element).bracketed = true := by
  rw [phrase, flat, bracketed]
  by_cases hsimple : (element.phrase.wrapIf element.wrapsInArray).isSimple = true
  · rw [value_extend_list hsimple, Phrase.value_wrapIf, array.injEq, ih]
  · cases hwraps : element.wrapsInArray with
    | true =>
      rw [hwraps] at hsimple
      exact absurd rfl hsimple
    | false =>
      rw [hwraps] at hsimple
      have hcondition := (isSimple_or_condition element hwraps).resolve_left hsimple
      exact iff_of_false (value_extend_ne_of_condition hcondition _ rfl)
        fun h => hsimple (isSimple_of_bracketed element h hwraps)

/-- A type with a key is read as it is written exactly if both are, and it is no condition. -/
theorem value_index_eq_iff
    (ih : type.phrase.read.value = type.flat ↔ type.bracketed = true)
    (ihKey : key.phrase.read.value = key.flat ↔ key.bracketed = true) :
    (index type key).phrase.read.value = (index type key).flat ↔
      (index type key).bracketed = true := by
  rw [phrase, flat, bracketed, Bool.and_eq_true, Bool.and_eq_true, Bool.not_eq_true']
  by_cases hsimple : (type.phrase.wrapIf type.wrapsInIndex).isSimple = true
  · -- No parentheses are written around a condition, and it is not a head.
    have hconditional : type.wrapsInUnion = false := by
      by_contra hnot
      rw [Bool.not_eq_false] at hnot
      have hcondition := condition_of_wrapsInUnion hnot
      have hwraps : type.wrapsInIndex = false := by cases type <;> first | rfl | cases hnot
      rw [hwraps] at hsimple
      exact hcondition (Phrase.isSingle_of_isSimple hsimple).2
    rw [value_extend_lookup hsimple, Phrase.value_wrapIf, index.injEq, ih, ihKey, hconditional]
    simp
  · cases hwraps : type.wrapsInIndex with
    | true =>
      rw [hwraps] at hsimple
      exact absurd rfl hsimple
    | false =>
      rw [hwraps] at hsimple
      have hwraps' : type.wrapsInUnion = false → type.wrapsInArray = false := by
        cases type <;> simp_all [wrapsInArray, wrapsInIndex, wrapsInUnion]
      have hcondition : type.phrase.read.condition ≠ none := by
        by_cases hconditional : type.wrapsInUnion = true
        · exact condition_of_wrapsInUnion hconditional
        · rw [Bool.not_eq_true] at hconditional
          exact (isSimple_or_condition type (hwraps' hconditional)).resolve_left hsimple
      exact iff_of_false (value_extend_ne_of_condition hcondition _ rfl)
        fun h => hsimple (isSimple_of_bracketed type h.1.2 (hwraps' h.1.1))

/-- The keys of a type are read as they are written exactly if the type is, and is one operand. -/
theorem value_keys_eq_iff (hplain : type.plain = true)
    (ih : type.phrase.read.value = type.flat ↔ type.bracketed = true) :
    (keys type).phrase.read.value = (keys type).flat ↔ (keys type).bracketed = true := by
  rw [phrase, flat, bracketed, Bool.and_eq_true]
  by_cases hsingle : type.phrase.read.IsSingle
  · have hkeys : (Phrase.keys type.phrase).read.IsSingle := hsingle
    have halone := standsAlone_of_isSingle type hplain hsingle
    rw [hkeys.value_eq, Phrase.read, keys.injEq, ← hsingle.value_eq, ih, halone]
    simp
  · -- The word belongs to the first operand, so it is not in front of what is read.
    have hkeys : ¬ (Phrase.keys type.phrase).read.IsSingle := hsingle
    refine iff_of_false ?_ fun h => hsingle (isSingle_of_bracketed type h.2 h.1)
    rcases Reading.value_of_not_isSingle hkeys with ⟨join, types, hvalue⟩ | hvalue
    · rw [hvalue]
      cases join <;> rintro ⟨⟩
    · obtain ⟨checked, bound, whenTrue, whenFalse, hvalue⟩ := hvalue
      rw [hvalue]
      rintro ⟨⟩

/-- A condition is read as it is written exactly if its parts are, and it does not check another
condition. Else what is checked by the first condition weighs less. -/
theorem value_conditional_eq_iff (hplain : checked.plain = true)
    (ih : checked.phrase.read.value = checked.flat ↔ checked.bracketed = true)
    (ihBound : bound.phrase.read.value = bound.flat ↔ bound.bracketed = true)
    (ihTrue : whenTrue.phrase.read.value = whenTrue.flat ↔ whenTrue.bracketed = true)
    (ihFalse : whenFalse.phrase.read.value = whenFalse.flat ↔ whenFalse.bracketed = true) :
    (conditional checked bound whenTrue whenFalse).phrase.read.value =
        (conditional checked bound whenTrue whenFalse).flat ↔
      (conditional checked bound whenTrue whenFalse).bracketed = true := by
  rw [phrase, flat, bracketed]
  simp only [Bool.and_eq_true, Bool.not_eq_true']
  by_cases hcondition : checked.phrase.read.condition = none
  · have hconditional : checked.wrapsInUnion = false := by
      by_contra hnot
      rw [Bool.not_eq_false] at hnot
      exact condition_of_wrapsInUnion hnot hcondition
    have hoperand := Reading.value_of_condition_eq_none hcondition
    have hvalue : (checked.phrase.extend (.condition (bound.phrase.wrapIf bound.wrapsInUnion)
        whenTrue.phrase whenFalse.phrase)).read.value = .conditional checked.phrase.read.value
          bound.phrase.read.value whenTrue.phrase.read.value whenFalse.phrase.read.value := by
      rw [Phrase.read_extend_condition _ _ _ hcondition, hoperand,
        ← Phrase.value_wrapIf bound.wrapsInUnion bound.phrase]
      rfl
    rw [hvalue, conditional.injEq, ih, ihBound, ihTrue, ihFalse, hconditional]
    simp [and_assoc]
  · -- The type in front has a condition already, and this one checks only a part of it.
    refine iff_of_false (fun h => ?_) fun h =>
      hcondition (condition_eq_none_of_bracketed hplain h.1.1.1.2 h.1.1.1.1)
    obtain ⟨hfirst, hothers, hextend⟩ := Phrase.read_extend_of_condition
      (.condition (bound.phrase.wrapIf bound.wrapsInUnion) whenTrue.phrase whenFalse.phrase)
      checked.phrase hcondition
    have hoperand : (checked.phrase.extend (.condition (bound.phrase.wrapIf bound.wrapsInUnion)
        whenTrue.phrase whenFalse.phrase)).read.operand = checked.phrase.read.operand := by
      rw [Reading.operand, Reading.operand, Reading.parts, Reading.parts, hfirst, hothers]
    obtain ⟨⟨b, t, f⟩, heq⟩ := Option.ne_none_iff_exists'.1 hextend
    rw [Reading.value, heq, hoperand] at h
    have hchecked : checked.phrase.read.operand = checked.flat := (conditional.inj h).1
    have hlt := Reading.weight_operand_lt hcondition
    rw [weight_value_phrase hplain, hchecked] at hlt
    exact absurd hlt (Nat.lt_irrefl _)

end Kinds

mutual

/-- A plain type is read as it is written, up to joins inside joins of the same kind and joins of
one member, exactly if its parentheses keep its operators apart. -/
theorem value_phrase_eq_flat_iff : ∀ type : TypeExpr, type.plain = true →
    (type.phrase.read.value = type.flat ↔ type.bracketed = true)
  | .named _, _ => iff_of_true rfl rfl
  | .literal _, _ => iff_of_true rfl rfl
  | .generic name arguments, h => by
    simp only [plain, Bool.and_eq_true] at h
    have hvalue : (generic name arguments).phrase.read.value =
        .generic name (Phrase.values (phrases arguments)) := rfl
    rw [hvalue, flat, bracketed, generic.injEq, values_phrases_eq_flatAll_iff arguments h.2]
    simp
  | .array element, h => value_array_eq_iff (value_phrase_eq_flat_iff element h)
  | .union members, h => by
    simp only [plain, Bool.and_eq_true] at h
    exact value_joinAll_eq_iff (ne_nil_of_plain h.1) h.2
      (forall_value_phrase_eq_flat_iff members h.2)
  | .intersection members, h => by
    simp only [plain, Bool.and_eq_true] at h
    exact value_joinAll_eq_iff (ne_nil_of_plain h.1) h.2
      (forall_value_phrase_eq_flat_iff members h.2)
  | .object properties multiline, h => by
    simp only [plain, Bool.and_eq_true] at h
    have hvalue : (object properties multiline).phrase.read.value =
        .object (Field.properties (fields properties)) multiline := rfl
    rw [hvalue, flat, bracketed, object.injEq,
      properties_fields_eq_flatProperties_iff properties h.2]
    simp
  | .keys type, h => value_keys_eq_iff h (value_phrase_eq_flat_iff type h)
  | .index type key, h => by
    simp only [plain, Bool.and_eq_true] at h
    exact value_index_eq_iff (value_phrase_eq_flat_iff type h.1)
      (value_phrase_eq_flat_iff key h.2)
  | .tuple members, h => by
    have hvalue : (tuple members).phrase.read.value =
        .tuple (Phrase.values (phrases members)) := rfl
    rw [hvalue, flat, bracketed, tuple.injEq, values_phrases_eq_flatAll_iff members h]
  | .conditional checked bound whenTrue whenFalse, h => by
    simp only [plain, Bool.and_eq_true] at h
    exact value_conditional_eq_iff h.1.1.1 (value_phrase_eq_flat_iff checked h.1.1.1)
      (value_phrase_eq_flat_iff bound h.1.1.2) (value_phrase_eq_flat_iff whenTrue h.1.2)
      (value_phrase_eq_flat_iff whenFalse h.2)
  | .mapped parameter source remap value optional, h => by
    simp only [plain, Bool.and_eq_true] at h
    have hvalue : (mapped parameter source remap value optional).phrase.read.value =
        .mapped parameter source.phrase.read.value (Phrase.remapValue (remapPhrase remap))
          value.phrase.read.value optional := rfl
    rw [hvalue, flat, bracketed, mapped.injEq, value_phrase_eq_flat_iff source h.1.1.2,
      remapValue_eq_flatRemap_iff remap h.1.2, value_phrase_eq_flat_iff value h.2]
    simp [and_assoc]

/-- Each of some types is read back exactly if it is bracketed. -/
theorem forall_value_phrase_eq_flat_iff : ∀ types : List TypeExpr, plainAll types = true →
    ∀ type ∈ types, (type.phrase.read.value = type.flat ↔ type.bracketed = true)
  | [], _ => List.forall_mem_nil _
  | type :: rest, h => by
    simp only [plainAll, Bool.and_eq_true] at h
    exact List.forall_mem_cons.2
      ⟨value_phrase_eq_flat_iff type h.1, forall_value_phrase_eq_flat_iff rest h.2⟩

/-- Some types are read back exactly if all of them are bracketed. -/
theorem values_phrases_eq_flatAll_iff : ∀ types : List TypeExpr, plainAll types = true →
    (Phrase.values (phrases types) = flatAll types ↔ bracketedAll types = true)
  | [], _ => iff_of_true rfl rfl
  | type :: rest, h => by
    simp only [plainAll, Bool.and_eq_true] at h
    rw [phrases, Phrase.values, flatAll, bracketedAll, List.cons.injEq, Bool.and_eq_true,
      value_phrase_eq_flat_iff type h.1, values_phrases_eq_flatAll_iff rest h.2]

/-- The key of a mapped property is read back exactly if it is bracketed. -/
theorem remapValue_eq_flatRemap_iff : ∀ remap : Option TypeExpr, plainRemap remap = true →
    (Phrase.remapValue (remapPhrase remap) = flatRemap remap ↔ bracketedRemap remap = true)
  | none, _ => iff_of_true rfl rfl
  | some key, h => by
    rw [remapPhrase, Phrase.remapValue, flatRemap, bracketedRemap, Option.some.injEq,
      value_phrase_eq_flat_iff key h]

/-- Some properties are read back exactly if all of them are bracketed. -/
theorem properties_fields_eq_flatProperties_iff : ∀ properties : List Property,
    plainProperties properties = true →
      (Field.properties (fields properties) = flatProperties properties ↔
        bracketedProperties properties = true)
  | [], _ => iff_of_true rfl rfl
  | property :: rest, h => by
    simp only [plainProperties, Bool.and_eq_true] at h
    rw [fields, Field.properties, flatProperties, bracketedProperties, List.cons.injEq,
      Bool.and_eq_true, property_field_eq_flatProperty_iff property h.1,
      properties_fields_eq_flatProperties_iff rest h.2]

/-- A property is read back exactly if it is bracketed. -/
theorem property_field_eq_flatProperty_iff : ∀ property : Property,
    plainProperty property = true →
      ((field property).property = flatProperty property ↔ bracketedProperty property = true)
  | ⟨key, value, optional, readonly, docs⟩, h => by
    simp only [plainProperty, Bool.and_eq_true, Option.isNone_iff_eq_none] at h
    obtain ⟨⟨-, hvalue⟩, rfl⟩ := h
    rw [field, Field.property, flatProperty, bracketedProperty, Property.mk.injEq,
      value_phrase_eq_flat_iff value hvalue]
    simp

end

/-! ## Which types are told by their texts -/

/-- A type with the text of a type whose operators are kept apart has the same structure exactly if
its own operators are kept apart, too. -/
theorem flat_eq_iff_bracketed {a b : TypeExpr} (ha : a.plain = true) (hb : b.plain = true)
    (apart : a.bracketed = true) (h : a.text = b.text) : a.flat = b.flat ↔ b.bracketed = true := by
  rw [← value_phrase_eq_flat_iff b hb, ← phrase_eq_of_text_eq ha hb h,
    (value_phrase_eq_flat_iff a ha).2 apart]

end TypeExpr

end TypeScript

namespace Sample

open TypeScript

/-- The keys of one of two types, in a list; and the same with a union inside of the union. -/
def keyLists : TypeExpr × TypeExpr :=
  (.array (.union [.keys (.named "Ticket"), .named "User"]),
    .array (.union [.union [.keys (.named "Ticket")], .named "User"]))

/-- The parentheses around the union tell what the list is made of. -/
theorem keyLists_told : keyLists.1.plain = true ∧ keyLists.2.plain = true ∧
    keyLists.1.bracketed = true ∧ keyLists.1.text = keyLists.2.text ∧
    keyLists.1.flat = keyLists.2.flat := by
  have plain : keyLists.1.plain = true := by decide
  have plain' : keyLists.2.plain = true := by decide
  have apart : keyLists.1.bracketed = true := by decide
  have same : keyLists.1.text = keyLists.2.text := by decide
  exact ⟨plain, plain', apart, same,
    (TypeExpr.flat_eq_iff_bracketed plain plain' apart same).2 (by decide)⟩

/-- A condition on a type. -/
def condition (checked : TypeExpr) (bound whenTrue : String) (whenFalse : TypeExpr) : TypeExpr :=
  .conditional checked (.named bound) (.named whenTrue) whenFalse

/-- Pairs of types with the same text: a union behind `keyof`, a condition that is indexed, and one
that is checked by another one; each with the type that is written the same way. -/
def tornApart : List (TypeExpr × TypeExpr) :=
  [(.keys (.union [.named "A", .named "B"]), .union [.keys (.named "A"), .named "B"]),
    (.index (condition (.named "A") "B" "C" (.named "D")) (.named "K"),
      condition (.named "A") "B" "C" (.index (.named "D") (.named "K"))),
    (condition (condition (.named "A") "B" "C" (.named "D")) "E" "F" (.named "G"),
      condition (.named "A") "B" "C" (condition (.named "D") "E" "F" (.named "G")))]

/-- The texts of these types are the same, and their structures are not. -/
theorem tornApart_same_text : tornApart.length = 3 ∧ ∀ p ∈ tornApart,
    p.1.plain = true ∧ p.2.plain = true ∧ p.1.text = p.2.text ∧ p.1.flat ≠ p.2.flat := by
  refine ⟨rfl, ?_⟩
  simp only [tornApart, List.forall_mem_cons]
  refine ⟨⟨by decide, by decide, by decide, ?_⟩, ⟨by decide, by decide, by decide, ?_⟩,
    ⟨by decide, by decide, by decide, ?_⟩, List.forall_mem_nil _⟩
  · rintro ⟨⟩
  · rintro ⟨⟩
  · rintro ⟨⟩

end Sample

end GraphClient
