import GraphClient.Proofs.Package.Consistent
import GraphClient.Proofs.Request.Call

/-!
# What custom operations need

While the files of custom operations are made, the types that they mention are recorded, and from
these the file of schema types starts. What is recorded can be told from the operations alone: the
types of their arguments, the type of an answer that is no object, and the types of the leaves that
are selected from one.

* `Projection.HasLeaf` : a leaf of a wire type stands somewhere in a projection.
* `CustomOperation.Needs` : the types that an operation needs.
* `Package.Parts.IsOf.mem_customMentions_iff` : exactly these are recorded.
* `Package.Parts.IsOf.definesForCustom_iff` : what is defined for custom operations can be reached
  from a type that one of them needs.
-/

namespace GraphClient

/-! ## Leaves of projections -/

/-- A leaf of a wire type stands in a projection, or somewhere below one of its fields. -/
inductive Projection.HasLeaf (wire : TypeRef) : Projection → Prop
  | leaf {shape name : String} {fields : List ProjectedField} {nullable : Bool}
      {kept : PageArguments} (mem : ⟨name, .leaf wire, nullable, kept⟩ ∈ fields) :
      HasLeaf wire ⟨shape, fields⟩
  | object {shape name : String} {fields : List ProjectedField} {nullable list : Bool}
      {kept : PageArguments} {inner : Projection}
      (mem : ⟨name, .object inner list, nullable, kept⟩ ∈ fields) (below : HasLeaf wire inner) :
      HasLeaf wire ⟨shape, fields⟩
  | connection {shape name : String} {fields : List ProjectedField} {nullable : Bool}
      {kept : PageArguments} {inner : Projection}
      (mem : ⟨name, .connection inner, nullable, kept⟩ ∈ fields) (below : HasLeaf wire inner) :
      HasLeaf wire ⟨shape, fields⟩

/-- What one of some projected fields mentions, all of them together do. -/
theorem ProjectedField.mem_allMentions {fields : List ProjectedField} {field : ProjectedField}
    (h : field ∈ fields) {name : String} (hname : name ∈ field.mentions) :
    name ∈ ProjectedField.allMentions fields := by
  induction fields with
  | nil => cases h
  | cons first rest ih =>
    rw [allMentions, List.mem_append]
    rcases List.mem_cons.1 h with rfl | h
    · exact .inl hname
    · exact .inr (ih h)

/-- What a leaf leads to is mentioned, by induction on the way to the leaf. -/
theorem Projection.HasLeaf.mem_mentions {wire : TypeRef} {projection : Projection}
    (h : projection.HasLeaf wire) {name : String} (leads : wire.LeadsTo name) :
    name ∈ projection.mentions := by
  induction h with
  | leaf mem =>
    refine ProjectedField.mem_allMentions mem ?_
    rw [ProjectedField.mentions, ProjectedType.mentions]
    exact TypeRef.mem_mentions_iff_leadsTo.2 leads
  | object mem below ih | connection mem below ih =>
    refine ProjectedField.mem_allMentions mem ?_
    rw [ProjectedField.mentions, ProjectedType.mentions]
    exact ih

mutual

/-- Whatever a projection mentions comes from a leaf. -/
theorem Projection.exists_leaf {name : String} : ∀ {projection : Projection},
    name ∈ projection.mentions → ∃ wire, projection.HasLeaf wire ∧ wire.LeadsTo name
  | ⟨shape, fields⟩, h => ProjectedField.exists_leaf shape fields fields (fun _ => id) h

/-- Whatever some fields of a projection mention comes from a leaf of the projection. -/
theorem ProjectedField.exists_leaf {name : String} (shape : String) (all : List ProjectedField) :
    ∀ fields : List ProjectedField, fields ⊆ all → name ∈ ProjectedField.allMentions fields →
      ∃ wire, (Projection.mk shape all).HasLeaf wire ∧ wire.LeadsTo name
  | [], _, h => by cases h
  | field :: rest, hsubset, h => by
    rw [ProjectedField.allMentions, List.mem_append] at h
    rcases h with h | h
    · exact ProjectedField.exists_leaf_of_mem shape all field (hsubset List.mem_cons_self) h
    · exact ProjectedField.exists_leaf shape all rest
        (fun x hx => hsubset (List.mem_cons_of_mem _ hx)) h

/-- Whatever one field of a projection mentions comes from a leaf of the projection. -/
theorem ProjectedField.exists_leaf_of_mem {name : String} (shape : String)
    (all : List ProjectedField) : ∀ field : ProjectedField, field ∈ all → name ∈ field.mentions →
      ∃ wire, (Projection.mk shape all).HasLeaf wire ∧ wire.LeadsTo name
  | ⟨_, .leaf wire, _, _⟩, mem, h => ⟨wire, .leaf mem, TypeRef.mem_mentions_iff_leadsTo.1 h⟩
  | ⟨_, .object _ _, _, _⟩, mem, h => by
    obtain ⟨wire, below, leads⟩ := Projection.exists_leaf h
    exact ⟨wire, .object mem below, leads⟩
  | ⟨_, .connection _, _, _⟩, mem, h => by
    obtain ⟨wire, below, leads⟩ := Projection.exists_leaf h
    exact ⟨wire, .connection mem below, leads⟩
  | ⟨_, .unknown, _, _⟩, _, h => by cases h

end

/-! ## Operations -/

/-- A custom operation needs a type: an argument leads to it, or an answer that is no object does,
or a leaf does that is selected from the answer. -/
inductive CustomOperation.Needs (catalog : Catalog) (settings : Settings)
    (operation : CustomOperation) (name : String) : Prop
  | argument {argument : InputValue} (mem : argument ∈ operation.arguments)
      (leads : argument.type.LeadsTo name)
  | answer (value : operation.returnType.baseKind ≠ .object)
      (leads : operation.returnType.LeadsTo name)
  | leaf {projection : Projection} {wire : TypeRef}
      (answered : Request.answerProjection? catalog settings operation none = .ok (some projection))
      (selected : projection.HasLeaf wire) (leads : wire.LeadsTo name)

/-! ## What is recorded -/

/-- A part that mentions nothing does so under any condition. -/
theorem Fragment.mentions_when {fragment : Fragment} (h : fragment.mentions = [])
    (condition : Bool) : (when condition fragment).mentions = [] := by
  cases condition with
  | false => rfl
  | true => exact h

namespace CustomFiles

variable {blueprint : Blueprint} {operation : CustomOperation} {template : Request} {name : String}

/-- A hook mentions no types of its own. -/
theorem mentions_hook (names : OperationNames) (optional : Bool) :
    (hook blueprint operation names optional).mentions = [] := by
  have hquery (key : String) :
      (Fragment.queryHook blueprint.settings.hooks names optional key none).mentions = [] :=
    Fragment.mentions_when rfl _
  have hmutation (key : Option String) :
      (Fragment.mutationHook blueprint.settings.hooks names key []).mentions = [] :=
    Fragment.mentions_when rfl _
  have himport (imports : TypeScript.ImportSet) :
      (Fragment.when blueprint.settings.hooks (.importing imports)).mentions = [] :=
    Fragment.mentions_when rfl _
  unfold hook
  cases operation.kind with
  | query =>
    simp only [queryHook]
    split <;> simp [hquery, himport]
  | mutation =>
    simp only [mutationHook]
    split
    · exact hmutation none
    · split <;> simp [hmutation, himport]

/-- The file of an operation mentions what its variables and its answer do. -/
theorem mentions_fragment :
    (fragment blueprint operation template).mentions =
      (template.document.declarations.flatMap fun declared => declared.type.mentions) ++
        (resultNeeds operation template.projection).mentions := by
  simp [fragment, mentions_hook, Fragment.document, Fragment.answer, Fragment.sender]

/-- The type of an answer mentions a type of its own if it is no object, and else what the leaves
lead to that are selected from it. -/
theorem mem_mentions_resultNeeds_iff {projection : Option Projection}
    (h : Request.answerProjection? blueprint.catalog blueprint.settings operation none =
      .ok projection) :
    name ∈ (resultNeeds operation projection).mentions ↔
      (operation.returnType.baseKind ≠ .object ∧ operation.returnType.LeadsTo name) ∨
        ∃ inner wire, projection = some inner ∧ inner.HasLeaf wire ∧ wire.LeadsTo name := by
  by_cases object : operation.returnType.baseKind = .object
  · simp only [object, ne_eq, not_true, false_and, false_or]
    cases projection with
    | none => simp [resultNeeds, object]
    | some projection =>
      constructor
      · intro h
        obtain ⟨wire, selected, leads⟩ := Projection.exists_leaf h
        exact ⟨projection, wire, rfl, selected, leads⟩
      · rintro ⟨inner, wire, heq, selected, leads⟩
        obtain rfl := Option.some.inj heq
        exact selected.mem_mentions leads
  · -- Nothing is selected from an answer that is no object.
    have hnone : projection = none := by
      rw [Request.answerProjection?, if_pos (by simpa using object)] at h
      exact (Except.ok.inj h).symm
    simp [hnone, resultNeeds, object, TypeRef.mem_mentions_iff_leadsTo]

/-- The file of a custom operation mentions exactly the types that the operation needs. -/
theorem mem_mentions_fragment_iff (h : Request.custom blueprint.catalog blueprint.settings operation
    none none = .ok template) :
    name ∈ (fragment blueprint operation template).mentions ↔
      operation.Needs blueprint.catalog blueprint.settings name := by
  rw [Request.custom_none_eq] at h
  obtain ⟨projection, hanswer, h⟩ := exists_of_bind_eq_ok h
  obtain rfl : Request.answered blueprint.page operation projection
      (.of (Request.argumentSlots operation none) Keyed.empty) = template := Except.ok.inj h
  have harguments : (name ∈ (Request.answered blueprint.page operation projection
      (.of (Request.argumentSlots operation none) Keyed.empty)).document.declarations.flatMap
        fun declared => declared.type.mentions) ↔
      ∃ argument ∈ operation.arguments, argument.type.LeadsTo name := by
    simp [Request.answered, Binding.of, Request.argumentSlots, Slot.declaration,
      TypeRef.mem_mentions_iff_leadsTo]
  rw [mentions_fragment, List.mem_append, harguments]
  show _ ∨ name ∈ (resultNeeds operation projection).mentions ↔ _
  rw [mem_mentions_resultNeeds_iff hanswer]
  constructor
  · rintro (⟨argument, mem, leads⟩ | ⟨value, leads⟩ | ⟨inner, wire, rfl, selected, leads⟩)
    · exact .argument mem leads
    · exact .answer value leads
    · exact .leaf hanswer selected leads
  · rintro (⟨mem, leads⟩ | ⟨value, leads⟩ | ⟨answered, selected, leads⟩)
    · exact .inl ⟨_, mem, leads⟩
    · exact .inr (.inl ⟨value, leads⟩)
    · have hsome := Except.ok.inj (hanswer.symm.trans answered)
      exact .inr (.inr ⟨_, _, hsome, selected, leads⟩)

end CustomFiles

namespace Package.Parts

variable {parts : Parts} {schema : Schema} {settings : Settings} {name : String}

theorem mem_mentions_fragments_iff {blueprint : Blueprint} {operations : List CustomOperation}
    {fragments : List (CustomOperation × Fragment)}
    (h : CustomFiles.fragments blueprint operations = .ok fragments) :
    name ∈ fragments.flatMap (·.2.mentions) ↔
      ∃ operation ∈ operations, operation.Needs blueprint.catalog blueprint.settings name := by
  rw [List.mem_flatMap]
  constructor
  · rintro ⟨p, hp, hname⟩
    obtain ⟨operation, hoperation, hmade⟩ := exists_of_mem_mapM h hp
    obtain ⟨template, htemplate, rfl⟩ := exists_template_of_made hmade
    exact ⟨operation, hoperation, (CustomFiles.mem_mentions_fragment_iff htemplate).1 hname⟩
  · rintro ⟨operation, hoperation, needs⟩
    obtain ⟨p, hp, hmade⟩ := exists_mem_of_mapM h hoperation
    obtain ⟨template, htemplate, rfl⟩ := exists_template_of_made hmade
    exact ⟨_, hp, (CustomFiles.mem_mentions_fragment_iff htemplate).2 needs⟩

/-- Exactly the types that custom operations need are recorded for them. -/
theorem IsOf.mem_customMentions_iff (h : parts.IsOf schema settings) :
    name ∈ parts.customMentions ↔ ∃ operation ∈ schema.queries ++ schema.mutations,
      operation.Needs (.ofSchema schema settings.page) settings name := by
  have hqueries := h.queries_eq
  have hmutations := h.mutations_eq
  rw [h.blueprint_eq] at hqueries hmutations
  rw [customMentions, List.flatMap_append, List.mem_append, mem_mentions_fragments_iff hqueries,
    mem_mentions_fragments_iff hmutations]
  simp only [List.mem_append, or_and_right, exists_or]
  rfl

/-- A type is defined for custom operations exactly if it can be reached from a type that one of
them needs, and is no scalar. -/
theorem IsOf.definesForCustom_iff (h : parts.IsOf schema settings) :
    parts.DefinesForCustom name ↔
      (∃ root, (∃ operation ∈ schema.queries ++ schema.mutations,
          operation.Needs (.ofSchema schema settings.page) settings root) ∧
        Definitions.Reached schema.registry parts.defined [root] name) ∧
      ¬ schema.registry.IsScalar name := by
  have hregistry : parts.blueprint.schema.registry = schema.registry := by
    rw [h.blueprint_eq]
    rfl
  have hreached : Definitions.Reached schema.registry parts.defined parts.customMentions name ↔
      ∃ root ∈ parts.customMentions,
        Definitions.Reached schema.registry parts.defined [root] name :=
    Definitions.reached_iff_exists_root
  simp only [DefinesForCustom, hregistry, hreached, ← h.mem_customMentions_iff]

end Package.Parts

end GraphClient
