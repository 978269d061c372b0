import GraphClient.Proofs.Request.Call

/-!
# Requests as restrictions of templates

A request at run time is its template without the slots that were not given a value: what it
declares, passes on and binds is a part of what the template declares. The one thing that can go
wrong is that a required slot is left out.

* `Slot.kept` : what remains of a list that goes along with the slots.
* `Slot.given?` : the value that slots give to a variable.
* `Literal.references` : the variables that a literal refers to.
* `Call.Restricts` : a request is the restriction of a template.
-/

namespace GraphClient

/-- The argument that passes a declared variable on. -/
def VariableDeclaration.passed (declaration : VariableDeclaration) : String × Literal :=
  (declaration.name, .reference declaration.name)

/-! ## What is left out -/

namespace Slot

theorem map_passed_declaration (slots : List Slot) :
    (slots.map (·.declaration)).map (·.passed) = slots.map (·.argument) := by
  simp [VariableDeclaration.passed, declaration, argument]

/-- The items that go along with the slots that have a value. -/
def kept {α : Type} (slots : List Slot) (items : List α) : List α :=
  (slots.zip items).filterMap fun p => p.1.value.map fun _ => p.2

/-- The name of the first required variable that goes along with a slot without a value. -/
def firstMissing? (slots : List Slot) (declarations : List VariableDeclaration) : Option String :=
  ((slots.zip declarations).find? fun p => p.2.type.isRequired && p.1.value.isNone).map (·.2.name)

/-- The value that slots give to a variable: that of the last slot of its name that has one. -/
def given? (slots : List Slot) (name : String) : Option Json :=
  (slots.reverse.find? fun slot => slot.name == name && slot.value.isSome).bind (·.value)

/-- What goes along with the slots that have a value remains. -/
theorem kept_map {α : Type} (slots : List Slot) (f : Slot → α) :
    kept slots (slots.map f) = (slots.filter (·.value.isSome)).map f := by
  induction slots with
  | nil => rfl
  | cons slot rest ih =>
    rw [kept] at ih ⊢
    cases h : slot.value with
    | none => simp [h, ih]
    | some value => simp [h, ih]

/-- The first variable without a value is that of the first missing slot. -/
theorem firstMissing?_map (slots : List Slot) :
    firstMissing? slots (slots.map (·.declaration)) = (slots.find? (·.isMissing)).map (·.name) := by
  induction slots with
  | nil => rfl
  | cons slot rest ih =>
    rw [firstMissing?] at ih ⊢
    rw [List.map_cons, List.zip_cons_cons, List.find?_cons, List.find?_cons]
    cases h : slot.isMissing with
    | true =>
      have hhead : (slot.declaration.type.isRequired && slot.value.isNone) = true := h
      simp only [hhead, Option.map_some]
      rfl
    | false =>
      have hhead : (slot.declaration.type.isRequired && slot.value.isNone) = false := h
      simp only [hhead, ih]

/-- Among the pairs of the slots that have a value, the first slot of a name is found. -/
theorem find?_filterMap (slots : List Slot) (name : String) :
    Entries.find? (slots.filterMap fun slot => slot.value.map fun value => (slot.name, value))
        name =
      (slots.find? fun slot => slot.name == name && slot.value.isSome).bind (·.value) := by
  induction slots with
  | nil => rfl
  | cons slot rest ih =>
    cases hvalue : slot.value with
    | none => simpa [hvalue] using ih
    | some value => by_cases hname : slot.name = name <;> simp [hvalue, hname, Entries.find?, ih]

/-- A variable is bound to the value that the slots give to it. -/
theorem find?_values_eq_given? (slots : List Slot) (name : String) :
    (values slots).find? name = given? slots name := by
  show Entries.find? (Entries.ofList _) name = _
  rw [Entries.find?_ofList, ← List.filterMap_reverse, find?_filterMap]
  rfl

/-- The values of slots are bound to the names of the slots that have one. -/
theorem mem_keys_values (slots : List Slot) (name : String) :
    name ∈ (values slots).keys ↔ name ∈ (slots.filter (·.value.isSome)).map (·.name) := by
  rw [values, Keyed.keys, Keyed.ofList, Entries.mem_keys_ofList]
  induction slots with
  | nil => simp
  | cons slot rest ih =>
    cases h : slot.value with
    | none => simpa [h] using ih
    | some value => simpa [h] using or_congr_right ih

/-- A slot at the end that has a value adds one variable. -/
theorem values_append_singleton (slots : List Slot) (name : String) (type : TypeRef)
    (value : Json) :
    (values (slots ++ [⟨name, type, some value⟩])).entries =
      (values slots).entries.insert name value := by
  show Entries.ofList _ = _
  rw [List.filterMap_append, Entries.ofList, List.foldl_append]
  rfl

end Slot

/-! ## References -/

namespace Literal

mutual

/-- The names of the variables that a literal refers to. -/
def references : Literal → List String
  | .reference name => [name]
  | .list items => itemReferences items
  | .object fields => fieldReferences fields
  | .enumeration _ | .string _ | .int _ | .float _ | .bool _ | .null => []

/-- The names that the items of a list refer to. -/
def itemReferences : List Literal → List String
  | [] => []
  | value :: rest => value.references ++ itemReferences rest

/-- The names that the fields of an object refer to, or the arguments of a field. -/
def fieldReferences : List (String × Literal) → List String
  | [] => []
  | (_, value) :: rest => value.references ++ fieldReferences rest

end

theorem fieldReferences_append (a b : List (String × Literal)) :
    fieldReferences (a ++ b) = fieldReferences a ++ fieldReferences b := by
  induction a with
  | nil => simp [fieldReferences]
  | cons p rest ih =>
    obtain ⟨name, value⟩ := p
    simp [fieldReferences, ih]

/-- The arguments of slots refer to the slots. -/
theorem fieldReferences_map_argument (slots : List Slot) :
    fieldReferences (slots.map (·.argument)) = slots.map (·.name) := by
  induction slots with
  | nil => simp [fieldReferences]
  | cons slot rest ih =>
    rw [List.map_cons, List.map_cons, Slot.argument, fieldReferences, references, ih]
    rfl

end Literal

namespace Call

/-- Wherever the arguments are placed, the root field refers to the same variables. -/
theorem fieldReferences_placed (call : Call) (arguments : List (String × Literal)) :
    Literal.fieldReferences (call.placed arguments) = Literal.fieldReferences arguments := by
  cases call <;>
    simp [placed, Literal.fieldReferences_append, Literal.fieldReferences, Literal.references]

/-! ## The restriction -/

/-- A request is a template restricted to the slots that were given a value. It differs in its
variables, in the arguments that pass them on and in the values, and what it declares, refers to and
binds are the same names. Every variable has the value that was given for it. -/
structure Restricts (settings : Settings) (call : Call) (template request : Request)
    (root : FieldNode) : Prop where
  request_eq : request = { template with
    document := { template.document with
      declarations := Slot.kept (call.slots settings) template.document.declarations
      selection := [{ root with
        arguments := call.placed (Slot.kept (call.slots settings)
          (template.document.declarations.map (·.passed))) }] }
    values := request.values }
  declared_iff_referenced : ∀ name, name ∈ request.document.declarations.map (·.name) ↔
    ∃ field ∈ request.document.selection, name ∈ Literal.fieldReferences field.arguments
  declared_iff_bound : ∀ name, name ∈ request.document.declarations.map (·.name) ↔
    name ∈ request.values.keys
  bound : ∀ name, request.values.find? name = Slot.given? (call.slots settings) name
  values_eq : request.values = Slot.values (call.slots settings)

variable {catalog : Catalog} {settings : Settings} {selection : Option Selection}

/-- What binds the slots that have a value restricts the template. -/
theorem Rebinds.restricts {call : Call} {template : Request} {root : FieldNode}
    (h : Rebinds catalog settings selection call template root) :
    call.Restricts settings template
      (template.rebound root
        (call.placed (((call.slots settings).filter (·.value.isSome)).map (·.argument)))
        (.of ((call.slots settings).filter (·.value.isSome)) (Slot.values (call.slots settings))))
      root := by
  constructor
  · rw [h.declaresAll.declarations_eq, Slot.map_passed_declaration, Slot.kept_map, Slot.kept_map]
    rfl
  · intro name
    simp [Request.rebound, Binding.of, fieldReferences_placed,
      Literal.fieldReferences_map_argument, Slot.declaration]
  · intro name
    simp only [Request.rebound, Slot.mem_keys_values, Binding.of, List.map_map]
    rfl
  · intro name
    exact Slot.find?_values_eq_given? _ name
  · rfl

/-- The template of a call declares all slots and binds nothing. The call fails exactly if a
required slot was not given a value, and names the first one; otherwise it succeeds with the
template restricted to the slots that were given a value. -/
theorem request_restricts_template {call : Call} {template : Request}
    (h : call.template catalog settings selection = .ok template) :
    ∃ root, call.DeclaresAll settings template root ∧
      (∀ error, call.request catalog settings selection = .error error ↔
        ∃ name,
          Slot.firstMissing? (call.slots settings) template.document.declarations = some name ∧
            error = .missingArgument template.document.name name) ∧
      (Slot.firstMissing? (call.slots settings) template.document.declarations = none →
        ∃ request, call.request catalog settings selection = .ok request ∧
          call.Restricts settings template request root) := by
  obtain ⟨root, hrebinds⟩ := exists_rebinds h
  refine ⟨root, hrebinds.declaresAll, ?_, ?_⟩
  all_goals rw [hrebinds.declaresAll.declarations_eq, Slot.firstMissing?_map, hrebinds.request_eq,
    Request.bind, Slot.bind]
  · intro error
    cases hmissing : (call.slots settings).find? (·.isMissing) with
    | none =>
      -- With nothing missing there is no error, and no name that it could have.
      constructor
      · intro herror
        cases herror
      · rintro ⟨name, hname, -⟩
        cases hname
    | some slot =>
      constructor
      · intro herror
        exact ⟨slot.name, rfl, (Except.error.inj herror).symm⟩
      · rintro ⟨name, hname, rfl⟩
        obtain rfl : slot.name = name := Option.some.inj hname
        rfl
  · intro hnone
    rw [Option.map_eq_none_iff] at hnone
    rw [hnone]
    exact ⟨_, rfl, hrebinds.restricts⟩

end Call

namespace Sample

/-- A membership is addressed by a group and a user. -/
def memberTable : Table where
  name := "Member"
  fields := [⟨"groupId", .scalar "ID", none⟩, ⟨"userId", .scalar "ID", none⟩]
  constraints := some { primaryKey := [{ fields := ["groupId", "userId"] }] }

def members : Catalog := ⟨Keyed.ofList [("Member", .ofTable {} {} memberTable)]⟩

/-- A change that is told only one half of the key, and no patch. -/
def halfUpdate : Call := .update memberTable (some (.object [("groupId", .string "a")])) none rfl

/-- The template of the change can be made, but the change itself lacks the other half of the
key. -/
theorem halfUpdate_lacks_userId :
    ∃ template, halfUpdate.template members {} none = .ok template ∧
      halfUpdate.request members {} none =
        .error (.missingArgument template.document.name "userId") := by
  obtain ⟨template, h⟩ : ∃ template, halfUpdate.template members {} none = .ok template :=
    ⟨_, rfl⟩
  obtain ⟨root, hdeclares, hfails, -⟩ := Call.request_restricts_template h
  refine ⟨template, h, (hfails _).2 ⟨"userId", ?_, rfl⟩⟩
  rw [hdeclares.declarations_eq]
  rfl

end Sample

end GraphClient
