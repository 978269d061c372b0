import GraphClient.Naming.Operation
import GraphClient.Proofs.Text.Ending
import Mathlib.Data.List.Nodup

/-!
# Names of one operation and of another

An operation gives its name to several things, each by a form of its own. From a name the form can
be told, and whose it is up to the case of letters, with one exception: what is the function of one
mutation may be the hook of another one.

* `NameForm`, `OperationNames.named` : the forms, and what they make of the names of an operation.
* `OperationNames.named_eq_named` : what follows if two names are the same.
-/

namespace GraphClient

open Text (EndsIn)

/-- What is called after an operation, apart from its accessor. -/
inductive NameForm where
  | document
  | variablesType
  | result
  /-- The type of the first row of a list. -/
  | row
  | function
  | hook
  | prefetch
deriving DecidableEq

/-- The letters that the names of operations of a kind end in, in any case. -/
def OperationKind.lastLetters : OperationKind → List Char
  | .query => ['y']
  | .mutation => ['n', 'N']

/-- There are two kinds of operations. -/
theorem OperationKind.eq_query_or_mutation (kind : OperationKind) :
    kind = .query ∨ kind = .mutation := by
  cases kind <;> simp

namespace NameForm

/-- Whether functions are called by names of the form. -/
def isCall : NameForm → Bool
  | .function | .hook | .prefetch => true
  | .document | .variablesType | .result | .row => false

/-- The letters that names of the form may end in. Functions are called by names that end like
operations. -/
def lastLetters : NameForm → OperationKind → List Char
  | .document, _ | .result, _ => ['t']
  | .variablesType, _ => ['s']
  | .row, _ => ['e']
  | .function, kind | .hook, kind | .prefetch, kind => kind.lastLetters

/-- The word in front of a query in the names of its functions. -/
def word : NameForm → String
  | .function => "fetch"
  | .hook => "use"
  | .prefetch => "prefetch"
  | .document | .variablesType | .result | .row => ""

/-- None of the words that names begin with begins another one. -/
theorem not_word_isPrefix {form form' : NameForm} (h : form.isCall = true)
    (h' : form'.isCall = true) (hne : form ≠ form') :
    ¬ form.word.toList <+: form'.word.toList := by
  revert h h' hne
  cases form <;> cases form' <;> decide

/-- Two forms whose names may end in one letter. -/
theorem cases_of_lastLetters {form form' : NameForm} {kind kind' : OperationKind}
    (h : (form.lastLetters kind).any (form'.lastLetters kind').contains = true) :
    (form = form' ∧ form.isCall = false) ∨ (form = .document ∧ form' = .result) ∨
      (form = .result ∧ form' = .document) ∨
      (form.isCall = true ∧ form'.isCall = true ∧ kind = kind') := by
  revert h
  cases form <;> cases form' <;> cases kind <;> cases kind' <;> decide

end NameForm

namespace OperationNames

/-- The name of an operation in some form. -/
def named (names : OperationNames) : NameForm → String
  | .document => names.document
  | .variablesType => names.variablesType
  | .result => names.result
  | .row => names.operation ++ "Node"
  | .function => names.function
  | .hook => names.hook
  | .prefetch => names.prefetch

/-- An operation ends like its kind. -/
theorem endsIn_operation (names : OperationNames) :
    EndsIn names.kind.lastLetters names.operation := by
  rw [operation]
  cases names.kind with
  | query => exact .append _ ⟨"Quer".toList, 'y', by decide, by decide⟩
  | mutation => exact .append _ ⟨"Mutatio".toList, 'n', by decide, by decide⟩

/-- A name ends in the last letters of its form. -/
theorem endsIn_named (names : OperationNames) (form : NameForm) :
    EndsIn (form.lastLetters names.kind) (names.named form) := by
  cases form with
  | document => exact .append _ ⟨"Documen".toList, 't', List.mem_cons_self, by decide⟩
  | variablesType => exact .append _ ⟨"Variable".toList, 's', List.mem_cons_self, by decide⟩
  | result => exact .append _ ⟨"Resul".toList, 't', List.mem_cons_self, by decide⟩
  | row => exact .append _ ⟨"Nod".toList, 'e', List.mem_cons_self, by decide⟩
  | hook => exact .append _ names.endsIn_operation
  | prefetch => exact .append _ names.endsIn_operation
  | function =>
    have hoperation := names.endsIn_operation
    show EndsIn _ names.function
    rw [function]
    cases hkind : names.kind with
    | query =>
      rw [hkind] at hoperation
      exact .append _ hoperation
    | mutation =>
      rw [hkind] at hoperation
      exact hoperation.camelCase (by decide)

variable {a b : OperationNames}

/-- Operations of one name are called alike. -/
theorem camel_eq_of_operation_eq (h : a.operation = b.operation) : a.camel = b.camel := by
  rw [camel, camel, h]

/-- A form that is not for functions tells the operation up to the case of its first letters. -/
theorem camel_eq_of_named_eq {form : NameForm} (hform : form.isCall = false)
    (h : a.named form = b.named form) : a.camel = b.camel := by
  cases form with
  | document => exact (String.append_left_inj _).1 h
  | variablesType => exact camel_eq_of_operation_eq ((String.append_left_inj _).1 h)
  | result => exact camel_eq_of_operation_eq ((String.append_left_inj _).1 h)
  | row => exact camel_eq_of_operation_eq ((String.append_left_inj _).1 h)
  | function | hook | prefetch => cases hform

/-- The functions of queries begin with words that tell their form. -/
theorem named_eq_word_append {names : OperationNames} (hkind : names.kind = .query)
    {form : NameForm} (hform : form.isCall = true) :
    names.named form = form.word ++ names.operation := by
  cases form with
  | function =>
    show names.function = _
    rw [function, hkind]
    rfl
  | hook => rfl
  | prefetch => rfl
  | document | variablesType | result | row => cases hform

/-- Two queries share a name only in the same form and if they are called alike. -/
theorem eq_and_camel_eq_of_query {form form' : NameForm} (hform : form.isCall = true)
    (hform' : form'.isCall = true) (ha : a.kind = .query) (hb : b.kind = .query)
    (h : a.named form = b.named form') : form = form' ∧ a.camel = b.camel := by
  rw [named_eq_word_append ha hform, named_eq_word_append hb hform'] at h
  by_cases heq : form = form'
  · subst heq
    exact ⟨rfl, camel_eq_of_operation_eq ((String.append_right_inj _).1 h)⟩
  · exact absurd h (Text.append_ne_append_of_prefix (NameForm.not_word_isPrefix hform hform' heq)
      (NameForm.not_word_isPrefix hform' hform (Ne.symm heq)))

/-- The function of a mutation is called like the mutation. -/
theorem named_function_of_mutation {names : OperationNames} (hkind : names.kind = .mutation) :
    names.named .function = names.camel := by
  show names.function = _
  rw [function, hkind]

/-- The function of a mutation and the hook of a mutation. -/
inductive Clash (a b : OperationNames) : NameForm → NameForm → Prop
  | functionHook (ha : a.kind = .mutation) (hb : b.kind = .mutation) : Clash a b .function .hook
  | hookFunction (ha : a.kind = .mutation) (hb : b.kind = .mutation) : Clash a b .hook .function

/-- Two mutations share a name only in the same form and if they are called alike, or in one of the
known clashes. -/
theorem eq_or_clash_of_mutation {form form' : NameForm} (hform : form = .prefetch → a.kind = .query)
    (hform' : form' = .prefetch → b.kind = .query) (hcall : form.isCall = true)
    (hcall' : form'.isCall = true) (ha : a.kind = .mutation) (hb : b.kind = .mutation)
    (h : a.named form = b.named form') :
    (form = form' ∧ a.camel = b.camel) ∨ Clash a b form form' := by
  have hquery {names : OperationNames} (hkind : names.kind = .mutation) : names.kind ≠ .query := by
    rw [hkind]
    decide
  cases form with
  | document | variablesType | result | row => cases hcall
  | prefetch => exact absurd (hform rfl) (hquery ha)
  | function =>
    cases form' with
    | document | variablesType | result | row => cases hcall'
    | prefetch => exact absurd (hform' rfl) (hquery hb)
    | function =>
      rw [named_function_of_mutation ha, named_function_of_mutation hb] at h
      exact .inl ⟨rfl, h⟩
    | hook => exact .inr (.functionHook ha hb)
  | hook =>
    cases form' with
    | document | variablesType | result | row => cases hcall'
    | prefetch => exact absurd (hform' rfl) (hquery hb)
    | function => exact .inr (.hookFunction ha hb)
    | hook => exact .inl ⟨rfl, camel_eq_of_operation_eq ((String.append_right_inj _).1 h)⟩

/-- One name of two operations is of one form, and the operations agree up to the case of their
first letters; or it is the function of a mutation and the hook of a mutation. -/
theorem named_eq_named {form form' : NameForm} (hform : form = .prefetch → a.kind = .query)
    (hform' : form' = .prefetch → b.kind = .query) (h : a.named form = b.named form') :
    (form = form' ∧ a.camel = b.camel) ∨ Clash a b form form' := by
  have hletter : (form.lastLetters a.kind).any (form'.lastLetters b.kind).contains = true := by
    by_contra hnone
    refine (a.endsIn_named form).ne_of_disjoint (b.endsIn_named form') (fun c hc hc' => hnone ?_) h
    exact List.any_eq_true.2 ⟨c, hc, List.contains_iff_mem.2 hc'⟩
  have hapart (names names' : OperationNames) : names.named .document ≠ names'.named .result :=
    Text.append_ne_append_of_suffix (by decide) (by decide)
  rcases NameForm.cases_of_lastLetters hletter with ⟨rfl, hcall⟩ | ⟨rfl, rfl⟩ | ⟨rfl, rfl⟩ |
    ⟨hcall, hcall', hkind⟩
  · exact .inl ⟨rfl, camel_eq_of_named_eq hcall h⟩
  · exact absurd h (hapart a b)
  · exact absurd h.symm (hapart b a)
  · rcases a.kind.eq_query_or_mutation with ha | ha
    · exact .inl (eq_and_camel_eq_of_query hcall hcall' ha (hkind ▸ ha) h)
    · exact eq_or_clash_of_mutation hform hform' hcall hcall' ha (hkind ▸ ha) h

/-! ## Names of other things -/

/-- How the names of an operation end, apart from the function of a mutation. -/
def endings : List String :=
  ["Document", "Variables", "QueryResult", "MutationResult", "Node", "Query", "Mutation"]

/-- A name of an operation ends in one of the endings, or in the last letter of a mutation. -/
theorem exists_ending (names : OperationNames) (form : NameForm) :
    (∃ front, ∃ ending ∈ endings, names.named form = front ++ ending) ∨
      EndsIn OperationKind.mutation.lastLetters (names.named form) := by
  have hkind : names.kind.ending ∈ endings ∧ names.kind.ending ++ "Result" ∈ endings := by
    rcases names.kind.eq_query_or_mutation with h | h
    · rw [h]
      decide
    · rw [h]
      decide
  have hoperation (word : String) :
      ∃ front, ∃ ending ∈ endings, word ++ names.operation = front ++ ending :=
    ⟨word ++ names.base, _, hkind.1, String.append_assoc.symm⟩
  cases form with
  | document => exact .inl ⟨names.camel, "Document", by decide, rfl⟩
  | variablesType => exact .inl ⟨names.operation, "Variables", by decide, rfl⟩
  | result => exact .inl ⟨names.base, _, hkind.2, String.append_assoc⟩
  | row => exact .inl ⟨names.operation, "Node", by decide, rfl⟩
  | hook => exact .inl (hoperation "use")
  | prefetch => exact .inl (hoperation "prefetch")
  | function =>
    rcases names.kind.eq_query_or_mutation with h | h
    · left
      show ∃ front, ∃ ending ∈ endings, names.function = front ++ ending
      rw [function, h]
      exact hoperation "fetch"
    · right
      rw [← h]
      exact names.endsIn_named .function

/-- A text with another ending is no name of an operation. -/
theorem named_ne_append (names : OperationNames) (form : NameForm) (front : String)
    {ending : String} (hending : ∀ other ∈ endings, ¬ other.toList <:+ ending.toList ∧
      ¬ ending.toList <:+ other.toList)
    (hletter : ending.toList.getLast? ∉ [none, some 'n', some 'N']) :
    names.named form ≠ front ++ ending := by
  rcases names.exists_ending form with ⟨front', other, hother, heq⟩ | hends
  · rw [heq]
    obtain ⟨h, h'⟩ := hending other hother
    exact Text.append_ne_append_of_suffix h h'
  · refine hends.ne ?_
    rw [String.toList_append, List.getLast?_append]
    cases hlast : ending.toList.getLast? with
    | none => exact absurd (by simp [hlast]) hletter
    | some c =>
      rw [hlast] at hletter
      exact fun h => hletter (List.mem_cons_of_mem _ h)

end OperationNames

end GraphClient
