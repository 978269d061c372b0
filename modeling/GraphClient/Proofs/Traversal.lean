/-!
# Traversals that fail

A traversal of a list stops at the first element that fails, and fails with what that element fails
with.

* `FirstOf` : the first element of a list for which something holds.
* `mapM_eq_error_iff` : what a traversal fails with.
* `mapM_eq_ok_iff` : what a traversal that does not fail gives.
-/

namespace GraphClient

/-! ## The first element -/

/-- Something holds of an element of a list with a result, and of no element before it. -/
def FirstOf {α β : Type} (holds : α → β → Prop) (list : List α) (result : β) : Prop :=
  ∃ before element after, list = before ++ element :: after ∧
    (∀ other ∈ before, ∀ result', ¬ holds other result') ∧ holds element result

namespace FirstOf

variable {α β : Type} {holds : α → β → Prop}

/-- Nothing is the first of an empty list. -/
theorem not_nil (result : β) : ¬ FirstOf holds [] result := by
  rintro ⟨before, element, after, hsplit, -⟩
  simp at hsplit

/-- The first of a list is its head, or the first of the others if the head is none. -/
theorem cons_iff (element : α) (rest : List α) (result : β) :
    FirstOf holds (element :: rest) result ↔
      holds element result ∨ (∀ result', ¬ holds element result') ∧ FirstOf holds rest result := by
  constructor
  · rintro ⟨before, first, after, hsplit, hbefore, hfirst⟩
    cases before with
    | nil =>
      obtain ⟨rfl, -⟩ : element = first ∧ rest = after := by simpa using hsplit
      exact .inl hfirst
    | cons other before =>
      obtain ⟨rfl, rfl⟩ : element = other ∧ rest = before ++ first :: after := by
        simpa using hsplit
      rw [List.forall_mem_cons] at hbefore
      exact .inr ⟨hbefore.1, before, first, after, rfl, hbefore.2, hfirst⟩
  · rintro (h | ⟨hnot, before, first, after, rfl, hbefore, hfirst⟩)
    · exact ⟨[], element, rest, rfl, by simp, h⟩
    · exact ⟨element :: before, first, after, rfl, List.forall_mem_cons.2 ⟨hnot, hbefore⟩, hfirst⟩

/-- There is a first one if there is one at all. -/
theorem exists_iff (list : List α) :
    (∃ result, FirstOf holds list result) ↔ ∃ element ∈ list, ∃ result, holds element result := by
  induction list with
  | nil => simp [not_nil]
  | cons element rest ih =>
    by_cases h : ∃ result, holds element result
    · obtain ⟨result, hresult⟩ := h
      exact ⟨fun _ => ⟨element, by simp, result, hresult⟩,
        fun _ => ⟨result, (cons_iff _ _ _).2 (.inl hresult)⟩⟩
    · have hnot : ∀ result, ¬ holds element result := not_exists.1 h
      simp [cons_iff, hnot, ih]

/-- There is no first one if there is none at all. -/
theorem forall_not_iff (list : List α) :
    (∀ result, ¬ FirstOf holds list result) ↔
      ∀ element ∈ list, ∀ result, ¬ holds element result := by
  rw [← not_exists, exists_iff]
  simp only [not_exists, not_and]

/-- The first one in two lists stands in the first list, or in the second if there is none in the
first. -/
theorem append_iff (list list' : List α) (result : β) :
    FirstOf holds (list ++ list') result ↔
      FirstOf holds list result ∨
        (∀ element ∈ list, ∀ result', ¬ holds element result') ∧ FirstOf holds list' result := by
  induction list with
  | nil => simp [not_nil]
  | cons element rest ih =>
    rw [List.cons_append, cons_iff, cons_iff, ih, List.forall_mem_cons, and_or_left, or_assoc,
      and_assoc]

/-- Only the elements of the list count. -/
theorem congr {holds' : α → β → Prop} {list : List α}
    (h : ∀ element ∈ list, ∀ result, holds element result ↔ holds' element result) (result : β) :
    FirstOf holds list result ↔ FirstOf holds' list result := by
  induction list with
  | nil => simp [not_nil]
  | cons element rest ih =>
    rw [List.forall_mem_cons] at h
    rw [cons_iff, cons_iff, ih h.2]
    simp only [h.1]

end FirstOf

/-! ## Steps and traversals that fail -/

/-- A traversal fails with what the first failing element fails with. -/
theorem mapM_eq_error_iff {ε α β : Type} (f : α → Except ε β) (list : List α) (error : ε) :
    list.mapM f = .error error ↔ FirstOf (fun a e => f a = .error e) list error := by
  induction list with
  | nil => simp [FirstOf.not_nil, pure, Except.pure]
  | cons a rest ih =>
    rw [List.mapM_cons, FirstOf.cons_iff, ← ih]
    cases ha : f a with
    | error e => simp [bind, Except.bind]
    | ok b =>
      cases hrest : rest.mapM f with
      | error e => simp [bind, Except.bind]
      | ok bs => simp [bind, Except.bind, pure, Except.pure]

/-- Two steps succeed if the first one does, and the second one with its result. -/
theorem exists_of_bind_eq_ok {ε α β : Type} {x : Except ε α} {f : α → Except ε β} {b : β}
    (h : x >>= f = .ok b) : ∃ a, x = .ok a ∧ f a = .ok b := by
  cases x with
  | error e => cases h
  | ok a => exact ⟨a, rfl, h⟩

/-- Two steps fail if the first one does, or the second one with its result. -/
theorem bind_eq_error_iff {ε α β : Type} {x : Except ε α} {f : α → Except ε β} {error : ε} :
    x >>= f = .error error ↔ x = .error error ∨ ∃ a, x = .ok a ∧ f a = .error error := by
  cases x <;> simp [bind, Except.bind]

/-- Where the second step only puts the result together, it is the first one that fails. -/
theorem bind_pure_eq_error_iff {ε α β : Type} (x : Except ε α) (f : α → β) {error : ε} :
    (x >>= fun a => pure (f a)) = .error error ↔ x = .error error := by
  cases x <;> simp [bind, Except.bind, pure, Except.pure]

/-- A change of the result keeps the error. -/
theorem map_eq_error_iff {ε α β : Type} {x : Except ε α} {f : α → β} {error : ε} :
    x.map f = .error error ↔ x = .error error := by
  cases x <;> simp [Except.map]

/-- A change of the error keeps its cause. -/
theorem mapError_eq_error_iff {ε ε' α : Type} {x : Except ε α} {f : ε → ε'} {error : ε'} :
    x.mapError f = .error error ↔ ∃ cause, x = .error cause ∧ error = f cause := by
  cases x with
  | error cause =>
    show Except.error (f cause) = Except.error error ↔ _
    simp [eq_comm]
  | ok a =>
    show Except.ok a = Except.error error ↔ _
    simp

/-- What follows a success goes on with its result. -/
theorem bind_eq_of_eq_ok {ε α β : Type} {x : Except ε α} {a : α} (h : x = .ok a)
    {f : α → Except ε β} : x >>= f = f a := by
  rw [h]
  rfl

/-- A traversal that makes something of every result makes it of the list of results. -/
theorem mapM_eq_map_mapM {ε α β γ : Type} {f : α → Except ε β} {g : α → Except ε γ} {h : β → γ}
    (heq : ∀ a, g a = (f a).map h) (list : List α) :
    list.mapM g = (list.mapM f).map (List.map h) := by
  induction list with
  | nil => rfl
  | cons a rest ih =>
    rw [List.mapM_cons, List.mapM_cons, heq, ih]
    cases f a with
    | error e => rfl
    | ok b => cases rest.mapM f <;> rfl

/-- A traversal succeeds with the results of the elements, in their order. -/
theorem mapM_eq_ok_iff {ε α β : Type} {f : α → Except ε β} {as : List α} {bs : List β} :
    as.mapM f = .ok bs ↔ as.map f = bs.map .ok := by
  induction as generalizing bs with
  | nil => cases bs <;> simp [pure, Except.pure]
  | cons a rest ih =>
    rw [List.mapM_cons, List.map_cons]
    cases ha : f a with
    | error e => cases bs <;> simp [bind, Except.bind]
    | ok b =>
      cases bs with
      | nil => cases hrest : rest.mapM f <;> simp [bind, Except.bind, pure, Except.pure]
      | cons b' bs =>
        rw [List.map_cons, List.cons.injEq, ← ih]
        cases hrest : rest.mapM f <;> simp [bind, Except.bind, pure, Except.pure]

/-- Every result of a traversal comes from one of the elements. -/
theorem exists_of_mem_mapM {ε α β : Type} {f : α → Except ε β} {as : List α} {bs : List β}
    (h : as.mapM f = .ok bs) {b : β} (hb : b ∈ bs) : ∃ a ∈ as, f a = .ok b := by
  rw [mapM_eq_ok_iff] at h
  have hmem : .ok b ∈ as.map f := h ▸ List.mem_map_of_mem hb
  exact List.mem_map.1 hmem

/-- Every element of a list has its result in a traversal. -/
theorem exists_mem_of_mapM {ε α β : Type} {f : α → Except ε β} {as : List α} {bs : List β}
    (h : as.mapM f = .ok bs) {a : α} (ha : a ∈ as) : ∃ b ∈ bs, f a = .ok b := by
  rw [mapM_eq_ok_iff] at h
  have hmem : f a ∈ bs.map .ok := h ▸ List.mem_map_of_mem ha
  obtain ⟨b, hb, heq⟩ := List.mem_map.1 hmem
  exact ⟨b, hb, heq.symm⟩

/-- What is read off the results of a traversal can be read off its elements, if it can for each of
them. -/
theorem map_eq_of_mapM {ε α β γ : Type} {f : α → Except ε β} {as : List α} {bs : List β}
    (h : as.mapM f = .ok bs) {read : β → γ} {read' : α → γ}
    (hread : ∀ a ∈ as, ∀ b, f a = .ok b → read b = read' a) : bs.map read = as.map read' := by
  rw [mapM_eq_ok_iff] at h
  induction as generalizing bs with
  | nil =>
    rw [List.map_nil, eq_comm, List.map_eq_nil_iff] at h
    rw [h, List.map_nil, List.map_nil]
  | cons a rest ih =>
    cases bs with
    | nil => cases h
    | cons b bs =>
      obtain ⟨hfirst, hrest⟩ := List.cons.inj h
      rw [List.forall_mem_cons] at hread
      rw [List.map_cons, List.map_cons, hread.1 b hfirst, ih hrest hread.2]

/-- What does not fail succeeds. -/
theorem exists_ok_iff {ε α : Type} (x : Except ε α) :
    (∃ a, x = .ok a) ↔ ∀ error, x ≠ .error error := by
  cases x <;> simp

/-- Whether a computation succeeds with a certain result is decided by its result. -/
instance decidableExistsOk {ε α : Type} (x : Except ε α) (p : α → Prop) [DecidablePred p] :
    Decidable (∃ a, x = .ok a ∧ p a) :=
  match x with
  | .ok a => decidable_of_iff (p a) ⟨fun h => ⟨a, rfl, h⟩, fun ⟨_, ha, h⟩ => Except.ok.inj ha ▸ h⟩
  | .error _ => .isFalse fun ⟨_, ha, _⟩ => nomatch ha

end GraphClient
