import Mathlib.Data.List.Basic

/-!
# Joined lists

Lists that are joined by a separator: the first list, and then each further one after a separator.
-/

namespace GraphClient

theorem intercalate_cons_eq {α : Type} (separator first : List α) (rest : List (List α)) :
    separator.intercalate (first :: rest) = first ++ rest.flatMap (separator ++ ·) := by
  induction rest generalizing first with
  | nil => rw [List.intercalate_singleton, List.flatMap_nil, List.append_nil]
  | cons second rest ih =>
    rw [List.intercalate_cons_cons, ih second, List.flatMap_cons]
    simp only [List.append_assoc]

theorem flatMap_intercalate {α β : Type} (f : α → List β) (separator : List α)
    (lists : List (List α)) :
    (separator.intercalate lists).flatMap f =
      (separator.flatMap f).intercalate (lists.map (·.flatMap f)) := by
  cases lists with
  | nil => rfl
  | cons first rest =>
    rw [intercalate_cons_eq, List.map_cons, intercalate_cons_eq, List.flatMap_append,
      List.flatMap_assoc, List.flatMap_map]
    simp only [List.flatMap_append]

/-- Nothing stands between lists that are joined by the empty list. -/
theorem intercalate_nil_left {α : Type} (lists : List (List α)) :
    ([] : List α).intercalate lists = lists.flatten := by
  cases lists with
  | nil => rfl
  | cons first rest =>
    rw [intercalate_cons_eq, List.flatten_cons]
    simp only [List.nil_append, List.flatMap_id']

/-- What stands around one of some joined lists does not depend on it. -/
theorem exists_intercalate_append {α : Type} (separator : List α) (before after : List (List α)) :
    ∃ left right, ∀ list,
      separator.intercalate (before ++ list :: after) = left ++ list ++ right := by
  cases before with
  | nil =>
    refine ⟨[], after.flatMap (separator ++ ·), fun list => ?_⟩
    rw [List.nil_append, intercalate_cons_eq, List.nil_append]
  | cons first before =>
    refine ⟨first ++ before.flatMap (separator ++ ·) ++ separator, after.flatMap (separator ++ ·),
      fun list => ?_⟩
    rw [List.cons_append, intercalate_cons_eq, List.flatMap_append, List.flatMap_cons]
    simp only [List.append_assoc]

end GraphClient
