import GraphClient.Proofs.Schema.WellFormed

/-!
# Fields that may be missing or null

A field of an object that may be missing or null has a value or none. It is read only if no other
field has its key.

* `Entries.Holds` : a field has a value, or none.
* `Entries.exists_holds_iff`, `Entries.optional_toText_eq_ok_iff` : what the readers of fields find.
-/

namespace GraphClient

namespace Entries

/-- The only field with a key has a value other than null; there is none if the field is missing or
null. -/
inductive Holds (fields : Entries Json) (key : String) : Option Json → Prop
  | missing (only : fields.filter (·.1 == key) = []) : Holds fields key none
  | null (only : fields.filter (·.1 == key) = [(key, .null)]) : Holds fields key none
  | value {value : Json} (only : fields.filter (·.1 == key) = [(key, value)])
      (notNull : value ≠ .null) : Holds fields key (some value)

variable {fields : Entries Json} {key : String}

namespace Holds

theorem string {text : String} (h : fields.filter (·.1 == key) = [(key, .string text)]) :
    fields.Holds key (some (.string text)) :=
  .value h (by simp)

/-- A field holds one value only. -/
theorem unique {a b : Option Json} (ha : fields.Holds key a) (hb : fields.Holds key b) :
    a = b := by
  cases ha <;> cases hb <;> simp_all

/-- What a field holds is stored under its key. -/
theorem mem {value : Json} (h : fields.Holds key (some value)) : (key, value) ∈ fields := by
  cases h with
  | value only =>
    have hmem : (key, value) ∈ fields.filter (·.1 == key) := only ▸ List.mem_cons_self
    exact (List.mem_filter.1 hmem).1

/-- A field with another key in front does not count. -/
theorem of_cons {other : String} (hne : other ≠ key) {json : Json} {found : Option Json}
    (h : Holds ((other, json) :: fields) key found) : fields.Holds key found := by
  have hrest : List.filter (·.1 == key) ((other, json) :: fields) =
      List.filter (·.1 == key) fields := by
    simp [hne]
  cases h with
  | missing only => exact .missing (hrest ▸ only)
  | null only => exact .null (hrest ▸ only)
  | value only notNull => exact .value (hrest ▸ only) notNull

end Holds

/-- At most one field has the key, and it is the one that is found. -/
theorem only?_eq_ok_iff {found : Option Json} : fields.only? [key] = .ok found ↔
    fields.filter (·.1 == key) = found.toList.map fun value => (key, value) := by
  have hkeys : ∀ p ∈ fields.filter (·.1 == key), p.1 = key := by
    intro p hp
    exact eq_of_beq (List.mem_filter.1 hp).2
  have hfilter : (fields.filter fun p => [key].contains p.1) = fields.filter (·.1 == key) := by
    congr 1
    funext p
    rw [Bool.eq_iff_iff]
    simp
  rw [only?, hfilter]
  -- Only the number of fields with the key decides: none, one, or too many.
  generalize fields.filter (·.1 == key) = same at hkeys ⊢
  match same with
  | [] => cases found <;> simp
  | [(k, value)] =>
    obtain rfl : k = key := hkeys _ List.mem_cons_self
    cases found <;> simp [eq_comm]
  | first :: second :: rest => cases found <;> simp

/-- A field has a value or none exactly if no other field has its key. -/
theorem exists_holds_iff :
    (∃ value, fields.Holds key value) ↔ ∃ found, fields.only? [key] = .ok found := by
  simp only [only?_eq_ok_iff]
  constructor
  · rintro ⟨value, h⟩
    cases h with
    | missing only => exact ⟨none, only⟩
    | null only => exact ⟨some .null, only⟩
    | value only _ => exact ⟨some _, only⟩
  · rintro ⟨found, h⟩
    cases found with
    | none => exact ⟨none, .missing h⟩
    | some value =>
      by_cases hnull : value = .null
      · subst hnull
        exact ⟨none, .null h⟩
      · exact ⟨some value, .value h hnull⟩

/-- A field that may be missing is read from the only one of its key. -/
theorem optional_of_only? {α : Type} {found : Option Json} (h : fields.only? [key] = .ok found)
    (inner : Json → Json.Decoded α) :
    fields.optional key inner = found.elim (.ok none) (Json.toOption inner) := by
  rw [optional, defaulted, h]
  cases found <;> rfl

/-- A text is read from a field, or none, exactly if the field has it. -/
theorem optional_toText_eq_ok_iff {text : Option String} :
    fields.optional key Json.toText = .ok text ↔ fields.Holds key (text.map .string) := by
  constructor
  · intro h
    obtain ⟨found, hfound, -⟩ := exists_of_bind_eq_ok h
    rw [optional_of_only? hfound] at h
    rw [only?_eq_ok_iff] at hfound
    -- Apart from texts, nothing but null is taken for a value.
    match found with
    | none =>
      obtain rfl := Except.ok.inj h
      exact .missing hfound
    | some .null =>
      obtain rfl := Except.ok.inj h
      exact .null hfound
    | some (.string value) =>
      obtain rfl := Except.ok.inj h
      exact .string hfound
    | some (.bool _) | some (.int _) | some (.float _) | some (.array _) | some (.object _) =>
      cases h
  · intro h
    cases text with
    | none =>
      cases h with
      | missing only =>
        have hfound : fields.only? [key] = .ok none := only?_eq_ok_iff.2 only
        rw [optional_of_only? hfound]
        rfl
      | null only =>
        have hfound : fields.only? [key] = .ok (some .null) := only?_eq_ok_iff.2 only
        rw [optional_of_only? hfound]
        rfl
    | some text =>
      cases h with
      | value only _ =>
        have hfound : fields.only? [key] = .ok (some (.string text)) := only?_eq_ok_iff.2 only
        rw [optional_of_only? hfound]
        rfl

end Entries

end GraphClient
