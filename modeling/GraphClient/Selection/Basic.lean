import GraphClient.Json.Basic

/-!
# Selections

A selection is the sparse tree of the fields that a caller wants back. A key is wanted, excluded, or
carries a selection of its own, with arguments for the page of rows it is applied to. On every level
a key occurs once, and the keys keep their order.

* `Choice`, `Choices` : the tree; `Choices.Distinct` says that keys are distinct on every level.
* `Selection` : a tree with that property, its operations, and `Selection.ofChoices`, which merges
  repeated keys of an arbitrary tree.
-/

namespace GraphClient

/-- The arguments for the page of rows of a nested selection. -/
structure PageArguments where
  first : Option Nat := none
  filter : Option Json := none
  orderBy : Option (List String) := none
deriving Repr, Inhabited

/-- Whether there is no argument. -/
def PageArguments.isEmpty (arguments : PageArguments) : Bool :=
  arguments.first.isNone && arguments.filter.isNone && arguments.orderBy.isNone

/-- What a selection says about a key. -/
inductive Choice where
  /-- The field itself is wanted. -/
  | wanted
  /-- The field is not wanted; the key is written down only to say so. -/
  | excluded
  /-- Some fields of the related entity are wanted. -/
  | nested (choices : List (String × Choice)) (arguments : PageArguments)
deriving Repr, Inhabited

/-- The keys of one level with what is said about them. -/
abbrev Choices := Entries Choice

/-- Whether a key is excluded. -/
def Choice.isExcluded : Choice → Bool
  | .excluded => true
  | _ => false

mutual

/-- Keys are distinct on every level inside. -/
def Choice.Distinct : Choice → Prop
  | .wanted => True
  | .excluded => True
  | .nested choices _ => Choices.Distinct choices

/-- Keys are distinct on this level and on every level inside. -/
def Choices.Distinct : List (String × Choice) → Prop
  | [] => True
  | (key, choice) :: rest => key ∉ Entries.keys rest ∧ choice.Distinct ∧ Choices.Distinct rest

end

namespace Choices

/-- The keys that are not excluded, with what is said about them. -/
def chosen (choices : Choices) : Choices := choices.filter fun p => !p.2.isExcluded

/-- Whether every key is excluded. -/
def isBare (choices : Choices) : Bool := choices.all fun p => p.2.isExcluded

/-- A selection is bare exactly if it chooses nothing. -/
theorem isBare_iff (choices : Choices) : isBare choices = true ↔ chosen choices = [] := by
  simp [isBare, chosen, List.filter_eq_nil_iff]

/-- Distinctness is that of the keys of this level together with that of every choice. -/
theorem distinct_iff (choices : Choices) :
    Distinct choices ↔ (Entries.keys choices).Nodup ∧ ∀ p ∈ choices, p.2.Distinct := by
  induction choices with
  | nil => simp [Distinct]
  | cons p rest ih =>
    obtain ⟨key, choice⟩ := p
    simp only [Distinct, ih, Entries.keys_cons, List.nodup_cons, List.forall_mem_cons]
    exact ⟨fun ⟨a, b, c, d⟩ => ⟨⟨a, c⟩, b, d⟩, fun ⟨⟨a, c⟩, b, d⟩ => ⟨a, b, c, d⟩⟩

theorem mem_insert {choices : Choices} {key : String} {choice : Choice} {p : String × Choice}
    (h : p ∈ Entries.insert choices key choice) : p.2 = choice ∨ p ∈ choices := by
  induction choices with
  | nil => simp only [Entries.insert, List.mem_singleton] at h; simp [h]
  | cons q rest ih =>
    obtain ⟨k, c⟩ := q
    unfold Entries.insert at h
    split at h
    · rcases List.mem_cons.1 h with rfl | h <;> simp [*]
    · rcases List.mem_cons.1 h with rfl | h
      · simp
      · rcases ih h with h | h <;> simp [h]

/-- To insert a distinct choice keeps the choices distinct. -/
theorem distinct_insert {choices : Choices} {choice : Choice} (h : Distinct choices)
    (hc : choice.Distinct) (key : String) : Distinct (Entries.insert choices key choice) := by
  rw [distinct_iff] at h ⊢
  refine ⟨Entries.nodup_keys_insert h.1 key choice, fun p hp => ?_⟩
  rcases mem_insert hp with hp | hp
  · exact hp ▸ hc
  · exact h.2 p hp

/-- To insert distinct choices keeps the choices distinct. -/
theorem distinct_foldl {pairs : List (String × Choice)} (hp : ∀ p ∈ pairs, p.2.Distinct) :
    ∀ choices : Choices, Distinct choices →
      Distinct (pairs.foldl (fun choices p => Entries.insert choices p.1 p.2) choices) := by
  induction pairs with
  | nil => exact fun _ h => h
  | cons p rest ih =>
    intro choices h
    exact ih (fun q hq => hp q (List.mem_cons_of_mem _ hq)) _
      (distinct_insert h (hp p List.mem_cons_self) p.1)

theorem distinct_ofList {pairs : List (String × Choice)} (hp : ∀ p ∈ pairs, p.2.Distinct) :
    Distinct (Entries.ofList pairs) := distinct_foldl hp [] trivial

end Choices

mutual

/-- The choice with repeated keys merged on every level. -/
def Choice.merged : Choice → Choice
  | .wanted => .wanted
  | .excluded => .excluded
  | .nested choices arguments => .nested (Entries.ofList (Choices.mergedEach choices)) arguments

/-- The choices of one level, each with repeated keys merged on every level inside. -/
def Choices.mergedEach : List (String × Choice) → List (String × Choice)
  | [] => []
  | (key, choice) :: rest => (key, choice.merged) :: Choices.mergedEach rest

end

mutual

/-- What is merged is distinct, by recursion over the choice. -/
theorem Choice.distinct_merged : ∀ choice : Choice, choice.merged.Distinct
  | .wanted => trivial
  | .excluded => trivial
  | .nested choices _ => Choices.distinct_ofList (Choices.distinct_mergedEach choices)

theorem Choices.distinct_mergedEach :
    ∀ (choices : List (String × Choice)), ∀ p ∈ Choices.mergedEach choices, p.2.Distinct
  | [], _, h => absurd h (by simp [Choices.mergedEach])
  | (key, choice) :: rest, p, h => by
    rcases List.mem_cons.1 (by simpa [Choices.mergedEach] using h) with rfl | h
    · exact choice.distinct_merged
    · exact Choices.distinct_mergedEach rest p h

end

/-- The fields that a caller wants back. -/
structure Selection where
  choices : Choices
  distinct : Choices.Distinct choices

namespace Selection

/-- The selection without keys. -/
def empty : Selection := ⟨[], trivial⟩

instance : Inhabited Selection := ⟨empty⟩

/-- The selection of a tree, in which a repeated key keeps its first place and its last choice. -/
def ofChoices (choices : Choices) : Selection :=
  ⟨Entries.ofList (Choices.mergedEach choices),
    Choices.distinct_ofList (Choices.distinct_mergedEach choices)⟩

/-- What the selection says about a key. -/
def find? (selection : Selection) (key : String) : Option Choice :=
  Entries.find? selection.choices key

/-- All keys, excluded ones too. -/
def keys (selection : Selection) : List String := Entries.keys selection.choices

/-- The keys that are not excluded. -/
def chosenKeys (selection : Selection) : List String :=
  Entries.keys (Choices.chosen selection.choices)

/-- The number of keys. -/
def size (selection : Selection) : Nat := selection.choices.length

/-- Whether every key is excluded. -/
def isBare (selection : Selection) : Bool := Choices.isBare selection.choices

/-- Says something about a key, in place of what was said before. -/
def insert (selection : Selection) (key : String) (choice : Choice) (h : choice.Distinct) :
    Selection :=
  ⟨Entries.insert selection.choices key choice, Choices.distinct_insert selection.distinct h key⟩

/-- Wants a field. -/
def want (selection : Selection) (key : String) : Selection :=
  selection.insert key .wanted trivial

/-- Excludes a field. -/
def exclude (selection : Selection) (key : String) : Selection :=
  selection.insert key .excluded trivial

/-- Wants some fields of the entity that a field leads to. -/
def nest (selection : Selection) (key : String) (inner : Selection)
    (arguments : PageArguments := {}) : Selection :=
  selection.insert key (.nested inner.choices arguments) inner.distinct

/-- The selection that wants every field of a list. -/
def ofFields (names : List String) : Selection := names.foldl want empty

end Selection

end GraphClient
