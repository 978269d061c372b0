import GraphClient.Package.SelectTypes
import GraphClient.Proofs.Document.Literal
import GraphClient.Proofs.Projection.Faithful

/-!
# Levels of the strict check

The bound on the levels of a selection is written down twice. The check of configured selections
counts the levels from one and stops beyond the bound. The types of a client count down: from the
bound on, a tuple of depths is indexed by one depth to get the next one, until that is `never`. The
count goes down to zero, which is a depth like the others, so the types check one level more.

* `TypeExpr.Descends` : the levels that are checked by counting down in a tuple.
* `SelectTypes.descends_depthEntries_iff` : how many there are in the tuple of depths.
* `Selection.checksLevel_iff` : the levels of accepted selections.
* `SelectTypes.levels_differ` : both counts for every bound.
-/

namespace GraphClient

open TypeScript

/-! ## Counting down in a tuple -/

namespace TypeScript

/-- An index picks an element of a tuple type. A position goes by its numeral. -/
inductive TypeExpr.Picks : TypeExpr → TypeExpr → TypeExpr → Prop
  | intro {members : List TypeExpr} {position : Nat} {element : TypeExpr}
      (h : members[position]? = some element) :
      Picks (.tuple members) (.named (toString position)) element

/-- The number of levels that are checked from a depth on, where a tuple holds the depth below a
depth: none at the depth `never`, and otherwise one more than from the depth below. -/
inductive TypeExpr.Descends (tuple : TypeExpr) : TypeExpr → Nat → Prop
  | never : Descends tuple (.named "never") 0
  | level {depth next : TypeExpr} {count : Nat} (live : depth ≠ .named "never")
      (picks : Picks tuple depth next) (below : Descends tuple next count) :
      Descends tuple depth (count + 1)

/-- The type that an alias stands for. -/
def Declaration.definition? (declaration : Declaration) : Option TypeExpr :=
  match declaration.body with
  | .typeAlias definition => some definition
  | .interface _ _ => none

/-- The default of a type parameter. -/
def Declaration.default? (declaration : Declaration) (parameter : String) : Option TypeExpr :=
  (declaration.parameters.find? (·.name == parameter)).bind (·.default)

/-- The first declaration of a name in a file. -/
def SourceFile.declaration? (file : SourceFile) (name : String) : Option Declaration :=
  file.items.findSome? fun item =>
    match item with
    | .declaration _ declaration => if declaration.name = name then some declaration else none
    | _ => none

/-- The number of levels that the types of a file check: the count goes down in the tuple of depths,
from the default of the depth on. -/
def SourceFile.StrictLevels (file : SourceFile) (count : Nat) : Prop :=
  ∃ tuple depth,
    (file.declaration? "StrictDepth").bind (·.definition?) = some tuple ∧
      (file.declaration? "StrictSelect").bind (·.default? "TDepth") = some depth ∧
      TypeExpr.Descends tuple depth count

/-- A number picks the element at its place from a tuple. -/
theorem TypeExpr.picks_iff {members : List TypeExpr} {position : Nat} {element : TypeExpr} :
    Picks (.tuple members) (.named (toString position)) element ↔
      members[position]? = some element := by
  constructor
  · generalize hindex : TypeExpr.named (toString position) = index
    rintro ⟨h⟩
    have hdigits := congrArg String.toList (TypeExpr.named.inj hindex)
    rw [Nat.toString_eq_repr, Nat.toString_eq_repr, Nat.toList_repr, Nat.toList_repr] at hdigits
    rwa [Literal.toDigits_injective hdigits]
  · exact .intro

/-- Where the depth is used up, no further level is checked. -/
theorem TypeExpr.descends_never_iff {tuple : TypeExpr} {count : Nat} :
    Descends tuple (.named "never") count ↔ count = 0 := by
  constructor
  · rintro (_ | ⟨live, -, -⟩)
    · rfl
    · exact absurd rfl live
  · rintro rfl
    exact .never

/-- At a numeral the count goes on with the depth below it. -/
theorem TypeExpr.descends_numeral_iff {members : List TypeExpr} {position count : Nat}
    {next : TypeExpr} (h : members[position]? = some next) :
    Descends (.tuple members) (.named (toString position)) count ↔
      ∃ below, count = below + 1 ∧ Descends (.tuple members) next below := by
  have hlive : TypeExpr.named (toString position) ≠ .named "never" := by
    intro heq
    have hletter : 'n' ∈ Nat.toDigits 10 position := by
      rw [← Nat.toList_repr]
      show 'n' ∈ (toString position).toList
      rw [TypeExpr.named.inj heq]
      decide
    exact absurd (Nat.isDigit_of_mem_toDigits (by decide) (by decide) hletter) (by decide)
  constructor
  · generalize hdepth : TypeExpr.named (toString position) = depth at hlive
    rintro (_ | ⟨-, picks, below⟩)
    · exact absurd rfl hlive
    · subst hdepth
      obtain rfl := Option.some.inj (h.symm.trans (picks_iff.1 picks))
      exact ⟨_, rfl, below⟩
  · rintro ⟨below, rfl, hbelow⟩
    exact .level hlive (.intro h) hbelow

end TypeScript

namespace SelectTypes

/-- The entry of a depth is the depth below it. -/
theorem getElem?_depthEntries_succ {maxDepth depth : Nat} (h : depth < maxDepth) :
    (depthEntries maxDepth)[depth + 1]? = some (.named (toString depth)) := by
  simp [depthEntries, named, h]

/-- From a depth on there are as many levels as depths down to zero. By induction on the depth,
which is an index of the tuple all the way down. -/
theorem descends_depthEntries_iff {maxDepth depth : Nat} (h : depth ≤ maxDepth) (count : Nat) :
    TypeExpr.Descends (.tuple (depthEntries maxDepth)) (.named (toString depth)) count ↔
      count = depth + 1 := by
  induction depth generalizing count with
  | zero =>
    have hnever : (depthEntries maxDepth)[0]? = some (.named "never") := rfl
    rw [TypeExpr.descends_numeral_iff hnever]
    simp only [TypeExpr.descends_never_iff, exists_eq_right]
  | succ depth ih =>
    rw [TypeExpr.descends_numeral_iff (getElem?_depthEntries_succ h)]
    simp only [ih (Nat.le_of_succ_le h), exists_eq_right]

/-- The types check one level more than the bound says. -/
theorem strictLevels_file_iff (blueprint : Blueprint) (count : Nat) :
    (file blueprint).StrictLevels count ↔
      count = blueprint.settings.selection.strictDepth + 1 := by
  generalize hbound : blueprint.settings.selection.strictDepth = maxDepth
  have htuple : ((file blueprint).declaration? "StrictDepth").bind (·.definition?) =
      some (.tuple (depthEntries maxDepth)) := by
    subst hbound
    rfl
  have hdepth : ((file blueprint).declaration? "StrictSelect").bind (·.default? "TDepth") =
      some (.named (toString maxDepth)) := by
    subst hbound
    rfl
  unfold SourceFile.StrictLevels
  rw [htuple, hdepth, ← descends_depthEntries_iff (Nat.le_refl maxDepth) count]
  simp

end SelectTypes

/-! ## Levels of configured selections -/

namespace Selection

/-- A level is accepted and checked under a bound: it is a level of an accepted selection, where the
root is the first one and each key on the way down leads one level further to a known shape. -/
def ChecksLevel (bound level : Nat) : Prop :=
  ∃ (catalog : Catalog) (shape : Shape) (selection : Selection) (keys : List String),
    selection.check catalog bound shape = .ok () ∧
      (Choices.levelAt? catalog shape selection.choices keys).isSome = true ∧
      level = keys.length + 1

/-- The number of levels that are accepted and checked under a bound. -/
def ChecksLevels (bound count : Nat) : Prop :=
  ∀ level, ChecksLevel bound level ↔ 1 ≤ level ∧ level ≤ count

/-- A shape that leads to itself. -/
def chainShape : Shape where
  name := "Link"
  fields := Keyed.ofList
    [("id", .ofWire .leaf (.scalar "ID")),
      ("next", .ofWire (.object "Link" false) (.object "Link"))]
  keyNames := []

/-- The shape that leads to itself, and no other one. -/
def chainCatalog : Catalog := ⟨Keyed.ofList [("Link", chainShape)]⟩

/-- The choices that go down some levels and want the leaf there. -/
def chainChoices : Nat → Choices
  | 0 => [("id", .wanted)]
  | count + 1 => [("next", .nested (chainChoices count) {})]

/-- The choices of the chain are distinct at every level. -/
theorem distinct_chainChoices (count : Nat) : Choices.Distinct (chainChoices count) := by
  induction count with
  | zero => exact ⟨List.not_mem_nil, trivial, trivial⟩
  | succ count ih => exact ⟨List.not_mem_nil, ih, trivial⟩

/-- Going down some levels is legal if the bound allows them. -/
theorem legal_chainChoices {bound depth count : Nat} (h : depth + count ≤ bound) :
    Choices.Legal chainCatalog bound chainShape depth (chainChoices count) := by
  induction count generalizing depth with
  | zero =>
    refine .intro h ?_ ⟨_, List.mem_cons_self, rfl⟩
    intro p hp
    obtain rfl := List.mem_singleton.1 hp
    exact .wanted rfl rfl
  | succ count ih =>
    refine .intro (by omega) ?_ ⟨_, List.mem_cons_self, rfl⟩
    intro p hp
    obtain rfl := List.mem_singleton.1 hp
    exact .nested rfl rfl rfl (ih (by omega))

/-- The chain has as many levels as it was made with. -/
theorem isSome_levelAt?_chainChoices (count : Nat) :
    (Choices.levelAt? chainCatalog chainShape (chainChoices count)
      (List.replicate count "next")).isSome = true := by
  induction count with
  | zero => rfl
  | succ count ih => exact ih

/-- Under a bound, just the levels up to the bound are accepted and checked. -/
theorem checksLevel_iff (bound level : Nat) :
    ChecksLevel bound level ↔ 1 ≤ level ∧ level ≤ bound := by
  constructor
  · rintro ⟨catalog, shape, selection, keys, haccepted, hlevel, rfl⟩
    obtain ⟨found, hfound⟩ := Option.isSome_iff_exists.1 hlevel
    have hlegal := (check_eq_ok_iff.1 haccepted).at selection.distinct hfound
    have hdepth := hlegal.depth_le
    omega
  · rintro ⟨hpositive, hle⟩
    obtain ⟨count, rfl⟩ : ∃ count, level = count + 1 := ⟨level - 1, by omega⟩
    refine ⟨chainCatalog, chainShape, ⟨chainChoices count, distinct_chainChoices count⟩,
      List.replicate count "next", ?_, isSome_levelAt?_chainChoices count, ?_⟩
    · exact check_eq_ok_iff.2 (legal_chainChoices (by omega))
    · rw [List.length_replicate]

/-- The check of configured selections covers as many levels as the bound says. -/
theorem checksLevels_iff (bound count : Nat) : ChecksLevels bound count ↔ count = bound := by
  constructor
  · intro h
    -- The last level of either count is one of the other.
    have hcount := (h count).symm.trans (checksLevel_iff bound count)
    have hbound := (h bound).symm.trans (checksLevel_iff bound bound)
    omega
  · rintro rfl
    exact checksLevel_iff count

end Selection

/-- For every bound, the types of the client check one level more than the bound, and the check of
configured selections covers just as many levels as the bound. So there is no bound for which both
check the same number of levels. -/
theorem SelectTypes.levels_differ (blueprint : Blueprint) :
    (∀ count, (SelectTypes.file blueprint).StrictLevels count ↔
      count = blueprint.settings.selection.strictDepth + 1) ∧
    (∀ count, Selection.ChecksLevels blueprint.settings.selection.strictDepth count ↔
      count = blueprint.settings.selection.strictDepth) ∧
    ¬ ∃ count, (SelectTypes.file blueprint).StrictLevels count ∧
      Selection.ChecksLevels blueprint.settings.selection.strictDepth count := by
  refine ⟨SelectTypes.strictLevels_file_iff blueprint, Selection.checksLevels_iff _, ?_⟩
  rintro ⟨count, htypes, hcheck⟩
  rw [SelectTypes.strictLevels_file_iff] at htypes
  rw [Selection.checksLevels_iff] at hcheck
  omega

namespace Sample

/-- A client whose selections have one level. -/
def flatBlueprint : Blueprint := .of {} { selection := { strictDepth := 1 } }

/-- The types check two levels of the selections that may have one. -/
theorem flat_types_check_two : (SelectTypes.file flatBlueprint).StrictLevels 2 ∧
    ¬ (SelectTypes.file flatBlueprint).StrictLevels 1 ∧
    Selection.ChecksLevels flatBlueprint.settings.selection.strictDepth 1 := by
  have hbound : flatBlueprint.settings.selection.strictDepth = 1 := rfl
  rw [SelectTypes.strictLevels_file_iff, SelectTypes.strictLevels_file_iff,
    Selection.checksLevels_iff, hbound]
  decide

end Sample

end GraphClient
