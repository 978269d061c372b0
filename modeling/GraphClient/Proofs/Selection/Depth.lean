import GraphClient.Proofs.Selection.Verdict
import Mathlib.Order.Nat

/-!
# The depth of selections

The strict check allows a bounded number of levels. The bound is a threshold: below it a selection
is reported to be too deep, and from there on the verdict is the same for every bound. A level that
is too deep ends the traversal of the check, so what is found before it, in the order of the
traversal, does not depend on the bound, and nothing is too deep once the bound is the depth of the
selection.

* `Selection.depth` : the number of levels of a selection.
* `Choices.Legal.mono`, `Choices.FirstViolation.mono` : what the rules say for one bound, they say
  for a larger one.
* `Choices.FirstViolation.lt_of_tooDeep` : only a selection with more levels is too deep.
* `Selection.check_threshold` : how the verdict depends on the bound.
-/

namespace GraphClient

mutual

/-- The number of levels that a choice adds below the level of its key. -/
def Choice.levels : Choice → Nat
  | .wanted => 0
  | .excluded => 0
  | .nested choices _ => Choices.levelsBelow choices + 1

/-- The number of levels below some keys of one level. -/
def Choices.levelsBelow : List (String × Choice) → Nat
  | [] => 0
  | (_, choice) :: rest => max choice.levels (Choices.levelsBelow rest)

end

/-- The number of levels of a selection: one, if no key carries a nested selection. -/
def Selection.depth (selection : Selection) : Nat := Choices.levelsBelow selection.choices + 1

/-- Every key adds at most the levels that there are below the level. -/
theorem Choices.levels_le_of_mem {choices : Choices} {key : String} {choice : Choice}
    (h : (key, choice) ∈ choices) : choice.levels ≤ levelsBelow choices := by
  induction choices with
  | nil => cases h
  | cons p rest ih =>
    rw [levelsBelow]
    rcases List.mem_cons.1 h with rfl | h
    · exact Nat.le_max_left _ _
    · exact (ih h).trans (Nat.le_max_right _ _)

variable {catalog : Catalog} {bound bound' : Nat}

/-! ## Larger bounds -/

mutual

/-- What is legal for a bound is legal for a larger one. -/
theorem Choices.Legal.mono (hle : bound ≤ bound') {shape : Shape} {depth : Nat}
    {choices : Choices} :
    Choices.Legal catalog bound shape depth choices →
      Choices.Legal catalog bound' shape depth choices
  | .intro depth_le fits chosen =>
    .intro (depth_le.trans hle) (fun p hp => (fits p hp).mono hle) chosen

theorem Choice.Fits.mono (hle : bound ≤ bound') {shape : Shape} {depth : Nat} {key : String}
    {choice : Choice} :
    Choice.Fits catalog bound shape depth key choice →
      Choice.Fits catalog bound' shape depth key choice
  | .excluded isField => .excluded isField
  | .wanted isField isLeaf => .wanted isField isLeaf
  | .missing isField isRelation free => .missing isField isRelation free
  | .nested isField isRelation found legal => .nested isField isRelation found (legal.mono hle)

end

/-- Whether a violation is that of the bound. -/
def Violation.isTooDeep : Violation → Bool
  | .tooDeep _ _ => true
  | .unknownField _ _ _ | .bareRelation _ _ | .nestedLeaf _ _ | .nothingSelected _ => false

mutual

/-- A first violation that is not that of the bound is the first one for a larger bound: everything
before it fits then as well. -/
theorem Choices.FirstViolation.mono (hle : bound ≤ bound') {shape : Shape} {path : List String}
    {depth : Nat} {choices : Choices} {violation : Violation}
    (other : violation.isTooDeep = false) :
    Choices.FirstViolation catalog bound shape path depth choices violation →
      Choices.FirstViolation catalog bound' shape path depth choices violation
  | .tooDeep _ => absurd other.symm Bool.false_ne_true
  | .key depth_le fits first =>
    .key (depth_le.trans hle) (fun p hp => (fits p hp).mono hle) (first.mono hle other)
  | .nothingSelected depth_le fits bare =>
    .nothingSelected (depth_le.trans hle) (fun p hp => (fits p hp).mono hle) bare

/-- A larger bound leaves every violation but that of the bound where it was. -/
theorem Choice.FirstViolation.mono (hle : bound ≤ bound') {shape : Shape} {path : List String}
    {depth : Nat} {key : String} {choice : Choice} {violation : Violation}
    (other : violation.isTooDeep = false) :
    Choice.FirstViolation catalog bound shape path depth key choice violation →
      Choice.FirstViolation catalog bound' shape path depth key choice violation
  | .unknownField noField => .unknownField noField
  | .bareRelation isField noLeaf => .bareRelation isField noLeaf
  | .nestedLeaf isField isLeaf => .nestedLeaf isField isLeaf
  | .nested isField isRelation found first =>
    .nested isField isRelation found (first.mono hle other)

end

/-! ## Large enough bounds -/

mutual

/-- A level that is too deep is one of those below, so there are more of them than the bound
allows. -/
theorem Choices.FirstViolation.lt_of_tooDeep {shape : Shape} {path : List String} {depth : Nat}
    {choices : Choices} {violation : Violation} (tooDeep : violation.isTooDeep = true) :
    Choices.FirstViolation catalog bound shape path depth choices violation →
      bound < depth + Choices.levelsBelow choices
  | .tooDeep deep => Nat.lt_of_lt_of_le deep (Nat.le_add_right _ _)
  | .key _ _ first => by
    -- The key stands between those that fit and the rest of the level.
    refine (first.lt_of_tooDeep tooDeep).trans_le (Nat.add_le_add_left ?_ depth)
    exact Choices.levels_le_of_mem (List.mem_append_right _ List.mem_cons_self)
  | .nothingSelected _ _ _ => absurd tooDeep Bool.false_ne_true

/-- Where the bound is violated, the choice reaches below it. -/
theorem Choice.FirstViolation.lt_of_tooDeep {shape : Shape} {path : List String} {depth : Nat}
    {key : String} {choice : Choice} {violation : Violation}
    (tooDeep : violation.isTooDeep = true) :
    Choice.FirstViolation catalog bound shape path depth key choice violation →
      bound < depth + choice.levels
  | .unknownField _ => absurd tooDeep Bool.false_ne_true
  | .bareRelation _ _ => absurd tooDeep Bool.false_ne_true
  | .nestedLeaf _ _ => absurd tooDeep Bool.false_ne_true
  | .nested _ _ _ first => by
    have hdeep := first.lt_of_tooDeep tooDeep
    rw [Choice.levels]
    omega

end

/-! ## The threshold -/

namespace Selection

variable {shape : Shape} {selection : Selection}

/-- A verdict about the depth names the bound. -/
theorem eq_tooDeep_of_check {violation : Violation}
    (h : selection.check catalog bound shape = .error violation)
    (tooDeep : violation.isTooDeep = true) : ∃ path, violation = .tooDeep path bound := by
  obtain ⟨keys, innerShape, level, -, -, hmet⟩ :=
    (check_eq_error_iff.1 h).exists_level selection.distinct
  cases violation with
  | tooDeep path cap =>
    obtain ⟨rfl, -⟩ := hmet
    exact ⟨path, rfl⟩
  | _ => cases tooDeep

/-- What is accepted stays accepted if the bound grows. -/
theorem check_ok_of_le (hle : bound ≤ bound') (h : selection.check catalog bound shape = .ok ()) :
    selection.check catalog bound' shape = .ok () :=
  check_eq_ok_iff.2 ((check_eq_ok_iff.1 h).mono hle)

/-- Every verdict that is not about the depth stays if the bound grows. -/
theorem check_eq_of_le (hle : bound ≤ bound')
    (other : ∀ path, selection.check catalog bound shape ≠ .error (.tooDeep path bound)) :
    selection.check catalog bound' shape = selection.check catalog bound shape := by
  cases hcheck : selection.check catalog bound shape with
  | ok u => exact check_ok_of_le hle hcheck
  | error violation =>
    have hother : violation.isTooDeep = false := by
      rw [Bool.eq_false_iff]
      intro tooDeep
      obtain ⟨path, rfl⟩ := eq_tooDeep_of_check hcheck tooDeep
      exact other path hcheck
    exact check_eq_error_iff.2 ((check_eq_error_iff.1 hcheck).mono hle hother)

/-- A bound that is as large as the depth is large enough. -/
theorem check_ne_tooDeep_of_depth_le (hdepth : selection.depth ≤ bound) (path : List String)
    (cap : Nat) : selection.check catalog bound shape ≠ .error (.tooDeep path cap) := by
  intro h
  have hdeep := (check_eq_error_iff.1 h).lt_of_tooDeep rfl
  rw [depth] at hdepth
  omega

/-- There is a first bound for which the verdict is not about the depth. Below it every verdict is,
as it would stay the same otherwise. -/
theorem exists_threshold (catalog : Catalog) (shape : Shape) (selection : Selection) :
    ∃ threshold ≤ selection.depth, ∀ bound,
      (∃ path, selection.check catalog bound shape = .error (.tooDeep path bound)) ↔
        bound < threshold := by
  classical
  have henough : ∀ path, selection.check catalog selection.depth shape ≠
      .error (.tooDeep path selection.depth) :=
    fun path => check_ne_tooDeep_of_depth_le (Nat.le_refl _) path _
  have hexists : ∃ bound, ∀ path,
      selection.check catalog bound shape ≠ .error (.tooDeep path bound) :=
    ⟨selection.depth, henough⟩
  refine ⟨Nat.find hexists, Nat.find_min' hexists henough, fun bound => ?_⟩
  rw [Nat.lt_find_iff]
  constructor
  · rintro ⟨path, hdeep⟩ smaller hle hother
    rw [check_eq_of_le hle hother] at hdeep
    obtain ⟨path', heq⟩ := eq_tooDeep_of_check hdeep rfl
    exact hother path' (heq ▸ hdeep)
  · intro h
    simpa using h bound (Nat.le_refl bound)

/-- How the verdict on a selection depends on the bound of its levels. A verdict that is not about
the depth is the same for all larger bounds: what is accepted stays accepted, and a verdict that
changes was about the depth. For bounds from the depth of the selection on, no verdict is about the
depth. So there is a threshold, at most the depth, below which the selection is too deep. -/
theorem check_threshold (catalog : Catalog) (shape : Shape) (selection : Selection) :
    (∀ bound bound', bound ≤ bound' →
      ((∀ path, selection.check catalog bound shape ≠ .error (.tooDeep path bound)) →
        selection.check catalog bound' shape = selection.check catalog bound shape) ∧
      (selection.check catalog bound shape = .ok () →
        selection.check catalog bound' shape = .ok ()) ∧
      (selection.check catalog bound' shape ≠ selection.check catalog bound shape →
        ∃ path, selection.check catalog bound shape = .error (.tooDeep path bound))) ∧
    (∀ bound, selection.depth ≤ bound → ∀ path cap,
      selection.check catalog bound shape ≠ .error (.tooDeep path cap)) ∧
    ∃ threshold ≤ selection.depth, ∀ bound,
      (∃ path, selection.check catalog bound shape = .error (.tooDeep path bound)) ↔
        bound < threshold := by
  refine ⟨fun bound bound' hle => ⟨check_eq_of_le hle, check_ok_of_le hle, fun hchange => ?_⟩,
    fun bound hdepth => check_ne_tooDeep_of_depth_le hdepth,
    exists_threshold catalog shape selection⟩
  by_contra hother
  exact hchange (check_eq_of_le hle (not_exists.1 hother))

end Selection

namespace Sample

/-- A folder leads to the folder that it is in. -/
def folderShape : Shape where
  name := "Folder"
  fields := Keyed.ofList
    [("name", .ofWire .leaf (.scalar "String")),
      ("parent", .ofWire (.object "Folder" false) (.object "Folder"))]
  keyNames := []

def folders : Catalog := ⟨Keyed.ofList [("Folder", folderShape)]⟩

/-- The name of the folder two levels up. -/
def upperFolder : Selection :=
  .nest .empty "parent" (.nest .empty "parent" (.ofFields ["name"]))

/-- The name of the folder two levels up, and something that a folder does not have. -/
def strayFolder : Selection := upperFolder.want "size"

/-- Three levels are enough for both selections. From then on the one is accepted, and of the other
one it is reported that a folder has no size. -/
theorem folders_check_threshold :
    upperFolder.check folders 2 folderShape =
        .error (.tooDeep ["Folder", "parent", "parent"] 2) ∧
      upperFolder.check folders 3 folderShape = .ok () ∧
      (∀ bound, 3 ≤ bound → upperFolder.check folders bound folderShape = .ok ()) ∧
      strayFolder.check folders 2 folderShape ≠ strayFolder.check folders 3 folderShape ∧
      (∃ path, strayFolder.check folders 2 folderShape = .error (.tooDeep path 2)) ∧
      strayFolder.depth = 3 ∧
      ∀ bound, 3 ≤ bound → strayFolder.check folders bound folderShape =
        .error (.unknownField ["Folder"] "size" "Folder") := by
  have haccepted : upperFolder.check folders 3 folderShape = .ok () := rfl
  have hstray : strayFolder.check folders 3 folderShape =
      .error (.unknownField ["Folder"] "size" "Folder") := rfl
  have hchange : strayFolder.check folders 2 folderShape ≠
      strayFolder.check folders 3 folderShape := by decide
  have hdepth : strayFolder.depth = 3 := rfl
  obtain ⟨hlarger, hdeep, -⟩ := Selection.check_threshold folders folderShape strayFolder
  refine ⟨rfl, haccepted, fun bound hle => ?_, hchange, ?_, hdepth, fun bound hle => ?_⟩
  · exact ((Selection.check_threshold folders folderShape upperFolder).1 3 bound hle).2.1 haccepted
  · exact (hlarger 2 3 (by omega)).2.2 (Ne.symm hchange)
  · rw [(hlarger 3 bound hle).1 fun path => hdeep 3 (by omega) path 3, hstray]

end Sample

end GraphClient
