import GraphClient.Proofs.Selection.Verdict
import GraphClient.Proofs.Shape.Origin
import GraphClient.Selection.Default
import Mathlib.Data.Nat.Init
import Mathlib.Tactic.ByContra

/-!
# All leaves within some levels

What is selected where all leaves are asked for: the leaves of a shape, and below every relation all
leaves of the related shape, as long as levels are left and no shape is entered a second time on the
way. Two facts carry everything below: which choices there are (`mem_allScalars_iff`), and that the
shapes on the way are distinct shapes of the catalog, so that there are at most as many levels as
shapes.

* `Catalog.Named` : every shape is stored under its own name.
* `Choices.Selects` : a path of keys is selected.
* `Choices.shapesOn?` : the shapes that a path of keys enters.
* `Selection.allScalars_bounded` : the selection is legal, enters no shape twice on one path, grows
  with the levels, and is the same from as many levels on as there are shapes.
-/

namespace GraphClient

namespace Catalog

/-- Every shape is stored under its own name. -/
def Named (catalog : Catalog) : Prop :=
  ∀ name shape, catalog.find? name = some shape → shape.name = name

/-- Where shapes stand under their names, a shape is found by its name. -/
theorem Named.find?_name {catalog : Catalog} (named : catalog.Named) {shape : Shape}
    (h : shape ∈ catalog.toList) : catalog.find? shape.name = some shape := by
  obtain ⟨⟨name, found⟩, hmem, rfl⟩ := List.mem_map.1 h
  have hfind : catalog.find? name = some found := Entries.find?_of_mem catalog.shapes.nodup hmem
  rw [named name found hfind]
  exact hfind

/-- The catalog of a schema stores every shape under its own name. -/
theorem named_ofSchema {schema : Schema} (named : schema.registry.Named) (page : PageNames) :
    (ofSchema schema page).Named := by
  intro name shape h
  cases origin_of_find? named h with
  | table => rfl
  | object => rfl

/-- A shape that is found is one of the catalog. -/
theorem mem_keys_of_find? {catalog : Catalog} {name : String} {shape : Shape}
    (h : catalog.find? name = some shape) : name ∈ catalog.shapes.keys :=
  Keyed.mem_keys_of_find? h

end Catalog

namespace Choices

/-! ## Which choices there are -/

/-- A default selection wants a leaf, and of a relation what is chosen for the related shape, unless
that is bare. -/
theorem ofField?_eq_some_iff {inner : String → Choices} {field : ShapeField} {choice : Choice} :
    ofField? inner field = some choice ↔
      (field.type.isLeaf = true ∧ choice = .wanted) ∨
      ∃ related, field.type.related? = some related ∧ isBare (inner related) = false ∧
        choice = .nested (inner related) {} := by
  rw [ShapeType.isLeaf_iff, ofField?]
  constructor
  · intro h
    cases hrelated : field.type.related? with
    | none =>
      rw [hrelated] at h
      exact .inl ⟨rfl, (Option.some.inj h).symm⟩
    | some related =>
      simp only [hrelated] at h
      split at h
      · cases h
      · next hbare => exact .inr ⟨related, rfl, by simpa using hbare, (Option.some.inj h).symm⟩
  · rintro (⟨hrelated, rfl⟩ | ⟨related, hrelated, hbare, rfl⟩)
    · rw [hrelated]
    · simp only [hrelated, hbare]
      rfl

/-- A choice is made for a field of the shape alone. -/
theorem mem_ofFields_iff {inner : String → Choices} {shape : Shape} {key : String}
    {choice : Choice} :
    (key, choice) ∈ ofFields inner shape.fields.entries ↔
      ∃ field, shape.field? key = some field ∧ ofField? inner field = some choice := by
  rw [mem_ofFields]
  constructor
  · rintro ⟨field, hmem, hchoice⟩
    exact ⟨field, Entries.find?_of_mem shape.fields.nodup hmem, hchoice⟩
  · rintro ⟨field, hfield, hchoice⟩
    exact ⟨field, Entries.mem_of_find? hfield, hchoice⟩

variable {catalog : Catalog} {levels : Nat} {path : List String} {shape : Shape} {key : String}
  {choice : Choice}

/-- A choice of all leaves with some levels below a shape and the shapes of a path on the way. -/
inductive AmongScalars (catalog : Catalog) :
    Nat → List String → Shape → String → Choice → Prop
  /-- A leaf is wanted. -/
  | leaf {levels : Nat} {path : List String} {shape : Shape} {key : String} {field : ShapeField}
      (isField : shape.field? key = some field) (isLeaf : field.type.isLeaf = true) :
      AmongScalars catalog levels path shape key .wanted
  /-- A relation carries all leaves of the related shape. A level is left for it, the shape is not
  on the path, and it has leaves. -/
  | relation {levels : Nat} {path : List String} {shape inner : Shape} {key related : String}
      {field : ShapeField} (isField : shape.field? key = some field)
      (isRelation : field.type.related? = some related) (fresh : related ∉ path)
      (found : catalog.find? related = some inner)
      (chosen : isBare (allScalars catalog levels (related :: path) inner) = false) :
      AmongScalars catalog (levels + 1) path shape key
        (.nested (allScalars catalog levels (related :: path) inner) {})

/-- What is chosen by default is what the rules say. -/
theorem mem_allScalars_iff :
    (key, choice) ∈ allScalars catalog levels path shape ↔
      AmongScalars catalog levels path shape key choice := by
  constructor
  · intro h
    cases levels with
    | zero =>
      obtain ⟨field, isField, hchoice⟩ := mem_ofFields_iff.1 h
      rcases ofField?_eq_some_iff.1 hchoice with ⟨isLeaf, rfl⟩ | ⟨related, -, hbare, -⟩
      · exact .leaf isField isLeaf
      · -- Without a level below, what a relation would carry is bare.
        cases hbare
    | succ levels =>
      obtain ⟨field, isField, hchoice⟩ := mem_ofFields_iff.1 h
      rcases ofField?_eq_some_iff.1 hchoice with ⟨isLeaf, rfl⟩ | ⟨related, isRelation, hbare, rfl⟩
      · exact .leaf isField isLeaf
      · -- A shape on the path is not entered again, and an unknown one cannot be.
        by_cases hpath : path.contains related = true
        · rw [if_pos hpath] at hbare
          cases hbare
        · rw [if_neg hpath] at hbare ⊢
          cases found : catalog.find? related with
          | none =>
            rw [found] at hbare
            cases hbare
          | some inner =>
            rw [found] at hbare
            exact .relation isField isRelation (by simpa using hpath) found hbare
  · intro h
    cases h with
    | @leaf _ _ _ _ field isField isLeaf =>
      have hchoice : ∀ inner, ofField? inner field = some .wanted := fun inner =>
        ofField?_eq_some_iff.2 (.inl ⟨isLeaf, rfl⟩)
      cases levels with
      | zero => exact mem_ofFields_iff.2 ⟨field, isField, hchoice _⟩
      | succ levels => exact mem_ofFields_iff.2 ⟨field, isField, hchoice _⟩
    | @relation levels _ _ inner _ related field isField isRelation fresh found chosen =>
      refine mem_ofFields_iff.2 ⟨field, isField, ofField?_eq_some_iff.2 (.inr ⟨related, isRelation,
        ?_⟩)⟩
      have hpath : ¬ path.contains related = true := by simpa using fresh
      rw [if_neg hpath, found]
      exact ⟨chosen, rfl⟩

/-- Nothing is excluded by default. -/
theorem AmongScalars.not_excluded (h : AmongScalars catalog levels path shape key choice) :
    choice.isExcluded = false := by
  cases h <;> rfl

/-- All leaves are bare only if there is no choice at all. -/
theorem isBare_allScalars_eq_false_iff :
    isBare (allScalars catalog levels path shape) = false ↔
      ∃ key choice, AmongScalars catalog levels path shape key choice := by
  rw [isBare, List.all_eq_false]
  constructor
  · rintro ⟨⟨key, choice⟩, hmem, -⟩
    exact ⟨key, choice, mem_allScalars_iff.1 hmem⟩
  · rintro ⟨key, choice, h⟩
    refine ⟨(key, choice), mem_allScalars_iff.2 h, ?_⟩
    rw [h.not_excluded]
    exact Bool.false_ne_true

/-! ## Legality -/

/-- Unless they are bare, all leaves are legal wherever there is room for the levels. By induction
on the levels, each of which is one step further down. -/
theorem legal_allScalars {maxDepth : Nat} (levels : Nat) :
    ∀ (path : List String) (shape : Shape) (depth : Nat), depth + levels ≤ maxDepth →
      isBare (allScalars catalog levels path shape) = false →
        Legal catalog maxDepth shape depth (allScalars catalog levels path shape) := by
  induction levels with
  | zero =>
    intro path shape depth hdepth hbare
    refine .intro (by omega) ?_ ?_
    · rintro ⟨key, choice⟩ hmem
      cases mem_allScalars_iff.1 hmem with
      | leaf isField isLeaf => exact .wanted isField isLeaf
    · obtain ⟨key, choice, h⟩ := isBare_allScalars_eq_false_iff.1 hbare
      exact ⟨(key, choice), mem_allScalars_iff.2 h, h.not_excluded⟩
  | succ levels ih =>
    intro path shape depth hdepth hbare
    refine .intro (by omega) ?_ ?_
    · rintro ⟨key, choice⟩ hmem
      cases mem_allScalars_iff.1 hmem with
      | leaf isField isLeaf => exact .wanted isField isLeaf
      | relation isField isRelation fresh found chosen =>
        exact .nested isField isRelation found (ih _ _ (depth + 1) (by omega) chosen)
    · obtain ⟨key, choice, h⟩ := isBare_allScalars_eq_false_iff.1 hbare
      exact ⟨(key, choice), mem_allScalars_iff.2 h, h.not_excluded⟩

/-! ## Growth -/

/-- A path of keys is selected: every key but the last carries a nested selection, and the last is
not excluded. -/
inductive Selects : Choices → List String → Prop
  | last {choices : Choices} {key : String} {choice : Choice} (mem : (key, choice) ∈ choices)
      (chosen : choice.isExcluded = false) : Selects choices [key]
  | nested {choices inner : Choices} {key : String} {keys : List String}
      {arguments : PageArguments} (mem : (key, .nested inner arguments) ∈ choices)
      (rest : Selects inner keys) : Selects choices (key :: keys)

/-- A path that goes on selects something below its first key. -/
theorem Selects.exists_nested {choices : Choices} {key : String} {keys : List String}
    (h : Selects choices (key :: keys)) (further : keys ≠ []) :
    ∃ inner arguments, (key, .nested inner arguments) ∈ choices ∧ Selects inner keys := by
  cases h with
  | last => exact absurd rfl further
  | nested mem rest => exact ⟨_, _, mem, rest⟩

/-- With more levels there are still leaves. By induction on the levels: what is chosen below a
relation stays. -/
theorem isBare_allScalars_mono {levels levels' : Nat} (hle : levels ≤ levels')
    (h : isBare (allScalars catalog levels path shape) = false) :
    isBare (allScalars catalog levels' path shape) = false := by
  induction levels generalizing path shape levels' with
  | zero =>
    obtain ⟨key, choice, hchoice⟩ := isBare_allScalars_eq_false_iff.1 h
    cases hchoice with
    | leaf isField isLeaf =>
      exact isBare_allScalars_eq_false_iff.2 ⟨key, _, .leaf isField isLeaf⟩
  | succ levels ih =>
    obtain ⟨key, choice, hchoice⟩ := isBare_allScalars_eq_false_iff.1 h
    cases hchoice with
    | leaf isField isLeaf =>
      exact isBare_allScalars_eq_false_iff.2 ⟨key, _, .leaf isField isLeaf⟩
    | relation isField isRelation fresh found chosen =>
      obtain ⟨levels', rfl⟩ : ∃ n, levels' = n + 1 := ⟨levels' - 1, by omega⟩
      have chosen' := ih (Nat.le_of_succ_le_succ hle) chosen
      exact isBare_allScalars_eq_false_iff.2
        ⟨key, _, .relation isField isRelation fresh found chosen'⟩

/-- With more levels a relation still carries the leaves of the same shape, perhaps more of them. -/
theorem AmongScalars.mono {levels levels' : Nat} (hle : levels ≤ levels')
    (h : AmongScalars catalog levels path shape key choice) :
    ∃ choice', AmongScalars catalog levels' path shape key choice' := by
  cases h with
  | leaf isField isLeaf => exact ⟨_, .leaf isField isLeaf⟩
  | relation isField isRelation fresh found chosen =>
    obtain ⟨levels', rfl⟩ : ∃ n, levels' = n + 1 := ⟨levels' - 1, by omega⟩
    have chosen' := isBare_allScalars_mono (Nat.le_of_succ_le_succ hle) chosen
    exact ⟨_, .relation isField isRelation fresh found chosen'⟩

/-- A path that is selected with some levels is selected with more of them. By induction on the
path: its first key leads to the same shape in both selections. -/
theorem Selects.mono {keys : List String} :
    ∀ {levels : Nat} {path : List String} {shape : Shape},
      Selects (allScalars catalog levels path shape) keys → ∀ {levels' : Nat}, levels ≤ levels' →
        Selects (allScalars catalog levels' path shape) keys := by
  induction keys with
  | nil => intro levels path shape h; cases h
  | cons key keys ih =>
    intro levels path shape h levels' hle
    cases h with
    | last mem chosen =>
      obtain ⟨choice', h'⟩ := AmongScalars.mono hle (mem_allScalars_iff.1 mem)
      exact .last (mem_allScalars_iff.2 h') h'.not_excluded
    | nested mem rest =>
      cases mem_allScalars_iff.1 mem with
      | @relation levels _ _ _ _ _ _ isField isRelation fresh found chosen =>
        obtain ⟨levels', rfl⟩ : ∃ n, levels' = n + 1 := ⟨levels' - 1, by omega⟩
        have chosen' := isBare_allScalars_mono (Nat.le_of_succ_le_succ hle) chosen
        exact .nested (mem_allScalars_iff.2 (.relation isField isRelation fresh found chosen'))
          (ih rest (by omega))

/-! ## The shapes on the way -/

/-- The names of the shapes that a path of keys enters through nested selections, from the shape
that the choices are applied to on. -/
def shapesOn? (catalog : Catalog) : Shape → Choices → List String → Option (List String)
  | shape, _, [] => some [shape.name]
  | shape, choices, key :: keys =>
    (levelAt? catalog shape choices [key]).bind fun level =>
      (shapesOn? catalog level.1 level.2 keys).map (shape.name :: ·)

/-- The shapes on the way to a level: distinct ones of the catalog. -/
structure OnTheWay (catalog : Catalog) (path : List String) : Prop where
  nodup : path.Nodup
  subset : path ⊆ catalog.shapes.keys

/-- A shape that is entered for the first time makes the way longer. -/
theorem OnTheWay.cons (h : OnTheWay catalog path) {name : String} {shape : Shape}
    (fresh : name ∉ path) (found : catalog.find? name = some shape) :
    OnTheWay catalog (name :: path) :=
  ⟨List.nodup_cons.2 ⟨fresh, h.nodup⟩,
    List.cons_subset.2 ⟨Catalog.mem_keys_of_find? found, h.subset⟩⟩

/-- There are at most as many shapes on the way as in the catalog. -/
theorem OnTheWay.length_le (h : OnTheWay catalog path) : path.length ≤ catalog.shapes.size :=
  Keyed.length_le_size h.nodup h.subset

/-- Where all shapes of the catalog are on the way, no further one is found. -/
theorem OnTheWay.mem_of_size_le (h : OnTheWay catalog path)
    (full : catalog.shapes.size ≤ path.length) {name : String} {shape : Shape}
    (found : catalog.find? name = some shape) : name ∈ path := by
  by_contra fresh
  have hlength := (h.cons fresh found).length_le
  rw [List.length_cons] at hlength
  omega

/-- A selected path enters a known shape at every key but the last. Its shapes come on top of those
on the way to it. By induction on the keys, with the shapes on the way growing by one at every
key. -/
theorem Selects.exists_shapesOn? (named : catalog.Named) {keys : List String} {key : String} :
    ∀ {levels : Nat} {path : List String} {shape : Shape}, OnTheWay catalog path →
      Selects (allScalars catalog levels path shape) (keys ++ [key]) →
      ∃ below, shapesOn? catalog shape (allScalars catalog levels path shape) keys =
          some (shape.name :: below) ∧
        below.length = keys.length ∧ OnTheWay catalog (below.reverse ++ path) := by
  induction keys with
  | nil => exact fun hpath _ => ⟨[], rfl, rfl, hpath⟩
  | cons first keys ih =>
    intro levels path shape hpath h
    obtain ⟨level, arguments, mem, rest⟩ := h.exists_nested (by simp)
    cases mem_allScalars_iff.1 mem with
    | @relation levels _ _ inner _ related field isField isRelation fresh found chosen =>
      obtain ⟨below, hbelow, hlength, hway⟩ := ih (hpath.cons fresh found) rest
      refine ⟨inner.name :: below, ?_, ?_, ?_⟩
      · have hfind := Entries.find?_of_mem (distinct_allScalars catalog _ path shape).nodup mem
        rw [shapesOn?, levelAt?_cons hfind isField isRelation found, levelAt?_nil,
          Option.bind_some, hbelow, Option.map_some]
      · rw [List.length_cons, List.length_cons, hlength]
      · rw [List.reverse_cons, List.append_assoc, List.singleton_append,
          named related inner found]
        exact hway

/-! ## The last level that matters -/

/-- As soon as levels and shapes on the way make up the catalog, a further level adds nothing. By
induction on the levels: a shape that is entered is one more on the way. -/
theorem allScalars_succ_eq (levels : Nat) :
    ∀ (path : List String) (shape : Shape), OnTheWay catalog path →
      catalog.shapes.size ≤ levels + path.length →
        allScalars catalog (levels + 1) path shape = allScalars catalog levels path shape := by
  induction levels with
  | zero =>
    intro path shape hpath hsize
    rw [allScalars, allScalars]
    congr 1
    funext related
    by_cases hmem : path.contains related = true
    · rw [if_pos hmem]
    · rw [if_neg hmem]
      cases found : catalog.find? related with
      | none => rfl
      | some inner =>
        -- All shapes of the catalog are on the way, this one too.
        have hmem' : related ∈ path := hpath.mem_of_size_le (by omega) found
        exact absurd (by simpa using hmem') hmem
  | succ levels ih =>
    intro path shape hpath hsize
    rw [allScalars, allScalars]
    congr 1
    funext related
    by_cases hmem : path.contains related = true
    · rw [if_pos hmem, if_pos hmem]
    · rw [if_neg hmem, if_neg hmem]
      cases found : catalog.find? related with
      | none => rfl
      | some inner =>
        have fresh : related ∉ path := by simpa using hmem
        refine ih (related :: path) inner (hpath.cons fresh found) ?_
        rw [List.length_cons]
        omega

/-- From the level on that makes up the catalog, all numbers of levels give the same. -/
theorem allScalars_eq_of_le {levels levels' : Nat} (hpath : OnTheWay catalog path)
    (hsize : catalog.shapes.size ≤ levels + path.length) (hle : levels ≤ levels') :
    allScalars catalog levels' path shape = allScalars catalog levels path shape := by
  induction levels', hle using Nat.le_induction with
  | base => rfl
  | succ levels' hle ih =>
    rw [allScalars_succ_eq levels' path shape hpath (by omega)]
    exact ih

end Choices

/-! ## Selections -/

/-- All leaves of a shape of a catalog whose shapes are stored under their own names.

The selection passes the strict check for every bound that is no smaller than its depth, unless it
is bare. A selected path enters a known shape at every key but the last, and none of them twice, so
it has at most as many keys as there are shapes. What is selected at a depth is selected at every
larger one, and from the number of shapes on the depth does not matter. -/
theorem Selection.allScalars_bounded {catalog : Catalog} (named : catalog.Named) {shape : Shape}
    (hshape : shape ∈ catalog.toList) :
    (∀ depth maxDepth, max depth 1 ≤ maxDepth →
      (Selection.allScalars catalog shape depth).isBare = false →
        (Selection.allScalars catalog shape depth).check catalog maxDepth shape = .ok ()) ∧
    (∀ depth keys key,
      Choices.Selects (Selection.allScalars catalog shape depth).choices (keys ++ [key]) →
        ∃ below, Choices.shapesOn? catalog shape (Selection.allScalars catalog shape depth).choices
              keys = some (shape.name :: below) ∧
          (shape.name :: below).Nodup ∧ below.length = keys.length ∧
          keys.length < catalog.toList.length) ∧
    (∀ depth depth' keys, depth ≤ depth' →
      Choices.Selects (Selection.allScalars catalog shape depth).choices keys →
        Choices.Selects (Selection.allScalars catalog shape depth').choices keys) ∧
    ∀ depth depth', catalog.toList.length ≤ depth → catalog.toList.length ≤ depth' →
      Selection.allScalars catalog shape depth = Selection.allScalars catalog shape depth' := by
  have hsize : catalog.toList.length = catalog.shapes.size := List.length_map _
  have found : catalog.find? shape.name = some shape := named.find?_name hshape
  have hroot : Choices.OnTheWay catalog [shape.name] :=
    ⟨List.pairwise_singleton _ _, List.cons_subset.2
      ⟨Catalog.mem_keys_of_find? found, List.nil_subset _⟩⟩
  refine ⟨?_, ?_, ?_, ?_⟩
  · intro depth maxDepth hmax hbare
    have agrees : ∀ p ∈ (Selection.allScalars catalog shape depth).choices,
        Choice.Agrees catalog maxDepth p.1 p.2 := Choices.agrees_of_mem _
    refine (Choices.check_eq_ok_iff_of_agrees agrees shape [shape.name] 1).2 ?_
    exact Choices.legal_allScalars (depth - 1) [shape.name] shape 1 (by omega) hbare
  · intro depth keys key h
    obtain ⟨below, hbelow, hlength, hway⟩ := h.exists_shapesOn? named hroot
    have hcount := hway.length_le
    rw [List.length_append, List.length_reverse, List.length_singleton] at hcount
    refine ⟨below, hbelow, ?_, hlength, by omega⟩
    have hperm : (below.reverse ++ [shape.name]).Perm (shape.name :: below) := by
      rw [← List.reverse_cons]
      exact List.reverse_perm _
    exact hperm.nodup_iff.1 hway.nodup
  · intro depth depth' keys hle h
    exact h.mono (by omega)
  · -- The depth that makes up the catalog gives the same as each of the two.
    have hone := hroot.length_le
    rw [List.length_singleton] at hone
    have hsame : ∀ depth, catalog.shapes.size ≤ depth →
        Choices.allScalars catalog (depth - 1) [shape.name] shape =
          Choices.allScalars catalog (catalog.shapes.size - 1) [shape.name] shape := by
      intro depth hdepth
      refine Choices.allScalars_eq_of_le hroot ?_ (by omega)
      rw [List.length_singleton]
      omega
    intro depth depth' hdepth hdepth'
    rw [hsize] at hdepth hdepth'
    unfold Selection.allScalars
    congr 1
    rw [hsame depth hdepth, hsame depth' hdepth']

namespace Sample

/-- A member leads to its club and to a friend. -/
def memberShape : Shape where
  name := "Member"
  fields := Keyed.ofList
    [("name", .ofWire .leaf (.scalar "String")),
      ("club", .ofWire (.object "Club" false) (.object "Club")),
      ("friend", .ofWire (.object "Member" false) (.object "Member"))]
  keyNames := []

/-- A club leads back to its members. -/
def clubShape : Shape where
  name := "Club"
  fields := Keyed.ofList
    [("title", .ofWire .leaf (.scalar "String")),
      ("members", .ofWire (.connection "Member") (.object "Member"))]
  keyNames := []

def clubs : Catalog := ⟨Keyed.ofList [("Member", memberShape), ("Club", clubShape)]⟩

/-- Around the cycle, all leaves of a member are legal, and two levels are all there are. -/
theorem memberScalars_bounded : clubs.Named ∧ memberShape ∈ clubs.toList ∧
    (Selection.allScalars clubs memberShape 5).check clubs 5 memberShape = .ok () ∧
    (∀ keys key, Choices.Selects (Selection.allScalars clubs memberShape 5).choices
        (keys ++ [key]) → keys.length < 2) ∧
    Choices.Selects (Selection.allScalars clubs memberShape 7).choices ["club", "title"] ∧
    ∀ depth, 2 ≤ depth →
      Selection.allScalars clubs memberShape depth = Selection.allScalars clubs memberShape 2 := by
  have named : clubs.Named := by
    intro name shape h
    rcases List.mem_cons.1 (Entries.mem_of_find?_ofList h) with heq | h
    · obtain ⟨rfl, rfl⟩ := Prod.mk.inj heq
      rfl
    · obtain ⟨rfl, rfl⟩ := Prod.mk.inj (List.mem_singleton.1 h)
      rfl
  have hmem : memberShape ∈ clubs.toList := List.mem_cons_self
  obtain ⟨hcheck, hpaths, hmono, hstable⟩ := Selection.allScalars_bounded named hmem
  refine ⟨named, hmem, hcheck 5 5 (by omega) rfl, ?_, ?_, ?_⟩
  · intro keys key h
    obtain ⟨below, -, -, -, hlength⟩ := hpaths 5 keys key h
    exact hlength
  · refine hmono 2 7 ["club", "title"] (by omega) ?_
    exact .nested (List.mem_cons_of_mem _ List.mem_cons_self) (.last List.mem_cons_self rfl)
  · intro depth hdepth
    exact hstable depth 2 hdepth (Nat.le_refl 2)

end Sample

end GraphClient
