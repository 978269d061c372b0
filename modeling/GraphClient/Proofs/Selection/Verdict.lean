import GraphClient.Proofs.Selection.Legal

/-!
# The verdict of the strict check

The check goes through a selection key by key and stops at the first violation. The rules of
`Choices.Legal` and `Choices.FirstViolation` say the same without a traversal: the check accepts
exactly the legal selections, and it reports a violation exactly if that is the first one. The path
of a reported violation leads to the level where it is met.
-/

namespace GraphClient

variable {catalog : Catalog} {maxDepth : Nat}

/-! ## Keys -/

/-- The check of one key with its choice: it has to be a field. -/
def Choice.checkKey (catalog : Catalog) (maxDepth : Nat) (shape : Shape) (path : List String)
    (depth : Nat) (p : String × Choice) : Except Violation Unit :=
  match shape.field? p.1 with
  | none => .error (.unknownField path p.1 shape.name)
  | some field => p.2.check catalog maxDepth path depth p.1 field

namespace Choices

variable {shape : Shape} {path : List String} {depth : Nat}

theorem checkKeys_nil : checkKeys catalog maxDepth shape path depth [] = .ok () := by
  simp [checkKeys]

/-- The keys are checked one after the other, up to the first violation. -/
theorem checkKeys_cons (p : String × Choice) (rest : Choices) :
    checkKeys catalog maxDepth shape path depth (p :: rest) =
      match Choice.checkKey catalog maxDepth shape path depth p with
      | .error violation => .error violation
      | .ok () => checkKeys catalog maxDepth shape path depth rest := by
  obtain ⟨key, choice⟩ := p
  rw [checkKeys, Choice.checkKey]
  cases shape.field? key <;> rfl

/-- The keys of a level are accepted if each of them is. -/
theorem checkKeys_eq_ok_iff (choices : Choices) :
    checkKeys catalog maxDepth shape path depth choices = .ok () ↔
      ∀ p ∈ choices, Choice.checkKey catalog maxDepth shape path depth p = .ok () := by
  induction choices with
  | nil => simp [checkKeys_nil]
  | cons p rest ih =>
    rw [checkKeys_cons, List.forall_mem_cons, ← ih]
    cases h : Choice.checkKey catalog maxDepth shape path depth p with
    | ok u => simp
    | error violation => simp

/-- What is reported for the keys of a level is reported for one of them, and the keys before it
are accepted. -/
theorem checkKeys_eq_error_iff (choices : Choices) (violation : Violation) :
    checkKeys catalog maxDepth shape path depth choices = .error violation ↔
      ∃ before p after, choices = before ++ p :: after ∧
        (∀ q ∈ before, Choice.checkKey catalog maxDepth shape path depth q = .ok ()) ∧
        Choice.checkKey catalog maxDepth shape path depth p = .error violation := by
  induction choices with
  | nil => simp [checkKeys_nil]
  | cons p rest ih =>
    rw [checkKeys_cons]
    cases h : Choice.checkKey catalog maxDepth shape path depth p with
    | error found =>
      -- The first key ends the traversal, so no accepted key stands before the reported one.
      constructor
      · intro he
        obtain rfl : found = violation := by simpa using he
        exact ⟨[], p, rest, rfl, by simp, h⟩
      · rintro ⟨before, q, after, hsplit, hbefore, hq⟩
        cases before with
        | nil =>
          obtain ⟨rfl, -⟩ : p = q ∧ rest = after := by simpa using hsplit
          simpa [h] using hq
        | cons b before =>
          obtain ⟨rfl, -⟩ : p = b ∧ rest = before ++ q :: after := by simpa using hsplit
          simp [h] at hbefore
    | ok u =>
      -- The first key is one of those before the reported one, which the rest of the level has.
      simp only
      rw [ih]
      constructor
      · rintro ⟨before, q, after, rfl, hbefore, hq⟩
        exact ⟨p :: before, q, after, rfl, List.forall_mem_cons.2 ⟨h, hbefore⟩, hq⟩
      · rintro ⟨before, q, after, hsplit, hbefore, hq⟩
        cases before with
        | nil =>
          obtain ⟨rfl, -⟩ : p = q ∧ rest = after := by simpa using hsplit
          simp [h] at hq
        | cons b before =>
          obtain ⟨rfl, rfl⟩ : p = b ∧ rest = before ++ q :: after := by simpa using hsplit
          exact ⟨before, q, after, rfl, (List.forall_mem_cons.1 hbefore).2, hq⟩

/-- The check of a level in terms of its keys. -/
theorem check_eq (choices : Choices) :
    check catalog maxDepth shape path depth choices =
      if depth > maxDepth then .error (.tooDeep path maxDepth)
      else
        match checkKeys catalog maxDepth shape path depth choices with
        | .error violation => .error violation
        | .ok () => if isBare choices then .error (.nothingSelected path) else .ok () := rfl

end Choices

/-- A nested selection for a known shape is checked as a level of its own. -/
theorem Choice.checkKey_nested {shape innerShape : Shape} {path : List String} {depth : Nat}
    {key related : String} {field : ShapeField} {inner : Choices} {arguments : PageArguments}
    (isField : shape.field? key = some field) (isRelation : field.type.related? = some related)
    (found : catalog.find? related = some innerShape) :
    Choice.checkKey catalog maxDepth shape path depth (key, .nested inner arguments) =
      Choices.check catalog maxDepth innerShape (path ++ [key]) (depth + 1) inner := by
  simp only [Choice.checkKey, isField, Choice.check, isRelation, found]
  rfl

/-! ## Verdicts -/

/-- The check of a key of a level says what the rules say. -/
structure Choice.AgreesAt (catalog : Catalog) (maxDepth : Nat) (shape : Shape)
    (path : List String) (depth : Nat) (key : String) (choice : Choice) : Prop where
  accepts : Choice.checkKey catalog maxDepth shape path depth (key, choice) = .ok () ↔
    Choice.Fits catalog maxDepth shape depth key choice
  reports : ∀ violation,
    Choice.checkKey catalog maxDepth shape path depth (key, choice) = .error violation ↔
      Choice.FirstViolation catalog maxDepth shape path depth key choice violation

/-- The check of a key says what the rules say, wherever the key stands. -/
def Choice.Agrees (catalog : Catalog) (maxDepth : Nat) (key : String) (choice : Choice) : Prop :=
  ∀ (shape : Shape) (path : List String) (depth : Nat),
    Choice.AgreesAt catalog maxDepth shape path depth key choice

namespace Choices

/-- Where the check of every key agrees with the rules, a level is accepted exactly if it is
legal. -/
theorem check_eq_ok_iff_of_agrees {choices : Choices}
    (agrees : ∀ p ∈ choices, Choice.Agrees catalog maxDepth p.1 p.2) (shape : Shape)
    (path : List String) (depth : Nat) :
    check catalog maxDepth shape path depth choices = .ok () ↔
      Legal catalog maxDepth shape depth choices := by
  have hkeys : checkKeys catalog maxDepth shape path depth choices = .ok () ↔
      ∀ p ∈ choices, Choice.Fits catalog maxDepth shape depth p.1 p.2 := by
    rw [checkKeys_eq_ok_iff]
    exact forall₂_congr fun p hp => (agrees p hp shape path depth).accepts
  have hbare : isBare choices = false ↔ ∃ p ∈ choices, p.2.isExcluded = false := by
    simp [isBare]
  rw [check_eq]
  constructor
  · intro h
    split at h
    · simp at h
    · next hdepth =>
      cases hk : checkKeys catalog maxDepth shape path depth choices with
      | error violation => simp [hk] at h
      | ok u =>
        rw [hk] at h
        cases hb : isBare choices with
        | true => simp [hb] at h
        | false => exact .intro (by omega) (hkeys.1 hk) (hbare.1 hb)
  · rintro ⟨hdepth, hfits, hchosen⟩
    rw [if_neg (by omega), hkeys.2 hfits, hbare.2 hchosen]
    rfl

/-- Where the check of every key agrees with the rules, exactly the first violation of a level is
reported. -/
theorem check_eq_error_iff_of_agrees {choices : Choices}
    (agrees : ∀ p ∈ choices, Choice.Agrees catalog maxDepth p.1 p.2) (shape : Shape)
    (path : List String) (depth : Nat) (violation : Violation) :
    check catalog maxDepth shape path depth choices = .error violation ↔
      FirstViolation catalog maxDepth shape path depth choices violation := by
  rw [check_eq]
  constructor
  · intro h
    split at h
    · next hdepth =>
      obtain rfl : Violation.tooDeep path maxDepth = violation := by simpa using h
      exact .tooDeep hdepth
    · next hdepth =>
      have hle : depth ≤ maxDepth := by omega
      cases hk : checkKeys catalog maxDepth shape path depth choices with
      | error found =>
        obtain rfl : found = violation := by simpa [hk] using h
        -- The check went through the keys before the one that it reports.
        obtain ⟨before, p, after, rfl, hbefore, hp⟩ := (checkKeys_eq_error_iff _ _).1 hk
        refine .key hle (fun q hq => ?_) ?_
        · exact (agrees q (by simp [hq]) shape path depth).accepts.1 (hbefore q hq)
        · exact ((agrees p (by simp) shape path depth).reports found).1 hp
      | ok u =>
        rw [hk] at h
        cases hb : isBare choices with
        | false => simp [hb] at h
        | true =>
          -- A bare level is reported only where all its keys fit.
          obtain rfl : Violation.nothingSelected path = violation := by simpa [hb] using h
          refine .nothingSelected hle (fun p hp => ?_) (by simpa [isBare] using hb)
          exact (agrees p hp shape path depth).accepts.1 ((checkKeys_eq_ok_iff _).1 hk p hp)
  · intro h
    cases h with
    | tooDeep deep => rw [if_pos deep]
    | @key _ _ _ before after key choice _ depth_le fits first =>
      have hk : checkKeys catalog maxDepth shape path depth (before ++ (key, choice) :: after) =
          .error violation := by
        refine (checkKeys_eq_error_iff _ _).2 ⟨before, (key, choice), after, rfl, ?_, ?_⟩
        · intro q hq
          exact (agrees q (by simp [hq]) shape path depth).accepts.2 (fits q hq)
        · exact ((agrees (key, choice) (by simp) shape path depth).reports violation).2 first
      rw [if_neg (by omega), hk]
    | nothingSelected depth_le fits bare =>
      have hk : checkKeys catalog maxDepth shape path depth choices = .ok () :=
        (checkKeys_eq_ok_iff _).2 fun p hp => (agrees p hp shape path depth).accepts.2 (fits p hp)
      have hb : isBare choices = true := by simpa [isBare] using bare
      rw [if_neg (by omega), hk, hb]
      rfl

end Choices

namespace Choice

variable {shape : Shape} {path : List String} {depth : Nat} {key : String} {choice : Choice}

/-- A check that succeeds agrees with the rules if the choice fits and violates nothing. -/
theorem AgreesAt.of_ok
    (hcheck : checkKey catalog maxDepth shape path depth (key, choice) = .ok ())
    (fits : Fits catalog maxDepth shape depth key choice)
    (clean : ∀ violation,
      ¬ FirstViolation catalog maxDepth shape path depth key choice violation) :
    AgreesAt catalog maxDepth shape path depth key choice := by
  constructor
  · simp [hcheck, fits]
  · intro violation
    simp [hcheck, clean]

/-- A check that fails agrees with the rules if it finds their first violation. -/
theorem AgreesAt.of_error {found : Violation}
    (hcheck : checkKey catalog maxDepth shape path depth (key, choice) = .error found)
    (unfit : ¬ Fits catalog maxDepth shape depth key choice)
    (first : FirstViolation catalog maxDepth shape path depth key choice found)
    (only : ∀ violation, FirstViolation catalog maxDepth shape path depth key choice violation →
      found = violation) :
    AgreesAt catalog maxDepth shape path depth key choice := by
  constructor
  · simp [hcheck, unfit]
  · intro violation
    rw [hcheck]
    constructor
    · intro h
      obtain rfl : found = violation := by simpa using h
      exact first
    · intro h
      rw [only violation h]

/-- A key that is no field is reported, whatever is said about it. -/
theorem agreesAt_of_field?_eq_none (choice : Choice) (noField : shape.field? key = none) :
    AgreesAt catalog maxDepth shape path depth key choice := by
  refine .of_error ?_ ?_ (.unknownField noField) ?_
  · simp [checkKey, noField]
  · intro h
    cases h <;> simp_all
  · intro violation h
    cases h <;> simp_all

/-- What is excluded may be any field. -/
theorem agreesAt_excluded {field : ShapeField} (isField : shape.field? key = some field) :
    AgreesAt catalog maxDepth shape path depth key .excluded := by
  refine .of_ok ?_ (.excluded isField) ?_
  · simp [checkKey, isField, check]
  · intro violation h
    cases h with
    | unknownField noField => simp [isField] at noField

/-- A wanted field is accepted if it is a leaf. -/
theorem agreesAt_wanted {field : ShapeField} (isField : shape.field? key = some field) :
    AgreesAt catalog maxDepth shape path depth key .wanted := by
  cases hleaf : field.type.isLeaf with
  | true =>
    refine .of_ok ?_ (.wanted isField hleaf) ?_
    · simp [checkKey, isField, check, hleaf]
    · intro violation h
      cases h <;> simp_all
  | false =>
    refine .of_error ?_ ?_ (.bareRelation isField hleaf) ?_
    · simp [checkKey, isField, check, hleaf]
    · intro h
      cases h
      simp_all
    · intro violation h
      cases h <;> simp_all

/-- A nested selection agrees with the rules if each of its keys does. -/
theorem agreesAt_nested {field : ShapeField} {inner : Choices} {arguments : PageArguments}
    (isField : shape.field? key = some field)
    (agrees : ∀ p ∈ inner, Agrees catalog maxDepth p.1 p.2) :
    AgreesAt catalog maxDepth shape path depth key (.nested inner arguments) := by
  cases hrelated : field.type.related? with
  | none =>
    refine .of_error ?_ ?_ (.nestedLeaf isField ((ShapeType.isLeaf_iff _).2 hrelated)) ?_
    · simp [checkKey, isField, check, hrelated]
    · intro h
      cases h <;> simp_all
    · intro violation h
      cases h <;> simp_all
  | some related =>
    have noLeaf : field.type.isLeaf ≠ true := by
      rw [Ne, ShapeType.isLeaf_iff, hrelated]
      simp
    cases hfound : catalog.find? related with
    | none =>
      -- Nothing is known about the related shape, so anything goes.
      refine .of_ok ?_ (.missing isField hrelated hfound) ?_
      · simp [checkKey, isField, check, hrelated, hfound]
      · intro violation h
        cases h <;> simp_all
    | some innerShape =>
      have hcheck : checkKey catalog maxDepth shape path depth (key, .nested inner arguments) =
          Choices.check catalog maxDepth innerShape (path ++ [key]) (depth + 1) inner :=
        checkKey_nested isField hrelated hfound
      constructor
      · rw [hcheck, Choices.check_eq_ok_iff_of_agrees agrees]
        constructor
        · exact fun h => .nested isField hrelated hfound h
        · intro h
          cases h <;> simp_all
      · intro violation
        rw [hcheck, Choices.check_eq_error_iff_of_agrees agrees]
        constructor
        · exact fun h => .nested isField hrelated hfound h
        · intro h
          cases h <;> simp_all

end Choice

mutual

/-- By the structure of the choice: only a nested selection has further keys. -/
theorem Choice.agrees (key : String) : ∀ choice, Choice.Agrees catalog maxDepth key choice
  | choice, shape, path, depth => by
    cases hf : shape.field? key with
    | none => exact Choice.agreesAt_of_field?_eq_none choice hf
    | some field =>
      match choice with
      | .excluded => exact Choice.agreesAt_excluded hf
      | .wanted => exact Choice.agreesAt_wanted hf
      | .nested inner arguments => exact Choice.agreesAt_nested hf (Choices.agrees_of_mem inner)

/-- The check agrees with the rules for every choice, by recursion over the choices. -/
theorem Choices.agrees_of_mem :
    ∀ (choices : List (String × Choice)), ∀ p ∈ choices, Choice.Agrees catalog maxDepth p.1 p.2
  | [], p, hp => by simp at hp
  | (key, choice) :: rest, p, hp => by
    rcases List.mem_cons.1 hp with rfl | hp
    · exact Choice.agrees key choice
    · exact Choices.agrees_of_mem rest p hp

end

/-! ## Where a violation is met -/

mutual

/-- The path of the first violation of a level goes on to the level where it is met. -/
theorem Choices.FirstViolation.exists_level {shape : Shape} {path : List String} {depth : Nat}
    {choices : Choices} {violation : Violation} :
    Choices.FirstViolation catalog maxDepth shape path depth choices violation →
      Choices.Distinct choices →
      ∃ keys innerShape level, violation.path = path ++ keys ∧
        Choices.levelAt? catalog shape choices keys = some (innerShape, level) ∧
        violation.MetAt maxDepth innerShape (depth + keys.length) level
  | .tooDeep deep, _ => ⟨[], shape, choices, by simp [Violation.path], rfl, rfl, deep⟩
  | .key _ _ first, distinct =>
    have hmem := List.mem_append_right _ List.mem_cons_self
    first.exists_level (distinct.choice hmem) _ (Entries.find?_of_mem distinct.nodup hmem)
  | .nothingSelected _ _ bare, _ => ⟨[], shape, choices, by simp [Violation.path], rfl, bare⟩

/-- The path of a violation leads to the level where it is. -/
theorem Choice.FirstViolation.exists_level {shape : Shape} {path : List String} {depth : Nat}
    {key : String} {choice : Choice} {violation : Violation} :
    Choice.FirstViolation catalog maxDepth shape path depth key choice violation →
      choice.Distinct → ∀ choices, Entries.find? choices key = some choice →
      ∃ keys innerShape level, violation.path = path ++ keys ∧
        Choices.levelAt? catalog shape choices keys = some (innerShape, level) ∧
        violation.MetAt maxDepth innerShape (depth + keys.length) level
  | .unknownField noField, _, choices, hfind =>
    ⟨[], shape, choices, by simp [Violation.path], rfl,
      Entries.find?_isSome_iff.1 (by simp [hfind]), noField, rfl⟩
  | .bareRelation isField noLeaf, _, choices, hfind =>
    ⟨[], shape, choices, by simp [Violation.path], rfl, hfind, _, isField, noLeaf⟩
  | .nestedLeaf isField isLeaf, _, choices, hfind =>
    ⟨[], shape, choices, by simp [Violation.path], rfl, ⟨_, _, hfind⟩, _, isField, isLeaf⟩
  | .nested isField isRelation found first, distinct, choices, hfind => by
    -- The path of the nested level, with the key in front.
    obtain ⟨keys, innerShape, level, hpath, hlevel, hmet⟩ := first.exists_level distinct
    refine ⟨key :: keys, innerShape, level, by simp [hpath], ?_, ?_⟩
    · rw [Choices.levelAt?_cons hfind isField isRelation found, hlevel]
    · rwa [List.length_cons, Nat.add_comm keys.length, ← Nat.add_assoc]

end

/-- A path is written from left to right, a dot in front of each key. -/
theorem Violation.pathText_cons (name : String) (keys : List String) :
    Violation.pathText (name :: keys) = keys.foldl (fun text key => text ++ "." ++ key) name := by
  unfold pathText
  induction keys generalizing name with
  | nil => simp
  | cons key keys ih =>
    rw [List.foldl_cons, ← ih, String.intercalate_cons_append, String.intercalate_cons_cons]

namespace Selection

variable {shape : Shape} {selection : Selection}

/-- A selection is accepted exactly if it is legal. -/
theorem check_eq_ok_iff :
    selection.check catalog maxDepth shape = .ok () ↔
      Choices.Legal catalog maxDepth shape 1 selection.choices :=
  Choices.check_eq_ok_iff_of_agrees (Choices.agrees_of_mem selection.choices) shape [shape.name] 1

/-- Exactly the first violation of a selection is reported. -/
theorem check_eq_error_iff {violation : Violation} :
    selection.check catalog maxDepth shape = .error violation ↔
      Choices.FirstViolation catalog maxDepth shape [shape.name] 1 selection.choices violation :=
  Choices.check_eq_error_iff_of_agrees (Choices.agrees_of_mem selection.choices) shape
    [shape.name] 1 violation

end Selection

/-- The check accepts exactly the legal selections. A violation is reported exactly if it is the
first one in the order of the traversal; its path is the name of the shape, followed by the keys
that lead to the level which meets it. -/
theorem Selection.check_iff (catalog : Catalog) (maxDepth : Nat) (shape : Shape)
    (selection : Selection) :
    (selection.check catalog maxDepth shape = .ok () ↔
      Choices.Legal catalog maxDepth shape 1 selection.choices) ∧
    ∀ violation, selection.check catalog maxDepth shape = .error violation ↔
      Choices.FirstViolation catalog maxDepth shape [shape.name] 1 selection.choices violation ∧
        ∃ keys innerShape level, violation.path = shape.name :: keys ∧
          Violation.pathText violation.path =
            keys.foldl (fun text key => text ++ "." ++ key) shape.name ∧
          Choices.levelAt? catalog shape selection.choices keys = some (innerShape, level) ∧
          violation.MetAt maxDepth innerShape (keys.length + 1) level := by
  have agrees : ∀ p ∈ selection.choices, Choice.Agrees catalog maxDepth p.1 p.2 :=
    Choices.agrees_of_mem selection.choices
  constructor
  · exact Choices.check_eq_ok_iff_of_agrees agrees shape [shape.name] 1
  · intro violation
    rw [Selection.check, Choices.check_eq_error_iff_of_agrees agrees]
    constructor
    · intro first
      obtain ⟨keys, innerShape, level, hpath, hlevel, hmet⟩ :=
        first.exists_level selection.distinct
      rw [List.singleton_append] at hpath
      refine ⟨first, keys, innerShape, level, hpath, ?_, hlevel, ?_⟩
      · rw [hpath, Violation.pathText_cons]
      · rwa [Nat.add_comm]
    · exact And.left

end GraphClient
