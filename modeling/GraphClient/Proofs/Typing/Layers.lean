import GraphClient.Typing.Resolve
import Mathlib.Logic.Function.Iterate

/-!
# Layers of wire types and of their types

A wire type wraps a named type in lists and non-null wrappers, in any order and to any depth. Its
type in the client keeps the lists only: one array layer for each of them, around the name of the
innermost type. So it depends on the innermost type and on the number of lists alone, and the same
innermost type decides which name the type mentions.

* `TypeRef.relaxed` : the reference without its non-null wrappers.
* `TypeRef.isProper` : no non-null wrapper stands directly inside another one.
* `ScalarSettings.Resolves` : what the type of a reference is made of.
* `ScalarSettings.resolves` : the type of every reference is made so.
-/

namespace GraphClient

open TypeScript (TypeExpr)

/-! ## Array layers -/

namespace TypeScript.TypeExpr

/-- Each layer counts, on top of those that the type has itself. -/
theorem arrayDepth_iterate (count : Nat) (type : TypeExpr) :
    (array^[count] type).arrayDepth = count + type.arrayDepth := by
  induction count with
  | zero => simp
  | succ count ih =>
    rw [Function.iterate_succ_apply', arrayDepth, ih]
    omega

/-- A name in some array layers is an array exactly if there is a layer. -/
theorem exists_array_iff (count : Nat) (name : String) :
    (∃ element, array^[count] (.named name) = .array element) ↔ 1 ≤ count := by
  constructor
  · rintro ⟨element, h⟩
    by_contra hcount
    obtain rfl : count = 0 := by omega
    cases h
  · intro hcount
    obtain ⟨count, rfl⟩ : ∃ n, count = n + 1 := ⟨count - 1, by omega⟩
    exact ⟨_, Function.iterate_succ_apply' _ _ _⟩

end TypeScript.TypeExpr

/-! ## Wrappers -/

namespace TypeKind

/-- Whether types of the kind are defined by their names: objects, input objects and enums. -/
def isDefined : TypeKind → Bool
  | .object | .inputObject | .enumeration => true
  | _ => false

end TypeKind

namespace TypeRef

/-- The reference without its non-null wrappers. -/
def relaxed : TypeRef → TypeRef
  | .nonNull inner => inner.relaxed
  | .list inner => .list inner.relaxed
  | type => type

/-- Whether no non-null wrapper stands directly inside another one. -/
def isProper : TypeRef → Bool
  | .nonNull inner => !inner.isRequired && inner.isProper
  | .list inner => inner.isProper
  | _ => true

theorem base_relaxed (type : TypeRef) : type.relaxed.base = type.base := by
  induction type with
  | nonNull inner ih => exact ih
  | list inner ih => exact ih
  | _ => rfl

theorem listDepth_relaxed (type : TypeRef) : type.relaxed.listDepth = type.listDepth := by
  induction type with
  | nonNull inner ih => exact ih
  | list inner ih => exact congrArg (· + 1) ih
  | _ => rfl

/-- An outer list, perhaps under one non-null wrapper, is a list. -/
theorem one_le_listDepth_of_isList {type : TypeRef} (h : type.isList = true) :
    1 ≤ type.listDepth := by
  have hlist : ∀ inner : TypeRef, (∃ element, inner = .list element) → 1 ≤ inner.listDepth := by
    rintro _ ⟨element, rfl⟩
    exact Nat.le_add_left 1 element.listDepth
  have hnullable : ∃ element, type.nullable = .list element := by
    unfold isList at h
    split at h
    · next element heq => exact ⟨element, heq⟩
    · cases h
  have hdepth : type.nullable.listDepth = type.listDepth := by cases type <;> rfl
  rw [← hdepth]
  exact hlist _ hnullable

/-- Where non-null wrappers are not doubled, no list is deeper than under one of them. -/
theorem isList_iff {type : TypeRef} (proper : type.isProper = true) :
    type.isList = true ↔ 1 ≤ type.listDepth := by
  constructor
  · exact one_le_listDepth_of_isList
  · intro hdepth
    cases type with
    | list inner => rfl
    | nonNull inner =>
      cases inner with
      | list element => rfl
      | nonNull element => cases proper
      | _ => cases hdepth
    | _ => cases hdepth

/-- The one name that a reference may mention is that of its innermost type. -/
theorem mem_mentions_iff {type : TypeRef} {name : String} :
    name ∈ type.mentions ↔ name = type.baseName ∧ type.baseKind.isDefined = true := by
  induction type with
  | nonNull inner ih => exact ih
  | list inner ih => exact ih
  | _ => simp [mentions, baseName, baseKind, base, kind, TypeKind.isDefined]

/-- Whether the innermost type of a reference is counted as referenced: it is defined by its name,
and the name is not built in. -/
def IsCounted (type : TypeRef) : Prop :=
  type.baseKind.isDefined = true ∧ isBuiltinType type.baseName = false

/-- A type mentions its innermost name alone, and only if the name is counted. -/
theorem mem_mentions_and_iff {type : TypeRef} {name : String} :
    name ∈ type.mentions ∧ isBuiltinType name = false ↔ name = type.baseName ∧ type.IsCounted := by
  rw [mem_mentions_iff]
  constructor
  · rintro ⟨⟨rfl, hkind⟩, hbuiltin⟩
    exact ⟨rfl, hkind, hbuiltin⟩
  · rintro ⟨rfl, hkind, hbuiltin⟩
    exact ⟨⟨rfl, hkind⟩, hbuiltin⟩

end TypeRef

/-! ## Types of wire types -/

namespace ScalarSettings

variable (settings : ScalarSettings)

/-- The innermost type is a name. -/
theorem exists_expr_base (type : TypeRef) : ∃ name, settings.expr type.base = .named name := by
  induction type with
  | nonNull inner ih => exact ih
  | list inner ih => exact ih
  | _ => exact ⟨_, rfl⟩

/-- Wrapper by wrapper: a list adds an array layer, and a non-null wrapper adds nothing. -/
theorem expr_eq_iterate (type : TypeRef) :
    settings.expr type = TypeExpr.array^[type.listDepth] (settings.expr type.base) := by
  induction type with
  | nonNull inner ih => exact ih
  | list inner ih =>
    show TypeExpr.array (settings.expr inner) = TypeExpr.array^[inner.listDepth + 1] _
    rw [Function.iterate_succ_apply', ih]
    rfl
  | _ => rfl

/-- The type of a wire type has an array layer for each of its lists. -/
theorem arrayDepth_expr (type : TypeRef) : (settings.expr type).arrayDepth = type.listDepth := by
  obtain ⟨name, hname⟩ := settings.exists_expr_base type
  rw [expr_eq_iterate, hname, TypeExpr.arrayDepth_iterate]
  rfl

/-- Non-null wrappers leave no trace in the type. -/
theorem expr_relaxed (type : TypeRef) : settings.expr type.relaxed = settings.expr type := by
  rw [expr_eq_iterate, TypeRef.listDepth_relaxed, TypeRef.base_relaxed, ← expr_eq_iterate]

/-- What the type of a reference is made of, and which name it mentions; `defined` holds the names
that are defined for tables. -/
structure Resolves (defined : NameSet) (type : TypeRef) : Prop where
  /-- There are as many array layers as lists, around the name for the innermost type. -/
  layers : ∃ name, settings.expr type.base = .named name ∧
    settings.expr type = TypeExpr.array^[type.listDepth] (.named name)
  /-- Non-null wrappers may be put anywhere, and taken away. -/
  relaxed : ∀ other : TypeRef, other.relaxed = type.relaxed →
    settings.expr other = settings.expr type
  /-- Null is added around the whole type, unless the outer wrapper forbids it. -/
  nullable : settings.nullableExpr type =
    if type.isRequired then settings.expr type else (settings.expr type).nullable
  /-- Only the innermost type is counted, among the types of tables if it is defined there. -/
  tableTypes : ∀ name, name ∈ (References.ofNames defined type.mentions).tableTypes ↔
    name = type.baseName ∧ type.IsCounted ∧ name ∈ defined
  /-- It is counted among the other types if it is not. -/
  schemaTypes : ∀ name, name ∈ (References.ofNames defined type.mentions).schemaTypes ↔
    name = type.baseName ∧ type.IsCounted ∧ name ∉ defined
  /-- A look at the outer wrappers tells arrays apart, where non-null wrappers are not doubled. -/
  isList : type.isProper = true → (type.isList = true ↔ 1 ≤ type.listDepth) ∧
    (type.isList = true ↔ ∃ element, settings.expr type = .array element)

/-- The type of a wire type depends on the innermost type and on the number of lists alone. -/
theorem resolves (defined : NameSet) (type : TypeRef) : settings.Resolves defined type := by
  obtain ⟨name, hname⟩ := settings.exists_expr_base type
  have hlayers : settings.expr type = TypeExpr.array^[type.listDepth] (.named name) := by
    rw [expr_eq_iterate, hname]
  refine ⟨⟨name, hname, hlayers⟩, ?_, ?_, ?_, ?_, ?_⟩
  · intro other hother
    rw [← settings.expr_relaxed other, hother, expr_relaxed]
  · unfold nullableExpr TypeExpr.nullableIf
    cases type.isRequired <;> rfl
  · intro name
    rw [References.mem_tableTypes_ofNames, ← and_assoc, TypeRef.mem_mentions_and_iff, and_assoc]
  · intro name
    rw [References.mem_schemaTypes_ofNames, ← and_assoc, TypeRef.mem_mentions_and_iff, and_assoc]
  · intro proper
    have hisList : type.isList = true ↔ 1 ≤ type.listDepth := TypeRef.isList_iff proper
    refine ⟨hisList, ?_⟩
    rw [hisList, hlayers, TypeExpr.exists_array_iff]

end ScalarSettings

namespace Sample

/-- Rows of statuses, none of which is missing. -/
def statusRows : TypeRef := .nonNull (.list (.list (.nonNull (.enumeration "Status"))))

/-- The statuses stand in two array layers, and their type is that of a table. -/
theorem statusRows_resolve : statusRows.isProper = true ∧
    ({} : ScalarSettings).expr statusRows = TypeExpr.array^[2] (.named "Status") ∧
    ({} : ScalarSettings).expr (.list (.list (.enumeration "Status"))) =
      ({} : ScalarSettings).expr statusRows ∧
    "Status" ∈ (References.ofNames (.ofList ["Status"]) statusRows.mentions).tableTypes ∧
    statusRows.isList = true := by
  have proper : statusRows.isProper = true := rfl
  have resolves := ScalarSettings.resolves {} (.ofList ["Status"]) statusRows
  obtain ⟨name, hname, hlayers⟩ := resolves.layers
  cases hname
  refine ⟨proper, hlayers, resolves.relaxed _ rfl, (resolves.tableTypes "Status").2 ?_,
    (resolves.isList proper).1.2 (by decide)⟩
  exact ⟨rfl, ⟨rfl, rfl⟩, by simp⟩

end Sample

end GraphClient
