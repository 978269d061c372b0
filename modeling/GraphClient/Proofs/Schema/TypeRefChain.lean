import GraphClient.Proofs.Schema.OptionalField
import GraphClient.Schema.TypeRefWire

/-!
# Introspected references are read along their chain

The wrappers of an introspected reference are linked by the field `ofType`, down to an object that
names a type, or that lacks what its kind needs. Reading keeps the wrappers in their order around
the type that is named; an object that lacks something is an unresolved type.

* `WireChain` : the wrappers of an introspected reference, and the object at their end.
* `WireRecord.EndsIn` : the type that an object at the end stands for.
* `TypeRef.ofJson_follows_chain` : what is read is the type at the end, in the wrappers.
-/

namespace GraphClient

/-! ## Objects of a chain -/

/-- What an object says about a reference. -/
structure WireRecord where
  kind : Option String
  name : Option String
  /-- The reference in the field `ofType`. -/
  inner : Option Json

namespace WireRecord

/-- The fields of an object say so; other fields do not count. -/
structure IsOf (record : WireRecord) (fields : Entries Json) : Prop where
  kind : fields.Holds "kind" (record.kind.map .string)
  name : fields.Holds "name" (record.name.map .string)
  inner : fields.Holds "ofType" record.inner

/-- The fields of an object leave no choice for the record. -/
theorem IsOf.unique {a b : WireRecord} {fields : Entries Json} (ha : a.IsOf fields)
    (hb : b.IsOf fields) : a = b := by
  have hstring : Function.Injective Json.string := fun _ _ h => by injection h
  obtain ⟨kind, name, inner⟩ := a
  obtain ⟨kind', name', inner'⟩ := b
  obtain rfl : kind = kind' := Option.map_injective hstring (ha.kind.unique hb.kind)
  obtain rfl : name = name' := Option.map_injective hstring (ha.name.unique hb.name)
  obtain rfl : inner = inner' := ha.inner.unique hb.inner
  rfl

end WireRecord

/-- The wrappers of type references. -/
inductive Wrapper where
  | nonNull
  | list
deriving Repr, DecidableEq, Inhabited

namespace Wrapper

/-- The kind of a wrapper in introspection results. -/
def word : Wrapper → String
  | nonNull => "NON_NULL"
  | list => "LIST"

/-- A reference in a wrapper. -/
def wrap : Wrapper → TypeRef → TypeRef
  | nonNull => .nonNull
  | list => .list

/-- A word stands for one wrapper only. -/
theorem word_injective {a b : Wrapper} (h : a.word = b.word) : a = b := by
  cases a <;> cases b
  · rfl
  · exact absurd h (by decide)
  · exact absurd h (by decide)
  · rfl

end Wrapper

/-- From an introspected reference one comes by the field `ofType` through wrappers to an object at
the end. That has no reference in it, or a stray one, as its kind is not that of a wrapper. -/
inductive WireChain : Json → List Wrapper → WireRecord → Prop
  | stop {fields : Entries Json} {record : WireRecord} (isOf : record.IsOf fields)
      (inner : record.inner = none) : WireChain (.object fields) [] record
  | stray {fields : Entries Json} {record last : WireRecord} {value : Json}
      {wrappers : List Wrapper} (isOf : record.IsOf fields)
      (kind : ∀ wrapper : Wrapper, record.kind ≠ some wrapper.word)
      (inner : record.inner = some value) (chain : WireChain value wrappers last) :
      WireChain (.object fields) [] record
  | wrap {fields : Entries Json} {record last : WireRecord} {wrapper : Wrapper} {value : Json}
      {wrappers : List Wrapper} (isOf : record.IsOf fields)
      (kind : record.kind = some wrapper.word) (inner : record.inner = some value)
      (chain : WireChain value wrappers last) :
      WireChain (.object fields) (wrapper :: wrappers) last

/-- No reference has two chains. -/
theorem WireChain.unique {json : Json} {wrappers wrappers' : List Wrapper}
    {last last' : WireRecord} (h : WireChain json wrappers last)
    (h' : WireChain json wrappers' last') : wrappers = wrappers' ∧ last = last' := by
  -- At each object both chains go by the same fields, so they agree on whether it is a wrapper.
  induction h generalizing wrappers' last' with
  | stop isOf inner =>
    cases h' with
    | stop isOf' | stray isOf' => exact ⟨rfl, isOf.unique isOf'⟩
    | wrap isOf' _ inner' =>
      obtain rfl := isOf.unique isOf'
      simp [inner] at inner'
  | stray isOf kind _ _ _ =>
    cases h' with
    | stop isOf' | stray isOf' => exact ⟨rfl, isOf.unique isOf'⟩
    | wrap isOf' kind' =>
      obtain rfl := isOf.unique isOf'
      exact absurd kind' (kind _)
  | wrap isOf kind inner _ ih =>
    cases h' with
    | stop isOf' inner' =>
      obtain rfl := isOf.unique isOf'
      simp [inner] at inner'
    | stray isOf' kind' =>
      obtain rfl := isOf.unique isOf'
      exact absurd kind (kind' _)
    | wrap isOf' kind' inner' chain' =>
      obtain rfl := isOf.unique isOf'
      obtain rfl := Option.some.inj (inner.symm.trans inner')
      obtain rfl := Wrapper.word_injective (Option.some.inj (kind.symm.trans kind'))
      obtain ⟨rfl, rfl⟩ := ih chain'
      exact ⟨rfl, rfl⟩

/-! ## The end of a chain -/

namespace WireRecord

/-- The kinds of named types, with the types that they stand for. Interfaces and unions count as
objects. -/
def leafWords : Entries (String → TypeRef) :=
  [("SCALAR", .scalar), ("OBJECT", .object), ("INTERFACE", .object), ("UNION", .object),
    ("INPUT_OBJECT", .inputObject), ("ENUM", .enumeration)]

/-- An object lacks what its kind needs, or its kind is missing or not known. -/
inductive Incomplete (record : WireRecord) : Prop
  | unwrapped (wrapper : Wrapper) (hasKind : record.kind = some wrapper.word)
      (noInner : record.inner = none)
  | nameless (word : String) (hasKind : record.kind = some word) (leaf : word ∈ leafWords.keys)
      (noName : record.name = none)
  | kindless (noKind : record.kind = none)
  | unknown (word : String) (hasKind : record.kind = some word)
      (noWrapper : ∀ wrapper : Wrapper, word ≠ wrapper.word) (noLeaf : word ∉ leafWords.keys)

/-- The type that an object at the end of a chain stands for. -/
inductive EndsIn (record : WireRecord) : TypeRef → Prop
  | named {word name : String} {make : String → TypeRef} (hasKind : record.kind = some word)
      (leaf : (word, make) ∈ leafWords) (hasName : record.name = some name) :
      EndsIn record (make name)
  | unresolved (incomplete : record.Incomplete) : EndsIn record .unresolved

/-- No word stands for two kinds of leaves. -/
theorem nodup_keys_leafWords : leafWords.keys.Nodup := by decide

/-- No word stands for a wrapper and a leaf. -/
theorem word_not_mem_leafWords (wrapper : Wrapper) : wrapper.word ∉ leafWords.keys := by
  cases wrapper <;> decide

/-- A named type has no wrappers, and is not unresolved. -/
theorem base_of_mem_leafWords {word : String} {make : String → TypeRef}
    (h : (word, make) ∈ leafWords) (name : String) :
    (make name).base = make name ∧ make name ≠ .unresolved := by
  simp only [leafWords, List.mem_cons, List.not_mem_nil, or_false, Prod.mk.injEq] at h
  rcases h with ⟨-, rfl⟩ | ⟨-, rfl⟩ | ⟨-, rfl⟩ | ⟨-, rfl⟩ | ⟨-, rfl⟩ | ⟨-, rfl⟩
  all_goals exact ⟨rfl, by simp⟩

variable {record : WireRecord}

/-- An object that names a type lacks nothing. -/
theorem Incomplete.not_named {word name : String} {make : String → TypeRef}
    (h : record.Incomplete) (hasKind : record.kind = some word) (leaf : (word, make) ∈ leafWords)
    (hasName : record.name = some name) : False := by
  have hkey : word ∈ leafWords.keys := List.mem_map_of_mem leaf
  cases h with
  | unwrapped wrapper hasKind' =>
    obtain rfl := Option.some.inj (hasKind.symm.trans hasKind')
    exact word_not_mem_leafWords wrapper hkey
  | nameless _ _ _ noName => simp [noName] at hasName
  | kindless noKind => simp [noKind] at hasKind
  | unknown word' hasKind' _ noLeaf =>
    obtain rfl := Option.some.inj (hasKind.symm.trans hasKind')
    exact noLeaf hkey

namespace EndsIn

variable {leaf leaf' : TypeRef}

/-- What a chain ends in wraps nothing. -/
theorem base_eq (h : record.EndsIn leaf) : leaf.base = leaf := by
  cases h with
  | named _ mem _ => exact (base_of_mem_leafWords mem _).1
  | unresolved => rfl

/-- The type at the end is unresolved exactly if the object lacks something. -/
theorem eq_unresolved_iff (h : record.EndsIn leaf) : leaf = .unresolved ↔ record.Incomplete := by
  cases h with
  | named hasKind mem hasName =>
    exact ⟨fun heq => absurd heq (base_of_mem_leafWords mem _).2,
      fun incomplete => (incomplete.not_named hasKind mem hasName).elim⟩
  | unresolved incomplete => exact iff_of_true rfl incomplete

/-- A record ends in one leaf only. -/
theorem unique (h : record.EndsIn leaf) (h' : record.EndsIn leaf') : leaf = leaf' := by
  cases h with
  | unresolved incomplete => exact (h'.eq_unresolved_iff.2 incomplete).symm
  | named hasKind mem hasName =>
    cases h' with
    | unresolved incomplete => exact (incomplete.not_named hasKind mem hasName).elim
    | named hasKind' mem' hasName' =>
      obtain rfl := Option.some.inj (hasKind.symm.trans hasKind')
      obtain rfl := Option.some.inj (hasName.symm.trans hasName')
      have hmake := (Entries.find?_of_mem nodup_keys_leafWords mem).symm.trans
        (Entries.find?_of_mem nodup_keys_leafWords mem')
      rw [Option.some.inj hmake]

end EndsIn

end WireRecord

/-! ## Reading -/

namespace TypeRef

open WireRecord (leafWords)

/-- Reads the reference inside of another one, if there is one. -/
def readInner : Option Json → Json.Decoded (Option TypeRef)
  | none => .ok none
  | some value => (ofJson value).map some

/-- A field of another name does not matter. -/
theorem innerOfFields_cons_of_ne {key : String} (h : key ≠ "ofType") (value : Json)
    (rest : Entries Json) : innerOfFields ((key, value) :: rest) = innerOfFields rest := by
  cases value <;> exact if_neg h

/-- The inner type is read from the one field of its name. -/
theorem innerOfFields_eq {fields : Entries Json} {inner : Option Json}
    (h : fields.Holds "ofType" inner) : innerOfFields fields = readInner inner := by
  induction fields with
  | nil =>
    cases h with
    | missing => rfl
    | null only | value only => simp at only
  | cons field rest ih =>
    obtain ⟨key, value⟩ := field
    by_cases hkey : key = "ofType"
    · -- No other field has the key, so it is this one that is held.
      subst hkey
      cases h with
      | missing only => simp at only
      | null only =>
        obtain ⟨rfl, -⟩ : value = .null ∧ _ := by simpa using only
        rfl
      | value only notNull =>
        obtain ⟨rfl, -⟩ : value = _ ∧ _ := by simpa using only
        cases value with
        | null => exact absurd rfl notNull
        | bool | int | float | string | array | object => rfl
    · rw [innerOfFields_cons_of_ne hkey]
      exact ih (h.of_cons hkey)

/-- An object is read if its fields say something about a reference, and the reference inside is
read. -/
theorem ofJson_object_eq_ok_iff {fields : Entries Json} {reference : TypeRef} :
    ofJson (.object fields) = .ok reference ↔ ∃ record : WireRecord, ∃ inner,
      record.IsOf fields ∧ readInner record.inner = .ok inner ∧
        ofParts record.kind record.name inner = reference := by
  rw [ofJson]
  constructor
  · intro h
    obtain ⟨kind, hkind, h⟩ := exists_of_bind_eq_ok h
    obtain ⟨name, hname, h⟩ := exists_of_bind_eq_ok h
    obtain ⟨found, hfound, h⟩ := exists_of_bind_eq_ok h
    obtain ⟨inner, hinner, h⟩ := exists_of_bind_eq_ok h
    obtain ⟨value, hvalue⟩ := Entries.exists_holds_iff.2 ⟨found, hfound⟩
    rw [innerOfFields_eq hvalue] at hinner
    exact ⟨⟨kind, name, value⟩, inner, ⟨Entries.optional_toText_eq_ok_iff.1 hkind,
      Entries.optional_toText_eq_ok_iff.1 hname, hvalue⟩, hinner, Except.ok.inj h⟩
  · rintro ⟨record, inner, isOf, hinner, rfl⟩
    obtain ⟨found, hfound⟩ := Entries.exists_holds_iff.1 ⟨_, isOf.inner⟩
    rw [Entries.optional_toText_eq_ok_iff.2 isOf.kind,
      Entries.optional_toText_eq_ok_iff.2 isOf.name, hfound, innerOfFields_eq isOf.inner, hinner]
    rfl

/-- A wrapper is put around the inner type, and without one the type stays unresolved. -/
theorem ofParts_of_wrapper {kind : Option String} {wrapper : Wrapper}
    (h : kind = some wrapper.word) (name : Option String) (inner : Option TypeRef) :
    ofParts kind name inner = (inner.map wrapper.wrap).getD .unresolved := by
  subst h
  cases wrapper <;> cases name <;> rfl

/-- An object that is no wrapper stands for a named type, or for an unresolved one if it lacks
something. -/
theorem endsIn_ofParts {record : WireRecord}
    (noWrapper : ∀ wrapper : Wrapper, record.kind ≠ some wrapper.word) (inner : Option TypeRef) :
    record.EndsIn (ofParts record.kind record.name inner) := by
  unfold ofParts
  -- Two wrappers, six kinds with a name, and whatever lacks something.
  split
  · next hkind => exact absurd hkind (noWrapper .nonNull)
  · next hkind => exact absurd hkind (noWrapper .list)
  · next hkind hname => exact .named hkind (by simp [leafWords]) hname
  · next hkind hname => exact .named hkind (by simp [leafWords]) hname
  · next hkind hname => exact .named hkind (by simp [leafWords]) hname
  · next hkind hname => exact .named hkind (by simp [leafWords]) hname
  · next hkind hname => exact .named hkind (by simp [leafWords]) hname
  · next hkind hname => exact .named hkind (by simp [leafWords]) hname
  · next hscalar hobject hinterface hunion hinput henum =>
    refine .unresolved ?_
    cases hkind : record.kind with
    | none => exact .kindless hkind
    | some word =>
      by_cases hleaf : word ∈ leafWords.keys
      · refine .nameless word hkind hleaf ?_
        cases hname : record.name with
        | none => rfl
        | some name => simp_all [leafWords]
      · exact .unknown word hkind (fun wrapper heq => noWrapper wrapper (heq ▸ hkind)) hleaf

/-- An object without a reference inside stands for a type as well, as a wrapper lacks something
then. -/
theorem endsIn_ofParts_none {record : WireRecord} (h : record.inner = none) :
    record.EndsIn (ofParts record.kind record.name none) := by
  by_cases hwrapper : ∃ wrapper : Wrapper, record.kind = some wrapper.word
  · obtain ⟨wrapper, hkind⟩ := hwrapper
    rw [ofParts_of_wrapper hkind]
    exact .unresolved (.unwrapped wrapper hkind h)
  · exact endsIn_ofParts (fun wrapper hkind => hwrapper ⟨wrapper, hkind⟩) none

/-- The value of a field is smaller than the object. -/
theorem sizeOf_lt_of_holds {fields : Entries Json} {key : String} {value : Json}
    (h : fields.Holds key (some value)) : sizeOf value < sizeOf (Json.object fields) := by
  have hlt := List.sizeOf_lt_of_mem h.mem
  simp only [Prod.mk.sizeOf_spec, Json.object.sizeOf_spec] at hlt ⊢
  omega

/-- Whatever is read is the type at the end of the chain, in the wrappers of the chain. By recursion
on the reference, as the one inside is smaller. -/
theorem exists_chain_of_ofJson {json : Json} {reference : TypeRef}
    (h : ofJson json = .ok reference) : ∃ wrappers last leaf, WireChain json wrappers last ∧
      last.EndsIn leaf ∧ reference = wrappers.foldr Wrapper.wrap leaf := by
  match json with
  | .null | .bool _ | .int _ | .float _ | .string _ | .array _ => cases h
  | .object fields =>
    obtain ⟨record, inner, isOf, hinner, rfl⟩ := ofJson_object_eq_ok_iff.1 h
    cases hvalue : record.inner with
    | none =>
      rw [hvalue] at hinner
      obtain rfl : none = inner := Except.ok.inj hinner
      exact ⟨[], record, _, .stop isOf hvalue, endsIn_ofParts_none hvalue, rfl⟩
    | some value =>
      have hsmaller : sizeOf value < sizeOf (Json.object fields) :=
        sizeOf_lt_of_holds (hvalue ▸ isOf.inner)
      rw [hvalue] at hinner
      obtain ⟨read, hread, rfl⟩ : ∃ read, ofJson value = .ok read ∧ some read = inner := by
        cases hread : ofJson value with
        | error mismatch => simp [readInner, hread, Except.map] at hinner
        | ok read => exact ⟨read, rfl, by simpa [readInner, hread, Except.map] using hinner⟩
      obtain ⟨wrappers, last, leaf, chain, ends, rfl⟩ := exists_chain_of_ofJson hread
      -- A wrapper goes on with the chain of the reference inside, which is stray for other kinds.
      by_cases hwrapper : ∃ wrapper : Wrapper, record.kind = some wrapper.word
      · obtain ⟨wrapper, hkind⟩ := hwrapper
        refine ⟨wrapper :: wrappers, last, leaf, .wrap isOf hkind hvalue chain, ends, ?_⟩
        rw [ofParts_of_wrapper hkind]
        rfl
      · have hkind : ∀ wrapper : Wrapper, record.kind ≠ some wrapper.word :=
          fun wrapper hkind => hwrapper ⟨wrapper, hkind⟩
        exact ⟨[], record, _, .stray isOf hkind hvalue chain, endsIn_ofParts hkind _, rfl⟩
termination_by sizeOf json
decreasing_by exact hsmaller

/-- Every chain ends in a type, and the reference is read as that type in the wrappers. By induction
on the chain. -/
theorem exists_ofJson_of_chain {json : Json} {wrappers : List Wrapper} {last : WireRecord}
    (h : WireChain json wrappers last) :
    ∃ leaf, last.EndsIn leaf ∧ ofJson json = .ok (wrappers.foldr Wrapper.wrap leaf) := by
  induction h with
  | @stop fields record isOf inner =>
    have hread : ofJson (.object fields) = .ok (ofParts record.kind record.name none) :=
      ofJson_object_eq_ok_iff.2 ⟨record, none, isOf, by rw [inner]; rfl, rfl⟩
    exact ⟨_, endsIn_ofParts_none inner, hread⟩
  | @stray fields record last value wrappers isOf kind inner chain ih =>
    obtain ⟨leaf, -, hread⟩ := ih
    refine ⟨_, endsIn_ofParts kind (some (wrappers.foldr Wrapper.wrap leaf)), ?_⟩
    exact ofJson_object_eq_ok_iff.2 ⟨record, _, isOf, by rw [inner, readInner, hread]; rfl, rfl⟩
  | @wrap fields record last wrapper value wrappers isOf kind inner chain ih =>
    obtain ⟨leaf, ends, hread⟩ := ih
    refine ⟨leaf, ends, ?_⟩
    refine ofJson_object_eq_ok_iff.2 ⟨record, some (wrappers.foldr Wrapper.wrap leaf), isOf, ?_, ?_⟩
    · rw [inner, readInner, hread]
      rfl
    · rw [ofParts_of_wrapper kind]
      rfl

/-! ## Writing and reading -/

/-- No type is written as null. -/
theorem toJson_ne_null (reference : TypeRef) : reference.toJson ≠ .null := by
  cases reference <;> simp [toJson]

/-- What is written for a wrapper says its kind and what is inside. -/
theorem isOf_wrapper (wrapper : Wrapper) (inner : TypeRef) :
    WireRecord.IsOf ⟨some wrapper.word, none, some inner.toJson⟩
      [("kind", .string wrapper.word), ("ofType", inner.toJson)] where
  kind := .string rfl
  name := .missing rfl
  inner := .value rfl inner.toJson_ne_null

/-- What is written for a named type says its kind and its name. -/
theorem isOf_named (word name : String) : WireRecord.IsOf ⟨some word, some name, none⟩
    [("kind", .string word), ("name", .string name)] where
  kind := .string rfl
  name := .string rfl
  inner := .missing rfl

/-- What is written for a reference is read as the reference. -/
theorem ofJson_toJson (reference : TypeRef) : ofJson reference.toJson = .ok reference := by
  have hwrapper (wrapper : Wrapper) (inner : TypeRef) (ih : ofJson inner.toJson = .ok inner) :
      ofJson (.object [("kind", .string wrapper.word), ("ofType", inner.toJson)]) =
        .ok (wrapper.wrap inner) := by
    refine ofJson_object_eq_ok_iff.2 ⟨_, some inner, isOf_wrapper wrapper inner, ?_, ?_⟩
    · rw [readInner, ih]
      rfl
    · rw [ofParts_of_wrapper rfl]
      rfl
  have hnamed (word name : String) :
      ofJson (.object [("kind", .string word), ("name", .string name)]) =
        .ok (ofParts (some word) (some name) none) :=
    ofJson_object_eq_ok_iff.2 ⟨_, none, isOf_named word name, rfl, rfl⟩
  induction reference with
  | nonNull inner ih => exact hwrapper .nonNull inner ih
  | list inner ih => exact hwrapper .list inner ih
  | scalar name => exact hnamed "SCALAR" name
  | object name => exact hnamed "OBJECT" name
  | inputObject name => exact hnamed "INPUT_OBJECT" name
  | enumeration name => exact hnamed "ENUM" name
  | unresolved => rfl

/-- Wrappers around a type change nothing of what it comes down to. -/
theorem base_foldr_wrap (wrappers : List Wrapper) (leaf : TypeRef) :
    (wrappers.foldr Wrapper.wrap leaf).base = leaf.base := by
  induction wrappers with
  | nil => rfl
  | cons wrapper rest ih =>
    rw [List.foldr_cons]
    cases wrapper with
    | nonNull => exact ih
    | list => exact ih

/-- What is written for a reference is read back. Whatever is read has the wrappers of its chain, in
their order, around the type that the object at the end stands for: a named type, or an unresolved
one exactly if the object lacks something, and then the name of the type is not known. -/
theorem ofJson_follows_chain (json : Json) (reference : TypeRef) :
    ofJson reference.toJson = .ok reference ∧
    (ofJson json = .ok reference ↔ ∃ wrappers last, WireChain json wrappers last ∧
      last.EndsIn reference.base ∧ reference = wrappers.foldr Wrapper.wrap reference.base) ∧
    ∀ wrappers last, WireChain json wrappers last →
      (∀ wrappers' last', WireChain json wrappers' last' → wrappers' = wrappers ∧ last' = last) ∧
      (ofJson json = .ok reference → (reference.base = .unresolved ↔ last.Incomplete) ∧
        (last.Incomplete → reference.baseName = unknownName)) := by
  have hbase {last : WireRecord} {leaf : TypeRef} (ends : last.EndsIn leaf)
      (wrappers : List Wrapper) : (wrappers.foldr Wrapper.wrap leaf).base = leaf := by
    rw [base_foldr_wrap, ends.base_eq]
  refine ⟨ofJson_toJson reference, ⟨?_, ?_⟩, ?_⟩
  · intro h
    obtain ⟨wrappers, last, leaf, chain, ends, rfl⟩ := exists_chain_of_ofJson h
    rw [hbase ends]
    exact ⟨wrappers, last, chain, ends, rfl⟩
  · rintro ⟨wrappers, last, chain, ends, heq⟩
    obtain ⟨leaf, ends', hread⟩ := exists_ofJson_of_chain chain
    rw [hread, ends'.unique ends, ← heq]
  · intro wrappers last chain
    refine ⟨fun _ _ chain' => chain'.unique chain, fun h => ?_⟩
    obtain ⟨leaf, ends, hread⟩ := exists_ofJson_of_chain chain
    obtain rfl := Except.ok.inj (hread.symm.trans h)
    rw [hbase ends]
    refine ⟨ends.eq_unresolved_iff, fun incomplete => ?_⟩
    rw [baseName, hbase ends, ends.eq_unresolved_iff.2 incomplete]

end TypeRef

namespace Sample

/-- An enum without a name. -/
def namelessEnum : Json := .object [("kind", .string "ENUM"), ("name", .null)]

/-- A list of an enum without a name. The list has a name of its own, which does not count. -/
def namelessList : Json :=
  .object [("kind", .string "LIST"), ("name", .string "Levels"), ("ofType", namelessEnum)]

/-- The list is kept, and the enum is unresolved. -/
theorem namelessList_unresolved :
    WireChain namelessList [.list] ⟨some "ENUM", none, none⟩ ∧
      TypeRef.ofJson namelessList = .ok (.list .unresolved) ∧
      WireRecord.Incomplete ⟨some "ENUM", none, none⟩ ∧
      (TypeRef.list .unresolved).baseName = TypeRef.unknownName := by
  have hinner : WireChain namelessEnum [] ⟨some "ENUM", none, none⟩ :=
    .stop ⟨.string rfl, .null rfl, .missing rfl⟩ rfl
  have hlist : WireRecord.IsOf ⟨some "LIST", some "Levels", some namelessEnum⟩
      [("kind", .string "LIST"), ("name", .string "Levels"), ("ofType", namelessEnum)] :=
    ⟨.string rfl, .string rfl, .value rfl (by simp [namelessEnum])⟩
  have hchain : WireChain namelessList [.list] ⟨some "ENUM", none, none⟩ :=
    .wrap hlist rfl rfl hinner
  have hread : TypeRef.ofJson namelessList = .ok (.list .unresolved) := rfl
  obtain ⟨hiff, hname⟩ :=
    ((TypeRef.ofJson_follows_chain namelessList (.list .unresolved)).2.2 _ _ hchain).2 hread
  exact ⟨hchain, hread, hiff.1 rfl, hname (hiff.1 rfl)⟩

end Sample

end GraphClient
