import GraphClient.Package.TypesFile
import GraphClient.Proofs.Package.Exports
import GraphClient.Proofs.Typing.Layers
import Mathlib.Data.List.Infix

/-!
# Filters

The types file defines the filters that columns are matched with, and the filter of a table's rows
has a property for each column that can be matched. Columns are looked at one by one in either
place, several scalars share one filter, and the first column of a filter decides what its operands
are. Still every filter that a property names is defined, once, and its operands suit all scalars
that it is for.

* `FilterFamily.operands` : what the operators of a filter take.
* `TypesFile.Matches` : the filter that a column is matched with, and the type that names it.
* `TypesFile.FiltersDefined` : the filters that the types file defines, and those that are named.
* `TypesFile.filters_defined` : they agree, for every blueprint.
-/

namespace GraphClient

open TypeScript (TypeExpr Property Declaration Item)

/-! ## Operators -/

namespace FilterFamily

/-- What the operators of a family take, in their order; `value` is the type of the values that are
compared. Every family compares for equality. Values that are ordered are also compared by their
order, and texts are looked into besides; JSON values are looked into, but have no order. -/
def operands (value : TypeExpr) (family : FilterFamily) : List (String × TypeExpr) :=
  let equality := [("isNull", .named "boolean"), ("equalTo", value), ("notEqualTo", value),
    ("distinctFrom", value), ("notDistinctFrom", value), ("in", .array value),
    ("notIn", .array value)]
  let order := [("lessThan", value), ("lessThanOrEqualTo", value), ("greaterThan", value),
    ("greaterThanOrEqualTo", value)]
  let text := [("includes", value), ("notIncludes", value), ("includesInsensitive", value),
    ("startsWith", value), ("endsWith", value), ("like", .named "string"),
    ("likeInsensitive", .named "string")]
  let json := [("contains", value), ("containedBy", value), ("containsKey", .named "string")]
  match family with
  | .equality => equality
  | .ordered => equality ++ order
  | .text => equality ++ order ++ text
  | .json => equality ++ json

end FilterFamily

namespace TypesFile

/-- Some properties are the operators of a filter: each of them may be left out, is described, and
takes what it should. -/
structure AreOperators (properties : List Property) (operands : List (String × TypeExpr)) :
    Prop where
  operands_eq : properties.map (fun property => (property.key, property.value)) = operands
  optional : ∀ property ∈ properties, property.optional = true
  described : ∀ property ∈ properties, property.docs.isSome = true

/-- The operators of a family are written as properties, by the four families. -/
theorem areOperators_operatorProperties (value : TypeExpr) (family : FilterFamily) :
    AreOperators (operatorProperties value family) (family.operands value) where
  operands_eq := by cases family <;> rfl
  optional := by
    intro property hproperty
    obtain ⟨operator, -, rfl⟩ := List.mem_map.1 hproperty
    rfl
  described := by
    intro property hproperty
    obtain ⟨operator, -, rfl⟩ := List.mem_map.1 hproperty
    rfl

end TypesFile

/-! ## Scalars that share a filter -/

namespace Scalar

/-- Built-in scalars that share a filter have the same type, and the same operators. -/
theorem eq_of_mem_builtins {s t : Scalar} (hs : s ∈ builtins) (ht : t ∈ builtins) {f g : Filter}
    (hf : s.filter = some f) (hg : t.filter = some g) (hname : f.name = g.name) :
    s.typeName = t.typeName ∧ f.family = g.family := by
  have hshared : ∀ s ∈ builtins, ∀ t ∈ builtins,
      s.filter.map (·.name) = t.filter.map (·.name) → s.filter.isSome →
        s.typeName = t.typeName ∧ s.filter.map (·.family) = t.filter.map (·.family) := by decide
  have h := hshared s hs t ht (by rw [hf, hg]; exact congrArg some hname) (by rw [hf]; rfl)
  rw [hf, hg] at h
  exact ⟨h.1, Option.some.inj h.2⟩

/-- The filter of enums is not shared with a scalar. -/
theorem filter_ne_enumFilter {s : Scalar} (hs : s ∈ builtins) {f : Filter}
    (hf : s.filter = some f) : f.name ≠ TypesFile.enumFilter := by
  have hother : ∀ s ∈ builtins, s.filter.map (·.name) ≠ some TypesFile.enumFilter := by decide
  have h := hother s hs
  rw [hf] at h
  exact fun hname => h (congrArg some hname)

end Scalar

namespace ScalarSettings

variable {settings : ScalarSettings} {name : String} {filter : Filter}

/-- A scalar with a filter is a built-in one that keeps its type. -/
theorem exists_builtin_of_filter? (h : settings.filter? name = some filter) :
    ∃ scalar ∈ Scalar.builtins, scalar.filter = some filter ∧
      settings.typeName? name = some scalar.typeName := by
  unfold filter? at h
  split at h
  · cases h
  next hoverride =>
  obtain ⟨scalar, hscalar, hfilter⟩ := Option.bind_eq_some_iff.1 h
  refine ⟨scalar, List.mem_of_find?_eq_some hscalar, hfilter, ?_⟩
  have hnone : settings.overrides.find? name = none := by
    rw [Bool.not_eq_true, Keyed.contains, Option.isSome_eq_false_iff, Option.isNone_iff_eq_none]
      at hoverride
    exact hoverride
  rw [typeName?, hnone, hscalar]
  rfl

/-- The operands of a scalar with a filter have the type of the scalar. -/
theorem scalarName_eq_of_filter? (h : settings.filter? name = some filter) :
    settings.scalarName name = (settings.typeName? name).getD "unknown" := by
  obtain ⟨scalar, -, -, htype⟩ := exists_builtin_of_filter? h
  rw [scalarName, htype]
  rfl

/-- Scalars that share a filter have the same type, and the same operators. -/
theorem eq_of_filter?_name {other : String} {filter' : Filter}
    (h : settings.filter? name = some filter) (h' : settings.filter? other = some filter')
    (hname : filter.name = filter'.name) :
    settings.scalarName name = settings.scalarName other ∧ filter.family = filter'.family := by
  obtain ⟨s, hs, hf, htype⟩ := exists_builtin_of_filter? h
  obtain ⟨t, ht, hg, htype'⟩ := exists_builtin_of_filter? h'
  obtain ⟨heq, hfamily⟩ := Scalar.eq_of_mem_builtins hs ht hf hg hname
  refine ⟨?_, hfamily⟩
  rw [scalarName_eq_of_filter? h, scalarName_eq_of_filter? h', htype, htype', heq]

end ScalarSettings

/-! ## The first pair of each key -/

namespace TypesFile

variable {scalars : ScalarSettings} {column : TableField}

/-- The first use of a filter counts. -/
theorem find?_addFilter (filters : Keyed UsedFilter) (p : String × UsedFilter) (name : String) :
    (addFilter filters p).find? name =
      (filters.find? name).or (if p.1 = name then some p.2 else none) := by
  unfold addFilter
  by_cases hname : p.1 = name
  · subst hname
    cases hfind : filters.find? p.1 with
    | none => simp [Keyed.contains, hfind, Keyed.find?_insert]
    | some found => simp [Keyed.contains, hfind]
  · have hinsert := filters.find?_insert p.1 p.2 name
    rw [if_neg hname] at hinsert
    rw [if_neg hname, Option.or_none]
    split
    · rfl
    · exact hinsert

/-- A filter that is used again stays where it is. -/
theorem keys_addFilter (filters : Keyed UsedFilter) (p : String × UsedFilter) :
    (addFilter filters p).keys =
      if p.1 ∈ filters.keys then filters.keys else filters.keys ++ [p.1] := by
  unfold addFilter
  by_cases hmem : p.1 ∈ filters.keys
  · rw [if_pos hmem, if_pos ((filters.contains_iff p.1).2 hmem)]
  · have hcontains : ¬ filters.contains p.1 = true := fun h => hmem ((filters.contains_iff p.1).1 h)
    rw [if_neg hcontains, Keyed.keys_insert]

/-- A filter that is added early stays. -/
theorem find?_foldl_addFilter (pairs : List (String × UsedFilter)) (name : String) :
    ∀ filters : Keyed UsedFilter, (pairs.foldl addFilter filters).find? name =
      (filters.find? name).or (Entries.find? pairs name) := by
  induction pairs with
  | nil => simp
  | cons p rest ih =>
    intro filters
    rw [List.foldl_cons, ih, find?_addFilter, Option.or_assoc]
    by_cases hname : p.1 = name <;> simp [Entries.find?, hname]

/-- Names that are new are appended in the order in which they first appear. -/
theorem keys_foldl_addFilter (pairs : List (String × UsedFilter)) :
    ∀ filters : Keyed UsedFilter, (pairs.foldl addFilter filters).keys =
      filters.keys ++
        ((Entries.keys pairs).filter fun name => !filters.keys.contains name).eraseDups := by
  induction pairs with
  | nil => simp
  | cons p rest ih =>
    intro filters
    rw [List.foldl_cons, ih, keys_addFilter, Entries.keys_cons]
    by_cases hmem : p.1 ∈ filters.keys
    · simp [hmem]
    · -- A name that is added here is not new any more among the rest.
      have hfilter : (Entries.keys rest).filter
            (fun name => !(filters.keys ++ [p.1]).contains name) =
          ((Entries.keys rest).filter fun name => !filters.keys.contains name).filter
            fun name => !name == p.1 := by
        rw [List.filter_filter]
        refine List.filter_congr fun name _ => ?_
        by_cases h : name = p.1 <;> simp [h]
      rw [if_neg hmem, hfilter, List.filter_cons_of_pos (by simpa using hmem),
        List.eraseDups_cons, List.append_assoc]
      rfl

/-! ## Columns and their filters -/

/-- A column is matched with a filter. The type names the filter; that of enums is applied to the
enum. -/
inductive Matches (scalars : ScalarSettings) (column : TableField) :
    TypeExpr → String → UsedFilter → Prop
  | scalar {name : String} {filter : Filter} (single : column.type.isList = false)
      (base : column.type.base = .scalar name) (found : scalars.filter? name = some filter) :
      Matches scalars column (.named filter.name) filter.name
        (.scalar (scalars.scalarName name) filter.family)
  | enumeration {name : String} (single : column.type.isList = false)
      (base : column.type.base = .enumeration name) :
      Matches scalars column (.generic enumFilter [.named name]) enumFilter .enumeration

/-- Only a column with a single value is filtered. -/
theorem Matches.single {type : TypeExpr} {name : String} {filter : UsedFilter}
    (h : Matches scalars column type name filter) : column.type.isList = false := by
  cases h <;> assumption

/-- The filter that a column is counted with. -/
theorem columnFilter?_eq_some_iff {name : String} {filter : UsedFilter} :
    columnFilter? scalars column = some (name, filter) ↔
      ∃ type, Matches scalars column type name filter := by
  constructor
  · intro h
    unfold columnFilter? at h
    split at h
    · cases h
    next single =>
    rw [Bool.not_eq_true] at single
    rw [TypeRef.baseKind, TypeRef.baseName] at h
    cases hbase : column.type.base <;> simp only [hbase, TypeRef.kind] at h
    case scalar base =>
      obtain ⟨found, hfound, heq⟩ := Option.map_eq_some_iff.1 h
      obtain ⟨rfl, rfl⟩ := Prod.mk.inj heq
      rw [← ScalarSettings.scalarName_eq_of_filter? hfound]
      exact ⟨_, .scalar single hbase hfound⟩
    case enumeration base =>
      obtain ⟨rfl, rfl⟩ := Prod.mk.inj (Option.some.inj h)
      exact ⟨_, .enumeration single hbase⟩
    all_goals cases h
  · rintro ⟨type, ⟨single, base, found⟩ | ⟨single, base⟩⟩
    · simp [columnFilter?, single, TypeRef.baseKind, TypeRef.baseName, base, TypeRef.kind, found,
        ScalarSettings.scalarName_eq_of_filter? found]
    · simp [columnFilter?, single, TypeRef.baseKind, base, TypeRef.kind]

/-- The property of a column in the filter of the rows names the filter that the column is matched
with. -/
theorem filterProperty?_eq_some_iff {property : Property} :
    filterProperty? scalars column = some property ↔
      ∃ type name filter, Matches scalars column type name filter ∧
        property = .possible column.name type := by
  constructor
  · intro h
    unfold filterProperty? at h
    split at h
    · cases h
    next single =>
    rw [Bool.not_eq_true] at single
    rw [TypeRef.baseKind, TypeRef.baseName] at h
    cases hbase : column.type.base <;> simp only [hbase, TypeRef.kind] at h
    case scalar base =>
      obtain ⟨found, hfound, rfl⟩ := Option.map_eq_some_iff.1 h
      exact ⟨_, _, _, .scalar single hbase hfound, rfl⟩
    case enumeration base =>
      obtain rfl := Option.some.inj h
      exact ⟨_, _, _, .enumeration single hbase, rfl⟩
    all_goals cases h
  · rintro ⟨type, name, filter, ⟨single, base, found⟩ | ⟨single, base⟩, rfl⟩
    · simp [filterProperty?, single, TypeRef.baseKind, TypeRef.baseName, base, TypeRef.kind, found]
    · simp [filterProperty?, single, TypeRef.baseKind, TypeRef.baseName, base, TypeRef.kind]

/-- Both looks at a column agree: it has a property in the filter of the rows exactly if it is
counted with a filter. -/
theorem isSome_filterProperty?_iff :
    (filterProperty? scalars column).isSome = true ↔
      (columnFilter? scalars column).isSome = true := by
  rw [Option.isSome_iff_exists, Option.isSome_iff_exists]
  constructor
  · rintro ⟨property, h⟩
    obtain ⟨type, name, filter, hmatches, -⟩ := filterProperty?_eq_some_iff.1 h
    exact ⟨(name, filter), columnFilter?_eq_some_iff.2 ⟨type, hmatches⟩⟩
  · rintro ⟨⟨name, filter⟩, h⟩
    obtain ⟨type, hmatches⟩ := columnFilter?_eq_some_iff.1 h
    exact ⟨_, filterProperty?_eq_some_iff.2 ⟨type, name, filter, hmatches, rfl⟩⟩

/-- The filters that the columns of some tables are counted with, one for each use. -/
def filterUses (scalars : ScalarSettings) (tables : List Table) : List (String × UsedFilter) :=
  (tables.flatMap (·.fields)).filterMap (columnFilter? scalars)

/-- The uses of filters are those of the columns of all tables. -/
theorem mem_filterUses_iff {tables : List Table} {name : String} {filter : UsedFilter} :
    (name, filter) ∈ filterUses scalars tables ↔
      ∃ table ∈ tables, ∃ column ∈ table.fields, ∃ type,
        Matches scalars column type name filter := by
  rw [filterUses, List.mem_filterMap]
  constructor
  · rintro ⟨column, hcolumn, hfilter⟩
    obtain ⟨table, htable, hmem⟩ := List.mem_flatMap.1 hcolumn
    exact ⟨table, htable, column, hmem, columnFilter?_eq_some_iff.1 hfilter⟩
  · rintro ⟨table, htable, column, hmem, h⟩
    exact ⟨column, List.mem_flatMap.2 ⟨table, htable, hmem⟩, columnFilter?_eq_some_iff.2 h⟩

/-- The first use of a filter counts. -/
theorem find?_usedFilters (tables : List Table) (name : String) :
    (usedFilters scalars tables).find? name = Entries.find? (filterUses scalars tables) name := by
  rw [usedFilters, find?_foldl_addFilter, Keyed.find?_empty, Option.none_or]
  rfl

/-- The filters are defined in the order of their first use. -/
theorem keys_usedFilters (tables : List Table) :
    (usedFilters scalars tables).keys =
      (Entries.keys (filterUses scalars tables)).eraseDups := by
  have hempty : (Keyed.empty : Keyed UsedFilter).keys = [] := rfl
  rw [usedFilters, keys_foldl_addFilter, hempty, List.nil_append]
  refine congrArg List.eraseDups (List.filter_eq_self.2 fun name _ => ?_)
  rfl

example : (usedFilters {} [{
    name := "Ticket"
    fields := [⟨"id", .nonNull (.scalar "UUID"), none⟩, ⟨"opened", .scalar "DateTime", none⟩,
      ⟨"tags", .list (.scalar "String"), none⟩, ⟨"phase", .enumeration "Phase", none⟩,
      ⟨"closed", .scalar "Datetime", none⟩] }]).keys =
    ["UUIDFilter", "DatetimeFilter", "EnumFilter"] := by decide

/-- A filter is defined exactly if a column uses it. -/
theorem mem_keys_usedFilters_iff {tables : List Table} {name : String} :
    name ∈ (usedFilters scalars tables).keys ↔
      ∃ filter, (name, filter) ∈ filterUses scalars tables := by
  rw [keys_usedFilters, List.mem_eraseDups, Entries.keys, List.mem_map]
  constructor
  · rintro ⟨⟨name, filter⟩, h, rfl⟩
    exact ⟨filter, h⟩
  · rintro ⟨filter, h⟩
    exact ⟨(name, filter), h, rfl⟩

/-- What is defined for a name comes from a column that is matched with the filter. -/
theorem exists_use_of_mem_keys {tables : List Table} {name : String}
    (h : name ∈ (usedFilters scalars tables).keys) :
    ∃ filter, (name, filter) ∈ (usedFilters scalars tables).entries ∧
      (name, filter) ∈ filterUses scalars tables := by
  obtain ⟨filter, hfind⟩ := Option.isSome_iff_exists.1 (Entries.find?_isSome_iff.2 h)
  refine ⟨filter, Entries.mem_of_find? hfind, Entries.mem_of_find? ?_⟩
  rw [← find?_usedFilters]
  exact hfind

/-! ## The filters of the types file -/

/-- The items of the types file that define the filters. -/
def filterSection (blueprint : Blueprint) : List Item :=
  (usedFilters blueprint.scalars blueprint.schema.tables).entries.map fun p =>
    .exported (filterInterface p.1 p.2)

/-- Every filter that is used is exported. -/
theorem exported_mem_filterSection {blueprint : Blueprint} {name : String} {filter : UsedFilter}
    (h : (name, filter) ∈ (usedFilters blueprint.scalars blueprint.schema.tables).entries) :
    Item.exported (filterInterface name filter) ∈ filterSection blueprint :=
  List.mem_map.2 ⟨(name, filter), h, rfl⟩

/-- The section of the filters exports one name for each filter that is used. -/
theorem exportedNames_filterSection (blueprint : Blueprint) :
    (filterSection blueprint).flatMap (·.exportedNames) =
      (usedFilters blueprint.scalars blueprint.schema.tables).keys := by
  have hsection : filterSection blueprint =
      ((usedFilters blueprint.scalars blueprint.schema.tables).entries.map fun p =>
        filterInterface p.1 p.2).map Item.exported := by
    rw [List.map_map]
    rfl
  rw [hsection, flatMap_exportedNames_exported, List.map_map]
  exact List.map_congr_left fun p _ => name_filterInterface p.1 p.2

/-- The properties that combine filters of the rows of a table. -/
def connectives (table : Table) : List Property :=
  let own : TypeExpr := .named table.entityNames.filterType
  [.possible "and" (.array own), .possible "or" (.array own), .possible "not" own]

/-- The filters that columns are matched with are those that the types file defines. -/
structure FiltersDefined (blueprint : Blueprint) : Prop where
  /-- A property of the filter of a table's rows combines such filters, or it is the property of a
  column and names a filter that is used. -/
  named : ∀ table ∈ blueprint.schema.tables,
    ∀ property ∈ (rowFilter blueprint.scalars table).properties,
      property ∈ connectives table ∨ ∃ column ∈ table.fields, ∃ type name filter,
        property = .possible column.name type ∧
          Matches blueprint.scalars column type name filter ∧
          name ∈ (usedFilters blueprint.scalars blueprint.schema.tables).keys
  /-- A filter that is used has the operators that suit any scalar that is matched with it, and its
  operands have the type of that scalar. -/
  scalar : ∀ name filter, blueprint.scalars.filter? name = some filter →
    filter.name ∈ (usedFilters blueprint.scalars blueprint.schema.tables).keys →
    ∃ properties, Item.exported (.interface filter.name properties) ∈ filterSection blueprint ∧
      AreOperators properties (filter.family.operands (blueprint.scalars.expr (.scalar name)))
  /-- The filter of enums compares for equality, and its operands have the type that it is applied
  to. -/
  enumeration : enumFilter ∈ (usedFilters blueprint.scalars blueprint.schema.tables).keys →
    ∃ properties, Item.exported ((Declaration.interface enumFilter properties).withParameters
        [{ name := "T" }]) ∈ filterSection blueprint ∧
      AreOperators properties (FilterFamily.equality.operands (.named "T"))
  /-- A filter that is used is that of a column, and the column is no list. -/
  used : ∀ name ∈ (usedFilters blueprint.scalars blueprint.schema.tables).keys,
    ∃ table ∈ blueprint.schema.tables, ∃ column ∈ table.fields,
      (∃ type filter, Matches blueprint.scalars column type name filter) ∧
        column.type.isList = false ∧ (column.type.isProper = true → column.type.listDepth = 0)
  /-- The filters are used in the order in which they are first met, column by column. -/
  order : ∃ matched? : TableField → Option String,
    (∀ column name, matched? column = some name ↔
      ∃ type filter, Matches blueprint.scalars column type name filter) ∧
    (usedFilters blueprint.scalars blueprint.schema.tables).keys =
      ((blueprint.schema.tables.flatMap (·.fields)).filterMap matched?).eraseDups
  /-- They are defined in a section of the types file, in their order, -/
  contained : filterSection blueprint <:+: (file blueprint).items
  exportedNames : (filterSection blueprint).flatMap (·.exportedNames) =
    (usedFilters blueprint.scalars blueprint.schema.tables).keys
  /-- and each of them once. -/
  nodup : ((filterSection blueprint).flatMap (·.exportedNames)).Nodup

/-- The filter of a table has a property for each column that is filtered, beside those that connect
filters. -/
theorem mem_properties_rowFilter {table : Table} {property : Property}
    (h : property ∈ (rowFilter scalars table).properties) :
    property ∈ connectives table ∨ ∃ column ∈ table.fields, ∃ type name filter,
      property = .possible column.name type ∧ Matches scalars column type name filter := by
  rcases List.mem_append.1 h with h | h
  · obtain ⟨column, hcolumn, hproperty⟩ := List.mem_filterMap.1 h
    obtain ⟨type, name, filter, hmatches, rfl⟩ := filterProperty?_eq_some_iff.1 hproperty
    exact .inr ⟨column, hcolumn, type, name, filter, rfl, hmatches⟩
  · exact .inl h

/-- All scalars of a filter agree on what it is. -/
theorem eq_scalar_of_matches {type : TypeExpr} {name : String} {filter : Filter}
    {used : UsedFilter} (hfilter : scalars.filter? name = some filter)
    (h : Matches scalars column type filter.name used) :
    used = .scalar (scalars.scalarName name) filter.family := by
  generalize hname : filter.name = key at h
  cases h with
  | scalar single base found =>
    obtain ⟨htype, hfamily⟩ := ScalarSettings.eq_of_filter?_name hfilter found hname
    rw [htype, hfamily]
  | enumeration single base =>
    obtain ⟨scalar, hscalar, hscalarFilter, -⟩ :=
      ScalarSettings.exists_builtin_of_filter? hfilter
    exact absurd hname (Scalar.filter_ne_enumFilter hscalar hscalarFilter)

/-- The filter of enumerations is used for nothing else. -/
theorem eq_enumeration_of_matches {type : TypeExpr} {used : UsedFilter}
    (h : Matches scalars column type enumFilter used) : used = .enumeration := by
  generalize hname : enumFilter = key at h
  cases h with
  | scalar single base found =>
    obtain ⟨scalar, hscalar, hscalarFilter, -⟩ := ScalarSettings.exists_builtin_of_filter? found
    exact absurd hname.symm (Scalar.filter_ne_enumFilter hscalar hscalarFilter)
  | enumeration single base => rfl

/-- The filters that the columns of a schema are matched with are those that its types file
defines. -/
theorem filters_defined (blueprint : Blueprint) : FiltersDefined blueprint where
  named := by
    intro table htable property hproperty
    rcases mem_properties_rowFilter hproperty with h | h
    · exact .inl h
    · obtain ⟨column, hcolumn, type, name, filter, heq, hmatches⟩ := h
      refine .inr ⟨column, hcolumn, type, name, filter, heq, hmatches, ?_⟩
      exact mem_keys_usedFilters_iff.2
        ⟨filter, mem_filterUses_iff.2 ⟨table, htable, column, hcolumn, type, hmatches⟩⟩
  scalar := by
    intro name filter hfilter hmem
    obtain ⟨used, hentry, huse⟩ := exists_use_of_mem_keys hmem
    obtain ⟨table, -, column, -, type, hmatches⟩ := mem_filterUses_iff.1 huse
    rw [eq_scalar_of_matches hfilter hmatches] at hentry
    exact ⟨_, exported_mem_filterSection hentry, areOperators_operatorProperties _ _⟩
  enumeration := by
    intro hmem
    obtain ⟨used, hentry, huse⟩ := exists_use_of_mem_keys hmem
    obtain ⟨table, -, column, -, type, hmatches⟩ := mem_filterUses_iff.1 huse
    rw [eq_enumeration_of_matches hmatches] at hentry
    exact ⟨_, exported_mem_filterSection hentry, areOperators_operatorProperties _ _⟩
  used := by
    intro name hmem
    obtain ⟨filter, huse⟩ := mem_keys_usedFilters_iff.1 hmem
    obtain ⟨table, htable, column, hcolumn, type, hmatches⟩ := mem_filterUses_iff.1 huse
    refine ⟨table, htable, column, hcolumn, ⟨type, filter, hmatches⟩, hmatches.single, ?_⟩
    intro proper
    have hdepth := (TypeRef.isList_iff proper).not.1 (Bool.eq_false_iff.1 hmatches.single)
    omega
  order := by
    refine ⟨fun column => (columnFilter? blueprint.scalars column).map Prod.fst, ?_, ?_⟩
    · intro column name
      rw [Option.map_eq_some_iff]
      constructor
      · rintro ⟨⟨name, filter⟩, h, rfl⟩
        obtain ⟨type, hmatches⟩ := columnFilter?_eq_some_iff.1 h
        exact ⟨type, filter, hmatches⟩
      · rintro ⟨type, filter, hmatches⟩
        exact ⟨(name, filter), columnFilter?_eq_some_iff.2 ⟨type, hmatches⟩, rfl⟩
    · rw [keys_usedFilters, Entries.keys, filterUses, List.map_filterMap]
  contained := by
    refine ⟨(definitions blueprint).items.map Prod.snd, ?_⟩
    rw [file, tableItems]
    simp only [List.map_append, List.map_map, List.append_assoc]
    exact ⟨_, rfl⟩
  exportedNames := exportedNames_filterSection blueprint
  nodup := by
    rw [exportedNames_filterSection]
    exact (usedFilters blueprint.scalars blueprint.schema.tables).nodup

end TypesFile

end GraphClient
