import GraphClient.Proofs.Package.Resolution
import GraphClient.Proofs.Package.TopLevel

/-!
# Distinct paths

Two files at one path leave but one of them when they are written. The files at the top and those of
different directories never collide. Within a directory a file collides with another one that is
named after the same root field, and with the index of the directory if it is called so.

* `Package.Directory.nodup_paths_iff` : when the paths in a directory are distinct.
* `Package.paths_nodup_iff` : when the paths of a package are.
-/

namespace GraphClient

theorem Place.inside_injective (directory : String) : Function.Injective (inside directory) := by
  intro field field' h
  have hlist := congrArg String.toList h
  rw [toList_inside, toList_inside] at hlist
  have htail := List.append_cancel_left hlist
  exact String.toList_inj.1 (List.append_cancel_right (List.cons.inj htail).2)

namespace Package

/-- A directory with files has their paths, and that of its index. -/
theorem Directory.map_path_artifacts {directory : Directory} (h : directory.isEmpty = false) :
    directory.artifacts.map (·.path) =
      (directory.files.map Prod.fst ++ ["index"]).map (Place.inside directory.name) := by
  rw [artifacts, h, if_neg Bool.false_ne_true, List.map_append, List.map_append, List.map_map,
    List.map_map, List.map_singleton, List.map_singleton, Place.inside_index]
  rfl

/-- The paths in a directory are distinct if its fields are, and none of them is called like the
index. -/
theorem Directory.nodup_paths_iff (directory : Directory) :
    (directory.artifacts.map (·.path)).Nodup ↔
      (directory.files.map Prod.fst).Nodup ∧ "index" ∉ directory.files.map Prod.fst := by
  cases hempty : directory.isEmpty with
  | true =>
    have hfiles : directory.files = [] := List.isEmpty_iff.1 hempty
    rw [artifacts, hempty, if_pos rfl, hfiles]
    simp
  | false =>
    rw [map_path_artifacts hempty, List.nodup_map_iff (Place.inside_injective directory.name),
      List.nodup_append_comm, List.singleton_append, List.nodup_cons, and_comm]

namespace Parts

variable {parts : Parts} {schema : Schema} {settings : Settings}

/-- The paths of a package are distinct if those in each of its directories are. -/
theorem nodup_paths_iff :
    parts.package.paths.Nodup ↔
      ∀ directory ∈ parts.directories, (directory.artifacts.map (·.path)).Nodup := by
  show (parts.artifacts.map (·.path)).Nodup ↔ _
  rw [← flatMap_topEntries, parts.separated_topEntries.nodup_map_iff]
  constructor
  · intro h directory hdirectory
    exact h (directory.name, directory.artifacts) (mem_topEntries_of_mem_directories hdirectory)
  · -- A file at the top, and the index, stand alone under their names.
    intro h entry hentry
    simp only [topEntries, List.mem_append, List.mem_map, List.mem_singleton] at hentry
    rcases hentry with (⟨p, -, rfl⟩ | ⟨directory, hdirectory, rfl⟩) | rfl
    · exact List.nodup_singleton _
    · exact h directory hdirectory
    · exact List.nodup_singleton _

theorem nodup_paths_iff_fields (h : parts.IsOf schema settings) :
    parts.package.paths.Nodup ↔
      ∀ p ∈ schema.operationFields, p.2.Nodup ∧ "index" ∉ p.2 := by
  rw [nodup_paths_iff, ← map_directories h, List.forall_mem_map]
  simp only [Directory.nodup_paths_iff]

end Parts

/-- The paths of a package are distinct exactly if the root fields are for which a directory has
files, and none of them is called like the index of its directory. -/
theorem paths_nodup_iff {schema : Schema} {settings : Settings} {package : Package}
    (h : of schema settings = .ok package) :
    package.paths.Nodup ↔ ∀ p ∈ schema.operationFields, p.2.Nodup ∧ "index" ∉ p.2 := by
  obtain ⟨parts, hparts, rfl⟩ := exists_parts_of_eq_ok h
  exact Parts.nodup_paths_iff_fields (Parts.isOf_of_eq_ok hparts)

end Package

namespace Sample

/-- Entries of an index. -/
def indexTable : Table where
  name := "Index"
  fields := [⟨"id", (TypeRef.scalar "UUID").required, none⟩]

/-- The same table, with another root field for its single rows. -/
def indexEntryTable : Table := { indexTable with rootFields := some { one := some "indexEntry" } }

def indexSchema : Schema := { tables := [indexTable] }

def indexEntrySchema : Schema := { tables := [indexEntryTable] }

/-- With another root field for the single rows the paths are distinct. -/
theorem nodup_paths_indexEntrySchema :
    ∃ package, Package.of indexEntrySchema {} = .ok package ∧ package.paths.Nodup := by
  obtain ⟨parts, hparts⟩ : ∃ parts, Package.Parts.of indexEntrySchema {} = .ok parts :=
    Package.exists_parts_of_unconfigured _ _ (fun _ => rfl) (fun _ => rfl)
  have hof := Package.of_eq_ok hparts
  exact ⟨parts.package, hof, (Package.paths_nodup_iff hof).2 (by decide +kernel)⟩

/-- The root fields for the entries of an index are distinct, yet the file of the single rows stands
at the path of the index of its directory. -/
theorem not_nodup_paths_indexSchema :
    (∀ p ∈ indexSchema.operationFields, p.2.Nodup) ∧
      ∃ package, Package.of indexSchema {} = .ok package ∧ ¬ package.paths.Nodup := by
  obtain ⟨parts, hparts⟩ : ∃ parts, Package.Parts.of indexSchema {} = .ok parts :=
    Package.exists_parts_of_unconfigured _ _ (fun _ => rfl) (fun _ => rfl)
  refine ⟨by decide +kernel, parts.package, Package.of_eq_ok hparts, ?_⟩
  rw [Package.Parts.nodup_paths_iff_fields (Package.Parts.isOf_of_eq_ok hparts)]
  decide +kernel

end Sample

end GraphClient
