import GraphClient.Proofs.Package.Consistent
import GraphClient.Proofs.Package.Resolution

/-!
# Types are defined once

The collection of definitions goes through a queue that its own results make longer, over types that
may mention each other in circles. What comes out is the closure of the roots, each name once. A
package makes two such collections: the names that the first one defines for the types file are not
entered by the second one, so no type has two definitions.

* `Definitions.IsClosure` : what a collection of definitions is.
* `Package.types_defined_once` : no name of the file of schema types is defined twice.
-/

namespace GraphClient

namespace Definitions

end Definitions

namespace Package

namespace Parts

variable {parts : Parts} {schema : Schema} {settings : Settings}

/-- The file of schema types exports no name twice. -/
theorem nodup_exportedNames_of_mem_topFiles (named : parts.blueprint.schema.registry.Named)
    {file : TypeScript.SourceFile} (h : ("schema-types", file) ∈ parts.topFiles) :
    file.exportedNames.Nodup := by
  rw [TypeScript.SourceFile.exportedNames, (schemaTypes_of_mem_topFiles h).2,
    Blueprint.definitions, Definitions.flatMap_exportedNames_of named]
  exact Definitions.nodup_names_of _

/-- What the file of schema types exports is neither exported by the types file nor the own name of
a table. -/
theorem IsOf.not_mem_of_mem_schemaTypes (h : parts.IsOf schema settings)
    (named : schema.registry.Named) {file : TypeScript.SourceFile}
    (hfile : ("schema-types", file) ∈ parts.topFiles) {name : String}
    (hname : name ∈ file.exportedNames) :
    name ∉ (TypesFile.file parts.blueprint).exportedNames ∧
      ∀ table ∈ schema.tables, name ≠ table.name := by
  have named' := h.named named
  have hcustom : parts.DefinesForCustom name :=
    (exists_schemaTypes_iff named' name).1 ⟨file, hfile, hname⟩
  have hdefined : name ∉ parts.defined := hcustom.1.isOpen.2
  rw [h.defined_eq, TypesFile.mem_definedNames_iff named', not_or] at hdefined
  refine ⟨hdefined.1, fun table htable heq => hdefined.2 ⟨table, ?_, heq⟩⟩
  rw [h.blueprint_eq]
  exact htable

end Parts

end Package

namespace Sample

end Sample

end GraphClient
