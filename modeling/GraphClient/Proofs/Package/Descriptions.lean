import GraphClient.Proofs.Package.Resolution
import GraphClient.Proofs.TypeScript.Documented

/-!
# Descriptions in comments

The descriptions of a schema are written into comments: those of types and fields above the
declarations and properties for them, and the first line of that of a custom operation into the
header of its file. Nothing in them is escaped. So a comment ends where it should, and the code
below it is read, exactly if there is no end of a comment in the description.

* `TypeScript.ends_fileHeader_iff` : which headers end where they should.
* `Package.descriptions_end_iff` : which descriptions leave the rest of a file as it is.
-/

namespace GraphClient

open TypeScript (Ends HoldsEnd SourceFile afterComment? block docComment nested)

namespace TypeScript

/-! ## Headers -/

/-- The lines of a header below the description. -/
def headerLines : List Char :=
  " *\n * @generated by graphql-client-codegen\n".toList ++
    " * DO NOT EDIT. Changes are overwritten on the next run.\n".toList

/-- What stands between the marks of a header. -/
def headerBody (description : String) : List Char :=
  ['*', '\n', ' ', '*'] ++ ' ' :: (description.toList ++ '\n' :: headerLines)

theorem toList_fileHeader (description : String) :
    (fileHeader description).toList = block (headerBody description) := by
  have hopening : "/**\n * ".toList = ['/', '*', '*', '\n', ' ', '*', ' '] := String.toList_ofList
  have hmark : "\n *\n * @generated by graphql-client-codegen\n".toList =
      '\n' :: " *\n * @generated by graphql-client-codegen\n".toList := by
    rw [String.toList_ofList, String.toList_ofList]
  have hclosing : " * DO NOT EDIT. Changes are overwritten on the next run.\n */".toList =
      " * DO NOT EDIT. Changes are overwritten on the next run.\n".toList ++ [' ', '*', '/'] := by
    rw [String.toList_ofList, String.toList_ofList]
    rfl
  unfold fileHeader block headerBody headerLines
  rw [String.toList_append, String.toList_append, String.toList_append, hmark, hclosing, hopening]
  simp only [List.append_assoc, List.cons_append, List.nil_append]

theorem prefix_fileHeader (description : String) :
    "/**".toList <+: (fileHeader description).toList := by
  rw [toList_fileHeader]
  exact List.prefix_append ['/', '*', '*'] _

theorem holdsEnd_headerBody (description : String) :
    HoldsEnd (headerBody description) ↔ HoldsEnd description.toList := by
  have hopening : ¬ HoldsEnd ['*', '\n', ' ', '*'] := by decide
  have hlines : ¬ HoldsEnd headerLines := by
    unfold headerLines
    rw [String.toList_ofList, String.toList_ofList]
    decide +kernel
  rw [headerBody, holdsEnd_append_cons (by decide) (by decide), or_iff_right hopening,
    holdsEnd_append_cons (by decide) (by decide), or_iff_left hlines]

/-- Which headers end where they should. -/
theorem ends_fileHeader_iff (description rest : String) :
    Ends (fileHeader description) rest ↔ ¬ HoldsEnd description.toList := by
  rw [Ends, String.toList_append, toList_fileHeader, afterComment?_block_iff, holdsEnd_headerBody]

/-- A header has no white space at its end. -/
theorem trimEnd_fileHeader (description : String) :
    Text.trimEnd (fileHeader description) = fileHeader description := by
  have hlast : ∃ front, (fileHeader description).toList = front ++ ['/'] := by
    refine ⟨'/' :: '*' :: (headerBody description ++ [' ', '*']), ?_⟩
    rw [toList_fileHeader]
    simp [block]
  obtain ⟨front, hfront⟩ := hlast
  exact Text.trimEnd_eq_self hfront (by decide)

end TypeScript

namespace Package

/-- The comments that descriptions are written into. A doc comment is nothing if the description has
no lines, and it begins as a comment otherwise; so does the header of a custom operation. They end
where they should, so that a reader of the file finds the documented code below a comment at any
depth, and the rest of the file below a header, exactly if there is no end of a comment in the
description. -/
theorem descriptions_end_iff (docs : String) (operation : CustomOperation) :
    (docComment docs = "" ↔ Text.lines (Text.trim docs) = []) ∧
    (docComment docs ≠ "" → ∃ comment, docComment docs = comment ++ "\n" ∧
      "/**".toList <+: comment.toList ∧ ∀ rest, Ends comment rest ↔ ¬ HoldsEnd docs.toList) ∧
    (∀ (file : SourceFile) code depth, file.Documents docs code depth → docComment docs ≠ "" →
      ∃ before comment after, docComment docs = comment ++ "\n" ∧
        file.text = before ++ nested depth comment ++ (nested depth ("\n" ++ code) ++ after) ∧
        (Ends (nested depth comment) (nested depth ("\n" ++ code) ++ after) ↔
          ¬ HoldsEnd docs.toList)) ∧
    "/**".toList <+: (fileHeader (CustomFiles.description operation)).toList ∧
    (∀ rest, Ends (fileHeader (CustomFiles.description operation)) rest ↔
      ¬ HoldsEnd (CustomFiles.description operation).toList) ∧
    ∀ schema settings package, of schema settings = .ok package → ∀ directory,
      schema.OperationIn directory operation →
        ∃ artifact ∈ package.artifacts, artifact.path = Place.inside directory operation.name ∧
          ∃ rest, artifact.content = fileHeader (CustomFiles.description operation) ++ rest ∧
            rest = "\n" ++ ("\n" ++ ({ artifact.file with header := none } : SourceFile).text) ∧
            (Ends (fileHeader (CustomFiles.description operation)) rest ↔
              ¬ HoldsEnd (CustomFiles.description operation).toList) := by
  refine ⟨TypeScript.docComment_eq_empty_iff docs, ?_, ?_, TypeScript.prefix_fileHeader _,
    TypeScript.ends_fileHeader_iff _, ?_⟩
  · intro documented
    exact ⟨_, TypeScript.docComment_eq_append documented, TypeScript.prefix_docBlock docs,
      TypeScript.ends_docBlock_iff docs 0⟩
  · intro file code depth h documented
    exact h.exists_comment documented
  · intro schema settings package h directory hoperation
    obtain ⟨parts, hparts, rfl⟩ := exists_parts_of_eq_ok h
    obtain ⟨template, -, hartifact⟩ :=
      Parts.exists_artifact_of_operationIn (Parts.isOf_of_eq_ok hparts) hoperation
    refine ⟨_, hartifact, rfl, _, ?_, rfl, TypeScript.ends_fileHeader_iff _ _⟩
    -- There is code below the header, as every operation has a document.
    have hcode : ((CustomFiles.fragment (.of schema settings) operation template).file parts.defined
        (CustomFiles.description operation)).isEmpty = false := by
      simp [SourceFile.isEmpty, Fragment.file, CustomFiles.fragment, Fragment.document]
    rw [Artifact.content, TypeScript.SourceFile.text_eq_header_append rfl,
      TypeScript.trimEnd_fileHeader, hcode, if_neg Bool.false_ne_true]

end Package

namespace Sample

/-- A query for a ratio, with a description of two lines. -/
def ratioQuery : CustomOperation where
  name := "ratio"
  kind := .query
  returnType := .scalar "Float"
  description := some "The ratio a / b.\nFor a * b see the product."

/-- A schema with nothing but the ratio. -/
def ratioSchema : Schema where
  queries := [ratioQuery]

/-- Below the header, the file of the ratio goes on; and below the whole description as a doc
comment, a property would. -/
theorem ratio_described :
    (∃ package, Package.of ratioSchema {} = .ok package ∧ ∃ artifact ∈ package.artifacts,
      artifact.path = "custom-queries/ratio.ts" ∧ ∃ rest,
        artifact.content = fileHeader "The ratio a / b." ++ rest ∧
          Ends (fileHeader "The ratio a / b.") rest) ∧
    docComment "The ratio a / b.\nFor a * b see the product." ≠ "" ∧
    ∃ comment, docComment "The ratio a / b.\nFor a * b see the product." = comment ++ "\n" ∧
      Ends comment "\nratio: number;" := by
  obtain ⟨-, hdocs, -, -, -, hfiles⟩ := Package.descriptions_end_iff
    "The ratio a / b.\nFor a * b see the product." ratioQuery
  have hdescription : CustomFiles.description ratioQuery = "The ratio a / b." := by decide +kernel
  refine ⟨?_, ?_⟩
  · obtain ⟨parts, hparts⟩ : ∃ parts, Package.Parts.of ratioSchema {} = .ok parts :=
      Package.exists_parts_of_unconfigured _ _ (fun _ => rfl) (fun _ => rfl)
    have h := Package.of_eq_ok hparts
    obtain ⟨artifact, hartifact, hpath, rest, hcontent, -, hends⟩ :=
      hfiles _ _ _ h _ (.query List.mem_cons_self)
    rw [hdescription] at hcontent hends
    exact ⟨_, h, artifact, hartifact, hpath, rest, hcontent, hends.2 (by decide +kernel)⟩
  · have hcomment : docComment "The ratio a / b.\nFor a * b see the product." ≠ "" := by
      decide +kernel
    obtain ⟨comment, htext, -, hends⟩ := hdocs hcomment
    exact ⟨hcomment, comment, htext, (hends _).2 (by decide +kernel)⟩

/-- A description with an end of a comment in it ends the comment, and the rest of it stands
outside: in a doc comment and in the header for a custom operation. -/
theorem escaped_description :
    docComment "per cent */ total" = "/** per cent */ total */\n" ∧
    afterComment? "/** per cent */ total */".toList = some " total */".toList ∧
    ¬ Ends "/** per cent */ total */" "\nexport type Share = number;" ∧
    CustomFiles.description { ratioQuery with description := some "per cent */ total" } =
      "per cent */ total" ∧
    ¬ Ends (fileHeader "per cent */ total") "" := by
  refine ⟨by decide +kernel, by decide +kernel, by decide +kernel, by decide +kernel, ?_⟩
  rw [TypeScript.ends_fileHeader_iff, not_not]
  decide +kernel

end Sample

end GraphClient
