import GraphClient.Proofs.Package.SelectDocument
import GraphClient.Proofs.TypeScript.Documented
import GraphClient.Proofs.TypeScript.TemplateLiteral

/-!
# Constants of documents

The file of an operation holds its document in a constant, escaped in a template literal. Whoever
reads the file finds the document there as it was rendered, with a line feed in front.

* `Schema.CallIn` : the operations of a client with the directories of their files.
* `TypeScript.HoldsConstant` : a constant in a text is read as some value.
* `Package.documents_read_back` : the constants of all documents are read back.
-/

namespace GraphClient

open Text (replaceAll lineFeeds)
open TypeScript (templateText templateChars readTemplate Definition Item SourceFile)

/-! ## Constants in files -/

namespace TypeScript

/-- A text holds an exported constant with a template literal, which is read as a value and ends
before a semicolon. In a template literal, all ends of lines count as line feeds. -/
def HoldsConstant (text name value : String) : Prop :=
  ∃ before literal after, text = before ++ ("export const " ++ name ++ " = /* GraphQL */ `") ++
      literal ∧
    readTemplate literal.toList = .closed value.toList (';' :: after) ∧
    readTemplate (lineFeeds literal.toList) =
      .closed (lineFeeds value.toList) (';' :: lineFeeds after)

theorem holdsConstant_of_eq {text name value before after : String}
    (h : text = before ++ ("export const " ++ name ++ " = /* GraphQL */ `" ++
      (templateText value ++ "`;")) ++ after) : HoldsConstant text name value := by
  have hliteral : (templateText value ++ "`;" ++ after).toList =
      templateChars value.toList ++ '\x60' :: ';' :: after.toList := by
    simp [templateText, String.toList_append]
  refine ⟨before, templateText value ++ "`;" ++ after, after.toList, ?_, ?_, ?_⟩
  · rw [h]
    simp only [String.append_assoc]
  · rw [hliteral, readTemplate_templateChars]
  · rw [hliteral, readTemplate_lineFeeds, Text.lineFeeds_cons (by decide)]

end TypeScript

namespace Fragment

/-- The constant of a document is a template literal, which begins with a line feed. -/
theorem text_documentConstant (names : OperationNames) (document : Document) :
    (documentConstant names document).text =
      "export const " ++ names.document ++ " = /* GraphQL */ `" ++
        (templateText ("\n" ++ document.text) ++ "`;") := by
  have hfeed : templateText ("\n" ++ document.text) = "\n" ++ templateText document.text := by
    rw [← String.toList_inj]
    simp [templateText, templateChars]
  have hopening : " = /* GraphQL */ `\n" = " = /* GraphQL */ `" ++ "\n" := rfl
  have hexport : "" ++ "export " ++ "const" ++ " " = "export const " := rfl
  rw [hfeed, Definition.text]
  show "" ++ "export " ++ "const" ++ " " ++ names.document ++
    (" = /* GraphQL */ `\n" ++ templateText document.text ++ "`;") = _
  rw [hexport, hopening]
  simp only [String.append_assoc]

/-- No white space is trimmed from the constant of a document. -/
theorem text_documentConstant_item (names : OperationNames) (document : Document) :
    (Item.definition (documentConstant names document)).text =
      (documentConstant names document).text := by
  have hlast : ∃ front, (documentConstant names document).text.toList = front ++ [';'] := by
    rw [text_documentConstant]
    refine ⟨("export const " ++ names.document ++ " = /* GraphQL */ `").toList ++
      ((templateText ("\n" ++ document.text)).toList ++ ['\x60']), ?_⟩
    simp [String.toList_append]
  obtain ⟨front, hfront⟩ := hlast
  exact Text.trimEnd_eq_self hfront (by decide)

/-- A file in which the constant of a document stands holds the document, with a line feed in
front. -/
theorem holdsConstant_of_mem {file : SourceFile} {names : OperationNames} {document : Document}
    (h : .definition (documentConstant names document) ∈ file.items) :
    TypeScript.HoldsConstant file.text names.document ("\n" ++ document.text) := by
  obtain ⟨before, after, htext⟩ := (SourceFile.standsIn_textsAfter h _ none).append_left _
  rw [TypeScript.nested_zero, text_documentConstant_item, text_documentConstant] at htext
  exact TypeScript.holdsConstant_of_eq htext

end Fragment

/-! ## Operations -/

/-- The operations of a client, with the directories of their files: six for each table, and the
custom operations. -/
inductive Schema.CallIn (schema : Schema) : String → Call → Prop
  | table {table : Table} (mem : table ∈ schema.tables) (access : RowAccess) :
      schema.CallIn access.directory (access.call table)
  | custom {directory : String} {operation : CustomOperation}
      (mem : schema.OperationIn directory operation) :
      schema.CallIn directory (.custom operation [])

namespace Package

/-- Every operation has a template, and its file holds the constant of the template's document. -/
theorem exists_constant_of_callIn {schema : Schema} {settings : Settings} {package : Package}
    (h : of schema settings = .ok package) {directory : String} {call : Call}
    (hcall : schema.CallIn directory call) :
    ∃ request, call.template (.ofSchema schema settings.page) settings none = .ok request ∧
      ∃ artifact ∈ package.artifacts,
        artifact.path = Place.inside directory call.rootField ∧
          .definition (Fragment.documentConstant call.names request.document) ∈
            artifact.file.items := by
  obtain ⟨parts, hparts, rfl⟩ := exists_parts_of_eq_ok h
  have hblueprint := (Parts.isOf_of_eq_ok hparts).blueprint_eq
  cases hcall with
  | table mem access =>
    obtain ⟨factory, templates, -, htemplates, hentries⟩ := Parts.exists_of_mem_tables hparts mem
    have hmade := RowAccess.template_eq htemplates access
    obtain ⟨fragment, operation, offers⟩ := RowAccess.exists_operation hentries access
    -- The parts of the package were made from the same catalog and settings.
    rw [hblueprint] at hmade
    obtain ⟨description, hartifact⟩ := Parts.exists_artifact_of_operation operation
    exact ⟨access.template templates, hmade, _, hartifact, rfl, offers.fixed⟩
  | custom mem =>
    obtain ⟨template, htemplate, hartifact⟩ :=
      Parts.exists_artifact_of_operationIn (Parts.isOf_of_eq_ok hparts) mem
    refine ⟨template, htemplate, _, hartifact, rfl, ?_⟩
    simp [Fragment.file, CustomFiles.fragment, Fragment.document, Call.names]

/-- A text is escaped for a template literal by three replacements, one after the other, and is read
back, whatever it says and whatever follows. If ends of lines count as line feeds, it is read with
line feeds, and these are its own exactly if it has no carriage return. Lines that are joined are
escaped line by line. So for each operation of a client, the constant in its file is read as a line
feed and the rendered document. -/
theorem documents_read_back (text : String) (lines : List String) :
    (templateText text).toList = replaceAll ['$', '\x7b'] ['\\', '$', '\x7b']
      (replaceAll ['\x60'] ['\\', '\x60'] (replaceAll ['\\'] ['\\', '\\'] text.toList)) ∧
    (∀ rest, readTemplate ((templateText text).toList ++ '\x60' :: rest) =
      .closed text.toList rest) ∧
    (∀ rest, readTemplate (lineFeeds ((templateText text).toList ++ '\x60' :: rest)) =
      .closed (lineFeeds text.toList) (lineFeeds rest)) ∧
    (lineFeeds text.toList = text.toList ↔ '\r' ∉ text.toList) ∧
    templateText ("\n".intercalate lines) = "\n".intercalate (lines.map templateText) ∧
    ∀ schema settings package, of schema settings = .ok package → ∀ directory call,
      schema.CallIn directory call →
        ∃ request, call.template (.ofSchema schema settings.page) settings none = .ok request ∧
          ∃ artifact ∈ package.artifacts,
            artifact.path = Place.inside directory call.rootField ∧
              TypeScript.HoldsConstant artifact.content call.names.document
                ("\n" ++ request.document.text) := by
  have htext : (templateText text).toList = templateChars text.toList := String.toList_ofList
  rw [htext]
  refine ⟨TypeScript.templateChars_eq_replaceAll _, TypeScript.readTemplate_templateChars _,
    TypeScript.readTemplate_lineFeeds _, Text.lineFeeds_eq_self_iff _,
    TypeScript.templateText_intercalate lines, ?_⟩
  intro schema settings package h directory call hcall
  obtain ⟨request, hrequest, artifact, hartifact, hpath, hitem⟩ :=
    exists_constant_of_callIn h hcall
  exact ⟨request, hrequest, artifact, hartifact, hpath, Fragment.holdsConstant_of_mem hitem⟩

end Package

namespace Sample

/-- A text full of marks is read back, and so is the document for the list of members. -/
theorem members_read_back :
    readTemplate ("\\\\\\`\\$\x7bb\x7d$".toList ++ ['\x60', ';']) =
      .closed "\\`$\x7bb\x7d$".toList [';'] ∧
    ∃ package request, Package.of clubSchema {} = .ok package ∧
      clubSchema.CallIn "queries" (RowAccess.list.call memberTable) ∧
      (RowAccess.list.call memberTable).template (.ofSchema clubSchema {}) {} none = .ok request ∧
      ∃ artifact ∈ package.artifacts, artifact.path = "queries/members.ts" ∧
        TypeScript.HoldsConstant artifact.content "membersQueryDocument"
          ("\n" ++ request.document.text) := by
  obtain ⟨-, hread, -, -, -, hfiles⟩ := Package.documents_read_back "\\`$\x7bb\x7d$" []
  obtain ⟨parts, hparts⟩ := exists_clubParts
  have h := Package.of_eq_ok hparts
  have hcall : clubSchema.CallIn "queries" (RowAccess.list.call memberTable) :=
    .table (List.mem_cons_of_mem _ List.mem_cons_self) .list
  obtain ⟨request, hrequest, artifact, hartifact, hpath, hconstant⟩ := hfiles _ _ _ h _ _ hcall
  have hname : (RowAccess.list.call memberTable).names.document = "membersQueryDocument" := by
    show (OperationNames.ofField (RowAccess.list.call memberTable).rootField .query).document = _
    rw [rootField_members]
    decide +kernel
  have htext : (templateText "\\`$\x7bb\x7d$").toList = "\\\\\\`\\$\x7bb\x7d$".toList := by
    decide +kernel
  rw [rootField_members] at hpath
  rw [hname] at hconstant
  rw [← htext]
  exact ⟨hread [';'], parts.package, request, h, hcall, hrequest, artifact, hartifact, hpath,
    hconstant⟩

end Sample

end GraphClient
