import GraphClient.Proofs.Package.Invalidation
import GraphClient.Proofs.Package.Resolution
import GraphClient.Proofs.Projection.Skeleton
import GraphClient.Proofs.Request.Frames

/-!
# Documents with a hole

The document of an accessor is the fixed document of its operation with a hole where the fields of
the rows stand. The hole is made in the tree of fields. It is found again in the text, as the only
line where nothing else stands; every other line is the same line of the fixed document. The
indentation of the hole tells how deep the rows are written.

* `Accessor.slotLine` : the line that is written for the hole.
* `Accessor.Opens` : the document of an accessor and the fixed document have the same lines around
  the rows.
* `Package.accessors_open` : so it is for all accessors of a table.
-/

namespace GraphClient

open FieldNode (Frame indent)
open Text (OneLine)
open TypeScript (templateText templateChars Item)

namespace Accessor

/-! ## Lines -/

/-- The line that is written for the hole: the fields of the rows, some levels deep. -/
def slotLine (table : String) (depth : Nat) : String :=
  "$\x7bselectionSet('" ++ table ++ "', select, " ++ toString depth ++ ")\x7d"

/-- The characters before the hole are those that stand before it. -/
theorem beforeHole?_eq_some_iff {line before : List Char} :
    beforeHole? line = some before ↔ line = before ++ hole.toList := by
  unfold beforeHole?
  constructor
  · intro h
    obtain ⟨hsuffix, heq⟩ := Option.ite_none_right_eq_some.1 h
    obtain ⟨front, rfl⟩ := List.isSuffixOf_iff_suffix.1 hsuffix
    obtain rfl : front = before := by simpa using heq
    rfl
  · rintro rfl
    have hsuffix : hole.toList.isSuffixOf (before ++ hole.toList) = true :=
      List.isSuffixOf_iff_suffix.2 (List.suffix_append _ _)
    simp [hsuffix]

/-- Where nothing but white space stands before the hole, the fields of the rows are written. -/
theorem openLine_of_blank (table : String) {line : String} {before : List Char}
    (h : line.toList = before ++ hole.toList) (blank : before.all Text.isBlank = true) :
    openLine table line = slotLine table ((String.ofList before).utf8ByteSize / 2) := by
  rw [openLine, beforeHole?_eq_some_iff.2 h]
  exact if_pos blank

/-- Where something else stands before the hole, or there is no hole, a line stays as it is. -/
theorem openLine_eq_self (table : String) {line : String}
    (h : ∀ before, line.toList = before ++ hole.toList → before.all Text.isBlank = false) :
    openLine table line = line := by
  rw [openLine]
  cases hbefore : beforeHole? line.toList with
  | none => rfl
  | some before =>
    have hblank := h before (beforeHole?_eq_some_iff.1 hbefore)
    exact if_neg (by rw [hblank]; exact Bool.false_ne_true)

/-- Blanks have one byte each. -/
theorem utf8ByteSize_replicate (n : Nat) :
    (String.ofList (List.replicate n ' ')).utf8ByteSize = n := by
  induction n with
  | zero => rfl
  | succ n ih =>
    rw [List.replicate_succ, String.ofList_cons, String.utf8ByteSize_append, ih,
      String.utf8ByteSize_singleton]
    show 1 + n = n + 1
    omega

/-- Blanks are white space. -/
theorem isBlank_of_mem_replicate {n : Nat} : ∀ c ∈ List.replicate n ' ', Text.isBlank c = true := by
  intro c hc
  rw [List.eq_of_mem_replicate hc]
  decide

/-- An indented name is not escaped. -/
theorem toList_templateText_indent {name : String} (spelled : Spelled name) (depth : Nat) :
    (templateText (indent depth ++ name)).toList =
      List.replicate (2 * depth) ' ' ++ name.toList := by
  have hline : (indent depth ++ name).toList = List.replicate (2 * depth) ' ' ++ name.toList := by
    rw [String.toList_append, FieldNode.toList_indent]
  rw [templateText, String.toList_ofList, TypeScript.templateChars_eq_self, hline]
  rw [hline, List.forall_mem_append]
  constructor
  · intro c hc
    rw [List.eq_of_mem_replicate hc]
    decide
  · intro c hc
    have hchar := spelled c hc
    refine ⟨?_, ?_, ?_⟩
    all_goals
      rintro rfl
      exact absurd hchar (by decide)

/-- In place of the hole at a depth the fields of the rows are written at this depth. -/
theorem openLine_hole (table : String) (depth : Nat) :
    openLine table (templateText (indent depth ++ hole)) = slotLine table depth := by
  have hline := toList_templateText_indent (by decide : Spelled hole) depth
  have hdepth : 2 * depth / 2 = depth := by omega
  rw [openLine_of_blank table hline (List.all_eq_true.2 isBlank_of_mem_replicate),
    utf8ByteSize_replicate, hdepth]

/-- A line of a document that is kept when the hole is looked for. -/
structure Kept (line : String) : Prop where
  oneLine : OneLine line
  same : ∀ table, openLine table (templateText line) = templateText line

/-- A line that ends otherwise than the hole is kept. -/
theorem kept_of_getLast? {line : String} (oneLine : OneLine line)
    (h : line.toList.getLast? ≠ some '_') : Kept line := by
  refine ⟨oneLine, fun table => openLine_eq_self table fun before hbefore => ?_⟩
  have hlast : (templateText line).toList.getLast? = some '_' := by
    rw [hbefore, List.getLast?_append]
    rfl
  rw [templateText, String.toList_ofList, TypeScript.getLast?_templateChars] at hlast
  exact absurd hlast h

/-- A line that ends in another character than the underscore is kept. -/
theorem kept_append {line ending : String} (oneLine : OneLine line) (hending : OneLine ending)
    {c : Char} (hlast : ending.toList.getLast? = some c) (hc : c ≠ '_') :
    Kept (line ++ ending) := by
  refine kept_of_getLast? (oneLine.append hending) ?_
  rw [String.toList_append, List.getLast?_append, hlast]
  simpa using hc

/-- White space in front of a line is on the line. -/
theorem oneLine_indent (depth : Nat) : OneLine (indent depth) := by
  intro c hc
  rw [FieldNode.toList_indent] at hc
  rw [List.eq_of_mem_replicate hc]
  decide

/-- A line that opens the selection of a field is kept. -/
theorem kept_opening {header : String} (h : OneLine header) : Kept (header ++ " \x7b") :=
  kept_append h (by decide) rfl (by decide)

/-- A line that closes the selection of a field is kept. -/
theorem kept_closing (depth : Nat) : Kept (indent depth ++ "\x7d") :=
  kept_append (oneLine_indent depth) (by decide) rfl (by decide)

/-- A leaf of another name is no hole. -/
theorem kept_leaf {name : String} (spelled : Spelled name) (other : name ≠ hole) (depth : Nat) :
    Kept (indent depth ++ FieldNode.head name []) := by
  refine ⟨(oneLine_indent depth).append spelled.oneLine, fun table =>
    openLine_eq_self table fun before hbefore => ?_⟩
  rw [Bool.eq_false_iff]
  intro blank
  rw [List.all_eq_true] at blank
  replace hbefore : (templateText (indent depth ++ name)).toList = before ++ hole.toList := hbefore
  rw [toList_templateText_indent spelled] at hbefore
  -- Without the white space in front, the name is the hole.
  have hword (text : String) (h : Spelled text) :
      text.toList.dropWhile Text.isBlank = text.toList := by
    cases hchars : text.toList with
    | nil => rfl
    | cons c rest =>
      have hc : Text.isBlank c = false := Text.isBlank_of_isNameChar (h c (by simp [hchars]))
      rw [List.dropWhile_cons, hc, if_neg Bool.false_ne_true]
  have hdrop := congrArg (List.dropWhile Text.isBlank) hbefore
  rw [List.dropWhile_append_of_pos isBlank_of_mem_replicate, List.dropWhile_append_of_pos blank,
    hword name spelled, hword hole (by decide)] at hdrop
  exact other (String.toList_inj.1 hdrop)

/-- A slot is on a line of its own. -/
theorem oneLine_slotLine {table : String} (h : OneLine table) (depth : Nat) :
    OneLine (slotLine table depth) := by
  have hdepth : OneLine (toString depth) := by
    refine Text.oneLine_of_forall Char.isDigit (by decide) fun c hc => ?_
    replace hc : c ∈ (String.ofList (Nat.toDigits 10 depth)).toList := hc
    rw [String.toList_ofList] at hc
    exact Nat.isDigit_of_mem_toDigits (by decide) (by decide) hc
  have hfront : OneLine "$\x7bselectionSet('" := by decide
  exact ((((hfront.append h).append (by decide)).append hdepth).append (by decide))

/-- A line that is written for the hole begins with an interpolation. -/
theorem exists_toList_slotLine (table : String) (depth : Nat) :
    ∃ rest, (slotLine table depth).toList = '$' :: '\x7b' :: rest := by
  have hfront : "$\x7bselectionSet('".toList = '$' :: '\x7b' :: "selectionSet('".toList := by
    decide
  unfold slotLine
  rw [String.append_assoc, String.append_assoc, String.append_assoc, String.toList_append, hfront,
    List.cons_append, List.cons_append]
  exact ⟨_, rfl⟩

/-- No line of a fixed document is one that is written for the hole. -/
theorem templateText_ne_slotLine (line table : String) (depth : Nat) :
    templateText line ≠ slotLine table depth := by
  intro heq
  obtain ⟨rest, hrest⟩ := exists_toList_slotLine table depth
  rw [← heq, templateText, String.toList_ofList] at hrest
  exact TypeScript.templateChars_ne_opening line.toList rest hrest

/-! ## Documents -/

/-- The document of an accessor, and the fixed document of the same request, which selects some
fields at the end of a path. Between the same lines before and after stands in the one the line for
the hole, which is the only such line, and in the other one these fields, written as deep as the
line for the hole says. -/
structure Opens (page : PageNames) (table : String) (names : OperationNames)
    (position : RowPosition) (request : Request) (path : List String) (rows : List FieldNode)
    (before after : List String) (depth : Nat) : Prop where
  rows_eq : (request.document.fieldAt? path).map (·.selection) = some rows
  open_eq : (selectDocument page table names position request).rest =
    " = (select: object) => /* GraphQL */ `\n" ++
      Text.ofLines (before ++ slotLine table depth :: after) ++ "`;"
  lines_eq : Text.lines (Text.ofLines (before ++ slotLine table depth :: after)) =
    before ++ slotLine table depth :: after
  only : ∀ line ∈ before ++ after, ∀ other depth', line ≠ slotLine other depth'
  fixed_eq : (Fragment.documentConstant names request.document).rest =
    " = /* GraphQL */ `\n" ++ Text.ofLines (before ++
      (FieldNode.selectionLines depth rows).map templateText ++ after) ++ "`;"

/-- Kept lines, escaped, around the line for the hole. -/
theorem oneLine_of_kept {table : String} (oneLine : OneLine table) {before after : List String}
    (kept : ∀ line ∈ before ++ after, Kept line) (depth : Nat) :
    ∀ line ∈ before.map templateText ++ slotLine table depth :: after.map templateText,
      OneLine line := by
  have hescaped : ∀ line ∈ (before ++ after).map templateText, OneLine line := by
    intro escaped hescaped
    obtain ⟨line, hline, rfl⟩ := List.mem_map.1 hescaped
    exact TypeScript.oneLine_templateText (kept line hline).oneLine
  rw [List.map_append, List.forall_mem_append] at hescaped
  exact List.forall_mem_append.2 ⟨hescaped.1, List.forall_mem_cons.2
    ⟨oneLine_slotLine oneLine depth, hescaped.2⟩⟩

/-- The lines of a document in which the hole stands between kept lines. -/
theorem openLines_eq (table : String) {document : Document} {before after : List String}
    {depth : Nat} (hlines : document.lines = before ++ (indent depth ++ hole) :: after)
    (kept : ∀ line ∈ before ++ after, Kept line) :
    openLines table document =
      before.map templateText ++ slotLine table depth :: after.map templateText := by
  have hhole : OneLine (indent depth ++ hole) := (oneLine_indent depth).append (by decide)
  have hone : ∀ line ∈ document.lines.map templateText, OneLine line := by
    intro escaped hescaped
    obtain ⟨line, hline, rfl⟩ := List.mem_map.1 hescaped
    refine TypeScript.oneLine_templateText ?_
    rw [hlines, List.mem_append, List.mem_cons] at hline
    rcases hline with hbefore | rfl | hafter
    · exact (kept line (List.mem_append_left _ hbefore)).oneLine
    · exact hhole
    · exact (kept line (List.mem_append_right _ hafter)).oneLine
  have hsame (lines : List String) (hlines : ∀ line ∈ lines, Kept line) :
      (lines.map templateText).map (openLine table) = lines.map templateText := by
    rw [List.map_map]
    refine List.map_congr_left fun line hline => ?_
    rw [Function.comp_apply, (hlines line hline).same table]
  rw [List.forall_mem_append] at kept
  have htext : templateText document.text = Text.ofLines (document.lines.map templateText) :=
    TypeScript.templateText_ofLines document.lines
  rw [openLines, htext, Text.lines_ofLines hone, hlines, List.map_append, List.map_cons,
    List.map_append, List.map_cons, openLine_hole, hsame before kept.1, hsame after kept.2]

/-- Where the rows of a request stand at the end of a path of first fields, which is the path that
is open, and all lines around them are kept, the accessor opens the rows. -/
theorem opens_of_frames {page : PageNames} {table : String} {position : RowPosition}
    {request : Request} {frames : List Frame} {rows : List FieldNode} (oneLine : OneLine table)
    (hselection : request.document.selection = Frame.plug frames rows)
    (hpath : openPath page position request.path = frames.map (·.name))
    (nonempty : frames ≠ []) (first : ∀ frame ∈ frames, frame.IsFirst) (hrows : rows ≠ [])
    (hhead : OneLine request.document.head)
    (kept : ∀ line ∈ Frame.openings 1 frames ++ Frame.closings 1 frames, Kept line)
    (names : OperationNames) :
    ∃ before after, Opens page table names position request (frames.map (·.name)) rows before after
      (1 + frames.length) := by
  have hlines := Document.lines_of_selection_eq hrows hselection
  -- Opening the document changes nothing but the selection at the end of the path.
  have hopen : (openDocument page position request).selection =
      Frame.plug frames [.leaf hole] := by
    show FieldNode.modifyAt _ (openPath page position request.path) request.document.selection = _
    rw [hpath, hselection, Frame.modifyAt_plug nonempty first]
  have hopenLines := Document.lines_of_selection_eq (List.cons_ne_nil _ _) hopen
  replace hopenLines : (openDocument page position request).lines =
      ((request.document.head ++ " \x7b") :: Frame.openings 1 frames ++
        [indent (1 + frames.length) ++ hole]) ++ (Frame.closings 1 frames ++ ["\x7d"]) := hopenLines
  rw [List.append_assoc, List.singleton_append] at hopenLines
  have hkept : ∀ line ∈ (request.document.head ++ " \x7b") :: Frame.openings 1 frames ++
      (Frame.closings 1 frames ++ ["\x7d"]), Kept line := by
    have hlast : Kept "\x7d" := kept_closing 0
    rw [List.forall_mem_append] at kept ⊢
    exact ⟨List.forall_mem_cons.2 ⟨kept_opening hhead, kept.1⟩,
      List.forall_mem_append.2 ⟨kept.2, List.forall_mem_singleton.2 hlast⟩⟩
  have hopened := openLines_eq table hopenLines hkept
  obtain ⟨field, hfield, hfieldRows⟩ := Frame.fieldAt?_plug nonempty first rows
  refine ⟨_, _, ?_, ?_, Text.lines_ofLines (oneLine_of_kept oneLine hkept _), ?_, ?_⟩
  · rw [Document.fieldAt?, hselection, hfield, Option.map_some, hfieldRows]
  · rw [← hopened]
    rfl
  · intro line hline
    rw [← List.map_append] at hline
    obtain ⟨line, -, rfl⟩ := List.mem_map.1 hline
    exact templateText_ne_slotLine line
  · have htext : templateText request.document.text =
        Text.ofLines (request.document.lines.map templateText) :=
      TypeScript.templateText_ofLines request.document.lines
    rw [← List.map_append, ← List.map_append, ← hlines, ← htext]
    rfl

end Accessor

/-! ## Accessors -/

/-- A part of a file holds the fixed document of an operation and the document of its accessor. -/
structure Fragment.Offers (fragment : Fragment) (page : PageNames) (table : String)
    (names : OperationNames) (position : RowPosition) (request : Request) : Prop where
  fixed : .definition (documentConstant names request.document) ∈ fragment.items
  opened : .definition (Accessor.selectDocument page table names position request) ∈ fragment.items

/-- The accessors of a table. -/
inductive RowAccess where
  | list
  | first
  | one
  | create
  | update
  | delete
deriving Repr, DecidableEq, Inhabited

namespace RowAccess

/-- The call whose template the accessor is made from. Its values do not count. -/
def call (table : Table) : RowAccess → Call
  | list => .findMany table {}
  | first => .findFirst table {}
  | one => .findOne table .null
  | create => .create table .null
  | update => .update table none (some .null) rfl
  | delete => .delete table .null

/-- Where the rows of the accessor stand. -/
def position : RowAccess → RowPosition
  | list => .page
  | first => .first
  | one => .single
  | create | update | delete => .payload

/-- The directory of the file that holds the accessor. -/
def directory : RowAccess → String
  | list | first | one => "queries"
  | create | update | delete => "mutations"

/-- The template that the accessor is made from. -/
def template (templates : TableTemplates) : RowAccess → Request
  | list => templates.all
  | first => templates.first
  | one => templates.one
  | create => templates.create
  | update => templates.update
  | delete => templates.delete

variable {blueprint : Blueprint} {table : Table} {templates : TableTemplates}

/-- The document that is opened is the one of the request. -/
theorem eq_of_opened {page : PageNames} {position : RowPosition} {request opened : Request}
    (h : Accessor.opened page position request = .ok opened) : opened = request := by
  unfold Accessor.opened at h
  split at h
  · exact (Except.ok.inj h).symm
  · cases h

/-- The templates of a table are those of the calls of its accessors. -/
theorem template_eq (h : TableTemplates.of blueprint table = .ok templates)
    (access : RowAccess) :
    (access.call table).template blueprint.catalog blueprint.settings none =
      .ok (access.template templates) := by
  obtain ⟨all, hall, h⟩ := exists_of_bind_eq_ok h
  obtain ⟨first, hfirst, h⟩ := exists_of_bind_eq_ok h
  obtain ⟨one, hone, h⟩ := exists_of_bind_eq_ok h
  obtain ⟨create, hcreate, h⟩ := exists_of_bind_eq_ok h
  obtain ⟨update, hupdate, h⟩ := exists_of_bind_eq_ok h
  obtain ⟨delete, hdelete, h⟩ := exists_of_bind_eq_ok h
  obtain rfl := Except.ok.inj h
  have hmade {position : RowPosition} {made : Except RequestError Request} {opened : Request}
      (h : made >>= Accessor.opened blueprint.page position = .ok opened) : made = .ok opened := by
    obtain ⟨request, hrequest, hopened⟩ := exists_of_bind_eq_ok h
    rw [eq_of_opened hopened, hrequest]
  cases access with
  | list => exact hmade hall
  | first => exact hmade hfirst
  | one => exact hmade hone
  | create => exact hmade hcreate
  | update => exact hmade hupdate
  | delete => exact hmade hdelete

/-- The file of a mutation holds its fixed document and the one of its accessor. -/
theorem mutation_offers (factory : KeyFactory) (names : OperationNames) (action : String)
    (request : Request) (row : Option RowId) :
    (TableFiles.mutation blueprint factory table names action request row).Offers blueprint.page
      table.name names .payload request := by
  constructor <;> simp [TableFiles.mutation, Fragment.document, Accessor.fragment]

/-- The fixed document and the one of the accessor stand in one file of the table. -/
theorem exists_operation {parts : Package.Parts} {factory : KeyFactory}
    (h : TableFiles.entries parts.blueprint factory table templates ∈ parts.tables)
    (access : RowAccess) :
    ∃ fragment, parts.Operation access.directory (access.call table).rootField fragment ∧
      fragment.Offers parts.blueprint.page table.name (access.call table).names access.position
        (access.template templates) := by
  cases access with
  | list =>
    refine ⟨_, .tableQuery h List.mem_cons_self, ?_⟩
    constructor <;>
      simp [TableFiles.list, Fragment.document, Accessor.fragment, template, call, Call.names,
        position]
  | first =>
    refine ⟨_, .tableQuery h List.mem_cons_self, ?_⟩
    constructor <;>
      simp [TableFiles.list, Fragment.document, Accessor.fragment, template, call, Call.names,
        position]
  | one =>
    refine ⟨_, .tableQuery h (List.mem_cons_of_mem _ List.mem_cons_self), ?_⟩
    constructor <;>
      simp [TableFiles.one, Fragment.document, Accessor.fragment, template, call, Call.names,
        position]
  | create =>
    exact ⟨_, .tableMutation h List.mem_cons_self, mutation_offers factory _ _ _ _⟩
  | update =>
    exact ⟨_, .tableMutation h (List.mem_cons_of_mem _ List.mem_cons_self),
      mutation_offers factory _ _ _ _⟩
  | delete =>
    exact ⟨_, .tableMutation h (List.mem_cons_of_mem _ (List.mem_cons_of_mem _
      List.mem_cons_self)), mutation_offers factory _ _ _ _⟩

end RowAccess

/-! ## Calls on tables -/

namespace Call

variable {catalog : Catalog} {settings : Settings} {call : Call} {template : Request}
  {table : Table}

/-- The rows of a table are projected. -/
theorem exists_projection {selection : Option Selection} (htable : call.table? = some table)
    (h : call.template catalog settings selection = .ok template) :
    ∃ projection, template.projection = some projection := by
  cases call with
  | custom => cases htable
  | findMany | findFirst | findOne | create | update | delete =>
    obtain ⟨projection, -, h⟩ := exists_of_bind_eq_ok h
    obtain ⟨_, -, h⟩ := exists_of_bind_eq_ok h
    obtain rfl := Except.ok.inj h
    exact ⟨projection, rfl⟩

/-- The fields that lead to the rows are the first ones of their names. -/
theorem isFirst_frames (apart : settings.page.rows ≠ settings.page.count) :
    ∀ frame ∈ call.frames settings, frame.IsFirst := by
  have halone (name : String) (arguments : List (String × Literal)) :
      (⟨[], name, arguments, []⟩ : Frame).IsFirst := by
    simp [Frame.IsFirst]
  refine List.forall_mem_cons.2 ⟨halone _ _, ?_⟩
  cases call with
  | findMany | findFirst =>
    refine List.forall_mem_singleton.2 (List.forall_mem_singleton.2 ?_)
    exact apart.symm
  | create | update | delete => exact List.forall_mem_singleton.2 (halone _ _)
  | findOne | custom => simp [framesBelow]

/-- What a page tells about itself is kept when the hole is looked for. -/
theorem kept_pageInfo (depth : Nat) :
    ∀ line ∈ FieldNode.selectionLines depth Request.pageInfoNodes, Accessor.Kept line := by
  have hlines : FieldNode.selectionLines depth Request.pageInfoNodes =
      ["hasNextPage", "hasPreviousPage", "startCursor", "endCursor"].map fun name =>
        indent depth ++ FieldNode.head name [] := rfl
  have hnames : ∀ name ∈ ["hasNextPage", "hasPreviousPage", "startCursor", "endCursor"],
      GraphClient.Spelled name ∧ name ≠ Accessor.hole := by decide
  intro line hline
  rw [hlines] at hline
  obtain ⟨name, hname, rfl⟩ := List.mem_map.1 hline
  exact Accessor.kept_leaf (hnames name hname).1 (hnames name hname).2 depth

/-- The lines around the rows are kept when the hole is looked for. The number of the rows of a page
is the only field beside the rows that could be taken for the hole. -/
theorem kept_frames (htable : call.table? = some table) (named : table.WellNamed)
    (worded : settings.page.Worded) (info : isName settings.page.info = true)
    (count : settings.page.count ≠ Accessor.hole) :
    ∀ line ∈ Frame.openings 1 (call.frames settings) ++ Frame.closings 1 (call.frames settings),
      Accessor.Kept line := by
  have spelled := spelled_of_table htable named worded
  refine Frame.forall_mem_around Accessor.kept_closing ?_ 1
  have hopening {header : String} (h : OneLine header) (depth : Nat) :
      Accessor.Kept (indent depth ++ header ++ " \x7b") :=
    Accessor.kept_opening ((Accessor.oneLine_indent depth).append h)
  have halone {name : String} {arguments : List (String × Literal)}
      (h : OneLine (FieldNode.head name arguments)) (depth : Nat) :
      Accessor.Kept (indent depth ++ FieldNode.head name arguments ++ " \x7b") ∧
        ∀ line ∈ FieldNode.selectionLines depth ([] ++ []), Accessor.Kept line :=
    ⟨hopening h depth, by simp [FieldNode.selectionLines]⟩
  refine List.forall_mem_cons.2 ⟨halone spelled.oneLine_root, ?_⟩
  cases call with
  | findMany | findFirst =>
    -- Beside the rows of a page stand their number and the information about the page.
    have hrows : OneLine (FieldNode.head settings.page.rows []) :=
      (spelled_of_isName worded.rows).oneLine
    have hinfo : OneLine (FieldNode.head settings.page.info []) := (spelled_of_isName info).oneLine
    refine List.forall_mem_singleton.2 fun depth => ⟨hopening hrows depth, ?_⟩
    have hlines : FieldNode.selectionLines depth [.leaf settings.page.count,
        .withSelection settings.page.info Request.pageInfoNodes] =
      (indent depth ++ FieldNode.head settings.page.count []) ::
        (indent depth ++ FieldNode.head settings.page.info [] ++ " \x7b") ::
          (FieldNode.selectionLines (depth + 1) Request.pageInfoNodes ++
            [indent depth ++ "\x7d"]) := rfl
    show ∀ line ∈ FieldNode.selectionLines depth [.leaf settings.page.count,
      .withSelection settings.page.info Request.pageInfoNodes], Accessor.Kept line
    rw [hlines]
    exact List.forall_mem_cons.2 ⟨Accessor.kept_leaf (spelled_of_isName worded.count) count depth,
      List.forall_mem_cons.2 ⟨hopening hinfo depth, List.forall_mem_append.2
        ⟨kept_pageInfo (depth + 1), List.forall_mem_singleton.2 (Accessor.kept_closing depth)⟩⟩⟩
  | create | update | delete =>
    obtain rfl := Option.some.inj htable
    exact List.forall_mem_singleton.2 (halone named.spelled.singular.oneLine)
  | findOne | custom => simp [framesBelow]

/-- The accessor of a template opens its rows, which are the fields of the projection, at the end of
the path to them. -/
theorem opens_template (htable : call.table? = some table) (named : table.WellNamed)
    (worded : settings.page.Worded) (info : isName settings.page.info = true)
    (count : settings.page.count ≠ Accessor.hole)
    (apart : settings.page.rows ≠ settings.page.count)
    (h : call.template catalog settings none = .ok template) {position : RowPosition}
    (hposition : Accessor.openPath settings.page position template.path =
      call.rowsPath settings.page template.path) :
    ∃ projection, template.projection = some projection ∧
      ∃ before after depth, Accessor.Opens settings.page table.name call.names position template
        (call.rowsPath settings.page template.path) (projection.nodes settings.page) before after
        depth := by
  obtain ⟨projection, hprojection⟩ := exists_projection htable h
  obtain ⟨hselection, hpath⟩ := selection_template h hprojection
  obtain ⟨before, after, hopens⟩ := Accessor.opens_of_frames
    (spelled_of_isName named.name).oneLine hselection (hposition.trans hpath) (List.cons_ne_nil _ _)
    (isFirst_frames apart) (Projection.nodes_ne_nil projection)
    ((spelled_of_table htable named worded).oneLine_head h)
    (kept_frames htable named worded info count) call.names
  rw [← hpath] at hopens
  exact ⟨projection, hprojection, before, after, _, hopens⟩

end Call

/-! ## Packages -/

/-- For every accessor of a table, a file of the package holds the fixed document of its operation
and the document that takes a selection. The one document is the other one with a hole: its only
line that is written for the hole stands in place of the lines of the rows, which are the fields of
the projection of the fixed document and stand at the end of the path to the rows. -/
theorem Package.accessors_open {schema : Schema} {settings : Settings} {package : Package}
    (h : Package.of schema settings = .ok package) {table : Table} (htable : table ∈ schema.tables)
    (named : table.WellNamed) (worded : settings.page.Worded)
    (info : isName settings.page.info = true) (count : settings.page.count ≠ Accessor.hole)
    (apart : settings.page.rows ≠ settings.page.count) (access : RowAccess) :
    ∃ request, (access.call table).template (.ofSchema schema settings.page) settings none =
        .ok request ∧
      (∃ artifact ∈ package.artifacts,
        artifact.path = Place.inside access.directory (access.call table).rootField ∧
        .definition (Fragment.documentConstant (access.call table).names request.document) ∈
          artifact.file.items ∧
        .definition (Accessor.selectDocument settings.page table.name (access.call table).names
          access.position request) ∈ artifact.file.items) ∧
      ∃ projection, request.projection = some projection ∧
        ∃ before after depth, Accessor.Opens settings.page table.name (access.call table).names
          access.position request ((access.call table).rowsPath settings.page request.path)
          (projection.nodes settings.page) before after depth := by
  obtain ⟨parts, hparts, rfl⟩ := exists_parts_of_eq_ok h
  obtain ⟨factory, templates, -, htemplates, hentries⟩ := Parts.exists_of_mem_tables hparts htable
  have hblueprint := (Parts.isOf_of_eq_ok hparts).blueprint_eq
  have hmade := RowAccess.template_eq htemplates access
  obtain ⟨fragment, operation, offers⟩ := RowAccess.exists_operation hentries access
  rw [hblueprint] at hmade offers
  obtain ⟨description, hartifact⟩ := Parts.exists_artifact_of_operation operation
  refine ⟨access.template templates, hmade, ⟨_, hartifact, rfl, offers.fixed, offers.opened⟩, ?_⟩
  have hcall : (access.call table).table? = some table := by
    cases access <;> rfl
  refine Call.opens_template hcall named worded info count apart hmade ?_
  cases access <;> rfl

namespace Sample

/-- The table of the example has names that can be spelled. -/
theorem wellNamed_memberTable : memberTable.WellNamed where
  name := by decide
  columns := by decide
  keys := by decide
  rootFields := by decide
  inflection := by decide

/-- The root field for lists of members. -/
theorem rootField_members : (RowAccess.list.call memberTable).rootField = "members" := by
  decide +kernel

/-- The template of lists of members selects both columns. -/
theorem nodes_members {request : Request} {projection : Projection}
    (h : (RowAccess.list.call memberTable).template (.ofSchema clubSchema {}) {} none = .ok request)
    (hprojection : request.projection = some projection) :
    projection.nodes {} = [.leaf "groupId", .leaf "userId"] := by
  obtain ⟨rows, hrows, h⟩ := exists_of_bind_eq_ok h
  obtain ⟨binding, -, h⟩ := exists_of_bind_eq_ok h
  obtain rfl := Except.ok.inj h
  obtain rfl : rows = projection := Option.some.inj hprojection
  obtain rfl := Except.ok.inj hrows
  rfl

/-- The accessor for lists of members opens the rows of a page, which are the columns of the
members. -/
theorem members_open : ∃ package request, Package.of clubSchema {} = .ok package ∧
    (RowAccess.list.call memberTable).template (.ofSchema clubSchema {}) {} none = .ok request ∧
    (∃ artifact ∈ package.artifacts, artifact.path = "queries/members.ts" ∧
      .definition (Fragment.documentConstant memberTable.entityNames.all request.document) ∈
        artifact.file.items ∧
      .definition (Accessor.selectDocument {} "Member" memberTable.entityNames.all .page request) ∈
        artifact.file.items) ∧
    ∃ before after depth, Accessor.Opens {} "Member" memberTable.entityNames.all .page request
      ["members", "nodes"] [.leaf "groupId", .leaf "userId"] before after depth := by
  obtain ⟨parts, hparts⟩ := exists_clubParts
  have h := Package.of_eq_ok hparts
  have worded : ({} : Settings).page.Worded := ⟨by decide, by decide, by decide, by decide⟩
  obtain ⟨request, hrequest, ⟨artifact, hartifact, hpath, hitems⟩, projection, hprojection,
      hopens⟩ :=
    Package.accessors_open h (List.mem_cons_of_mem _ List.mem_cons_self) wellNamed_memberTable
      worded (by decide) (by decide) (by decide) .list
  have hroot : request.path = ["members"] := by
    rw [(Call.laidOut (.inr hrequest) hprojection).path_eq, rootField_members]
    rfl
  have hrows : (RowAccess.list.call memberTable).rowsPath ({} : Settings).page request.path =
      ["members", "nodes"] := by
    rw [hroot]
    rfl
  rw [hrows, nodes_members hrequest hprojection] at hopens
  rw [rootField_members] at hpath
  exact ⟨parts.package, request, h, hrequest, ⟨artifact, hartifact, hpath, hitems⟩, hopens⟩

end Sample

end GraphClient
