import GraphClient.Proofs.Request.Restriction
import GraphClient.Proofs.Schema.WellFormed

/-!
# Where the rows of a request stand

A request says by a path where its rows stand in the answer. The document is put together apart from
the path; both lead to the same place. What the answer holds at the end of the path is what is
picked out of it.

* `Call.LaidOut` : what the document and the path of a call look like.
* `Json.LeadsTo` : a path of keys leads through nested objects to a value.
* `Call.rows_stand_at_path` : the path of a request leads to the fields of its projection.
-/

namespace GraphClient

namespace Call

/-! ## The layout of calls -/

/-- The field of the operation that a call asks for. -/
def rootField : Call → String
  | findMany table _ | findFirst table _ => table.entityNames.allField
  | findOne table _ => table.entityNames.oneField
  | create table _ => table.entityNames.createField
  | update table _ _ _ => table.entityNames.updateField
  | delete table _ => table.entityNames.deleteField
  | custom operation _ => operation.name

/-- The fields below the root field: a page of rows, a payload around a row, or the row itself. -/
def rootSelection (page : PageNames) (projection : Projection) : Call → List FieldNode
  | findMany .. | findFirst .. => Request.pageNodes page projection
  | create table _ | update table _ _ _ | delete table _ =>
    [.withSelection table.entityNames.entityField (projection.nodes page)]
  | findOne .. | custom .. => projection.nodes page

/-- The names that lead from the root field to what is picked out of the answer. -/
def pathBelow (page : PageNames) : Call → List String
  | findFirst .. => [page.rows]
  | create table _ | update table _ _ _ | delete table _ => [table.entityNames.entityField]
  | findMany .. | findOne .. | custom .. => []

/-- Whether the first row of a list is picked. -/
def picksFirst : Call → Bool
  | findFirst .. => true
  | findMany .. | findOne .. | create .. | update .. | delete .. | custom .. => false

/-- The path to the field whose selection is that of the rows: a page is picked as a whole, and its
rows stand one level further down. -/
def rowsPath (page : PageNames) (path : List String) : Call → List String
  | findMany .. => path ++ [page.rows]
  | findFirst .. | findOne .. | create .. | update .. | delete .. | custom .. => path

/-- A request has the layout of a call: its only root field, its path, and what is picked. -/
structure LaidOut (page : PageNames) (projection : Projection) (call : Call) (request : Request) :
    Prop where
  selection_eq : ∃ arguments, request.document.selection =
    [⟨call.rootField, arguments, call.rootSelection page projection⟩]
  path_eq : request.path = call.rootField :: call.pathBelow page
  firstRow_eq : request.firstRow = call.picksFirst

variable {catalog : Catalog} {settings : Settings} {selection : Option Selection}
  {call : Call} {built : Request} {projection : Projection}

/-- A request with the values of a caller and a template have the same layout: by the kind of the
call, from the projection and the binding that the request is completed from. -/
theorem laidOut (made : call.request catalog settings selection = .ok built ∨
      call.template catalog settings selection = .ok built)
    (hprojection : built.projection = some projection) :
    call.LaidOut settings.page projection built := by
  cases call with
  | custom operation values =>
    -- The only call that looks at its answer last, and whose rows may have no projection.
    rcases made with h | h
    all_goals
      obtain ⟨binding, -, h⟩ := exists_of_bind_eq_ok h
      obtain ⟨answer, -, h⟩ := exists_of_bind_eq_ok h
      obtain rfl := Except.ok.inj h
      obtain rfl : answer = some projection := hprojection
      exact ⟨⟨_, rfl⟩, rfl, rfl⟩
  | findMany | findFirst | findOne | create | update | delete =>
    rcases made with h | h
    all_goals
      obtain ⟨rows, -, h⟩ := exists_of_bind_eq_ok h
      obtain ⟨binding, -, h⟩ := exists_of_bind_eq_ok h
      obtain rfl := Except.ok.inj h
      obtain rfl : rows = projection := Option.some.inj hprojection
      exact ⟨⟨_, rfl⟩, rfl, rfl⟩

end Call

/-! ## Fields at the end of a path -/

namespace FieldNode

/-- Among some fields there is a first one of the name of each of them. -/
theorem exists_find?_of_mem {fields : List FieldNode} {field : FieldNode} (h : field ∈ fields) :
    ∃ first, find? fields field.name = some first := by
  rw [← Option.isSome_iff_exists, find?, List.find?_isSome]
  exact ⟨field, h, by simp⟩

/-- Below the only root field a path goes on in the fields of the root field. -/
theorem fieldAt?_root (root : FieldNode) (path : List String) :
    fieldAt? [root] (root.name :: path) =
      if path = [] then some root else fieldAt? root.selection path := by
  cases path with
  | nil => simp [fieldAt?_singleton, find?_cons]
  | cons next path => simp [fieldAt?_cons_cons, find?_cons]

end FieldNode

namespace Request

/-- Where the rows of a page do not go by the name of their number, they are found under theirs. -/
theorem find?_pageNodes_rows {page : PageNames} (apart : page.rows ≠ page.count)
    (projection : Projection) :
    FieldNode.find? (pageNodes page projection) page.rows =
      some (.withSelection page.rows (projection.nodes page)) := by
  have hcount : (FieldNode.leaf page.count).name ≠ page.rows := apart.symm
  rw [pageNodes, FieldNode.find?_cons, if_neg hcount, FieldNode.find?_cons]
  exact if_pos rfl

/-- In any case a page has a field of the name of its rows. -/
theorem exists_find?_pageNodes_rows (page : PageNames) (projection : Projection) :
    ∃ field, FieldNode.find? (pageNodes page projection) page.rows = some field := by
  have hmem : FieldNode.withSelection page.rows (projection.nodes page) ∈
      pageNodes page projection := by
    simp [pageNodes]
  exact FieldNode.exists_find?_of_mem hmem

end Request

namespace Call.LaidOut

variable {page : PageNames} {projection : Projection} {call : Call} {built : Request}

/-- A path that starts with the root field of a call goes on below it. -/
theorem fieldAt?_rootField (h : call.LaidOut page projection built) {path : List String}
    (hne : path ≠ []) :
    built.document.fieldAt? (call.rootField :: path) =
      FieldNode.fieldAt? (call.rootSelection page projection) path := by
  obtain ⟨arguments, hselection⟩ := h.selection_eq
  have hroot := FieldNode.fieldAt?_root
    ⟨call.rootField, arguments, call.rootSelection page projection⟩ path
  rw [Document.fieldAt?, hselection, hroot, if_neg hne]

theorem exists_fieldAt?_rootField (h : call.LaidOut page projection built) :
    ∃ root, built.document.fieldAt? [call.rootField] = some root ∧
      root.selection = call.rootSelection page projection := by
  obtain ⟨arguments, hselection⟩ := h.selection_eq
  have hroot := FieldNode.fieldAt?_root
    ⟨call.rootField, arguments, call.rootSelection page projection⟩ []
  rw [Document.fieldAt?, hselection, hroot, if_pos rfl]
  exact ⟨_, rfl, rfl⟩

/-- Where rows come in a page, the path that goes on from the root field by their name leads to some
field. -/
theorem exists_fieldAt?_page (h : call.LaidOut page projection built)
    (hpage : call.rootSelection page projection = Request.pageNodes page projection) :
    ∃ field, built.document.fieldAt? [call.rootField, page.rows] = some field := by
  obtain ⟨field, hfield⟩ := Request.exists_find?_pageNodes_rows page projection
  refine ⟨field, ?_⟩
  rw [h.fieldAt?_rootField (by simp), hpage, FieldNode.fieldAt?_singleton, hfield]

/-- Where a row comes in a payload, the path that goes on from the root field by the name of the
entity leads to the row. -/
theorem fieldAt?_payload {name : String} (h : call.LaidOut page projection built)
    (hpayload : call.rootSelection page projection =
      [.withSelection name (projection.nodes page)]) :
    built.document.fieldAt? [call.rootField, name] =
      some (.withSelection name (projection.nodes page)) := by
  rw [h.fieldAt?_rootField (by simp), hpayload, FieldNode.fieldAt?_singleton, FieldNode.find?_cons]
  exact if_pos rfl

/-- The path of a request leads to a field. -/
theorem exists_fieldAt?_path (h : call.LaidOut page projection built) :
    ∃ field, built.document.fieldAt? built.path = some field := by
  rw [h.path_eq]
  cases call with
  | findMany | findOne | custom =>
    obtain ⟨root, hroot, -⟩ := h.exists_fieldAt?_rootField
    exact ⟨root, hroot⟩
  | findFirst => exact h.exists_fieldAt?_page rfl
  | create | update | delete => exact ⟨_, h.fieldAt?_payload rfl⟩

/-- The path to the rows leads to a field, whatever the names of pages are. -/
theorem exists_fieldAt?_rowsPath (h : call.LaidOut page projection built) :
    ∃ field, built.document.fieldAt? (call.rowsPath page built.path) = some field := by
  cases call with
  | findMany =>
    rw [rowsPath, h.path_eq]
    exact h.exists_fieldAt?_page rfl
  | findFirst | findOne | create | update | delete | custom => exact h.exists_fieldAt?_path

/-- The field at the path to the rows selects what the projection says. -/
theorem selection_fieldAt?_rowsPath (h : call.LaidOut page projection built)
    (apart : page.rows ≠ page.count) :
    ∃ field, built.document.fieldAt? (call.rowsPath page built.path) = some field ∧
      field.selection = projection.nodes page := by
  have hrows : call.rootSelection page projection = Request.pageNodes page projection →
      built.document.fieldAt? [call.rootField, page.rows] =
        some (.withSelection page.rows (projection.nodes page)) := by
    intro hpage
    rw [h.fieldAt?_rootField (by simp), hpage, FieldNode.fieldAt?_singleton,
      Request.find?_pageNodes_rows apart]
  cases call with
  | findMany | findFirst =>
    refine ⟨.withSelection page.rows (projection.nodes page), ?_, rfl⟩
    rw [rowsPath, h.path_eq]
    exact hrows rfl
  | findOne | custom =>
    rw [rowsPath, h.path_eq]
    exact h.exists_fieldAt?_rootField
  | create | update | delete =>
    rw [rowsPath, h.path_eq]
    exact ⟨_, h.fieldAt?_payload rfl, rfl⟩

end Call.LaidOut

/-! ## What is picked out of an answer -/

namespace Json

/-- A path of keys leads through nested objects to a value. -/
inductive LeadsTo : Json → List String → Json → Prop
  | here {value : Json} : LeadsTo value [] value
  | field {fields : List (String × Json)} {key : String} {inner value : Json} {path : List String}
      (found : Entries.find? fields key = some inner) (leads : LeadsTo inner path value) :
      LeadsTo (.object fields) (key :: path) value

/-- The look-up along a path finds exactly the value that the path leads to. -/
theorem at?_eq_some_iff (data : Json) (path : List String) (value : Json) :
    data.at? path = some value ↔ data.LeadsTo path value := by
  constructor
  · intro h
    induction path generalizing data with
    | nil =>
      obtain rfl : data = value := by simpa using h
      exact .here
    | cons key path ih =>
      rw [at?_cons] at h
      obtain ⟨inner, hget, hinner⟩ := Option.bind_eq_some_iff.1 h
      -- Only an object has something under a key.
      cases data with
      | object fields => exact .field hget (ih inner hinner)
      | null | bool | int | float | string | array => simp [get?] at hget
  · intro h
    induction h with
    | here => exact at?_nil _
    | field found leads ih =>
      rw [at?_cons, get?, found]
      exact ih

end Json

namespace Call

/-- What is picked when the path leads to a value: the value itself, or the first element of a
list. -/
def picked (value : Json) : Call → Option Json
  | findFirst .. =>
    match value with
    | .array items => items.head?
    | _ => none
  | findMany .. | findOne .. | create .. | update .. | delete .. | custom .. => some value

variable {catalog : Catalog} {settings : Settings} {selection : Option Selection}
  {call : Call} {built : Request} {projection : Projection}

/-- What is picked out of an answer is what is picked of the value that the path leads to. -/
theorem LaidOut.extract_eq {page : PageNames} (h : call.LaidOut page projection built)
    (data : Json) :
    built.extract data = (data.at? built.path).bind fun value => call.picked value := by
  rw [Request.extract, h.firstRow_eq]
  cases call with
  | findFirst =>
    congr 1
    funext value
    cases value with
    | array items => exact List.head?_eq_getElem?.symm
    | null | bool | int | float | string | object => rfl
  | findMany | findOne | create | update | delete | custom => rfl

/-- The path of a request leads through its document to a field, and the rows of the projection are
selected at the end of the path, or in the rows of the page that stands there. Wherever the path
leads to a value in an answer, the value is picked, or its first element; where it does not lead
to a value, nothing is picked. -/
theorem rows_stand_at_path (apart : settings.page.rows ≠ settings.page.count)
    (made : call.request catalog settings selection = .ok built ∨
      call.template catalog settings selection = .ok built)
    (hprojection : built.projection = some projection) :
    (∃ field, built.document.fieldAt? built.path = some field) ∧
    (∃ field, built.document.fieldAt? (call.rowsPath settings.page built.path) = some field ∧
      field.selection = projection.nodes settings.page) ∧
    (∀ data value, data.LeadsTo built.path value → built.extract data = call.picked value) ∧
    ∀ data, (∀ value, ¬ data.LeadsTo built.path value) → built.extract data = none := by
  have layout := laidOut made hprojection
  refine ⟨layout.exists_fieldAt?_path, layout.selection_fieldAt?_rowsPath apart, ?_, ?_⟩
  · intro data value leads
    rw [layout.extract_eq, (Json.at?_eq_some_iff data built.path value).2 leads]
    rfl
  · intro data astray
    have hnone : data.at? built.path = none := by
      rw [Option.eq_none_iff_forall_ne_some]
      intro value h
      exact astray value ((Json.at?_eq_some_iff data built.path value).1 h)
    rw [layout.extract_eq, hnone]
    rfl

end Call

namespace Sample

/-- Asks for the first member, whose rows are selected in a page. -/
def firstMember : Call := .findFirst { memberTable with rootFields := some { all := "members" } } {}

/-- The first of two members is picked out of their page, and nothing is picked where the page is
missing. -/
theorem firstMember_picks : ∃ built projection,
    firstMember.template members {} none = .ok built ∧ built.projection = some projection ∧
    (∃ field, built.document.fieldAt? ["members", "nodes"] = some field ∧
      field.selection = projection.nodes {}) ∧
    built.extract (.object [("members", .object [("nodes", .array [.int 1, .int 2])])]) =
      some (.int 1) ∧
    built.extract (.object [("members", .null)]) = none := by
  obtain ⟨built, h⟩ : ∃ built, firstMember.template members {} none = .ok built := ⟨_, rfl⟩
  obtain ⟨projection, hprojection⟩ : ∃ projection, built.projection = some projection := by
    obtain rfl := Except.ok.inj h
    exact ⟨_, rfl⟩
  have hpath : built.path = ["members", "nodes"] := by
    obtain rfl := Except.ok.inj h
    rfl
  obtain ⟨-, hrows, hpicks, hmisses⟩ :=
    Call.rows_stand_at_path (by decide) (.inr h) hprojection
  rw [hpath] at hpicks hmisses
  refine ⟨built, projection, h, hprojection, hpath ▸ hrows, ?_, ?_⟩
  · have leadsInPage : (Json.object [("nodes", .array [.int 1, .int 2])]).LeadsTo ["nodes"]
        (.array [.int 1, .int 2]) := .field rfl .here
    exact hpicks _ _ (.field (by rfl) leadsInPage)
  · refine hmisses _ fun value leads => ?_
    cases leads with
    | field found leads =>
      obtain rfl := Option.some.inj found
      cases leads

end Sample

end GraphClient
