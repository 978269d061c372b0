import GraphClient.Document.Basic

/-!
# What stands around a selection

A path of fields leads down to a selection. What stands around the path stays as it is when another
selection takes the place of the one at its end, and so do the lines that are written for it.

* `FieldNode.Frame` : a field of a path with the fields beside it.
* `FieldNode.Frame.plug` : a selection at the end of a path.
* `FieldNode.Frame.modifyAt_plug` : the selection at the end of a path is replaced.
* `FieldNode.Frame.selectionLines_plug` : the lines of a selection stand between those around it.
-/

namespace GraphClient

namespace FieldNode

/-- A field of a path, without its selection, and the fields that stand beside it. -/
structure Frame where
  before : List FieldNode
  name : String
  arguments : List (String × Literal)
  after : List FieldNode

/-! ## Fields beside each other -/

theorem find?_append_of_ne {before : List FieldNode} {name : String}
    (h : ∀ field ∈ before, field.name ≠ name) (fields : List FieldNode) :
    find? (before ++ fields) name = find? fields name := by
  induction before with
  | nil => rfl
  | cons field before ih =>
    obtain ⟨hfield, hbefore⟩ := List.forall_mem_cons.1 h
    rw [List.cons_append, find?_cons, if_neg hfield, ih hbefore]

theorem modifyFirst_append_of_ne {before : List FieldNode} {name : String}
    (h : ∀ field ∈ before, field.name ≠ name) (change : FieldNode → FieldNode)
    (fields : List FieldNode) :
    modifyFirst name change (before ++ fields) = before ++ modifyFirst name change fields := by
  induction before with
  | nil => rfl
  | cons field before ih =>
    obtain ⟨hfield, hbefore⟩ := List.forall_mem_cons.1 h
    rw [List.cons_append, modifyFirst, if_neg hfield, ih hbefore, List.cons_append]

/-- A field with a selection has a line that opens it and one that closes it. -/
theorem lines_of_ne_nil (depth : Nat) (name : String) (arguments : List (String × Literal))
    {selection : List FieldNode} (h : selection ≠ []) :
    lines depth ⟨name, arguments, selection⟩ =
      (indent depth ++ head name arguments ++ " \x7b") ::
        (selectionLines (depth + 1) selection ++ [indent depth ++ "\x7d"]) := by
  cases selection with
  | nil => exact absurd rfl h
  | cons field rest => rfl

namespace Frame

/-! ## Selections at the end of a path -/

/-- The fields with a selection at the end of a path through them. -/
def plug : List Frame → List FieldNode → List FieldNode
  | [], selection => selection
  | frame :: rest, selection =>
    frame.before ++ ⟨frame.name, frame.arguments, plug rest selection⟩ :: frame.after

/-- Whether a field is the first one of its name among those beside it. -/
def IsFirst (frame : Frame) : Prop := ∀ field ∈ frame.before, field.name ≠ frame.name

theorem plug_ne_nil (frames : List Frame) {selection : List FieldNode} (h : selection ≠ []) :
    plug frames selection ≠ [] := by
  cases frames with
  | nil => exact h
  | cons frame rest => simp [plug]

variable {frames : List Frame}

/-- Below a path of first fields stands the selection. -/
theorem fieldAt?_plug (nonempty : frames ≠ []) (first : ∀ frame ∈ frames, frame.IsFirst)
    (selection : List FieldNode) :
    ∃ field, fieldAt? (plug frames selection) (frames.map (·.name)) = some field ∧
      field.selection = selection := by
  induction frames with
  | nil => exact absurd rfl nonempty
  | cons frame rest ih =>
    obtain ⟨hframe, hrest⟩ := List.forall_mem_cons.1 first
    have hfind : find? (plug (frame :: rest) selection) frame.name =
        some ⟨frame.name, frame.arguments, plug rest selection⟩ := by
      rw [plug, find?_append_of_ne hframe, find?_cons, if_pos rfl]
    cases rest with
    | nil => exact ⟨_, hfind, rfl⟩
    | cons next rest =>
      obtain ⟨field, hfield, hselection⟩ := ih (List.cons_ne_nil _ _) hrest
      refine ⟨field, ?_, hselection⟩
      rw [List.map_cons, List.map_cons, fieldAt?_cons_cons, hfind]
      exact hfield

/-- Of a path of first fields, the selection at the end is replaced. -/
theorem modifyAt_plug (nonempty : frames ≠ []) (first : ∀ frame ∈ frames, frame.IsFirst)
    (old new : List FieldNode) :
    modifyAt (fun field => { field with selection := new }) (frames.map (·.name))
      (plug frames old) = plug frames new := by
  induction frames with
  | nil => exact absurd rfl nonempty
  | cons frame rest ih =>
    obtain ⟨hframe, hrest⟩ := List.forall_mem_cons.1 first
    cases rest with
    | nil =>
      rw [List.map_singleton, modifyAt, plug, modifyFirst_append_of_ne hframe, modifyFirst,
        if_pos rfl]
      rfl
    | cons next rest =>
      have hbelow := ih (List.cons_ne_nil _ _) hrest
      rw [List.map_cons] at hbelow
      rw [List.map_cons, List.map_cons, modifyAt, plug, modifyFirst_append_of_ne hframe,
        modifyFirst, if_pos rfl, hbelow]
      rfl

/-! ## Lines around a selection -/

/-- The lines before the selection at the end of a path. -/
def openings (depth : Nat) : List Frame → List String
  | [] => []
  | frame :: rest =>
    selectionLines depth frame.before ++
      (indent depth ++ head frame.name frame.arguments ++ " \x7b") :: openings (depth + 1) rest

/-- The lines after the selection at the end of a path. -/
def closings (depth : Nat) : List Frame → List String
  | [] => []
  | frame :: rest =>
    closings (depth + 1) rest ++ (indent depth ++ "\x7d") :: selectionLines depth frame.after

/-- The lines of a selection at the end of a path stand between lines that do not depend on it. -/
theorem selectionLines_plug (frames : List Frame) (depth : Nat) {selection : List FieldNode}
    (h : selection ≠ []) :
    selectionLines depth (plug frames selection) =
      openings depth frames ++ selectionLines (depth + frames.length) selection ++
        closings depth frames := by
  induction frames generalizing depth with
  | nil => simp [plug, openings, closings]
  | cons frame rest ih =>
    have hlength : depth + 1 + rest.length = depth + (frame :: rest).length := by
      rw [List.length_cons]
      omega
    rw [plug, selectionLines_append, selectionLines, lines_of_ne_nil _ _ _ (plug_ne_nil rest h),
      ih, hlength, openings, closings]
    simp only [List.append_assoc, List.cons_append, List.nil_append]

/-- What holds of every brace that closes a field, of the headers of the fields of a path and of
the lines of the fields beside them, holds of all lines around a selection. -/
theorem forall_mem_around {holds : String → Prop}
    (closes : ∀ depth, holds (indent depth ++ "\x7d"))
    (each : ∀ frame ∈ frames, ∀ depth,
      holds (indent depth ++ head frame.name frame.arguments ++ " \x7b") ∧
        ∀ line ∈ selectionLines depth (frame.before ++ frame.after), holds line) (depth : Nat) :
    ∀ line ∈ openings depth frames ++ closings depth frames, holds line := by
  induction frames generalizing depth with
  | nil => simp [openings, closings]
  | cons frame rest ih =>
    obtain ⟨hframe, hrest⟩ := List.forall_mem_cons.1 each
    obtain ⟨hheader, hbeside⟩ := hframe depth
    rw [selectionLines_append, List.forall_mem_append] at hbeside
    have hbelow := ih hrest (depth + 1)
    rw [List.forall_mem_append] at hbelow
    rw [openings, closings, List.forall_mem_append, List.forall_mem_append, List.forall_mem_append,
      List.forall_mem_cons, List.forall_mem_cons]
    exact ⟨⟨hbeside.1, hheader, hbelow.1⟩, hbelow.2, closes depth, hbeside.2⟩

end Frame

end FieldNode

open FieldNode

/-- The lines of a document with a selection at the end of a path. -/
theorem Document.lines_of_selection_eq {document : Document} {frames : List Frame}
    {selection : List FieldNode} (h : selection ≠ [])
    (hselection : document.selection = Frame.plug frames selection) :
    document.lines = (document.head ++ " \x7b") :: Frame.openings 1 frames ++
      selectionLines (1 + frames.length) selection ++ (Frame.closings 1 frames ++ ["\x7d"]) := by
  have hlines := Frame.selectionLines_plug frames 1 h
  rw [← hselection] at hlines
  have hne : document.selection ≠ [] := hselection ▸ Frame.plug_ne_nil frames h
  rw [Document.lines]
  cases hfields : document.selection with
  | nil => exact absurd hfields hne
  | cons field rest =>
    rw [hfields] at hlines
    show (document.head ++ " \x7b") :: (selectionLines 1 (field :: rest) ++ ["\x7d"]) = _
    rw [hlines, List.cons_append, List.cons_append, List.append_assoc]

end GraphClient
