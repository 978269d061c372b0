import GraphClient.Document.Basic
import GraphClient.Proofs.Document.Literal
import GraphClient.Proofs.Text.Lines

/-!
# Documents can be read back

The text of a document tells all there is in it, but for the kinds of the named types: an object and
a scalar of one name are written alike. A field and an operation have the same layout, a name with
items in parentheses and then a block of fields. A block is closed by a brace that stands further
left than its fields.

* `FieldNode.WellNamed`, `Document.WellNamed` : fields and documents made with names.
* `FieldNode.WellNamed.legible` : a field can be read off its lines, at every depth.
* `Document.parts_eq_of_text_eq` : documents with the same text have the same parts.
-/

namespace GraphClient

/-! ## Headers -/

namespace Script

variable {α : Type}

/-- A name, and things in parentheses if there are any. -/
def header (item : Script α) : Script (String × List α) :=
  Script.name.andThen (item.parenthesized isNameChar)

/-- A name with things in parentheses behind it can be read back if the things can. -/
theorem Legible.header {item : Script α} (comma : item.inner ',' = false)
    (closes : item.inner ')' = false) {name : String} (hname : isName name = true)
    {things : List α} (h : ∀ a ∈ things, item.Legible a) : item.header.Legible (name, things) := by
  refine (legible_name hname).andThen (.parenthesized comma closes h) fun others r _ hr => ?_
  cases others with
  | cons b rest => exact rfl
  | nil =>
    cases r with
    | nil => trivial
    | cons c rest => exact (Bool.or_eq_false_iff.1 hr).1

end Script

/-! ## Fields -/

/-- The characters of some lines, each with a line feed at its end. -/
def lineChars (lines : List String) : List Char := lines.flatMap fun line => line.toList ++ ['\n']

/-- The characters of some lines are those of the first, a line feed and those of the others. -/
theorem lineChars_cons (line : String) (rest : List String) :
    lineChars (line :: rest) = line.toList ++ '\n' :: lineChars rest := by
  rw [lineChars, List.flatMap_cons, List.append_assoc]
  rfl

/-- The characters of lines one behind the other are those of each of them. -/
theorem lineChars_append (a b : List String) : lineChars (a ++ b) = lineChars a ++ lineChars b :=
  List.flatMap_append

namespace FieldNode

/-- All fields below a field and all their arguments are made with names. -/
inductive WellNamed : FieldNode → Prop
  | intro {name : String} {arguments : List (String × Literal)} {selection : List FieldNode}
      (hname : isName name = true) (hkeys : ∀ argument ∈ arguments, isName argument.1 = true)
      (hvalues : ∀ argument ∈ arguments, argument.2.WellNamed)
      (hselection : ∀ field ∈ selection, WellNamed field) :
      WellNamed ⟨name, arguments, selection⟩

/-- The lines of a field at a depth. -/
def script (depth : Nat) : Script FieldNode where
  write field := lineChars (field.lines depth)
  legal := WellNamed
  inner _ := false

/-- The fields below a header at a depth, one level further in. -/
def block (depth : Nat) : Script (List FieldNode) where
  write
    | [] => ['\n']
    | field :: rest =>
      ' ' :: '\x7b' :: '\n' :: ((field :: rest).flatMap (script (depth + 1)).write ++
        ((indent depth).toList ++ ['\x7d', '\n']))
  legal fields := ∀ field ∈ fields, field.WellNamed
  inner _ := false

/-- A header and a block: what a field is written as after its indentation. -/
def bodyScript (depth : Nat) : Script ((String × List (String × Literal)) × List FieldNode) :=
  Literal.fieldScript.header.andThen (block depth)

/-- The header and the block of a field. -/
def body (field : FieldNode) : (String × List (String × Literal)) × List FieldNode :=
  ((field.name, field.arguments), field.selection)

/-- A line is indented by two blanks for each level. -/
theorem toList_indent (depth : Nat) :
    (indent depth).toList = List.replicate (2 * depth) ' ' := String.toList_ofList

/-- A field is headed by its name, and by its arguments in parentheses if there are any. -/
theorem toList_head (name : String) (arguments : List (String × Literal)) :
    (head name arguments).toList = Literal.fieldScript.header.write (name, arguments) := by
  cases arguments with
  | nil => exact (List.append_nil _).symm
  | cons argument rest =>
    rw [head, if_neg (by simp), String.toList_append, String.toList_append, String.toList_append,
      Literal.toList_fieldTexts, List.append_assoc, List.append_assoc]
    rfl

/-- Some fields are written one after the other. -/
theorem lineChars_selectionLines (depth : Nat) (fields : List FieldNode) :
    lineChars (selectionLines depth fields) = fields.flatMap (script depth).write := by
  induction fields with
  | nil => rfl
  | cons field rest ih =>
    rw [selectionLines, lineChars_append, ih, List.flatMap_cons]
    rfl

/-- A header without a block stands on a line of its own. -/
theorem lineChars_header (depth : Nat) (header : String) :
    lineChars [header] = header.toList ++ (block depth).write [] := by
  rw [lineChars_cons]
  rfl

/-- A header with a block has a brace at its end, and one at its depth below the block. -/
theorem lineChars_block (depth : Nat) (header : String) (field : FieldNode)
    (rest : List FieldNode) :
    lineChars ((header ++ " \x7b") ::
        (selectionLines (depth + 1) (field :: rest) ++ [indent depth ++ "\x7d"])) =
      header.toList ++ (block depth).write (field :: rest) := by
  have hclose : lineChars [indent depth ++ "\x7d"] = (indent depth).toList ++ ['\x7d', '\n'] := by
    rw [lineChars_cons, String.toList_append, List.append_assoc]
    rfl
  rw [lineChars_cons, lineChars_append, lineChars_selectionLines, hclose, String.toList_append,
    List.append_assoc]
  rfl

/-- A field is written as its header and its block, at its depth. -/
theorem write_script (depth : Nat) (field : FieldNode) :
    (script depth).write field =
      (indent depth).toList ++ (bodyScript depth).write field.body := by
  have hlines : lineChars (field.lines depth) =
      (indent depth ++ head field.name field.arguments).toList ++
        (block depth).write field.selection := by
    obtain ⟨name, arguments, selection⟩ := field
    cases selection with
    | nil => exact lineChars_header depth _
    | cons field rest => exact lineChars_block depth _ field rest
  show lineChars (field.lines depth) = _
  rw [hlines, String.toList_append, toList_head, List.append_assoc]
  rfl

/-- One level more is two blanks more. -/
theorem indent_succ (depth : Nat) :
    (indent (depth + 1)).toList = (indent depth).toList ++ [' ', ' '] := by
  rw [toList_indent, toList_indent]
  exact List.replicate_append_replicate.symm

/-- The brace that closes a block stands where its fields have white space. -/
theorem close_ne_field (depth : Nat) (field : FieldNode) (r s : List Char) :
    (indent depth).toList ++ '\x7d' :: r ≠ (script (depth + 1)).write field ++ s := by
  intro h
  rw [write_script, indent_succ, List.append_assoc, List.append_assoc] at h
  have hbrace : '\x7d' = ' ' := (List.cons.inj (List.append_cancel_left h)).1
  cases hbrace

/-- Legible fields are legible in a row, up to the brace that closes their block. -/
theorem fields_unique {depth : Nat} {fields others : List FieldNode} {r s : List Char}
    (h : ∀ field ∈ fields, (script (depth + 1)).Legible field)
    (hothers : ∀ field ∈ others, field.WellNamed)
    (heq : fields.flatMap (script (depth + 1)).write ++ ((indent depth).toList ++ '\x7d' :: r) =
      others.flatMap (script (depth + 1)).write ++ ((indent depth).toList ++ '\x7d' :: s)) :
    fields = others ∧ r = s := by
  -- Where one list ends before the other, a brace would stand for the white space of a field.
  induction fields generalizing others with
  | nil =>
    cases others with
    | nil => exact ⟨rfl, (List.cons.inj (List.append_cancel_left heq)).2⟩
    | cons b bs =>
      rw [List.flatMap_cons, List.append_assoc] at heq
      exact absurd heq (close_ne_field depth b r _)
  | cons a as ih =>
    cases others with
    | nil =>
      rw [List.flatMap_cons, List.append_assoc] at heq
      exact absurd heq.symm (close_ne_field depth a s _)
    | cons b bs =>
      rw [List.flatMap_cons, List.flatMap_cons, List.append_assoc, List.append_assoc] at heq
      rw [List.forall_mem_cons] at h hothers
      obtain ⟨rfl, hrest⟩ := h.1.unique b _ _ hothers.1 (stops_never _) (stops_never _) heq
      obtain ⟨hfields, hrest⟩ := ih h.2 hothers.2 hrest
      exact ⟨congrArg _ hfields, hrest⟩

/-- A block of fields can be read back if the fields can. -/
theorem legible_block {depth : Nat} {fields : List FieldNode}
    (h : ∀ field ∈ fields, (script (depth + 1)).Legible field) : (block depth).Legible fields where
  legal field hfield := (h field hfield).legal
  unique others r s hothers hr hs heq := by
    cases fields with
    | nil =>
      cases others with
      | nil => exact ⟨rfl, (List.cons.inj heq).2⟩
      | cons b bs => cases (List.cons.inj heq).1
    | cons a as =>
      cases others with
      | nil => cases (List.cons.inj heq).1
      | cons b bs =>
        have hrows : (a :: as).flatMap (script (depth + 1)).write ++
            ((indent depth).toList ++ '\x7d' :: '\n' :: r) =
              (b :: bs).flatMap (script (depth + 1)).write ++
                ((indent depth).toList ++ '\x7d' :: '\n' :: s) := by
          simpa [block] using heq
        obtain ⟨hfields, hrest⟩ := fields_unique h hothers hrows
        exact ⟨hfields, (List.cons.inj hrest).2⟩

/-- A header is legible in front of a block, which starts with white space. -/
theorem legible_headed {α : Type} {item : Script α} {head : String × List α} {depth : Nat}
    {fields : List FieldNode} (hhead : item.header.Legible head)
    (h : ∀ field ∈ fields, (script (depth + 1)).Legible field) :
    (item.header.andThen (block depth)).Legible (head, fields) := by
  refine hhead.andThen (legible_block h) fun others r _ _ => ?_
  cases others with
  | nil => exact rfl
  | cons b rest => exact rfl

/-- What is selected below a well-named field is well-named, too. -/
theorem WellNamed.legal_body {field : FieldNode} (h : field.WellNamed) (depth : Nat) :
    (bodyScript depth).legal field.body := by
  cases h with
  | intro hname hkeys hvalues hselection =>
    exact ⟨⟨hname, fun argument hargument =>
      ⟨hkeys argument hargument, hvalues argument hargument⟩⟩, hselection⟩

/-- A field made with names can be read off its lines, at every depth. -/
theorem WellNamed.legible {field : FieldNode} (h : field.WellNamed) (depth : Nat) :
    (script depth).Legible field := by
  -- For all depths at once, as the fields below stand one level further in.
  induction h generalizing depth with
  | intro hname hkeys hvalues hselection ih =>
    have hhead := Script.Legible.header rfl rfl hname fun argument hargument =>
      Literal.legible_field (hkeys argument hargument) (hvalues argument hargument).legible
    have hbody := legible_headed hhead fun field hfield => ih field hfield (depth + 1)
    refine ⟨.intro hname hkeys hvalues hselection, fun other r s hother _ _ heq => ?_⟩
    rw [write_script, write_script, List.append_assoc, List.append_assoc] at heq
    obtain ⟨hparts, hrest⟩ := hbody.unique other.body r s (hother.legal_body depth)
      (stops_never r) (stops_never s) (List.append_cancel_left heq)
    obtain ⟨name', arguments', selection'⟩ := other
    cases hparts
    exact ⟨rfl, hrest⟩

end FieldNode

/-! ## Documents -/

namespace TypeRef

/-- The characters of the texts of types. -/
def isTextChar (c : Char) : Bool := isNameChar c || c == '[' || c == ']' || c == '!'

/-- A type is written in characters that types are written in. -/
theorem isTextChar_of_mem_text {type : TypeRef} (h : Spelled type.baseName) :
    ∀ c ∈ type.text.toList, isTextChar c = true := by
  have hname (name : String) (h : Spelled name) : ∀ c ∈ name.toList, isTextChar c = true := by
    intro c hc
    rw [isTextChar, h c hc]
    rfl
  induction type with
  | nonNull inner ih =>
    rw [text, String.toList_append, List.forall_mem_append]
    exact ⟨ih h, List.all_eq_true.1 (by decide)⟩
  | list inner ih =>
    rw [text, String.toList_append, String.toList_append, List.forall_mem_append,
      List.forall_mem_append]
    exact ⟨⟨List.all_eq_true.1 (by decide), ih h⟩, List.all_eq_true.1 (by decide)⟩
  | scalar name | object name | inputObject name | enumeration name => exact hname name h
  | unresolved => exact List.all_eq_true.1 (by decide)

end TypeRef

namespace VariableDeclaration

/-- What is seen of a declaration in a document. -/
def shown (declaration : VariableDeclaration) : String × String :=
  (declaration.name, declaration.type.text)

/-- The texts of types. -/
def typeScript : Script String :=
  .word (fun text => ∀ c ∈ text.toList, TypeRef.isTextChar c = true) TypeRef.isTextChar

/-- Declarations, by name and the text of the type. -/
def script : Script (String × String) := (Script.name.keyed typeScript).after "$"

/-- A variable is written with its type behind a colon. -/
theorem toList_text (declaration : VariableDeclaration) :
    declaration.text.toList = script.write declaration.shown := by
  rw [text, String.toList_append, String.toList_append, String.toList_append, List.append_assoc,
    List.append_assoc]
  rfl

/-- A variable can be read back up to the end of its type. -/
theorem legible_shown {declaration : VariableDeclaration} (hname : isName declaration.name = true)
    (htype : isName declaration.type.baseName = true) : script.Legible declaration.shown :=
  ((Script.legible_name hname).keyed
    (Script.legible_word (fun _ h => h)
      (TypeRef.isTextChar_of_mem_text (isNameChar_of_isName _ htype))) rfl).after "$"

end VariableDeclaration

/-- The kind of an operation is told by the word in front of its name. -/
theorem OperationKind.keyword_unique {a b : OperationKind} {r s : List Char}
    (h : a.keyword.toList ++ ' ' :: r = b.keyword.toList ++ ' ' :: s) : a = b ∧ r = s := by
  have hchars (kind : OperationKind) : ∀ c ∈ kind.keyword.toList, isNameChar c = true := by
    cases kind <;> exact List.all_eq_true.1 (by decide)
  have hspace (rest : List Char) : Stops isNameChar (' ' :: rest) := rfl
  obtain ⟨hkeyword, hrest⟩ := word_unique (hchars a) (hchars b) (hspace r) (hspace s) h
  refine ⟨?_, (List.cons.inj hrest).2⟩
  cases a <;> cases b
  · rfl
  · exact absurd hkeyword (by decide)
  · exact absurd hkeyword (by decide)
  · rfl

namespace Document

/-- The name, all variables and all fields of a document are made with names, and its types have
names. -/
structure WellNamed (document : Document) : Prop where
  name : isName document.name = true
  variableNames : ∀ declaration ∈ document.declarations, isName declaration.name = true
  typeNames : ∀ declaration ∈ document.declarations, isName declaration.type.baseName = true
  selection : ∀ field ∈ document.selection, field.WellNamed

/-- The variables of a document in their order, with the texts of their types. -/
def shownVariables (document : Document) : List (String × String) :=
  document.declarations.map (·.shown)

/-- What follows the kind of a document: a header and a block, as for a field. -/
def bodyScript : Script ((String × List (String × String)) × List FieldNode) :=
  VariableDeclaration.script.header.andThen (FieldNode.block 0)

/-- What follows the kind of a document. -/
def body (document : Document) : (String × List (String × String)) × List FieldNode :=
  ((document.name, document.shownVariables), document.selection)

/-- A document is headed by its kind, its name and its variables. -/
theorem toList_head (document : Document) :
    document.head.toList = document.kind.keyword.toList ++
      ' ' :: VariableDeclaration.script.header.write (document.name, document.shownVariables) := by
  have hlist : (String.intercalate ", " (document.declarations.map (·.text))).toList =
      VariableDeclaration.script.listed document.shownVariables :=
    Script.toList_intercalate_map VariableDeclaration.toList_text _
  rw [head, String.toList_append, String.toList_append, String.toList_append, List.append_assoc,
    List.append_assoc]
  congr 2
  rw [shownVariables] at hlist ⊢
  cases hdeclarations : document.declarations with
  | nil => rfl
  | cons declaration rest =>
    rw [hdeclarations] at hlist
    rw [if_neg (by simp), String.toList_append, String.toList_append, hlist]
    rfl

/-- A document is its kind and what follows it. -/
theorem toList_text (document : Document) :
    document.text.toList =
      document.kind.keyword.toList ++ ' ' :: bodyScript.write document.body := by
  have htext : document.text.toList = lineChars document.lines :=
    Text.toList_ofLines document.lines
  have hlines : lineChars document.lines =
      document.head.toList ++ (FieldNode.block 0).write document.selection := by
    rw [lines]
    cases document.selection with
    | nil => exact FieldNode.lineChars_header 0 _
    | cons field rest => exact FieldNode.lineChars_block 0 _ field rest
  rw [htext, hlines, toList_head, List.append_assoc]
  rfl

/-- The rest of a well-named document can be read back. -/
theorem WellNamed.legible_body {document : Document} (h : document.WellNamed) :
    bodyScript.Legible document.body := by
  refine FieldNode.legible_headed (.header rfl rfl h.name ?_) fun field hfield =>
    (h.selection field hfield).legible 1
  intro shown hshown
  obtain ⟨declaration, hmem, rfl⟩ := List.mem_map.1 hshown
  exact VariableDeclaration.legible_shown (h.variableNames declaration hmem)
    (h.typeNames declaration hmem)

/-- Documents with the same text have the same kind, the same name, the same variables in the same
order with types of the same text, and the same fields with all their arguments, level by level. -/
theorem parts_eq_of_text_eq {a b : Document} (ha : a.WellNamed) (hb : b.WellNamed)
    (h : a.text = b.text) :
    a.kind = b.kind ∧ a.name = b.name ∧ a.shownVariables = b.shownVariables ∧
      a.selection = b.selection := by
  have hchars : a.kind.keyword.toList ++ ' ' :: bodyScript.write a.body =
      b.kind.keyword.toList ++ ' ' :: bodyScript.write b.body := by
    rw [← toList_text, ← toList_text, h]
  obtain ⟨hkind, hwritten⟩ := OperationKind.keyword_unique hchars
  have hbody : a.body = b.body := by
    refine (ha.legible_body.unique b.body [] [] hb.legible_body.legal trivial trivial ?_).1
    rw [List.append_nil, List.append_nil, hwritten]
  obtain ⟨hheader, hselection⟩ := Prod.ext_iff.1 hbody
  obtain ⟨hname, hvariables⟩ := Prod.ext_iff.1 hheader
  exact ⟨hkind, hname, hvariables, hselection⟩

end Document

namespace Sample

/-- Asks for the tickets of an owner, who is given by a variable. -/
def ownerQuery (owner : TypeRef) : Document where
  kind := .query
  name := "Tickets"
  declarations := [⟨"owner", .nonNull owner⟩]
  selection :=
    [⟨"tickets",
      [("owner", .reference "owner"), ("where", .object [("tags", .list [.string "new\n"])])],
      [.leaf "id"]⟩]

/-- The documents of the example are well-named. -/
theorem wellNamed_ownerQuery {owner : TypeRef} (h : isName owner.baseName = true) :
    (ownerQuery owner).WellNamed := by
  have hwhere : (Literal.object [("tags", .list [.string "new\n"])]).WellNamed :=
    .object (by decide) (List.forall_mem_singleton.2 (.list (List.forall_mem_singleton.2 .string)))
  have hid : (FieldNode.leaf "id").WellNamed :=
    .intro (by decide) (by simp) (by simp) (by simp)
  have hname : isName "owner" = true := by decide
  have htitle : isName "Tickets" = true := by decide
  refine ⟨htitle, List.forall_mem_singleton.2 hname, List.forall_mem_singleton.2 h,
    List.forall_mem_singleton.2 ?_⟩
  exact .intro (by decide) (by decide)
    (List.forall_mem_cons.2 ⟨.reference hname, List.forall_mem_singleton.2 hwhere⟩)
    (List.forall_mem_singleton.2 hid)

/-- An owner that is an object and one that is a scalar are asked for by the same text, and the
queries agree in all that is shown. -/
theorem ownerQuery_parts :
    (ownerQuery (.object "User")).WellNamed ∧ (ownerQuery (.scalar "User")).WellNamed ∧
    (ownerQuery (.object "User")).text = (ownerQuery (.scalar "User")).text ∧
    (ownerQuery (.object "User")).shownVariables = (ownerQuery (.scalar "User")).shownVariables ∧
    (ownerQuery (.object "User")).selection = (ownerQuery (.scalar "User")).selection := by
  have hobject : (ownerQuery (.object "User")).WellNamed := wellNamed_ownerQuery (by decide)
  have hscalar : (ownerQuery (.scalar "User")).WellNamed := wellNamed_ownerQuery (by decide)
  have htext : (ownerQuery (.object "User")).text = (ownerQuery (.scalar "User")).text := rfl
  obtain ⟨-, -, hvariables, hselection⟩ := Document.parts_eq_of_text_eq hobject hscalar htext
  exact ⟨hobject, hscalar, htext, hvariables, hselection⟩

end Sample

end GraphClient
