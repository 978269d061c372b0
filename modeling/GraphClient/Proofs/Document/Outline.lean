import GraphClient.Proofs.Document.Legible
import GraphClient.Proofs.Text.Nesting

/-!
# Outlines of documents

A document is read by its brackets alone: fields are words, perhaps with a list of arguments in
parentheses, which ends where nothing in it is open any more, and perhaps with fields in braces. The
fields of a document are found that way exactly if none of its argument lists has brackets or
quotation marks that do not match.

* `FieldOutline.read` : reads the fields of a text, which are cut into tokens
  (`FieldOutline.tokens`) and then put together (`FieldOutline.parse`).
* `FieldNode.All` : something holds of all fields of a tree, by name and arguments.
* `FieldNode.Contained` : every argument list is self-contained.
* `Document.read_text_iff` : the outline of a document is read off its text exactly if all its
  fields are contained.
-/

namespace GraphClient

/-- What is seen of a field in a text. -/
structure FieldOutline where
  word : List Char
  /-- The text between the parentheses, if there are any. -/
  arguments : Option (List Char)
  fields : List FieldOutline
deriving Repr, Inhabited

namespace FieldOutline

/-! ## Words -/

/-- A piece of a text. -/
inductive Token where
  /-- A word with the text in parentheses after it. -/
  | field (word : List Char) (arguments : Option (List Char))
  | opens
  | closes
deriving Repr, DecidableEq, Inhabited

/-- The characters of words: no white space, brackets and quotation marks. -/
def isWordChar (c : Char) : Bool := !c.isWhitespace && !marks.contains c

/-- What is being read. -/
inductive Mode where
  | between
  | word (read : List Char)
  | arguments (word read : List Char) (nesting : Nesting)

/-- What a character means where no word is being read. -/
def stepBetween (c : Char) : Option (List Token × Mode) :=
  if c.isWhitespace then some ([], .between)
  else if c = '\x7b' then some ([.opens], .between)
  else if c = '\x7d' then some ([.closes], .between)
  else if isWordChar c then some ([], .word [c])
  else none

/-- What is complete after a character, and what is being read then. An argument list ends with the
first parenthesis that nothing in the list has opened. -/
def step : Mode → Char → Option (List Token × Mode)
  | .between, c => stepBetween c
  | .word read, c =>
    if isWordChar c then some ([], .word (read ++ [c]))
    else if c = '(' then some ([], .arguments read [] .start)
    else (stepBetween c).map fun next => (.field read none :: next.1, next.2)
  | .arguments word read nesting, c =>
    if c = ')' ∧ nesting = .start then some ([.field word (some read)], .between)
    else (nesting.step c).map fun next => ([], .arguments word (read ++ [c]) next)

/-- What is complete at the end of a text. -/
def finish : Mode → Option (List Token)
  | .between => some []
  | .word read => some [.field read none]
  | .arguments _ _ _ => none

/-- The pieces of a text. -/
def tokens (mode : Mode) : List Char → Option (List Token)
  | [] => finish mode
  | c :: rest => (step mode c).bind fun next => (tokens next.2 rest).map (next.1 ++ ·)

/-! ## Fields -/

/-- A field whose brace is open, with the fields before it, the last one first. -/
structure Opened where
  before : List FieldOutline
  word : List Char
  arguments : Option (List Char)

/-- The fields that were read, the last one first, below the fields that are open. -/
structure Reading where
  opened : List Opened
  fields : List FieldOutline

/-- What was read together with one more piece. A brace opens the field before it, and something
stands between braces. -/
def advance : Reading → Token → Option Reading
  | ⟨opened, fields⟩, .field word arguments => some ⟨opened, ⟨word, arguments, []⟩ :: fields⟩
  | ⟨opened, ⟨word, arguments, []⟩ :: before⟩, .opens =>
    some ⟨⟨before, word, arguments⟩ :: opened, []⟩
  | ⟨⟨before, word, arguments⟩ :: opened, field :: fields⟩, .closes =>
    some ⟨opened, ⟨word, arguments, (field :: fields).reverse⟩ :: before⟩
  | _, _ => none

/-- The fields that some pieces make up, if all braces are closed at the end. -/
def parse (reading : Reading) : List Token → Option (List FieldOutline)
  | [] => if reading.opened.isEmpty then some reading.fields.reverse else none
  | token :: rest => (advance reading token).bind fun next => parse next rest

/-- The fields of a text. -/
def read (text : List Char) : Option (List FieldOutline) :=
  (tokens .between text).bind (parse ⟨[], []⟩)

mutual

/-- The pieces of a field. -/
def spell : FieldOutline → List Token
  | ⟨word, arguments, []⟩ => [.field word arguments]
  | ⟨word, arguments, field :: rest⟩ =>
    .field word arguments :: .opens :: (spellAll (field :: rest) ++ [.closes])

/-- The pieces of some fields. -/
def spellAll : List FieldOutline → List Token
  | [] => []
  | field :: rest => field.spell ++ spellAll rest

end

/-- A field with fields of its own is spelled with marks around them. -/
theorem spell_of_ne_nil (word : List Char) (arguments : Option (List Char))
    {fields : List FieldOutline} (h : fields ≠ []) :
    spell ⟨word, arguments, fields⟩ =
      .field word arguments :: .opens :: (spellAll fields ++ [.closes]) := by
  cases fields with
  | nil => exact absurd rfl h
  | cons field rest => rw [spell]

/-- Fields one behind the other are spelled one by one. -/
theorem spellAll_append (a b : List FieldOutline) :
    spellAll (a ++ b) = spellAll a ++ spellAll b := by
  induction a with
  | nil => rfl
  | cons field rest ih => rw [List.cons_append, spellAll, spellAll, ih, List.append_assoc]

/-- The pieces that were read. -/
def Reading.spelled (reading : Reading) : List Token :=
  (reading.opened.reverse.flatMap fun field =>
    spellAll field.before.reverse ++ [.field field.word field.arguments, .opens]) ++
      spellAll reading.fields.reverse

/-- One more piece is one more piece that was read. -/
theorem spelled_advance {reading next : Reading} {token : Token}
    (h : advance reading token = some next) : next.spelled = reading.spelled ++ [token] := by
  obtain ⟨opened, fields⟩ := reading
  cases token with
  | field word arguments =>
    obtain rfl : ⟨opened, ⟨word, arguments, []⟩ :: fields⟩ = next := Option.some.inj h
    rw [Reading.spelled, Reading.spelled, List.reverse_cons, spellAll_append, List.append_assoc]
    rfl
  | opens =>
    cases fields with
    | nil => cases h
    | cons field before =>
      obtain ⟨word, arguments, inner⟩ := field
      cases inner with
      | cons _ _ => cases h
      | nil =>
        -- The opened field waits, without fields of its own, until its brace is closed.
        obtain rfl : ⟨⟨before, word, arguments⟩ :: opened, []⟩ = next := Option.some.inj h
        simp [Reading.spelled, spellAll_append, spellAll, spell]
  | closes =>
    cases opened with
    | nil => cases fields <;> cases h
    | cons outer opened =>
      obtain ⟨before, word, arguments⟩ := outer
      cases fields with
      | nil => cases h
      | cons field fields =>
        obtain rfl : ⟨opened, ⟨word, arguments, (field :: fields).reverse⟩ :: before⟩ = next :=
          Option.some.inj h
        simp [Reading.spelled, spellAll_append, spellAll, spell_of_ne_nil]

/-- The pieces that make up some fields are those of the fields. -/
theorem spellAll_of_parse {pieces : List Token} {fields : List FieldOutline} :
    ∀ {reading : Reading}, parse reading pieces = some fields →
      reading.spelled ++ pieces = spellAll fields := by
  induction pieces with
  | nil =>
    intro reading h
    obtain ⟨opened, read⟩ := reading
    cases opened with
    | cons outer opened => cases h
    | nil =>
      obtain rfl : read.reverse = fields := Option.some.inj h
      exact List.append_nil _
  | cons token rest ih =>
    intro reading h
    obtain ⟨next, hnext, hrest⟩ := Option.bind_eq_some_iff.1 h
    rw [← ih hrest, spelled_advance hnext, List.append_assoc]
    rfl

mutual

/-- The pieces of a field are read as the field. -/
theorem parse_spell : ∀ (field : FieldOutline) (opened : List Opened) (before : List FieldOutline)
    (rest : List Token),
    parse ⟨opened, before⟩ (field.spell ++ rest) = parse ⟨opened, field :: before⟩ rest
  | ⟨word, arguments, []⟩, opened, before, rest => by
    rw [spell]
    rfl
  | ⟨word, arguments, field :: fields⟩, opened, before, rest => by
    have hinner := parse_spellAll (field :: fields) (⟨before, word, arguments⟩ :: opened) []
      (.closes :: rest)
    rw [spell, List.cons_append, List.cons_append, List.append_assoc]
    show parse ⟨⟨before, word, arguments⟩ :: opened, []⟩ (_ ++ .closes :: rest) = _
    rw [hinner, List.append_nil]
    -- What was read between the braces is turned around, and so it has the order of the fields.
    obtain ⟨last, others, hreverse⟩ :=
      List.exists_cons_of_ne_nil (List.reverse_ne_nil_iff.2 (List.cons_ne_nil field fields))
    rw [hreverse]
    show parse ⟨opened, ⟨word, arguments, (last :: others).reverse⟩ :: before⟩ rest = _
    rw [← hreverse, List.reverse_reverse]

/-- Spelled fields are read back whatever was read before and stands behind, by recursion over the
fields. -/
theorem parse_spellAll : ∀ (fields : List FieldOutline) (opened : List Opened)
    (before : List FieldOutline) (rest : List Token),
    parse ⟨opened, before⟩ (spellAll fields ++ rest) =
      parse ⟨opened, fields.reverse ++ before⟩ rest
  | [], opened, before, rest => rfl
  | field :: fields, opened, before, rest => by
    rw [spellAll, List.append_assoc, parse_spell field, parse_spellAll fields, List.reverse_cons,
      List.append_assoc]
    rfl

end

/-- Some fields are read off a text exactly if its pieces are those of the fields. -/
theorem read_eq_some_iff (text : List Char) (fields : List FieldOutline) :
    read text = some fields ↔ tokens .between text = some (spellAll fields) := by
  constructor
  · intro h
    obtain ⟨pieces, hpieces, hfields⟩ := Option.bind_eq_some_iff.1 h
    rw [hpieces, ← spellAll_of_parse hfields]
    rfl
  · intro h
    have hparse := parse_spellAll fields [] [] []
    rw [List.append_nil, List.append_nil] at hparse
    rw [read, h, Option.bind_some, hparse]
    exact congrArg some (List.reverse_reverse fields)

/-! ## The pieces of a text -/

/-- A word goes on up to white space or a mark. -/
theorem isWordChar_iff {c : Char} :
    isWordChar c = true ↔ c.isWhitespace = false ∧ c ∉ marks := by
  simp [isWordChar]

/-- Where nothing is complete yet, the pieces are those of the rest. -/
theorem tokens_of_step {mode next : Mode} {c : Char} (h : step mode c = some ([], next))
    (rest : List Char) : tokens mode (c :: rest) = tokens next rest := by
  rw [tokens, h, Option.bind_some]
  cases tokens next rest <;> rfl

/-- White space is passed over. -/
theorem tokens_blank {blank : List Char} (h : ∀ c ∈ blank, c.isWhitespace = true)
    (rest : List Char) : tokens .between (blank ++ rest) = tokens .between rest := by
  induction blank with
  | nil => rfl
  | cons c blank ih =>
    obtain ⟨hc, hblank⟩ := List.forall_mem_cons.1 h
    have hstep : step .between c = some ([], .between) := by
      rw [step, stepBetween, if_pos hc]
    rw [List.cons_append, tokens_of_step hstep, ih hblank]

/-- An opening brace is a token of its own. -/
theorem tokens_opens (rest : List Char) :
    tokens .between ('\x7b' :: rest) = (tokens .between rest).map (.opens :: ·) := rfl

/-- A closing brace is a token of its own. -/
theorem tokens_closes (rest : List Char) :
    tokens .between ('\x7d' :: rest) = (tokens .between rest).map (.closes :: ·) := rfl

/-- The first part of a word is read. -/
theorem tokens_word {word : List Char} (h : ∀ c ∈ word, isWordChar c = true)
    (read rest : List Char) :
    tokens (.word read) (word ++ rest) = tokens (.word (read ++ word)) rest := by
  induction word generalizing read with
  | nil => rw [List.nil_append, List.append_nil]
  | cons c word ih =>
    obtain ⟨hc, hword⟩ := List.forall_mem_cons.1 h
    have hstep : step (.word read) c = some ([], .word (read ++ [c])) := by
      rw [step, if_pos hc]
    rw [List.cons_append, tokens_of_step hstep, ih hword, List.append_assoc]
    rfl

/-- The characters of a word, of which there are some. -/
def IsWord (word : List Char) : Prop := word ≠ [] ∧ ∀ c ∈ word, isWordChar c = true

/-- A word begins. -/
theorem tokens_isWord {word : List Char} (h : IsWord word) (rest : List Char) :
    tokens .between (word ++ rest) = tokens (.word word) rest := by
  obtain ⟨hne, hchars⟩ := h
  cases word with
  | nil => exact absurd rfl hne
  | cons c word =>
    obtain ⟨hc, hword⟩ := List.forall_mem_cons.1 hchars
    obtain ⟨hblank, hmark⟩ := isWordChar_iff.1 hc
    have hopen : c ≠ '\x7b' := fun h => hmark (by simp [marks, h])
    have hclose : c ≠ '\x7d' := fun h => hmark (by simp [marks, h])
    have hstep : step .between c = some ([], .word [c]) := by
      rw [step, stepBetween, if_neg (by simp [hblank]), if_neg hopen, if_neg hclose, if_pos hc]
    rw [List.cons_append, tokens_of_step hstep, tokens_word hword]
    rfl

/-- A word ends in front of white space. -/
theorem tokens_word_blank (word : List Char) {c : Char} (hc : c.isWhitespace = true)
    (rest : List Char) :
    tokens (.word word) (c :: rest) = (tokens .between rest).map (.field word none :: ·) := by
  have hword : ¬ isWordChar c = true := by simp [isWordChar, hc]
  have hopen : c ≠ '(' := by
    rintro rfl
    cases hc
  have hstep : step (.word word) c = some ([.field word none], .between) := by
    rw [step, if_neg hword, if_neg hopen, stepBetween, if_pos hc]
    rfl
  rw [tokens, hstep, Option.bind_some]
  rfl

/-! ## Argument lists -/

/-- What was read of an argument list is part of the list. -/
theorem exists_of_tokens_arguments {text : List Char} {pieces : List Token} :
    ∀ {word read : List Char} {nesting : Nesting},
      tokens (.arguments word read nesting) text = some pieces →
        ∃ more rest, pieces = .field word (some (read ++ more)) :: rest := by
  induction text with
  | nil => intro word read nesting h; cases h
  | cons c text ih =>
    intro word read nesting h
    obtain ⟨⟨done, next⟩, hstep, hrest⟩ := Option.bind_eq_some_iff.1 h
    obtain ⟨others, hothers, rfl⟩ := Option.map_eq_some_iff.1 hrest
    rw [step] at hstep
    split at hstep
    · obtain ⟨rfl, rfl⟩ := Prod.mk.inj (Option.some.inj hstep)
      exact ⟨[], others, by rw [List.append_nil]; rfl⟩
    · obtain ⟨after, -, hnext⟩ := Option.map_eq_some_iff.1 hstep
      obtain ⟨rfl, rfl⟩ := Prod.mk.inj hnext
      obtain ⟨more, rest, rfl⟩ := ih hothers
      exact ⟨c :: more, rest, by rw [List.append_assoc]; rfl⟩

/-- An argument list is read as what it is exactly if nothing is open at its end. By induction on
the list: where the reader stops before its end, or goes on after it, it finds another list. -/
theorem tokens_arguments_iff {text : List Char} (word rest : List Char) (pieces : List Token) :
    ∀ {read : List Char} {nesting : Nesting},
      tokens (.arguments word read nesting) (text ++ ')' :: rest) =
          some (.field word (some (read ++ text)) :: pieces) ↔
        nesting.run text = some .start ∧ tokens .between rest = some pieces := by
  induction text with
  | nil =>
    intro read nesting
    rw [List.append_nil, List.nil_append, Nesting.run]
    by_cases hstart : nesting = .start
    · have hstep : step (.arguments word read nesting) ')' =
          some ([.field word (some read)], .between) := by
        rw [step, if_pos ⟨rfl, hstart⟩]
      rw [tokens, hstep, Option.bind_some, hstart]
      cases tokens .between rest with
      | none => simp
      | some others => simp
    · constructor
      · intro h
        obtain ⟨⟨done, next⟩, hstep, hrest⟩ := Option.bind_eq_some_iff.1 h
        rw [step, if_neg (fun h => hstart h.2)] at hstep
        obtain ⟨after, -, hnext⟩ := Option.map_eq_some_iff.1 hstep
        obtain ⟨rfl, rfl⟩ := Prod.mk.inj hnext
        obtain ⟨others, hothers, heq⟩ := Option.map_eq_some_iff.1 hrest
        obtain ⟨more, others', rfl⟩ := exists_of_tokens_arguments hothers
        -- The closing parenthesis became part of the list.
        simp at heq
      · rintro ⟨h, -⟩
        exact absurd (Option.some.inj h) hstart
  | cons c text ih =>
    intro read nesting
    rw [List.cons_append, Nesting.run]
    by_cases hend : c = ')' ∧ nesting = .start
    · have hstep : step (.arguments word read nesting) c =
          some ([.field word (some read)], .between) := by
        rw [step, if_pos hend]
      rw [tokens, hstep, Option.bind_some, hend.1, hend.2, Nesting.step_start_close]
      simp
    · cases hnext : nesting.step c with
      | none =>
        rw [tokens, step, if_neg hend, hnext]
        simp
      | some next =>
        have hstep : step (.arguments word read nesting) c =
            some ([], .arguments word (read ++ [c]) next) := by
          rw [step, if_neg hend, hnext]
          rfl
        have hassoc : read ++ c :: text = (read ++ [c]) ++ text := by
          rw [List.append_assoc]
          rfl
        rw [tokens_of_step hstep, hassoc]
        exact ih

/-! ## Documents -/

variable {α : Type}

/-- The text between the parentheses of a header, if it has any. -/
def listed? (item : Script α) (things : List α) : Option (List Char) :=
  if things.isEmpty then none else some (item.listed things)

/-- A header in front of white space is read as what it is exactly if its list is self-contained. -/
theorem tokens_header_iff {item : Script α} {name : String} (hname : IsWord name.toList)
    (things : List α) {c : Char} (hc : c.isWhitespace = true) (rest : List Char)
    (pieces : List Token) :
    tokens .between (item.header.write (name, things) ++ c :: rest) =
        some (.field name.toList (listed? item things) :: pieces) ↔
      SelfContained (item.listed things) ∧ tokens .between rest = some pieces := by
  have hblank : tokens .between (c :: rest) = tokens .between rest :=
    tokens_blank (List.forall_mem_singleton.2 hc) rest
  cases things with
  | nil =>
    show tokens .between ((name.toList ++ []) ++ c :: rest) = _ ↔ _
    rw [List.append_nil, tokens_isWord hname, tokens_word_blank _ hc]
    have hnil : SelfContained (item.listed []) := rfl
    simp [hnil, listed?]
  | cons thing things =>
    have hwrite : item.header.write (name, thing :: things) ++ c :: rest =
        name.toList ++ '(' :: (item.listed (thing :: things) ++ ')' :: c :: rest) := by
      simp [Script.header, Script.andThen, Script.parenthesized, Script.name, Script.word]
    have hstep : step (.word name.toList) '(' = some ([], .arguments name.toList [] .start) := rfl
    rw [hwrite, tokens_isWord hname, tokens_of_step hstep, ← hblank]
    exact tokens_arguments_iff name.toList (c :: rest) pieces

end FieldOutline

namespace FieldNode

open FieldOutline

/-- Something holds of the name and the arguments of a field, and of all fields below it. -/
inductive All (holds : String → List (String × Literal) → Prop) : FieldNode → Prop
  | intro {name : String} {arguments : List (String × Literal)} {selection : List FieldNode}
      (here : holds name arguments) (below : ∀ field ∈ selection, All holds field) :
      All holds ⟨name, arguments, selection⟩

/-- What holds of all fields can be weakened for all of them. -/
theorem All.imp {holds holds' : String → List (String × Literal) → Prop} {field : FieldNode}
    (h : field.All holds) (himp : ∀ name arguments, holds name arguments → holds' name arguments) :
    field.All holds' := by
  induction h with
  | intro here below ih => exact .intro (himp _ _ here) ih

/-- The names of a field and of all fields below it are words. -/
def Worded (field : FieldNode) : Prop := field.All fun name _ => IsWord name.toList

/-- The text of some arguments. -/
def argumentsText (arguments : List (String × Literal)) : String :=
  String.intercalate ", " (Literal.fieldTexts arguments)

/-- The argument lists of a field and of all fields below it are self-contained. -/
def Contained (field : FieldNode) : Prop :=
  field.All fun _ arguments => SelfContained (argumentsText arguments).toList

mutual

/-- The outline of a field. -/
def outline : FieldNode → FieldOutline
  | ⟨name, arguments, selection⟩ =>
    ⟨name.toList, if arguments.isEmpty then none else some (argumentsText arguments).toList,
      outlines selection⟩

/-- The outlines of some fields. -/
def outlines : List FieldNode → List FieldOutline
  | [] => []
  | field :: rest => field.outline :: outlines rest

end

/-- The white space in front of a line is white space. -/
theorem isWhitespace_of_mem_indent (depth : Nat) :
    ∀ c ∈ (indent depth).toList, c.isWhitespace = true := by
  intro c hc
  rw [toList_indent] at hc
  rw [List.eq_of_mem_replicate hc]
  rfl

/-- A piece in front of the others is the piece itself. -/
theorem map_cons_eq_some_iff {token : Token} {found : Option (List Token)} {pieces : List Token} :
    found.map (token :: ·) = some (token :: pieces) ↔ found = some pieces := by
  cases found <;> simp

/-- Fields are read one by one. -/
theorem tokens_fields_iff {depth : Nat} {fields : List FieldNode}
    (h : ∀ field ∈ fields, ∀ (rest : List Char) (pieces : List Token),
      tokens .between ((script depth).write field ++ rest) = some (field.outline.spell ++ pieces) ↔
        field.Contained ∧ tokens .between rest = some pieces)
    (rest : List Char) (pieces : List Token) :
    tokens .between (fields.flatMap (script depth).write ++ rest) =
        some (spellAll (outlines fields) ++ pieces) ↔
      (∀ field ∈ fields, field.Contained) ∧ tokens .between rest = some pieces := by
  induction fields with
  | nil =>
    show tokens .between rest = some pieces ↔ _
    simp
  | cons field fields ih =>
    obtain ⟨hfield, hfields⟩ := List.forall_mem_cons.1 h
    rw [List.flatMap_cons, List.append_assoc, outlines, spellAll, List.append_assoc, hfield,
      ih hfields, List.forall_mem_cons, and_assoc]

/-- A header with its block is read as what it is exactly if its list is self-contained and its
fields are contained. -/
theorem tokens_headed_iff {α : Type} {item : Script α} {name : String}
    (hname : IsWord name.toList) (things : List α) {depth : Nat} {fields : List FieldNode}
    (h : ∀ field ∈ fields, ∀ (rest : List Char) (pieces : List Token),
      tokens .between ((script (depth + 1)).write field ++ rest) =
          some (field.outline.spell ++ pieces) ↔
        field.Contained ∧ tokens .between rest = some pieces)
    (rest : List Char) (pieces : List Token) :
    tokens .between (item.header.write (name, things) ++ ((block depth).write fields ++ rest)) =
        some (spell ⟨name.toList, listed? item things, outlines fields⟩ ++ pieces) ↔
      SelfContained (item.listed things) ∧ (∀ field ∈ fields, field.Contained) ∧
        tokens .between rest = some pieces := by
  cases fields with
  | nil =>
    show tokens .between (_ ++ '\n' :: rest) = some (.field _ _ :: pieces) ↔ _
    rw [tokens_header_iff hname things rfl]
    simp
  | cons field fields =>
    have hnewline : ∀ c ∈ ['\n'], c.isWhitespace = true := List.forall_mem_singleton.2 rfl
    have hwrite : (block depth).write (field :: fields) ++ rest =
        ' ' :: '\x7b' :: (['\n'] ++ ((field :: fields).flatMap (script (depth + 1)).write ++
          ((indent depth).toList ++ '\x7d' :: (['\n'] ++ rest)))) := by
      simp [block]
    have hspell : spell ⟨name.toList, listed? item things, outlines (field :: fields)⟩ ++ pieces =
        .field name.toList (listed? item things) ::
          .opens :: (spellAll (outlines (field :: fields)) ++ (.closes :: pieces)) := by
      rw [outlines, spell]
      simp
    -- Each brace stands for itself, and white space for nothing.
    rw [hwrite, hspell, tokens_header_iff hname things rfl, tokens_opens, map_cons_eq_some_iff,
      tokens_blank hnewline, tokens_fields_iff h, tokens_blank (isWhitespace_of_mem_indent depth),
      tokens_closes, map_cons_eq_some_iff, tokens_blank hnewline]

/-- A field whose names are words is read as what it is exactly if it is contained. By induction on
the field, at all depths. -/
theorem Worded.tokens_iff {field : FieldNode} (h : field.Worded) (depth : Nat) :
    ∀ (rest : List Char) (pieces : List Token),
      tokens .between ((script depth).write field ++ rest) = some (field.outline.spell ++ pieces) ↔
        field.Contained ∧ tokens .between rest = some pieces := by
  unfold Worded at h
  induction h generalizing depth with
  | @intro name arguments selection here below ih =>
    intro rest pieces
    have hwrite : (script depth).write ⟨name, arguments, selection⟩ ++ rest =
        (indent depth).toList ++ (Literal.fieldScript.header.write (name, arguments) ++
          ((block depth).write selection ++ rest)) := by
      rw [write_script, List.append_assoc]
      congr 1
      exact List.append_assoc _ _ _
    have houtline : FieldNode.outline ⟨name, arguments, selection⟩ =
        ⟨name.toList, listed? Literal.fieldScript arguments, outlines selection⟩ := by
      rw [outline, listed?, argumentsText, Literal.toList_fieldTexts]
    rw [hwrite, tokens_blank (isWhitespace_of_mem_indent depth), houtline,
      tokens_headed_iff here arguments fun field hfield => ih field hfield (depth + 1),
      ← Literal.toList_fieldTexts]
    constructor
    · rintro ⟨hlist, hbelow, hrest⟩
      exact ⟨.intro hlist hbelow, hrest⟩
    · rintro ⟨hcontained, hrest⟩
      cases hcontained with
      | intro hlist hbelow => exact ⟨hlist, hbelow, hrest⟩

end FieldNode

namespace Document

open FieldOutline

/-- The text of the variables of a document. -/
def variablesText (document : Document) : String :=
  String.intercalate ", " (document.declarations.map (·.text))

/-- The outline of a document: the word for its kind, and its name with its variables and fields. -/
def outline (document : Document) : List FieldOutline :=
  [⟨document.kind.keyword.toList, none, []⟩,
    ⟨document.name.toList,
      if document.declarations.isEmpty then none else some document.variablesText.toList,
      FieldNode.outlines document.selection⟩]

/-- The names of a document and of its fields are words, and its list of variables is
self-contained. -/
structure Worded (document : Document) : Prop where
  name : IsWord document.name.toList
  declared : SelfContained document.variablesText.toList
  fields : ∀ field ∈ document.selection, field.Worded

/-- The keyword of an operation is one word. -/
theorem isWord_keyword (kind : OperationKind) : IsWord kind.keyword.toList := by
  cases kind
  · exact ⟨by decide, List.all_eq_true.1 (by decide)⟩
  · exact ⟨by decide, List.all_eq_true.1 (by decide)⟩

/-- The outline of a document is read off its text exactly if all its fields are contained. -/
theorem read_text_iff {document : Document} (h : document.Worded) :
    read document.text.toList = some document.outline ↔
      ∀ field ∈ document.selection, field.Contained := by
  have hlist : document.variablesText.toList =
      VariableDeclaration.script.listed document.shownVariables :=
    Script.toList_intercalate_map VariableDeclaration.toList_text _
  have hvariables : (if document.declarations.isEmpty then none
      else some document.variablesText.toList) =
        listed? VariableDeclaration.script document.shownVariables := by
    rw [listed?, hlist, shownVariables, List.isEmpty_map]
  -- The keyword stands alone in front of both the text and the pieces. What comes after it is
  -- one headed field, which holds the selection.
  have hwrite : document.text.toList = document.kind.keyword.toList ++
      ' ' :: (VariableDeclaration.script.header.write (document.name, document.shownVariables) ++
        ((FieldNode.block 0).write document.selection ++ [])) := by
    rw [toList_text, List.append_nil]
    rfl
  have hspell : spellAll document.outline = .field document.kind.keyword.toList none ::
      (spell ⟨document.name.toList, listed? VariableDeclaration.script document.shownVariables,
        FieldNode.outlines document.selection⟩ ++ []) := by
    rw [outline, hvariables]
    rfl
  have hself := h.declared
  rw [hlist] at hself
  rw [read_eq_some_iff, hwrite, hspell, tokens_isWord (isWord_keyword _),
    tokens_word_blank _ rfl, FieldNode.map_cons_eq_some_iff,
    FieldNode.tokens_headed_iff h.name _ fun field hfield => (h.fields field hfield).tokens_iff 1]
  constructor
  · exact fun hread => hread.2.1
  · exact fun hfields => ⟨hself, hfields, rfl⟩

end Document

end GraphClient
