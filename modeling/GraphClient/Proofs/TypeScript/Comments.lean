import GraphClient.TypeScript.Text
import Mathlib.Data.List.TakeWhile
import Mathlib.Logic.Function.Iterate
import Mathlib.Tactic.ByContra

/-!
# Comments end where they should

A block comment ends with the first `*/` after its beginning, wherever that comes from. A doc
comment is made from the lines of a text without a change inside a line, so it ends where it should
exactly if no `*/` stands in the text. This stays so when the comment is moved into a block, where
its lines are indented.

* `afterComment?` : what follows the comment that a text begins with.
* `HoldsEnd` : a text has an end of a comment in it.
* `ends_docBlock_iff` : which doc comments end where they should.
-/

namespace GraphClient

namespace TypeScript

/-! ## Ends of comments -/

/-- What follows the first end of a comment. -/
def afterEnd? : List Char → Option (List Char)
  | [] => none
  | '*' :: '/' :: rest => some rest
  | _ :: rest => afterEnd? rest

/-- What follows the block comment that a text begins with. -/
def afterComment? : List Char → Option (List Char)
  | '/' :: '*' :: rest => afterEnd? rest
  | _ => none

/-- An end of a comment stands somewhere in a text. -/
def HoldsEnd (text : List Char) : Prop := ['*', '/'] <:+: text

/-- The empty text holds no end of a comment. -/
theorem not_holdsEnd_nil : ¬ HoldsEnd [] := by simp [HoldsEnd]

/-- The end of a comment stands at the front or further behind. -/
theorem holdsEnd_cons (c : Char) (text : List Char) :
    HoldsEnd (c :: text) ↔ (c = '*' ∧ text.head? = some '/') ∨ HoldsEnd text := by
  have hslash : ['/'] <+: text ↔ text.head? = some '/' := by
    cases text with
    | nil => simp
    | cons d rest => simp [List.cons_prefix_cons, eq_comm]
  rw [HoldsEnd, List.infix_cons_iff, List.cons_prefix_cons, hslash, eq_comm]
  rfl

/-- No end of a comment goes across another character. -/
theorem holdsEnd_append_cons {c : Char} (hstar : c ≠ '*') (hslash : c ≠ '/') (a b : List Char) :
    HoldsEnd (a ++ c :: b) ↔ HoldsEnd a ∨ HoldsEnd b := by
  induction a with
  | nil => simp [holdsEnd_cons, hstar, not_holdsEnd_nil]
  | cons d a ih =>
    have hhead : (a ++ c :: b).head? = some '/' ↔ a.head? = some '/' := by
      cases a with
      | nil => simp [hslash]
      | cons e a => rfl
    rw [List.cons_append, holdsEnd_cons, holdsEnd_cons, hhead, ih, or_assoc]

/-- Another character than the star does not begin the end of a comment. -/
theorem holdsEnd_cons_of_ne {c : Char} (h : c ≠ '*') (text : List Char) :
    HoldsEnd (c :: text) ↔ HoldsEnd text := by
  simp [holdsEnd_cons, h]

/-- What is behind the end of a comment does not depend on what is before it. -/
theorem afterEnd?_cons {c : Char} {text : List Char} (h : ¬ (c = '*' ∧ text.head? = some '/')) :
    afterEnd? (c :: text) = afterEnd? text := by
  rw [afterEnd?]
  rintro rest rfl rfl
  exact h ⟨rfl, rfl⟩

/-- An end of a comment is found if there is one. -/
theorem isSome_afterEnd?_iff (text : List Char) :
    (afterEnd? text).isSome = true ↔ HoldsEnd text := by
  induction text with
  | nil => simp [afterEnd?, not_holdsEnd_nil]
  | cons c text ih =>
    by_cases hend : c = '*' ∧ text.head? = some '/'
    · have hholds : HoldsEnd (c :: text) := (holdsEnd_cons c text).2 (.inl hend)
      obtain ⟨rfl, hslash⟩ := hend
      obtain ⟨rest, rfl⟩ := List.head?_eq_some_iff.1 hslash
      simp [afterEnd?, hholds]
    · rw [afterEnd?_cons hend, ih, holdsEnd_cons, or_iff_right hend]

instance (text : List Char) : Decidable (HoldsEnd text) :=
  decidable_of_iff _ (isSome_afterEnd?_iff text)

/-- The end of a comment is found where it should be if there is none before it. By induction on
what stands before it; an earlier end leaves more behind. -/
theorem afterEnd?_append_iff (body rest : List Char) :
    afterEnd? (body ++ '*' :: '/' :: rest) = some rest ↔ ¬ HoldsEnd (body ++ ['*']) := by
  induction body with
  | nil => simp [afterEnd?, holdsEnd_cons, not_holdsEnd_nil]
  | cons c body ih =>
    by_cases hend : c = '*' ∧ (body ++ ['*']).head? = some '/'
    · have hholds : HoldsEnd (c :: body ++ ['*']) := (holdsEnd_cons _ _).2 (.inl hend)
      obtain ⟨rfl, hslash⟩ := hend
      cases body with
      | nil => simp at hslash
      | cons d body =>
        obtain rfl : d = '/' := by simpa using hslash
        have hlong : body ++ '*' :: '/' :: rest ≠ rest := by
          intro h
          have hlength := congrArg List.length h
          simp only [List.length_append, List.length_cons] at hlength
          omega
        simp only [List.cons_append, afterEnd?, Option.some.injEq, hlong, false_iff, not_not]
        exact hholds
    · have hnext : ¬ (c = '*' ∧ (body ++ '*' :: '/' :: rest).head? = some '/') := by
        cases body with
        | nil => simp
        | cons d body => exact hend
      rw [List.cons_append, List.cons_append, afterEnd?_cons hnext, ih, holdsEnd_cons,
        or_iff_right hend]

/-- A block comment around a text. -/
def block (body : List Char) : List Char := '/' :: '*' :: (body ++ [' ', '*', '/'])

/-- What follows a block comment is told from it exactly if there is no end of a comment in it. -/
theorem afterComment?_block_iff (body rest : List Char) :
    afterComment? (block body ++ rest) = some rest ↔ ¬ HoldsEnd body := by
  have hsplit : block body ++ rest = '/' :: '*' :: ((body ++ [' ']) ++ '*' :: '/' :: rest) := by
    simp [block]
  have hbody : HoldsEnd (body ++ [' '] ++ ['*']) ↔ HoldsEnd body := by
    rw [List.append_assoc, List.singleton_append, holdsEnd_append_cons (by decide) (by decide),
      or_iff_left (by decide)]
  rw [hsplit, afterComment?, afterEnd?_append_iff, hbody]

/-! ## Blank characters -/

/-- White space is no part of the end of a comment. -/
theorem ne_of_isBlank {c : Char} (h : Text.isBlank c = true) : c ≠ '*' ∧ c ≠ '/' := by
  constructor
  · rintro rfl
    exact absurd h (by decide)
  · rintro rfl
    exact absurd h (by decide)

/-- White space at the front changes nothing. -/
theorem holdsEnd_blank_append {blank : List Char} (h : ∀ c ∈ blank, Text.isBlank c = true)
    (text : List Char) : HoldsEnd (blank ++ text) ↔ HoldsEnd text := by
  induction blank with
  | nil => rfl
  | cons c blank ih =>
    obtain ⟨hc, hblank⟩ := List.forall_mem_cons.1 h
    rw [List.cons_append, holdsEnd_cons_of_ne (ne_of_isBlank hc).1, ih hblank]

/-- White space at the end changes nothing. -/
theorem holdsEnd_append_blank {blank : List Char} (h : ∀ c ∈ blank, Text.isBlank c = true)
    (text : List Char) : HoldsEnd (text ++ blank) ↔ HoldsEnd text := by
  cases blank with
  | nil => rw [List.append_nil]
  | cons c blank =>
    obtain ⟨hc, hblank⟩ := List.forall_mem_cons.1 h
    have hnot : ¬ HoldsEnd blank := by
      rw [← List.append_nil blank, holdsEnd_blank_append hblank]
      exact not_holdsEnd_nil
    rw [holdsEnd_append_cons (ne_of_isBlank hc).1 (ne_of_isBlank hc).2, or_iff_left hnot]

/-- Nothing is changed by dropping the white space at the front. -/
theorem holdsEnd_dropWhile (text : List Char) :
    HoldsEnd (text.dropWhile Text.isBlank) ↔ HoldsEnd text := by
  have hblank : ∀ c ∈ text.takeWhile Text.isBlank, Text.isBlank c = true := fun c hc =>
    List.mem_takeWhile_imp hc
  rw [← holdsEnd_blank_append hblank, List.takeWhile_append_dropWhile]

/-- Nothing is changed by dropping the white space at the end. -/
theorem holdsEnd_dropEndWhile (text : List Char) :
    HoldsEnd (Text.dropEndWhile Text.isBlank text) ↔ HoldsEnd text := by
  have hblank : ∀ c ∈ (text.reverse.takeWhile Text.isBlank).reverse, Text.isBlank c = true :=
    fun c hc => List.mem_takeWhile_imp (List.mem_reverse.1 hc)
  rw [← holdsEnd_append_blank hblank, Text.dropEndWhile, ← List.reverse_append,
    List.takeWhile_append_dropWhile, List.reverse_reverse]

/-! ## Lines -/

/-- Only the empty text has no lines. -/
theorem splitLines_eq_nil_iff (text : List Char) : Text.splitLines text = [] ↔ text = [] := by
  constructor
  · intro h
    unfold Text.splitLines at h
    split at h
    · rfl
    · cases h
    · cases h
    · split at h
      · cases h
      · cases h
  · rintro rfl
    rfl

/-- The first line begins like the text, unless it is empty. -/
theorem head?_of_splitLines {text line : List Char} {more : List (List Char)}
    (h : Text.splitLines text = line :: more) :
    line.head? = some '/' ↔ text.head? = some '/' := by
  unfold Text.splitLines at h
  split at h
  · cases h
  · cases h
    simp
  · cases h
    simp
  · split at h
    · cases h
      rfl
    · cases h
      rfl

/-- One of some lines holds the end of a comment if the first one or another one does. -/
theorem exists_holdsEnd_cons (line : List Char) (more : List (List Char)) :
    (∃ x ∈ line :: more, HoldsEnd x) ↔ HoldsEnd line ∨ ∃ x ∈ more, HoldsEnd x := by
  simp only [List.mem_cons, exists_eq_or_imp]

/-- An end of a comment stands in one of the lines. -/
theorem holdsEnd_iff_splitLines (text : List Char) :
    HoldsEnd text ↔ ∃ line ∈ Text.splitLines text, HoldsEnd line := by
  fun_induction Text.splitLines text with
  | case1 => simp [not_holdsEnd_nil]
  | case2 rest ih =>
    rw [holdsEnd_cons_of_ne (by decide), holdsEnd_cons_of_ne (by decide), ih,
      exists_holdsEnd_cons, or_iff_right not_holdsEnd_nil]
  | case3 rest ih =>
    rw [holdsEnd_cons_of_ne (by decide), ih, exists_holdsEnd_cons, or_iff_right not_holdsEnd_nil]
  | case4 c rest hreturn hfeed hnone ih =>
    obtain rfl := (splitLines_eq_nil_iff rest).1 hnone
    simp
  | case5 c rest hreturn hfeed line more hlines ih =>
    rw [holdsEnd_cons, ih, hlines, exists_holdsEnd_cons, exists_holdsEnd_cons, holdsEnd_cons,
      head?_of_splitLines hlines, or_assoc]

/-! ## Doc comments -/

/-- What stands between the marks of a doc comment of some lines. -/
def docBody : List String → List Char
  | [line] => '*' :: ' ' :: line.toList
  | lines => '*' :: '\n' :: (String.join (lines.map docLine)).toList

/-- A doc comment without its line end. -/
def docBlock (text : String) : String := .ofList (block (docBody (docLines text)))

/-- With lines to write, the comment is a block and a line feed. -/
theorem docComment_of_docLines {text : String} (h : docLines text ≠ []) :
    docComment text = docBlock text ++ "\n" := by
  rw [← String.toList_inj, String.toList_append, docBlock, String.toList_ofList, docComment]
  split
  · next hnil => exact absurd hnil h
  · next line hline => simp [hline, docBody, block]
  · next lines hnil hsingle =>
    rw [docBody]
    · simp [block]
    · exact hsingle

/-- A doc comment that is not empty is a block, with a line end. -/
theorem docComment_eq_append {text : String} (h : docComment text ≠ "") :
    docComment text = docBlock text ++ "\n" :=
  docComment_of_docLines fun hnil => h (by rw [docComment, hnil])

/-- There are no lines to write exactly if nothing but white space is described. -/
theorem docLines_eq_nil_iff (text : String) :
    docLines text = [] ↔ Text.lines (Text.trim text) = [] := List.map_eq_nil_iff

/-- A comment is left out exactly if nothing but white space is described. -/
theorem docComment_eq_empty_iff (text : String) :
    docComment text = "" ↔ Text.lines (Text.trim text) = [] := by
  rw [← docLines_eq_nil_iff]
  constructor
  · intro h
    by_contra hlines
    rw [docComment_of_docLines hlines, ← String.toList_inj, String.toList_append] at h
    simp at h
  · intro h
    rw [docComment, h]

/-- A block begins as a comment does. -/
theorem prefix_docBlock (text : String) : "/**".toList <+: (docBlock text).toList := by
  have htext : (docBlock text).toList = block (docBody (docLines text)) := String.toList_ofList
  rw [htext]
  unfold docBody
  split
  · exact List.prefix_append ['/', '*', '*'] _
  · exact List.prefix_append ['/', '*', '*'] _

/-- The star in front of a line makes no end of a comment with the line. -/
theorem holdsEnd_docLine_append (line : String) (rest : List Char) :
    HoldsEnd ((docLine line).toList ++ rest) ↔ HoldsEnd line.toList ∨ HoldsEnd rest := by
  unfold docLine
  split
  · next hempty =>
    have hsplit : " *\n".toList ++ rest = [' ', '*'] ++ '\n' :: rest := rfl
    have hnot : ¬ HoldsEnd [' ', '*'] := by decide
    rw [hsplit, holdsEnd_append_cons (by decide) (by decide), or_iff_right hnot, hempty]
    exact (or_iff_right not_holdsEnd_nil).symm
  · have hsplit : (" * " ++ line ++ "\n").toList ++ rest =
        [' ', '*'] ++ ' ' :: (line.toList ++ '\n' :: rest) := by
      simp
    have hnot : ¬ HoldsEnd [' ', '*'] := by decide
    rw [hsplit, holdsEnd_append_cons (by decide) (by decide), or_iff_right hnot,
      holdsEnd_append_cons (by decide) (by decide)]

/-- In a comment there are the ends of comments of its lines and no others. -/
theorem holdsEnd_docBody (lines : List String) :
    HoldsEnd (docBody lines) ↔ ∃ line ∈ lines, HoldsEnd line.toList := by
  unfold docBody
  split
  · next line =>
    rw [holdsEnd_cons, holdsEnd_cons_of_ne (by decide)]
    simp
  · have hjoin : ∀ lines : List String, HoldsEnd (String.join (lines.map docLine)).toList ↔
        ∃ line ∈ lines, HoldsEnd line.toList := by
      intro lines
      induction lines with
      | nil => simp [not_holdsEnd_nil]
      | cons line rest ih =>
        rw [List.map_cons, String.join_cons, String.toList_append, holdsEnd_docLine_append, ih]
        simp only [List.mem_cons, exists_eq_or_imp]
    rw [holdsEnd_cons, holdsEnd_cons_of_ne (by decide), hjoin]
    simp

/-- The lines of a comment hold its end exactly if the description does. A line that is cut from it
cannot hide one, since no line feed stands between the star and the slash. -/
theorem holdsEnd_docLines (text : String) :
    (∃ line ∈ docLines text, HoldsEnd line.toList) ↔ HoldsEnd text.toList := by
  have htrim : HoldsEnd (Text.trim text).toList ↔ HoldsEnd text.toList := by
    rw [Text.trim, String.toList_ofList, holdsEnd_dropEndWhile, holdsEnd_dropWhile]
  have hline : ∀ line : List Char, HoldsEnd (Text.trimEnd (.ofList line)).toList ↔
      HoldsEnd line := fun line => by
    rw [Text.trimEnd, String.toList_ofList, String.toList_ofList, holdsEnd_dropEndWhile]
  rw [← htrim, holdsEnd_iff_splitLines, docLines, Text.lines]
  simp only [List.map_map, List.mem_map, Function.comp_apply, exists_exists_and_eq_and, hline]

/-! ## Comments in blocks -/

/-- A text whose lines are indented, by two blanks for each block around it. -/
def nested (depth : Nat) (text : String) : String := (Text.indentLines "  ")^[depth] text

/-- Outside of all blocks a text stays as it is. -/
theorem nested_zero (text : String) : nested 0 text = text := rfl

/-- One more block indents the text once more. -/
theorem nested_succ (depth : Nat) (text : String) :
    nested (depth + 1) text = Text.indentLines "  " (nested depth text) :=
  Function.iterate_succ_apply' _ _ _

/-- A text in some blocks may stand in more of them. -/
theorem nested_add (outer inner : Nat) (text : String) :
    nested (outer + inner) text = nested outer (nested inner text) :=
  Function.iterate_add_apply _ _ _ _

/-- Texts one behind the other are nested one by one. -/
theorem nested_append (depth : Nat) (a b : String) :
    nested depth (a ++ b) = nested depth a ++ nested depth b := by
  induction depth with
  | zero => rfl
  | succ depth ih =>
    rw [nested_succ, nested_succ, nested_succ, ih]
    exact Text.substitute_append _ _ _

/-- The characters that stand for one in a block. -/
def indentChar (c : Char) : List Char := if c = '\n' then ['\n', ' ', ' '] else [c]

/-- One more block puts white space behind every line feed. -/
theorem toList_nested_succ (depth : Nat) (text : String) :
    (nested (depth + 1) text).toList = (nested depth text).toList.flatMap indentChar := by
  rw [nested_succ]
  exact Text.toList_substitute _ _

/-- The white space behind line feeds makes no end of a comment and hides none. -/
theorem holdsEnd_flatMap_indentChar (text : List Char) :
    HoldsEnd (text.flatMap indentChar) ↔ HoldsEnd text := by
  induction text with
  | nil => rfl
  | cons c rest ih =>
    rw [List.flatMap_cons]
    by_cases hfeed : c = '\n'
    · obtain rfl := hfeed
      show HoldsEnd ('\n' :: ' ' :: ' ' :: rest.flatMap indentChar) ↔ _
      simp only [holdsEnd_cons_of_ne (by decide : '\n' ≠ '*'),
        holdsEnd_cons_of_ne (by decide : ' ' ≠ '*'), ih]
    · have hhead : (rest.flatMap indentChar).head? = some '/' ↔ rest.head? = some '/' := by
        cases rest with
        | nil => rfl
        | cons d rest =>
          rw [List.flatMap_cons, indentChar]
          split
          · next hd => simp [hd]
          · rfl
      rw [indentChar, if_neg hfeed, List.singleton_append, holdsEnd_cons, holdsEnd_cons, hhead, ih]

/-- A comment in a block is a comment, with the same ends of comments in it. -/
theorem exists_nested_block (depth : Nat) (body : List Char) :
    ∃ body', (nested depth (.ofList (block body))).toList = block body' ∧
      (HoldsEnd body' ↔ HoldsEnd body) := by
  induction depth with
  | zero => exact ⟨body, by rw [nested_zero, String.toList_ofList], Iff.rfl⟩
  | succ depth ih =>
    obtain ⟨body', htext, hbody⟩ := ih
    refine ⟨body'.flatMap indentChar, ?_, ?_⟩
    · rw [toList_nested_succ, htext, block, List.flatMap_cons, List.flatMap_cons,
        List.flatMap_append]
      rfl
    · rw [holdsEnd_flatMap_indentChar, hbody]

/-- A comment ends where it should before the rest of a text: with what is read up to the first end
of a comment, just the rest is left. -/
def Ends (comment rest : String) : Prop :=
  afterComment? (comment ++ rest).toList = some rest.toList

instance (comment rest : String) : Decidable (Ends comment rest) :=
  inferInstanceAs (Decidable (_ = _))

/-- At any depth, a comment ends where it should exactly if there is no end of one in it. -/
theorem ends_nested_block_iff (depth : Nat) (body : List Char) (rest : String) :
    Ends (nested depth (.ofList (block body))) rest ↔ ¬ HoldsEnd body := by
  obtain ⟨body', htext, hbody⟩ := exists_nested_block depth body
  rw [Ends, String.toList_append, htext, afterComment?_block_iff, hbody]

/-- Which doc comments end where they should. -/
theorem ends_docBlock_iff (text : String) (depth : Nat) (rest : String) :
    Ends (nested depth (docBlock text)) rest ↔ ¬ HoldsEnd text.toList := by
  rw [docBlock, ends_nested_block_iff, holdsEnd_docBody, holdsEnd_docLines]

end TypeScript

end GraphClient
