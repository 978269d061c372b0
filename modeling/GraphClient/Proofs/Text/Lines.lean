import GraphClient.Text.Blank
import GraphClient.TypeScript.Text

/-!
# Texts made of lines

A text that is put together from lines is taken apart into the same lines, as long as no line holds
the end of one. Inside a template literal every line is escaped by itself: what is escaped neither
crosses a line end nor opens an interpolation.

* `Text.OneLine` : texts without an end of a line.
* `Text.lines_ofLines` : lines can be told from the text that they make.
* `TypeScript.templateText_ofLines` : a text is escaped line by line.
-/

namespace GraphClient

namespace Text

/-! ## Lines -/

/-- The text that some lines make, a line feed after each of them. -/
def ofLines (lines : List String) : String := String.join (lines.map (· ++ "\n"))

/-- Lines are written with a line feed behind each of them. -/
theorem toList_ofLines (lines : List String) :
    (ofLines lines).toList = lines.flatMap fun line => line.toList ++ ['\n'] := by
  rw [ofLines, String.toList_join, List.flatMap_map]
  congr 1
  funext line
  exact String.toList_append

/-- A text that holds no end of a line. -/
def OneLine (text : String) : Prop := ∀ c ∈ text.toList, c ≠ '\n' ∧ c ≠ '\r'

instance (text : String) : Decidable (OneLine text) := List.decidableBAll _ text.toList

/-- A text is on one line exactly if its parts are. -/
theorem oneLine_append {a b : String} : OneLine (a ++ b) ↔ OneLine a ∧ OneLine b := by
  rw [OneLine, String.toList_append, List.forall_mem_append]
  rfl

/-- Texts on one line stay so one behind the other. -/
theorem OneLine.append {a b : String} (ha : OneLine a) (hb : OneLine b) : OneLine (a ++ b) :=
  oneLine_append.2 ⟨ha, hb⟩

/-- A text is on one line if its characters are of a class without the ends of lines. -/
theorem oneLine_of_forall (among : Char → Bool)
    (h : ['\n', '\r'].all (fun c => !among c) = true) {text : String}
    (htext : ∀ c ∈ text.toList, among c = true) : OneLine text := by
  intro c hc
  have hends := List.all_eq_true.1 h
  constructor
  · rintro rfl
    have hnot := hends '\n' (by simp)
    simp [htext _ hc] at hnot
  · rintro rfl
    have hnot := hends '\r' (by simp)
    simp [htext _ hc] at hnot

/-- Texts on one line stay so with separators on one line. -/
theorem oneLine_intercalate {separator : String} (hseparator : OneLine separator)
    {texts : List String} (h : ∀ text ∈ texts, OneLine text) :
    OneLine (String.intercalate separator texts) := by
  unfold OneLine
  rw [String.toList_intercalate]
  induction texts with
  | nil => simp
  | cons text rest ih =>
    obtain ⟨htext, hrest⟩ := List.forall_mem_cons.1 h
    cases rest with
    | nil =>
      rw [List.map_singleton, List.intercalate_singleton]
      exact htext
    | cons next rest =>
      rw [List.map_cons, List.map_cons, List.intercalate_cons_cons, List.forall_mem_append,
        List.forall_mem_append]
      exact ⟨⟨htext, hseparator⟩, ih hrest⟩

/-- A line without an end is the first one of a text that goes on with a line feed after it. -/
theorem splitLines_append_newline {line : List Char} (h : ∀ c ∈ line, c ≠ '\n' ∧ c ≠ '\r')
    (rest : List Char) : splitLines (line ++ '\n' :: rest) = line :: splitLines rest := by
  induction line with
  | nil => simp [splitLines]
  | cons c line ih =>
    obtain ⟨⟨hfeed, hreturn⟩, hline⟩ := List.forall_mem_cons.1 h
    rw [List.cons_append, splitLines, ih hline]
    · rintro rest' rfl
      exact absurd rfl hreturn
    · exact hfeed

/-- The lines of a text that is made of lines. -/
theorem lines_ofLines {lines : List String} (h : ∀ line ∈ lines, OneLine line) :
    Text.lines (ofLines lines) = lines := by
  rw [Text.lines, toList_ofLines]
  induction lines with
  | nil => rfl
  | cons line rest ih =>
    obtain ⟨hline, hrest⟩ := List.forall_mem_cons.1 h
    rw [List.flatMap_cons, List.append_assoc, List.singleton_append,
      splitLines_append_newline hline, List.map_cons, ih hrest, String.ofList_toList]

end Text

namespace TypeScript

/-! ## Template literals -/

/-- What is written for a character of a template literal, where another one may follow. -/
def escapedChar (c : Char) (next : Option Char) : List Char :=
  if c = '\\' ∨ c = '\x60' ∨ (c = '$' ∧ next = some '\x7b') then ['\\', c] else [c]

/-- A text is escaped character by character. -/
theorem templateChars_cons (c : Char) (rest : List Char) :
    templateChars (c :: rest) = escapedChar c rest.head? ++ templateChars rest := by
  rw [templateChars.eq_def]
  split
  · next hnil => cases hnil
  · next rest' heq =>
    -- The brace after the dollar sign is not escaped itself.
    obtain ⟨rfl, rfl⟩ := List.cons.inj heq
    simp [escapedChar, templateChars]
  · next d rest' hopens heq =>
    obtain ⟨rfl, rfl⟩ := List.cons.inj heq
    have hplain : ¬ (c = '$' ∧ rest.head? = some '\x7b') := by
      rintro ⟨hdollar, hbrace⟩
      obtain ⟨rest', hrest⟩ := List.head?_eq_some_iff.1 hbrace
      exact hopens rest' hdollar hrest
    by_cases hescaped : c = '\\' ∨ c = '\x60'
    · simp [escapedChar, hescaped, ← or_assoc]
    · simp [escapedChar, hplain, hescaped]

/-- To escape a character adds nothing but a backslash. -/
theorem mem_escapedChar {c d : Char} {next : Option Char} (h : d ∈ escapedChar c next) :
    d = '\\' ∨ d = c := by
  unfold escapedChar at h
  split at h
  · simpa using h
  · exact .inr (List.mem_singleton.1 h)

/-- What is escaped does not reach beyond a line feed. -/
theorem templateChars_append_newline (a b : List Char) :
    templateChars (a ++ '\n' :: b) = templateChars a ++ '\n' :: templateChars b := by
  induction a with
  | nil => simp [templateChars]
  | cons c rest ih =>
    have hnext : escapedChar c (rest ++ '\n' :: b).head? = escapedChar c rest.head? := by
      cases rest with
      | nil => simp [escapedChar]
      | cons d rest => rfl
    rw [List.cons_append, templateChars_cons, templateChars_cons, hnext, ih, List.append_assoc]

/-- A text of lines is escaped line by line. -/
theorem templateText_ofLines (lines : List String) :
    templateText (Text.ofLines lines) = Text.ofLines (lines.map templateText) := by
  rw [← String.toList_inj, templateText, String.toList_ofList, Text.toList_ofLines,
    Text.toList_ofLines]
  induction lines with
  | nil => rfl
  | cons line rest ih =>
    rw [List.flatMap_cons, List.append_assoc, List.singleton_append, templateChars_append_newline,
      ih, List.map_cons, List.flatMap_cons, templateText, String.toList_ofList, List.append_assoc]
    rfl

/-- A text on one line stays so in a template. -/
theorem oneLine_templateText {text : String} (h : Text.OneLine text) :
    Text.OneLine (templateText text) := by
  rw [Text.OneLine, templateText, String.toList_ofList]
  unfold Text.OneLine at h
  generalize text.toList = chars at h ⊢
  induction chars with
  | nil => simp [templateChars]
  | cons c rest ih =>
    obtain ⟨hc, hrest⟩ := List.forall_mem_cons.1 h
    rw [templateChars_cons, List.forall_mem_append]
    refine ⟨fun d hd => ?_, ih hrest⟩
    rcases mem_escapedChar hd with rfl | rfl
    · decide
    · exact hc

/-- The last character of a text stays the last one. -/
theorem getLast?_templateChars (text : List Char) :
    (templateChars text).getLast? = text.getLast? := by
  induction text with
  | nil => rfl
  | cons c rest ih =>
    rw [templateChars_cons, List.getLast?_append, ih, List.getLast?_cons]
    have hlast : (escapedChar c rest.head?).getLast? = some c := by
      unfold escapedChar
      split <;> rfl
    rw [hlast]
    cases rest.getLast? <;> rfl

/-- A text without backslashes, backticks and dollar signs stays as it is. -/
theorem templateChars_eq_self {text : List Char}
    (h : ∀ c ∈ text, c ≠ '\\' ∧ c ≠ '\x60' ∧ c ≠ '$') : templateChars text = text := by
  induction text with
  | nil => rfl
  | cons c rest ih =>
    obtain ⟨⟨hbackslash, hbacktick, hdollar⟩, hrest⟩ := List.forall_mem_cons.1 h
    rw [templateChars_cons, ih hrest, escapedChar,
      if_neg (by simp [hbackslash, hbacktick, hdollar])]
    rfl

/-- What is escaped begins with a backslash or as it did before. -/
theorem head_of_templateChars {text rest : List Char} {d : Char}
    (h : templateChars text = d :: rest) : d = '\\' ∨ text.head? = some d := by
  cases text with
  | nil => simp [templateChars] at h
  | cons c text =>
    rw [templateChars_cons] at h
    unfold escapedChar at h
    split at h
    · exact .inl (List.cons.inj h).1.symm
    · exact .inr (congrArg some (List.cons.inj h).1)

/-- What is escaped does not begin with an interpolation. -/
theorem templateChars_ne_opening (text rest : List Char) :
    templateChars text ≠ '$' :: '\x7b' :: rest := by
  intro h
  cases text with
  | nil => simp [templateChars] at h
  | cons c text =>
    rw [templateChars_cons] at h
    unfold escapedChar at h
    split at h
    · simp at h
    · next hplain =>
      obtain ⟨rfl, htail⟩ := List.cons.inj h
      -- A dollar sign that is left as it is has no brace after it.
      rcases head_of_templateChars htail with hbrace | hbrace
      · simp at hbrace
      · exact hplain (.inr (.inr ⟨rfl, hbrace⟩))

end TypeScript

end GraphClient
