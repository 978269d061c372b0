import GraphClient.Proofs.Text.Lines

/-!
# Template literals are read back

A template literal ends at the first backtick that no backslash stands before, unless a dollar sign
with a brace after it starts an interpolation before that. What is escaped for a template literal is
read as it was before: it neither ends the literal nor starts an interpolation, whatever it says.

* `Text.replaceAll` : a pattern is replaced wherever it is found.
* `TypeScript.templateChars_eq_replaceAll` : a text is escaped by three replacements, one after the
  other.
* `TypeScript.readTemplate` : how a template literal is read.
* `TypeScript.readTemplate_templateChars` : what is escaped is read back.
* `TypeScript.readTemplate_lineFeeds` : so it is where all ends of lines are read as line feeds.
-/

namespace GraphClient

namespace Text

/-! ## Replacing a pattern -/

/-- Replaces a pattern, which is not empty, wherever it is found from left to right. The first
characters, as many as are `passed`, belong to what was found last. -/
def replaceFrom (pattern replacement : List Char) : Nat → List Char → List Char
  | _, [] => []
  | passed + 1, _ :: rest => replaceFrom pattern replacement passed rest
  | 0, c :: rest =>
    if pattern.isPrefixOf (c :: rest) then
      replacement ++ replaceFrom pattern replacement (pattern.length - 1) rest
    else c :: replaceFrom pattern replacement 0 rest

/-- Replaces a pattern, which is not empty, wherever it is found from left to right. -/
def replaceAll (pattern replacement text : List Char) : List Char :=
  replaceFrom pattern replacement 0 text

/-- A pattern of one character is replaced wherever the character stands. -/
theorem replaceAll_singleton (c : Char) (replacement text : List Char) :
    replaceAll [c] replacement text = text.flatMap fun d => if d = c then replacement else [d] := by
  unfold replaceAll
  induction text with
  | nil => rfl
  | cons d rest ih =>
    rw [List.flatMap_cons, ← ih, replaceFrom]
    by_cases h : d = c
    · simp [h]
    · simp [h, Ne.symm h]

/-- A pattern of two characters is looked for at each character. -/
theorem replaceAll_pair_cons (a b : Char) (replacement : List Char) (c : Char)
    (rest : List Char) :
    replaceAll [a, b] replacement (c :: rest) =
      if c = a ∧ rest.head? = some b then replacement ++ replaceAll [a, b] replacement rest.tail
      else c :: replaceAll [a, b] replacement rest := by
  unfold replaceAll
  rw [replaceFrom]
  cases rest with
  | nil => simp
  | cons d rest =>
    have hfound : [a, b].isPrefixOf (c :: d :: rest) = true ↔ c = a ∧ d = b := by
      rw [List.isPrefixOf_iff_prefix, List.cons_prefix_cons, List.cons_prefix_cons,
        and_iff_left List.nil_prefix, eq_comm, eq_comm (a := b)]
    simp only [hfound, List.head?_cons, Option.some.injEq]
    rfl

/-! ## Ends of lines -/

/-- A text with a line feed in place of each carriage return, or of the two together. -/
def lineFeeds : List Char → List Char
  | [] => []
  | '\r' :: '\n' :: rest => '\n' :: lineFeeds rest
  | '\r' :: rest => '\n' :: lineFeeds rest
  | c :: rest => c :: lineFeeds rest

theorem lineFeeds_cons {c : Char} (h : c ≠ '\r') (rest : List Char) :
    lineFeeds (c :: rest) = c :: lineFeeds rest := by
  rw [lineFeeds]
  · exact fun _ hreturn _ => h hreturn
  · exact h

theorem lineFeeds_return {rest : List Char} (h : rest.head? ≠ some '\n') :
    lineFeeds ('\r' :: rest) = '\n' :: lineFeeds rest := by
  rw [lineFeeds]
  rintro rest' rfl
  exact h rfl

/-- The texts without carriage returns are those that stay as they are. -/
theorem lineFeeds_eq_self_iff (text : List Char) : lineFeeds text = text ↔ '\r' ∉ text := by
  constructor
  · intro h
    rw [← h]
    clear h
    fun_induction lineFeeds text with
    | case1 => simp
    | case2 rest ih => simpa using ih
    | case3 rest _ ih => simpa using ih
    | case4 c rest _ hreturn ih => simpa [Ne.symm hreturn] using ih
  · intro h
    induction text with
    | nil => rfl
    | cons c rest ih =>
      rw [List.mem_cons, not_or] at h
      rw [lineFeeds_cons (Ne.symm h.1), ih h.2]

/-- The first character of a line stays the first one. -/
theorem head?_lineFeeds (text : List Char) :
    (lineFeeds text).head? = text.head?.map fun c => if c = '\r' then '\n' else c := by
  fun_induction lineFeeds text with
  | case1 | case2 | case3 => rfl
  | case4 c rest _ hreturn ih =>
    rw [List.head?_cons, List.head?_cons, Option.map_some, if_neg hreturn]

/-- At a character that is no end of a line, the text after it starts anew. -/
theorem lineFeeds_append_cons {c : Char} (hfeed : c ≠ '\n') (hreturn : c ≠ '\r')
    (a b : List Char) : lineFeeds (a ++ c :: b) = lineFeeds a ++ c :: lineFeeds b := by
  fun_induction lineFeeds a with
  | case1 => exact lineFeeds_cons hreturn b
  | case2 rest ih => simpa [lineFeeds] using ih
  | case3 rest hnext ih =>
    rw [List.cons_append, lineFeeds_return, ih, List.cons_append]
    cases rest with
    | nil => simpa using hfeed
    | cons d rest => exact fun heq => hnext rest (by rw [Option.some.inj heq])
  | case4 d rest _ hd ih => rw [List.cons_append, lineFeeds_cons hd, ih, List.cons_append]

end Text

namespace TypeScript

open Text (replaceAll lineFeeds)

/-! ## Three replacements -/

/-- After the first two replacements, a backslash stands before each backslash and each backtick. -/
theorem replaceAll_backtick_backslash (text : List Char) :
    replaceAll ['\x60'] ['\\', '\x60'] (replaceAll ['\\'] ['\\', '\\'] text) =
      text.flatMap fun c => if c = '\\' ∨ c = '\x60' then ['\\', c] else [c] := by
  rw [Text.replaceAll_singleton, Text.replaceAll_singleton, List.flatMap_assoc]
  congr 1
  funext c
  by_cases hbackslash : c = '\\'
  · simp [hbackslash]
  · by_cases hbacktick : c = '\x60'
    · simp [hbacktick]
    · simp [hbackslash, hbacktick]

/-- A text is escaped by three replacements, one after the other: first of the backslashes, then of
the backticks, then of what starts an interpolation. What one of them writes is left as it is by
those after it. -/
theorem templateChars_eq_replaceAll (text : List Char) :
    templateChars text = replaceAll ['$', '\x7b'] ['\\', '$', '\x7b']
      (replaceAll ['\x60'] ['\\', '\x60'] (replaceAll ['\\'] ['\\', '\\'] text)) := by
  rw [replaceAll_backtick_backslash]
  induction text with
  | nil => rfl
  | cons c rest ih =>
    rw [templateChars_cons, ih, List.flatMap_cons]
    by_cases hmark : c = '\\' ∨ c = '\x60'
    · -- Neither the new backslash nor the character starts an interpolation.
      have hdollar : c ≠ '$' := by
        rcases hmark with rfl | rfl <;> decide
      rw [if_pos hmark, escapedChar, if_pos (by simpa [← or_assoc] using .inl hmark)]
      simp [Text.replaceAll_pair_cons, hdollar]
    · rw [if_neg hmark, List.singleton_append, Text.replaceAll_pair_cons, escapedChar]
      rw [not_or] at hmark
      cases rest with
      | nil => simp [hmark]
      | cons d rest =>
        by_cases hopens : c = '$' ∧ d = '\x7b'
        · obtain ⟨rfl, rfl⟩ := hopens
          simp [Text.replaceAll_pair_cons]
        · -- What is written for the next character starts with a brace only if that is one.
          by_cases hnext : d = '\\' ∨ d = '\x60'
          · have hbrace : d ≠ '\x7b' := by
              rcases hnext with rfl | rfl <;> decide
            simp [hmark, hnext, hbrace]
          · simp [hmark, hnext, hopens]

/-! ## Joined lines -/

/-- Lines that are joined by line feeds are escaped line by line. -/
theorem templateText_intercalate (lines : List String) :
    templateText ("\n".intercalate lines) = "\n".intercalate (lines.map templateText) := by
  induction lines with
  | nil => rfl
  | cons line rest ih =>
    cases rest with
    | nil => rw [List.map_singleton, String.intercalate_singleton, String.intercalate_singleton]
    | cons next rest =>
      have hfeed : "\n".toList = ['\n'] := String.toList_ofList
      rw [List.map_cons, List.map_cons, String.intercalate_cons_cons, String.intercalate_cons_cons,
        ← List.map_cons, ← ih]
      simp only [← String.toList_inj, templateText, String.toList_append, String.toList_ofList,
        hfeed, List.append_assoc, List.singleton_append, templateChars_append_newline]

/-! ## Reading -/

/-- What comes of reading a template literal after the backtick that opens it. -/
inductive TemplateReading where
  /-- The literal has a value and ends at a backtick, and `rest` follows. -/
  | closed (value rest : List Char)
  /-- After some characters an interpolation starts, and `rest` follows. -/
  | interpolated (value rest : List Char)
  /-- The text ends within the literal, or an escape in it has a meaning of its own. -/
  | unread
deriving Repr, DecidableEq, Inhabited

/-- The reading with a character in front. -/
def TemplateReading.after (c : Char) : TemplateReading → TemplateReading
  | closed value rest => closed (c :: value) rest
  | interpolated value rest => interpolated (c :: value) rest
  | unread => unread

/-- Whether a character stands for itself after a backslash. Letters, digits and ends of lines may
have a meaning of their own there. -/
def isLiteralEscape (c : Char) : Bool :=
  !(c.isAlphanum || c == '\n' || c == '\r' || c == '\u2028' || c == '\u2029')

/-- Reads a template literal after the backtick that opens it. A backslash makes the next character
literal, a backtick ends the literal, and a dollar sign with a brace starts an interpolation. -/
def readTemplate : List Char → TemplateReading
  | [] => .unread
  | '\x60' :: rest => .closed [] rest
  | '$' :: '\x7b' :: rest => .interpolated [] rest
  | '\\' :: c :: rest => if isLiteralEscape c then (readTemplate rest).after c else .unread
  | c :: rest => (readTemplate rest).after c

/-- An escaped character is read without its backslash. -/
theorem readTemplate_backslash {c : Char} (h : isLiteralEscape c = true) (rest : List Char) :
    readTemplate ('\\' :: c :: rest) = (readTemplate rest).after c := by
  rw [readTemplate, if_pos h]

/-- A character without a meaning in a template is read as it is. -/
theorem readTemplate_plain {c : Char} {rest : List Char} (hbackslash : c ≠ '\\')
    (hbacktick : c ≠ '\x60') (hopens : ¬ (c = '$' ∧ rest.head? = some '\x7b')) :
    readTemplate (c :: rest) = (readTemplate rest).after c := by
  rw [readTemplate]
  · exact hbacktick
  · rintro rest' rfl rfl
    exact hopens ⟨rfl, rfl⟩
  · exact fun _ _ h _ => hbackslash h

/-- A character is read back from what is written for it, if no brace comes after it that was not
there before. -/
theorem readTemplate_escapedChar {c : Char} {next : Option Char} {rest : List Char}
    (h : rest.head? = some '\x7b' → next = some '\x7b') :
    readTemplate (escapedChar c next ++ rest) = (readTemplate rest).after c := by
  unfold escapedChar
  split
  · next hescaped =>
    have hliteral : isLiteralEscape c = true := by
      rcases hescaped with rfl | rfl | ⟨rfl, -⟩ <;> decide
    exact readTemplate_backslash hliteral rest
  · next hplain =>
    rw [not_or, not_or] at hplain
    exact readTemplate_plain hplain.1 hplain.2.1 fun hopens =>
      hplain.2.2 ⟨hopens.1, h hopens.2⟩

/-- What is escaped is read back up to the backtick after it. By induction on the text: each
character is read from what is written for it. -/
theorem readTemplate_templateChars (text rest : List Char) :
    readTemplate (templateChars text ++ '\x60' :: rest) = .closed text rest := by
  induction text with
  | nil => rfl
  | cons c text ih =>
    rw [templateChars_cons, List.append_assoc, readTemplate_escapedChar, ih]
    · rfl
    · -- A brace that comes next was the next character before.
      intro hbrace
      cases hnext : templateChars text with
      | nil => simp [hnext] at hbrace
      | cons d more =>
        obtain rfl : d = '\x7b' := by simpa [hnext] using hbrace
        exact (head_of_templateChars hnext).resolve_left (by decide)

/-- What is not escaped may start an interpolation. -/
example : readTemplate ['a', '$', '\x7b', 'b', '\x7d', '\x60'] =
    .interpolated ['a'] ['b', '\x7d', '\x60'] := rfl

/-! ## Ends of lines in template literals -/

/-- It does not matter whether carriage returns are taken away before a text is escaped or after. -/
theorem lineFeeds_templateChars (text : List Char) :
    lineFeeds (templateChars text) = templateChars (lineFeeds text) := by
  fun_induction lineFeeds text with
  | case1 => rfl
  | case2 rest ih => simpa [templateChars, lineFeeds] using ih
  | case3 rest hnext ih =>
    -- No line feed comes to stand after the carriage return, as none is written for another one.
    have hfeed : (templateChars rest).head? ≠ some '\n' := by
      intro hfeed
      obtain ⟨more, hmore⟩ := List.head?_eq_some_iff.1 hfeed
      rcases head_of_templateChars hmore with hbackslash | hhead
      · exact absurd hbackslash (by decide)
      · obtain ⟨rest', rfl⟩ := List.head?_eq_some_iff.1 hhead
        exact hnext rest' rfl
    have hescaped : templateChars ('\r' :: rest) = '\r' :: templateChars rest := by
      simp [templateChars]
    rw [hescaped, Text.lineFeeds_return hfeed, ih]
    simp [templateChars]
  | case4 c rest _ hreturn ih =>
    -- Whether a dollar sign is escaped depends on the next character, which stays a brace or none.
    have hnext : (lineFeeds rest).head? = some '\x7b' ↔ rest.head? = some '\x7b' := by
      rw [Text.head?_lineFeeds]
      cases rest with
      | nil => simp
      | cons d rest =>
        by_cases hd : d = '\r'
        · simp [hd]
        · simp [hd]
    rw [templateChars_cons, templateChars_cons, ← ih, escapedChar, escapedChar]
    simp only [hnext]
    split
    · exact (Text.lineFeeds_cons (by decide) _).trans
        (congrArg _ (Text.lineFeeds_cons hreturn _))
    · exact Text.lineFeeds_cons hreturn _

/-- Also where all ends of lines are read as line feeds, what is escaped is read back. -/
theorem readTemplate_lineFeeds (text rest : List Char) :
    readTemplate (lineFeeds (templateChars text ++ '\x60' :: rest)) =
      .closed (lineFeeds text) (lineFeeds rest) := by
  rw [Text.lineFeeds_append_cons (by decide) (by decide), lineFeeds_templateChars,
    readTemplate_templateChars]

end TypeScript

end GraphClient
