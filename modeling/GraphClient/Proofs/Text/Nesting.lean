import GraphClient.Proofs.Json.Quoted

/-!
# Nested brackets

Parentheses and braces are matched from left to right. What stands between quotation marks is passed
over, a backslash there with the character after it. A text between two brackets can be lifted out
exactly if all brackets and quotation marks in it are closed again, and nothing else is.

* `Nesting` : what is open at some point of a text; `Nesting.run` : what is open after a text.
* `SelfContained` : a text opens nothing that it does not close, and closes nothing else.
* `Neutral` : the same on every level of nesting.
* `neutral_quoted`, `neutral_of_plain` : a quoted string is neutral, whatever it says, and so is a
  text without brackets and quotation marks.
-/

namespace GraphClient

/-- Where a character stands. -/
inductive Quoting where
  /-- Between strings. -/
  | outside
  /-- In a string. -/
  | inside
  /-- In a string, after a backslash. -/
  | escaped
deriving Repr, DecidableEq, Inhabited

/-- What is open at some point of a text. -/
structure Nesting where
  /-- The brackets that close what is open, the innermost first. -/
  closers : List Char
  quoting : Quoting
deriving Repr, DecidableEq, Inhabited

namespace Nesting

/-- Nothing is open. -/
def start : Nesting := ⟨[], .outside⟩

/-- What is open after a character, unless it closes what is not open. -/
def step (nesting : Nesting) (c : Char) : Option Nesting :=
  match nesting.quoting with
  | .escaped => some { nesting with quoting := .inside }
  | .inside =>
    if c = '"' then some { nesting with quoting := .outside }
    else if c = '\\' then some { nesting with quoting := .escaped }
    else some nesting
  | .outside =>
    if c = '"' then some { nesting with quoting := .inside }
    else if c = '(' then some { nesting with closers := ')' :: nesting.closers }
    else if c = '\x7b' then some { nesting with closers := '\x7d' :: nesting.closers }
    else if c = ')' ∨ c = '\x7d' then
      match nesting.closers with
      | [] => none
      | closer :: rest => if c = closer then some { nesting with closers := rest } else none
    else some nesting

/-- What is open after a text. -/
def run (nesting : Nesting) : List Char → Option Nesting
  | [] => some nesting
  | c :: rest => (nesting.step c).bind fun next => run next rest

/-- Texts one behind the other are run one after the other. -/
theorem run_append (nesting : Nesting) (a b : List Char) :
    nesting.run (a ++ b) = (nesting.run a).bind fun next => next.run b := by
  induction a generalizing nesting with
  | nil => rfl
  | cons c rest ih =>
    rw [List.cons_append, run, run, Option.bind_assoc]
    congr 1
    funext next
    exact ih next

/-- Where nothing is open, a closing parenthesis has no partner. -/
theorem step_start_close : start.step ')' = none := rfl

end Nesting

/-- A text opens nothing that it does not close, and closes nothing else. -/
def SelfContained (text : List Char) : Prop := Nesting.start.run text = some .start

instance (text : List Char) : Decidable (SelfContained text) :=
  inferInstanceAs (Decidable (Nesting.start.run text = some .start))

/-! ## Neutral texts -/

/-- After a text between strings, the same is open as before it, whatever that is. -/
def Neutral (text : List Char) : Prop :=
  ∀ closers, Nesting.run ⟨closers, .outside⟩ text = some ⟨closers, .outside⟩

/-- A text that changes nothing inside any brackets is complete by itself. -/
theorem Neutral.selfContained {text : List Char} (h : Neutral text) : SelfContained text := h []

/-- The empty text changes nothing. -/
theorem neutral_nil : Neutral [] := fun _ => rfl

/-- Texts that change nothing still change nothing together. -/
theorem Neutral.append {a b : List Char} (ha : Neutral a) (hb : Neutral b) : Neutral (a ++ b) := by
  intro closers
  rw [Nesting.run_append, ha, Option.bind_some, hb]

/-- The brackets and the quotation mark. -/
def marks : List Char := ['(', ')', '\x7b', '\x7d', '"']

/-- A text without brackets and quotation marks. -/
def Plain (text : List Char) : Prop := ∀ c ∈ text, c ∉ marks

instance (text : List Char) : Decidable (Plain text) := List.decidableBAll _ text

/-- A character without a meaning changes nothing. -/
theorem Nesting.step_of_plain {c : Char} (h : c ∉ marks) (closers : List Char) :
    Nesting.step ⟨closers, .outside⟩ c = some ⟨closers, .outside⟩ := by
  simp only [marks, List.mem_cons, List.not_mem_nil, or_false, not_or] at h
  obtain ⟨hopen, hclose, hopenBrace, hcloseBrace, hquote⟩ := h
  have hcloser : ¬ (c = ')' ∨ c = '\x7d') := not_or.2 ⟨hclose, hcloseBrace⟩
  show (if c = '"' then _ else _) = _
  rw [if_neg hquote, if_neg hopen, if_neg hopenBrace, if_neg hcloser]

/-- A text of such characters changes nothing. -/
theorem neutral_of_plain {text : List Char} (h : Plain text) : Neutral text := by
  intro closers
  induction text with
  | nil => rfl
  | cons c rest ih =>
    obtain ⟨hc, hrest⟩ := List.forall_mem_cons.1 h
    rw [Nesting.run, Nesting.step_of_plain hc, Option.bind_some, ih hrest]

/-- A neutral text in braces is neutral. -/
theorem Neutral.braced {text : List Char} (h : Neutral text) :
    Neutral ('\x7b' :: (text ++ ['\x7d'])) := by
  intro closers
  show Nesting.run ⟨'\x7d' :: closers, .outside⟩ (text ++ ['\x7d']) = _
  rw [Nesting.run_append, h, Option.bind_some]
  rfl

/-- Neutral texts with commas between them are neutral together. -/
theorem neutral_intercalate {texts : List (List Char)} (h : ∀ text ∈ texts, Neutral text) :
    Neutral (List.intercalate [',', ' '] texts) := by
  have hcomma : Neutral [',', ' '] := fun _ => rfl
  induction texts with
  | nil => exact neutral_nil
  | cons text rest ih =>
    obtain ⟨htext, hrest⟩ := List.forall_mem_cons.1 h
    cases rest with
    | nil =>
      rw [List.intercalate_singleton]
      exact htext
    | cons next rest =>
      rw [List.intercalate_cons_cons]
      exact (htext.append hcomma).append (ih hrest)

/-! ## Quoted strings -/

/-- Inside a string only the quotation mark and the backslash have a meaning. -/
theorem Nesting.step_inside {c : Char} (hquote : c ≠ '"') (hbackslash : c ≠ '\\')
    (closers : List Char) :
    Nesting.step ⟨closers, .inside⟩ c = some ⟨closers, .inside⟩ := by
  show (if c = '"' then _ else if c = '\\' then _ else _) = _
  rw [if_neg hquote, if_neg hbackslash]

/-- A hexadecimal digit has no meaning inside a string. -/
theorem Nesting.step_hexDigit (closers : List Char) (n : Nat) :
    Nesting.step ⟨closers, .inside⟩ (Quoted.hexDigit n) = some ⟨closers, .inside⟩ := by
  have hplain : ∀ m < 16, Nat.digitChar m ≠ '"' ∧ Nat.digitChar m ≠ '\\' := by decide
  obtain ⟨hquote, hbackslash⟩ := hplain (n % 16) (Nat.mod_lt n (by decide))
  exact step_inside hquote hbackslash closers

/-- Inside a string, the characters that stand for a character leave it open. -/
theorem Nesting.run_escape (closers : List Char) (c : Char) :
    Nesting.run ⟨closers, .inside⟩ (Quoted.escape c) = some ⟨closers, .inside⟩ := by
  by_cases hletter : c ∈ Quoted.lettered
  · obtain ⟨letter, hescape, -, -⟩ := Quoted.exists_letter c hletter
    rw [hescape]
    rfl
  · rw [Quoted.escape_of_not_mem_lettered hletter]
    split
    · -- After the backslash and the letter come four digits.
      show (Nesting.step ⟨closers, .inside⟩ (Quoted.hexDigit _)).bind _ = _
      rw [step_hexDigit, Option.bind_some, run, step_hexDigit]
      rfl
    · have hquote : c ≠ '"' := fun h => hletter (by simp [Quoted.lettered, h])
      have hbackslash : c ≠ '\\' := fun h => hletter (by simp [Quoted.lettered, h])
      rw [run, step_inside hquote hbackslash]
      rfl

/-- An encoded text stays inside its string. -/
theorem Nesting.run_encode (closers : List Char) (text : List Char) :
    Nesting.run ⟨closers, .inside⟩ (Quoted.encode text) = some ⟨closers, .inside⟩ := by
  induction text with
  | nil => rfl
  | cons c rest ih =>
    rw [Quoted.encode_cons, Nesting.run_append, Nesting.run_escape, Option.bind_some, ih]

/-- A quoted string is neutral, whatever it says. -/
theorem neutral_quoted (text : List Char) : Neutral ('"' :: (Quoted.encode text ++ ['"'])) := by
  intro closers
  show Nesting.run ⟨closers, .inside⟩ (Quoted.encode text ++ ['"']) = _
  rw [Nesting.run_append, Nesting.run_encode, Option.bind_some]
  rfl

end GraphClient
