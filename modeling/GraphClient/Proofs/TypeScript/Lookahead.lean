import GraphClient.Proofs.TypeScript.Phrase
import Mathlib.Tactic.Tauto

/-!
# What the next characters of a type tell

A look at the next characters tells how the text of a type goes on. The one word that needs a longer
look is `keyof`, which may be a name, too: it is the word in front of a type exactly if a type
follows. A name that follows may in turn be one of the words `extends` and `as`, and these are names
exactly if no type follows them.

* `opensType` : whether a type stands at the beginning of a text.
* `Stops` : what may follow a phrase.
* `Phrase.opensType_write`, `Rest.leads_write` : a type follows where a phrase is written, and none
  follows a head.
* `Head.start_of_write`, `Rest.follow_of_write` : how a phrase begins and goes on.
-/

namespace GraphClient

namespace TypeScript

/-! ## Words -/

/-- All characters of a text may stand in an identifier, and there is one. -/
def IsWord (word : List Char) : Prop := word ≠ [] ∧ ∀ c ∈ word, insideIdentifier c = true

/-- No character of an identifier stands in front. -/
def Bare (text : List Char) : Prop := ∀ c, text.head? = some c → insideIdentifier c = false

/-- What may begin an identifier may also stand in it. -/
theorem insideIdentifier_of_opens {c : Char} (h : opensIdentifier c = true) :
    insideIdentifier c = true := by
  simp only [opensIdentifier, Bool.or_eq_true] at h
  simp only [insideIdentifier, Char.isAlphanum, Bool.or_eq_true]
  tauto

/-- An identifier is a word. -/
theorem isWord_of_isIdentifier {name : String} (h : isIdentifier name = true) :
    IsWord name.toList := by
  unfold isIdentifier at h
  split at h
  · cases h
  · next c rest heq =>
    rw [Bool.and_eq_true, List.all_eq_true] at h
    rw [heq]
    refine ⟨List.cons_ne_nil _ _, List.forall_mem_cons.2 ⟨insideIdentifier_of_opens h.1, h.2⟩⟩

theorem isWord_keyof : IsWord keyofWord := ⟨List.cons_ne_nil _ _, List.all_eq_true.1 rfl⟩

theorem isWord_extends : IsWord extendsWord := ⟨List.cons_ne_nil _ _, List.all_eq_true.1 rfl⟩

theorem isWord_as : IsWord asWord := ⟨List.cons_ne_nil _ _, List.all_eq_true.1 rfl⟩

theorem isWord_readonly : IsWord readonlyWord := ⟨List.cons_ne_nil _ _, List.all_eq_true.1 rfl⟩

/-- A text that begins with a sign continues no word. -/
theorem bare_cons {c : Char} (h : insideIdentifier c = false) (rest : List Char) :
    Bare (c :: rest) := by
  rintro _ ⟨⟩
  exact h

/-- A word is read up to where it ends. -/
theorem takeWhile_word_append {word rest : List Char} (hword : IsWord word) (hrest : Bare rest) :
    (word ++ rest).takeWhile insideIdentifier = word := by
  rw [List.takeWhile_append_of_pos hword.2]
  cases rest with
  | nil => rw [List.takeWhile_nil, List.append_nil]
  | cons c rest =>
    rw [List.takeWhile_cons_of_neg (by simp [hrest c rfl]), List.append_nil]

/-- Behind a word stands what does not continue it. -/
theorem dropWhile_word_append {word rest : List Char} (hword : IsWord word) (hrest : Bare rest) :
    (word ++ rest).dropWhile insideIdentifier = rest := by
  rw [List.dropWhile_append_of_pos hword.2]
  cases rest with
  | nil => rfl
  | cons c rest => rw [List.dropWhile_cons_of_neg (by simp [hrest c rfl])]

/-- A word ends before the first character that cannot stand in one. -/
theorem word_append_inj {v w r s : List Char} (hv : IsWord v) (hw : IsWord w) (hr : Bare r)
    (hs : Bare s) (h : v ++ r = w ++ s) : v = w ∧ r = s := by
  have htake := congrArg (List.takeWhile insideIdentifier) h
  have hdrop := congrArg (List.dropWhile insideIdentifier) h
  rw [takeWhile_word_append hv hr, takeWhile_word_append hw hs] at htake
  rw [dropWhile_word_append hv hr, dropWhile_word_append hw hs] at hdrop
  exact ⟨htake, hdrop⟩

/-! ## Whether a type follows -/

/-- The characters that a type begins with if it does not begin with a word. -/
def openers : List Char := ['\'', '(', '[', '\x7b']

/-- Whether a type stands at the beginning of a text. One of the words `extends` and `as` is a name
exactly if no type follows it. -/
def opensType (text : List Char) : Bool :=
  if text.takeWhile insideIdentifier = [] then text.head?.any openers.contains
  else if text.takeWhile insideIdentifier ∈ [extendsWord, asWord] then
    match _rest : text.dropWhile insideIdentifier with
    | ' ' :: more => !opensType more
    | _ => true
  else true
termination_by text.length
decreasing_by
  have hle := (List.dropWhile_suffix insideIdentifier (l := text)).length_le
  rw [_rest, List.length_cons] at hle
  exact hle

/-- Whether a blank and then a type stand at the beginning of a text. -/
def leads : List Char → Bool
  | ' ' :: more => opensType more
  | _ => false

/-- A word begins a type, unless it is one of two words that have another meaning here. -/
theorem opensType_word {word rest : List Char} (hword : IsWord word) (hrest : Bare rest) :
    opensType (word ++ rest) =
      if word ∈ [extendsWord, asWord] then !leads rest else true := by
  rw [opensType, takeWhile_word_append hword hrest, if_neg hword.1]
  split
  · split
    · next more heq =>
      rw [dropWhile_word_append hword hrest] at heq
      rw [heq, leads]
    · next hne =>
      rw [dropWhile_word_append hword hrest] at hne
      cases hleads : leads rest with
      | false => rfl
      | true =>
        unfold leads at hleads
        split at hleads
        · exact absurd rfl (hne _)
        · cases hleads
  · rfl

/-- Of the signs, only some begin a type. -/
theorem opensType_cons {c : Char} (h : insideIdentifier c = false) (rest : List Char) :
    opensType (c :: rest) = openers.contains c := by
  rw [opensType, List.takeWhile_cons_of_neg (by simp [h]), if_pos rfl]
  rfl

/-! ## What follows a phrase -/

/-- What may follow a phrase: the end of the text, a closing bracket or a separator, a part of the
condition or the braces around it, or the key of a mapped property. -/
inductive Stops : List Char → Prop
  | nil : Stops []
  | mark {c : Char} (h : c ∈ [')', ']', '>', ',', ';']) (rest : List Char) : Stops (c :: rest)
  | spaced {c : Char} (h : c ∈ ['?', ':', '\x7d']) (rest : List Char) : Stops (' ' :: c :: rest)
  | remap {rest : List Char} (opens : opensType rest = true) :
      Stops (' ' :: (asWord ++ ' ' :: rest))

/-- Where a type stops, no word goes on. -/
theorem Stops.bare {text : List Char} (h : Stops text) : Bare text := by
  intro c hc
  cases h with
  | nil => cases hc
  | mark h rest =>
    cases hc
    simp only [List.mem_cons, List.not_mem_nil, or_false] at h
    rcases h with rfl | rfl | rfl | rfl | rfl <;> rfl
  | spaced h rest => cases hc; rfl
  | remap opens => cases hc; rfl

/-- Where a type stops, nothing leads on to another one. -/
theorem Stops.leads {text : List Char} (h : Stops text) : leads text = false := by
  cases h with
  | nil => rfl
  | mark h rest =>
    simp only [List.mem_cons, List.not_mem_nil, or_false] at h
    rcases h with rfl | rfl | rfl | rfl | rfl <;> rfl
  | spaced h rest =>
    simp only [List.mem_cons, List.not_mem_nil, or_false] at h
    rcases h with rfl | rfl | rfl <;> exact opensType_cons rfl rest
  | remap opens =>
    rw [TypeScript.leads, opensType_word isWord_as (bare_cons rfl _), if_pos (by decide),
      TypeScript.leads, opens]
    rfl

/-- What follows a head continues no word of it. -/
theorem Rest.bare_write {text : List Char} (h : Stops text) (depth : Nat) (rest : Rest) :
    Bare (rest.write depth ++ text) := by
  cases rest with
  | stop => exact h.bare
  | list rest => exact bare_cons rfl _
  | lookup key rest => exact bare_cons rfl _
  | joined join phrase => exact bare_cons rfl _
  | condition bound whenTrue whenFalse => exact bare_cons rfl _

/-- The arguments of a generic type do not follow a head. -/
theorem Rest.head?_write_ne {text : List Char} (h : Stops text) (depth : Nat) (rest : Rest) :
    (rest.write depth ++ text).head? ≠ some '<' := by
  cases rest with
  | stop =>
    rintro heq
    cases h with
    | nil => cases heq
    | mark h rest =>
      obtain rfl := Option.some.inj heq
      exact absurd h (by decide)
    | spaced h rest => cases heq
    | remap opens => cases heq
  | list | lookup | joined | condition => rintro ⟨⟩

/-- A head of a legal phrase opens a type, if no type follows a name. -/
theorem Head.opensType_write {head : Head} (legal : head.Legal) {text : List Char}
    (bare : Bare text) (h : leads text = false) (depth : Nat) :
    opensType (head.write depth ++ text) = true := by
  cases head with
  | name name =>
    rw [Head.write, opensType_word (isWord_of_isIdentifier legal) bare, h]
    split <;> rfl
  | generic name arguments =>
    have hleads : ∀ more, leads ('<' :: more) = false := fun _ => rfl
    rw [Head.write, List.append_assoc, List.cons_append,
      opensType_word (isWord_of_isIdentifier legal.1) (bare_cons rfl _), hleads]
    split <;> rfl
  | parens | literal | tuple | object | mapped => exact opensType_cons rfl _

mutual

/-- A type stands where a legal phrase is written. -/
theorem Phrase.opensType_write {text : List Char} (h : Stops text) (depth : Nat) :
    ∀ phrase : Phrase, phrase.Legal → opensType (phrase.write depth ++ text) = true
  | .keys phrase, _ => by
    rw [Phrase.write, List.append_assoc, List.cons_append,
      opensType_word isWord_keyof (bare_cons rfl _), if_neg (by decide)]
  | .headed head rest, legal => by
    rw [Phrase.write, List.append_assoc]
    exact Head.opensType_write legal.1 (rest.bare_write h depth)
      (Rest.leads_write h depth rest legal.2) depth

/-- What follows a head is not a blank and then a type. -/
theorem Rest.leads_write {text : List Char} (h : Stops text) (depth : Nat) :
    ∀ rest : Rest, rest.Legal → leads (rest.write depth ++ text) = false
  | .stop, _ => h.leads
  | .list _, _ => rfl
  | .lookup _ _, _ => rfl
  | .joined join phrase, _ => by
    cases join with
    | or => exact opensType_cons rfl _
    | and => exact opensType_cons rfl _
  | .condition bound whenTrue whenFalse, legal => by
    -- The bound follows the word `extends`, which is no name then.
    rw [Rest.write, List.cons_append, List.append_assoc, List.cons_append, leads,
      opensType_word isWord_extends (bare_cons rfl _), if_pos (by decide), leads,
      List.append_assoc, List.cons_append, List.cons_append,
      Phrase.opensType_write (.spaced (by decide) _) depth bound legal.1]
    rfl

end

/-! ## What the next characters tell -/

/-- The ways to begin. -/
inductive Start where
  | parens
  | name
  | generic
  | literal
  | tuple
  | object (multiline : Bool)
  | mapped
deriving DecidableEq

/-- How a text begins. -/
def Start.of : List Char → Start
  | '(' :: _ => .parens
  | '\'' :: _ => .literal
  | '[' :: _ => .tuple
  | '\x7b' :: ' ' :: '[' :: _ => .mapped
  | '\x7b' :: ' ' :: _ => .object false
  | '\x7b' :: _ => .object true
  | text => if (text.dropWhile insideIdentifier).head? = some '<' then .generic else .name

/-- How a head begins. -/
def Head.start : Head → Start
  | .parens _ => .parens
  | .name _ => .name
  | .generic _ _ => .generic
  | .literal _ => .literal
  | .tuple _ => .tuple
  | .object _ multiline => .object multiline
  | .mapped .. => .mapped

/-- A word begins a generic type if a bracket follows, and a name otherwise. -/
theorem Start.of_word_append {word rest : List Char} (hword : IsWord word) (hrest : Bare rest) :
    Start.of (word ++ rest) = if rest.head? = some '<' then .generic else .name := by
  have hdrop := dropWhile_word_append hword hrest
  obtain ⟨c, word, rfl⟩ := List.exists_cons_of_ne_nil hword.1
  have hc : insideIdentifier c = true := hword.2 c List.mem_cons_self
  have hother : ∀ d, insideIdentifier d = false → c ≠ d := by
    rintro d hd rfl
    rw [hc] at hd
    cases hd
  have hparens := hother '(' rfl
  have hquote := hother '\'' rfl
  have hbracket := hother '[' rfl
  have hbrace := hother '\x7b' rfl
  have hof : Start.of (c :: (word ++ rest)) =
      if ((c :: (word ++ rest)).dropWhile insideIdentifier).head? = some '<' then .generic
      else .name := by
    rw [Start.of]
    all_goals simp [hparens, hquote, hbracket, hbrace]
  rw [List.cons_append, hof, ← List.cons_append, hdrop]

/-- The first character of a property can stand in an identifier. -/
theorem Field.exists_write_eq_cons {field : Field} (legal : field.Legal) (depth : Nat) :
    ∃ c rest, insideIdentifier c = true ∧ field.write depth = c :: rest := by
  obtain ⟨key, value, optional, readonly⟩ := field
  have hword := isWord_of_isIdentifier legal.1
  obtain ⟨c, rest, heq⟩ := List.exists_cons_of_ne_nil hword.1
  cases readonly with
  | true => exact ⟨'r', _, rfl, rfl⟩
  | false =>
    refine ⟨c, rest ++ (questionIf optional ++ ':' :: ' ' :: value.write depth),
      hword.2 c (heq ▸ List.mem_cons_self), ?_⟩
    rw [Field.write, heq]
    rfl

/-- One look at the text tells which head was written. -/
theorem Head.start_of_write {head : Head} (legal : head.Legal) {text : List Char}
    (bare : Bare text) (h : text.head? ≠ some '<') (depth : Nat) :
    Start.of (head.write depth ++ text) = head.start := by
  cases head with
  | name name =>
    rw [Head.write, Start.of_word_append (isWord_of_isIdentifier legal) bare, if_neg h]
    rfl
  | generic name arguments =>
    rw [Head.write, List.append_assoc, List.cons_append,
      Start.of_word_append (isWord_of_isIdentifier legal.1) (bare_cons rfl _)]
    rfl
  | object fields multiline =>
    cases multiline with
    | true => rfl
    | false =>
      cases fields with
      | nil => exact absurd rfl legal.1
      | cons field fields =>
        obtain ⟨c, rest, hc, heq⟩ := Field.exists_write_eq_cons legal.2.1 depth
        have hne : c ≠ '[' := by
          rintro rfl
          cases hc
        rw [Head.write, fieldDepth, if_neg Bool.false_ne_true, Field.writeAll, heq]
        simp [fieldLead, Start.of, hne, Head.start]
  | parens | literal | tuple | mapped => rfl

/-- The ways to go on. -/
inductive Follow where
  | stop
  | list
  | lookup
  | joined (join : Join)
  | condition
deriving DecidableEq

/-- How a text goes on. -/
def Follow.of : List Char → Follow
  | '[' :: ']' :: _ => .list
  | '[' :: _ => .lookup
  | ' ' :: '|' :: _ => .joined .or
  | ' ' :: '&' :: _ => .joined .and
  | ' ' :: 'e' :: _ => .condition
  | _ => .stop

/-- How a head is followed. -/
def Rest.follow : Rest → Follow
  | .stop => .stop
  | .list _ => .list
  | .lookup _ _ => .lookup
  | .joined join _ => .joined join
  | .condition .. => .condition

/-- Where a type stops, nothing follows. -/
theorem Stops.follow {text : List Char} (h : Stops text) : Follow.of text = .stop := by
  cases h with
  | nil => rfl
  | mark h rest =>
    simp only [List.mem_cons, List.not_mem_nil, or_false] at h
    rcases h with rfl | rfl | rfl | rfl | rfl <;> rfl
  | spaced h rest =>
    simp only [List.mem_cons, List.not_mem_nil, or_false] at h
    rcases h with rfl | rfl | rfl <;> rfl
  | remap opens => rfl

/-- One look at the text tells what was written behind a head. -/
theorem Rest.follow_of_write {rest : Rest} (legal : rest.Legal) {text : List Char}
    (h : Stops text) (depth : Nat) : Follow.of (rest.write depth ++ text) = rest.follow := by
  cases rest with
  | stop => exact h.follow
  | lookup key rest =>
    -- The bracket of an array would close at once, where a type does not begin.
    have hstop : Stops (']' :: (rest.write depth ++ text)) := .mark (by decide) _
    have hopens := Phrase.opensType_write hstop depth key legal.1
    rw [Rest.write, List.cons_append, List.append_assoc, List.cons_append]
    generalize key.write depth ++ ']' :: (rest.write depth ++ text) = more at hopens ⊢
    cases more with
    | nil => rfl
    | cons c more =>
      have hne : c ≠ ']' := by
        rintro rfl
        rw [opensType_cons rfl] at hopens
        cases hopens
      simp [Follow.of, hne, Rest.follow]
  | joined join phrase => cases join <;> rfl
  | list | condition => rfl

end TypeScript

end GraphClient
