/-!
# Texts that can be read back

A text is put together from the texts of parts. Nothing is lost that way if each part can be told
from the text that starts with it, whatever follows. For a word that is only so if no character of
words follows; brackets, commas and line feeds see to that.

* `Script` : a way to write things.
* `Script.Legible` : a thing that can be read off every text that starts with it.
* `Script.after`, `Script.andThen`, `Script.keyed`, `Script.listed`, `Script.parenthesized` :
  scripts that are put together, and what is legible in them.
-/

namespace GraphClient

/-! ## Words -/

/-- A text that does not start with a character of a class. -/
def Stops (among : Char → Bool) : List Char → Prop
  | [] => True
  | c :: _ => among c = false

/-- Nothing goes on with what ends by itself. -/
theorem stops_never (text : List Char) : Stops (fun _ => false) text := by
  cases text with
  | nil => trivial
  | cons c rest => rfl

/-- A word and what follows it are told apart by the first character outside the class. -/
theorem takeWhile_append_of_stops {among : Char → Bool} {word rest : List Char}
    (hword : ∀ c ∈ word, among c = true) (hrest : Stops among rest) :
    (word ++ rest).takeWhile among = word := by
  rw [List.takeWhile_append_of_pos hword]
  cases rest with
  | nil => exact List.append_nil word
  | cons c rest =>
    have hc : ¬ among c = true := by
      rw [show among c = false from hrest]
      exact Bool.false_ne_true
    rw [List.takeWhile_cons_of_neg hc, List.append_nil]

/-- A word is told from what stops it. -/
theorem word_unique {among : Char → Bool} {a b r s : List Char} (ha : ∀ c ∈ a, among c = true)
    (hb : ∀ c ∈ b, among c = true) (hr : Stops among r) (hs : Stops among s)
    (h : a ++ r = b ++ s) : a = b ∧ r = s := by
  have hab : a = b := by
    rw [← takeWhile_append_of_stops ha hr, h, takeWhile_append_of_stops hb hs]
  subst hab
  exact ⟨rfl, List.append_cancel_left h⟩

/-! ## Scripts -/

/-- A way to write things: the characters of a thing, the things it is meant for, and the characters
that must not follow, since they might go on with what stands before them. -/
structure Script (α : Type) where
  write : α → List Char
  legal : α → Prop
  inner : Char → Bool

namespace Script

variable {α β : Type}

/-- A thing can be read off every text that starts with it: no other thing starts the same text, and
what follows is known. -/
structure Legible (script : Script α) (a : α) : Prop where
  legal : script.legal a
  unique : ∀ b r s, script.legal b → Stops script.inner r → Stops script.inner s →
    script.write a ++ r = script.write b ++ s → a = b ∧ r = s

/-- The words of a class of characters, written as they are. -/
def word (legal : String → Prop) (inner : Char → Bool) : Script String where
  write := String.toList
  legal := legal
  inner := inner

/-- A word of some characters can be read back up to where it stops. -/
theorem legible_word {legal : String → Prop} {inner : Char → Bool}
    (h : ∀ text, legal text → ∀ c ∈ text.toList, inner c = true) {text : String}
    (htext : legal text) : (word legal inner).Legible text where
  legal := htext
  unique other r s hother hr hs heq := by
    obtain ⟨hwords, hrest⟩ := word_unique (h text htext) (h other hother) hr hs heq
    exact ⟨String.toList_inj.1 hwords, hrest⟩

/-- The same things after an opening text. -/
def after (opening : String) (script : Script α) : Script α :=
  { script with write := fun a => opening.toList ++ script.write a }

/-- What can be read back still can behind an opening. -/
theorem Legible.after {script : Script α} {a : α} (h : script.Legible a) (opening : String) :
    (script.after opening).Legible a where
  legal := h.legal
  unique b r s hb hr hs heq := by
    have heq' : opening.toList ++ (script.write a ++ r) =
        opening.toList ++ (script.write b ++ s) := by
      simpa [Script.after] using heq
    exact h.unique b r s hb hr hs (List.append_cancel_left heq')

/-- One thing after another. -/
def andThen (first : Script α) (second : Script β) : Script (α × β) where
  write pair := first.write pair.1 ++ second.write pair.2
  legal pair := first.legal pair.1 ∧ second.legal pair.2
  inner := second.inner

/-- Two things are legible one after the other if the second one never goes on with the first. -/
theorem Legible.andThen {first : Script α} {second : Script β} {a : α} {b : β}
    (ha : first.Legible a) (hb : second.Legible b)
    (apart : ∀ b r, second.legal b → Stops second.inner r →
      Stops first.inner (second.write b ++ r)) : (first.andThen second).Legible (a, b) where
  legal := ⟨ha.legal, hb.legal⟩
  unique pair r s hpair hr hs heq := by
    have heq' : first.write a ++ (second.write b ++ r) =
        first.write pair.1 ++ (second.write pair.2 ++ s) := by
      simpa [Script.andThen] using heq
    obtain ⟨hfirst, hrest⟩ := ha.unique _ _ _ hpair.1 (apart b r hb.legal hr)
      (apart pair.2 s hpair.2 hs) heq'
    obtain ⟨hsecond, hrest⟩ := hb.unique _ _ _ hpair.2 hr hs hrest
    exact ⟨Prod.ext hfirst hsecond, hrest⟩

/-- A key, a colon and a value. -/
def keyed (key : Script String) (value : Script α) : Script (String × α) :=
  key.andThen (value.after ": ")

/-- A value behind its name and a colon can be read back if both can. -/
theorem Legible.keyed {key : Script String} {value : Script α} {name : String} {a : α}
    (hname : key.Legible name) (ha : value.Legible a) (colon : key.inner ':' = false) :
    (key.keyed value).Legible (name, a) :=
  hname.andThen (ha.after ": ") fun _ _ _ _ => colon

/-! ## Lists -/

/-- Things with commas between them. -/
def listed (item : Script α) (things : List α) : List Char :=
  List.intercalate ", ".toList (things.map item.write)

/-- A list of one thing has no comma. -/
theorem listed_singleton (item : Script α) (a : α) : item.listed [a] = item.write a :=
  List.intercalate_singleton

/-- The things of a list have commas between them. -/
theorem listed_cons_cons (item : Script α) (a b : α) (rest : List α) :
    item.listed (a :: b :: rest) = item.write a ++ (',' :: ' ' :: item.listed (b :: rest)) := by
  rw [listed, List.map_cons, List.map_cons, List.intercalate_cons_cons, List.append_assoc]
  rfl

/-- Texts with commas between them, where each is the text of what is seen of something. -/
theorem toList_intercalate_map {item : Script α} {view : β → α} {text : β → String}
    (h : ∀ b, (text b).toList = item.write (view b)) (things : List β) :
    (String.intercalate ", " (things.map text)).toList = item.listed (things.map view) := by
  rw [String.toList_intercalate, listed, List.map_map, List.map_map]
  congr 2
  funext b
  exact h b

/-- A list starts with its first thing. -/
theorem exists_listed_cons (item : Script α) (a : α) (rest : List α) :
    ∃ more, item.listed (a :: rest) = item.write a ++ more := by
  cases rest with
  | nil => exact ⟨[], by rw [listed_singleton, List.append_nil]⟩
  | cons b rest => exact ⟨_, listed_cons_cons item a b rest⟩

/-- Legible things are legible with commas between them, up to a character that closes the list. By
induction on the list, as the text after a comma is that of a shorter list. -/
theorem listed_unique {item : Script α} {closing : Char} (comma : item.inner ',' = false)
    (closes : item.inner closing = false) (hne : closing ≠ ',') {a b : α} {as bs : List α}
    {r s : List Char} (h : ∀ x ∈ a :: as, item.Legible x) (hbs : ∀ x ∈ b :: bs, item.legal x)
    (heq : item.listed (a :: as) ++ closing :: r = item.listed (b :: bs) ++ closing :: s) :
    a :: as = b :: bs ∧ r = s := by
  have ha : item.Legible a := h a List.mem_cons_self
  have hb : item.legal b := hbs b List.mem_cons_self
  -- After each thing comes a comma or the closing character, and the thing stops at both.
  have hcomma (rest : List Char) : Stops item.inner (',' :: rest) := comma
  have hclosing (rest : List Char) : Stops item.inner (closing :: rest) := closes
  induction as generalizing a b bs with
  | nil =>
    cases bs with
    | nil =>
      rw [listed_singleton, listed_singleton] at heq
      obtain ⟨rfl, hrest⟩ := ha.unique b _ _ hb (hclosing r) (hclosing s) heq
      exact ⟨rfl, (List.cons.inj hrest).2⟩
    | cons y ys =>
      rw [listed_singleton, listed_cons_cons, List.append_assoc] at heq
      obtain ⟨-, hrest⟩ := ha.unique b _ _ hb (hclosing r) (hcomma _) heq
      exact absurd (List.cons.inj hrest).1 hne
  | cons x xs ih =>
    cases bs with
    | nil =>
      rw [listed_singleton, listed_cons_cons, List.append_assoc] at heq
      obtain ⟨-, hrest⟩ := ha.unique b _ _ hb (hcomma _) (hclosing s) heq
      exact absurd (List.cons.inj hrest).1.symm hne
    | cons y ys =>
      rw [listed_cons_cons, listed_cons_cons, List.append_assoc, List.append_assoc] at heq
      obtain ⟨rfl, hrest⟩ := ha.unique b _ _ hb (hcomma _) (hcomma _) heq
      have hlists : item.listed (x :: xs) ++ closing :: r =
          item.listed (y :: ys) ++ closing :: s := by
        simpa using hrest
      rw [List.forall_mem_cons] at h hbs
      obtain ⟨hcons, hrest⟩ := ih h.2 hbs.2 hlists (h.2 x List.mem_cons_self)
        (hbs.2 y List.mem_cons_self)
      exact ⟨congrArg _ hcons, hrest⟩

/-- A list between parentheses, or nothing at all if there is nothing to list. Then what follows
stands right after what is `before` the list. -/
def parenthesized (before : Char → Bool) (item : Script α) : Script (List α) where
  write
    | [] => []
    | a :: rest => '(' :: (item.listed (a :: rest) ++ [')'])
  legal things := ∀ a ∈ things, item.legal a
  inner c := before c || c == '('

/-- Things in parentheses can be read back if each of them can. -/
theorem Legible.parenthesized {before : Char → Bool} {item : Script α}
    (comma : item.inner ',' = false) (closes : item.inner ')' = false) {things : List α}
    (h : ∀ a ∈ things, item.Legible a) : (item.parenthesized before).Legible things where
  legal a ha := (h a ha).legal
  unique others r s hothers hr hs heq := by
    -- What follows a list is no list itself.
    have hopening (rest : List Char) : ¬ Stops (item.parenthesized before).inner ('(' :: rest) := by
      simp [Stops, Script.parenthesized]
    cases things with
    | nil =>
      cases others with
      | nil => exact ⟨rfl, heq⟩
      | cons b bs =>
        rw [show r = '(' :: _ from heq] at hr
        exact absurd hr (hopening _)
    | cons a as =>
      cases others with
      | nil =>
        rw [show s = '(' :: _ from heq.symm] at hs
        exact absurd hs (hopening _)
      | cons b bs =>
        have hlists : item.listed (a :: as) ++ ')' :: r = item.listed (b :: bs) ++ ')' :: s := by
          simpa [Script.parenthesized] using heq
        exact listed_unique comma closes (by decide) h hothers hlists

end Script

end GraphClient
