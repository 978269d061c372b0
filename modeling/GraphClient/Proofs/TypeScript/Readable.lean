import GraphClient.Proofs.TypeScript.Lookahead

/-!
# Phrases can be read

The characters of a phrase tell the phrase, and where it ends, if a name is no longer than its
characters and a phrase is followed by something that stops it. The proof goes from left to right,
and the next characters tell which rule the text was written by.

* `Phrase.eq_of_write_append_eq` : two phrases with the same characters are the same.
-/

namespace GraphClient

namespace TypeScript

/-! ## Texts that are written as they are -/

/-- To indent a text adds nothing but blanks. -/
theorem mem_indented {depth : Nat} {text : List Char} {c : Char} (h : c ∈ indented depth text) :
    c ∈ text ∨ c = ' ' := by
  obtain ⟨d, hd, hc⟩ := List.mem_flatMap.1 h
  split at hc
  · next hfeed =>
    rcases List.mem_cons.1 hc with rfl | hblank
    · exact .inl (hfeed ▸ hd)
    · exact .inr (List.eq_of_mem_replicate hblank)
  · obtain rfl := List.mem_singleton.1 hc
    exact .inl hd

/-- The indentation after line feeds can be taken away again. -/
theorem indented_injective (depth : Nat) : Function.Injective (indented depth) := by
  intro a
  induction a with
  | nil =>
    intro b h
    cases b with
    | nil => rfl
    | cons d b =>
      rw [indented, indented, List.flatMap_cons] at h
      split at h <;> cases h
  | cons c a ih =>
    intro b h
    cases b with
    | nil =>
      rw [indented, indented, List.flatMap_cons] at h
      split at h <;> cases h
    | cons d b =>
      rw [indented, indented, List.flatMap_cons, List.flatMap_cons] at h
      -- A first character is kept, so either both or none of the two are line feeds.
      by_cases hc : c = '\n'
      · by_cases hd : d = '\n'
        · rw [if_pos hc, if_pos hd] at h
          rw [hc, hd, ih (List.append_cancel_left h)]
        · rw [if_pos hc, if_neg hd] at h
          exact absurd (List.cons.inj h).1.symm hd
      · by_cases hd : d = '\n'
        · rw [if_neg hc, if_pos hd] at h
          exact absurd (List.cons.inj h).1 hc
        · rw [if_neg hc, if_neg hd] at h
          obtain ⟨rfl, hrest⟩ := List.cons.inj h
          rw [ih hrest]

/-- A text is told from what follows by a character that it does not hold. -/
theorem append_cons_inj {c : Char} {a b r s : List Char} (ha : c ∉ a) (hb : c ∉ b)
    (h : a ++ c :: r = b ++ c :: s) : a = b ∧ r = s := by
  induction a generalizing b with
  | nil =>
    cases b with
    | nil => exact ⟨rfl, (List.cons.inj h).2⟩
    | cons d b =>
      obtain ⟨rfl, -⟩ := List.cons.inj h
      exact absurd List.mem_cons_self hb
  | cons d a ih =>
    rw [List.mem_cons, not_or] at ha
    cases b with
    | nil =>
      obtain ⟨rfl, -⟩ := List.cons.inj h
      exact absurd rfl ha.1
    | cons e b =>
      obtain ⟨rfl, hrest⟩ := List.cons.inj h
      obtain ⟨rfl, rfl⟩ := ih ha.2 (fun hmem => hb (List.mem_cons_of_mem _ hmem)) hrest
      exact ⟨rfl, rfl⟩

/-- A text between apostrophes ends at the second one. -/
theorem quotable_inj {v w : String} (hv : IsQuotable v) (hw : IsQuotable w) {depth : Nat}
    {r s : List Char}
    (h : indented depth v.toList ++ '\'' :: r = indented depth w.toList ++ '\'' :: s) :
    v = w ∧ r = s := by
  have hnot : ∀ text, IsQuotable text → '\'' ∉ indented depth text.toList := by
    intro text htext hmem
    rcases mem_indented hmem with hmem | hblank
    · exact htext hmem
    · cases hblank
  obtain ⟨heq, hrest⟩ := append_cons_inj (hnot v hv) (hnot w hw) h
  exact ⟨String.toList_inj.1 (indented_injective depth heq), hrest⟩

/-- An identifier is told from what follows if that continues no word. -/
theorem identifier_append_inj {v w : String} (hv : isIdentifier v = true)
    (hw : isIdentifier w = true) {r s : List Char} (hr : Bare r) (hs : Bare s)
    (h : v.toList ++ r = w.toList ++ s) : v = w ∧ r = s := by
  obtain ⟨heq, hrest⟩ :=
    word_append_inj (isWord_of_isIdentifier hv) (isWord_of_isIdentifier hw) hr hs h
  exact ⟨String.toList_inj.1 heq, hrest⟩

/-- A colon tells whether a question mark stands before it. -/
theorem questionIf_append_inj {a b : Bool} {r s : List Char}
    (h : questionIf a ++ ':' :: ' ' :: r = questionIf b ++ ':' :: ' ' :: s) : a = b ∧ r = s := by
  cases a <;> cases b <;> simp [questionIf] at h ⊢
  all_goals exact h

/-- A colon, or a question mark before it, continues no word. -/
theorem bare_questionIf (condition : Bool) (rest : List Char) :
    Bare (questionIf condition ++ ':' :: rest) := by
  cases condition <;> exact bare_cons rfl _

/-! ## Properties of objects -/

/-- A type stops before the end of its property. -/
theorem stops_fieldClose (depth : Nat) (multiline : Bool) (text : List Char) :
    Stops (fieldClose depth multiline ++ text) := by
  cases multiline with
  | true => exact .mark (by decide) _
  | false => exact .spaced (by decide) _

/-- What closes an object is told from what stands before another property. -/
theorem fieldClose_append_ne {depth : Nat} {multiline : Bool} {r s : List Char} :
    fieldClose depth multiline ++ r ≠ ';' :: (fieldLead depth multiline ++ s) := by
  intro h
  cases multiline with
  | false => cases h
  | true =>
    have hclose : fieldClose depth true = ';' :: '\n' :: (blanks depth ++ ['\x7d']) := rfl
    have hlead : fieldLead depth true = '\n' :: (blanks depth ++ [' ', ' ']) := by
      rw [← blanks_succ]
      rfl
    rw [hclose, hlead] at h
    simp only [List.cons_append, List.append_assoc, List.cons.injEq, true_and,
      List.append_cancel_left_eq] at h
    cases h.1

/-! ## Unique reading -/

/-- A phrase that begins with `keyof` in front of a type does not begin with a head. -/
theorem Phrase.keys_write_ne {phrase : Phrase} {head : Head} {rest : Rest} (hphrase : phrase.Legal)
    (hhead : head.Legal) (hrest : rest.Legal) {r s : List Char} (hr : Stops r) (hs : Stops s)
    (depth : Nat) :
    (Phrase.keys phrase).write depth ++ r ≠ (Phrase.headed head rest).write depth ++ s := by
  rw [write, write, List.append_assoc, List.append_assoc, List.cons_append]
  intro h
  have hstart := congrArg Start.of h
  rw [Start.of_word_append isWord_keyof (bare_cons rfl _),
    Head.start_of_write hhead (rest.bare_write hs depth) (rest.head?_write_ne hs depth)] at hstart
  cases head with
  | name name =>
    -- The word may be a name in the second text, but no type follows a name.
    have hbare := rest.bare_write hs depth
    obtain ⟨-, heq⟩ := word_append_inj isWord_keyof (isWord_of_isIdentifier hhead)
      (bare_cons rfl _) hbare h
    have hleads := rest.leads_write hs depth hrest
    rw [← heq, leads, phrase.opensType_write hr depth hphrase] at hleads
    cases hleads
  | _ => cases hstart

/-- The same text behind a head was written for the same kind of rest. -/
theorem Rest.follow_eq_of_write {a b : Rest} (ha : a.Legal) (hb : b.Legal) {r s : List Char}
    (hr : Stops r) (hs : Stops s) {depth : Nat} (h : a.write depth ++ r = b.write depth ++ s) :
    a.follow = b.follow := by
  rw [← Rest.follow_of_write ha hr depth, h, Rest.follow_of_write hb hs]

/-- The same text was written for the same kind of head. -/
theorem Head.start_eq_of_write {a b : Head} (ha : a.Legal) (hb : b.Legal) {r s : List Char}
    (hr : Bare r) (hr' : r.head? ≠ some '<') (hs : Bare s) (hs' : s.head? ≠ some '<')
    {depth : Nat} (h : a.write depth ++ r = b.write depth ++ s) : a.start = b.start := by
  rw [← Head.start_of_write ha hr hr' depth, h, Head.start_of_write hb hs hs']

/-- A type stops before the key of a mapped property, or before the bracket behind it. -/
theorem Phrase.stops_writeRemap {remap : Option Phrase} (legal : LegalRemap remap) (depth : Nat)
    (text : List Char) : Stops (writeRemap depth remap ++ ']' :: text) := by
  cases remap with
  | none => exact .mark (by decide) _
  | some key =>
    rw [writeRemap, List.cons_append, List.append_assoc, List.cons_append]
    exact .remap (key.opensType_write (.mark (by decide) _) depth legal)

/-- A type stops before the next one of a list, or where the list does. -/
theorem Phrase.stops_writeMore {phrases : List Phrase} {depth : Nat} {text : List Char}
    (h : Stops text) : Stops (writeMore depth phrases ++ text) := by
  cases phrases with
  | nil => exact h
  | cons phrase phrases => exact .mark (by decide) _

/-- A type stops before the next property, or where the properties do. -/
theorem Field.stops_writeMore {fields : List Field} {depth : Nat} {lead text : List Char}
    (h : Stops text) : Stops (writeMore depth lead fields ++ text) := by
  cases fields with
  | nil => exact h
  | cons field fields => exact .mark (by decide) _

/-- The brackets that close some phrases. -/
def closers : List Char := [']', '>']

/-- Two characters close a list of types. -/
theorem mem_closers_iff {close : Char} : close ∈ closers ↔ close = ']' ∨ close = '>' := by
  rw [closers, List.mem_cons, List.mem_singleton]

/-- A type stops before what closes its list. -/
theorem stops_closer {close : Char} (h : close ∈ closers) (text : List Char) :
    Stops (close :: text) := by
  rcases mem_closers_iff.1 h with rfl | rfl <;> exact .mark (by decide) text

/-- What closes a list separates nothing in it. -/
theorem ne_comma {close : Char} (h : close ∈ closers) : close ≠ ',' := by
  rcases mem_closers_iff.1 h with rfl | rfl <;> decide

/-- What closes a list begins no type. -/
theorem opensType_closer {close : Char} (h : close ∈ closers) (text : List Char) :
    opensType (close :: text) = false := by
  rcases mem_closers_iff.1 h with rfl | rfl <;> exact opensType_cons rfl text

/-- Where some phrases are closed, no type begins. -/
theorem Phrase.writeAll_cons_ne {phrase : Phrase} {phrases : List Phrase} {depth : Nat}
    {close : Char} (h : close ∈ closers) (legal : phrase.Legal) {r s : List Char} :
    writeAll depth (phrase :: phrases) ++ close :: r ≠ close :: s := by
  intro heq
  have hstop : Stops (writeMore depth phrases ++ close :: r) := stops_writeMore (stops_closer h r)
  have hopens := phrase.opensType_write hstop depth legal
  rw [writeAll, List.append_assoc] at heq
  rw [heq, opensType_closer h] at hopens
  cases hopens

/-- The word in front of a property is told from its key. -/
theorem readonly_append_inj {a b : Bool} {v w : String} (hv : isIdentifier v = true)
    (hw : isIdentifier w = true) {x y : Bool} {r s : List Char}
    (h : (if a then readonlyWord ++ [' '] else []) ++ (v.toList ++ (questionIf x ++ ':' :: r)) =
      (if b then readonlyWord ++ [' '] else []) ++ (w.toList ++ (questionIf y ++ ':' :: s))) :
    a = b ∧ v.toList ++ (questionIf x ++ ':' :: r) = w.toList ++ (questionIf y ++ ':' :: s) := by
  have hne : ∀ {w : String} {y : Bool} {r s : List Char}, isIdentifier w = true →
      readonlyWord ++ [' '] ++ r ≠ w.toList ++ (questionIf y ++ ':' :: s) := by
    intro w y r s hw heq
    rw [List.append_assoc] at heq
    obtain ⟨-, hblank⟩ := word_append_inj isWord_readonly (isWord_of_isIdentifier hw)
      (bare_cons rfl _) (bare_questionIf _ _) heq
    cases y <;> cases hblank
  cases a <;> cases b
  · exact ⟨rfl, h⟩
  · exact absurd h.symm (hne hv)
  · exact absurd h (hne hw)
  · exact ⟨rfl, List.append_cancel_left h⟩

-- By recursion on the first text. The next characters tell which rule the second one was written
-- by, and then each part ends where the mark behind it stops it.
mutual

/-- The characters of a phrase tell the phrase, and where it ends. -/
theorem Phrase.eq_of_write_append_eq : ∀ (a b : Phrase) (depth : Nat) (r s : List Char),
    a.Legal → b.Legal → Stops r → Stops s → a.write depth ++ r = b.write depth ++ s →
      a = b ∧ r = s
  | .keys a, .keys b, depth, r, s, ha, hb, hr, hs, h => by
    rw [Phrase.write, Phrase.write, List.append_assoc, List.append_assoc] at h
    have hphrase := (List.cons.inj (List.append_cancel_left h)).2
    obtain ⟨rfl, hend⟩ := Phrase.eq_of_write_append_eq a b depth r s ha hb hr hs hphrase
    exact ⟨rfl, hend⟩
  | .keys a, .headed _ _, depth, _, _, ha, hb, hr, hs, h =>
    absurd h (Phrase.keys_write_ne (show a.Legal from ha) hb.1 hb.2 hr hs depth)
  | .headed _ _, .keys b, depth, _, _, ha, hb, hr, hs, h =>
    absurd h.symm (Phrase.keys_write_ne (show b.Legal from hb) ha.1 ha.2 hs hr depth)
  | .headed head rest, .headed head' rest', depth, r, s, ha, hb, hr, hs, h => by
    rw [Phrase.write, Phrase.write, List.append_assoc, List.append_assoc] at h
    obtain ⟨rfl, hrest⟩ := Head.eq_of_write_append_eq head head' depth _ _ ha.1 hb.1
      (rest.bare_write hr depth) (rest.head?_write_ne hr depth)
      (rest'.bare_write hs depth) (rest'.head?_write_ne hs depth) h
    obtain ⟨rfl, hend⟩ := Rest.eq_of_write_append_eq rest rest' depth r s ha.2 hb.2 hr hs hrest
    exact ⟨rfl, hend⟩
termination_by structural a => a

/-- The same for what follows a head. -/
theorem Rest.eq_of_write_append_eq : ∀ (a b : Rest) (depth : Nat) (r s : List Char),
    a.Legal → b.Legal → Stops r → Stops s → a.write depth ++ r = b.write depth ++ s →
      a = b ∧ r = s
  | .stop, b, depth, r, s, ha, hb, hr, hs, h => by
    have hfollow := Rest.follow_eq_of_write ha hb hr hs h
    cases b with
    | stop => exact ⟨rfl, h⟩
    | _ => cases hfollow
  | .list a, b, depth, r, s, ha, hb, hr, hs, h => by
    have hfollow := Rest.follow_eq_of_write ha hb hr hs h
    cases b with
    | list b =>
      have hrest := (List.cons.inj (List.cons.inj h).2).2
      obtain ⟨rfl, hend⟩ := Rest.eq_of_write_append_eq a b depth r s ha hb hr hs hrest
      exact ⟨rfl, hend⟩
    | _ => cases hfollow
  | .lookup key a, b, depth, r, s, ha, hb, hr, hs, h => by
    have hfollow := Rest.follow_eq_of_write ha hb hr hs h
    cases b with
    | lookup key' b =>
      rw [Rest.write, Rest.write, List.cons_append, List.cons_append, List.append_assoc,
        List.append_assoc] at h
      obtain ⟨rfl, hclose⟩ := Phrase.eq_of_write_append_eq key key' depth _ _ ha.1 hb.1
        (.mark (by decide) _) (.mark (by decide) _) (List.cons.inj h).2
      obtain ⟨rfl, hend⟩ := Rest.eq_of_write_append_eq a b depth r s ha.2 hb.2 hr hs
        (List.cons.inj hclose).2
      exact ⟨rfl, hend⟩
    | _ => cases hfollow
  | .joined join a, b, depth, r, s, ha, hb, hr, hs, h => by
    have hfollow := Rest.follow_eq_of_write ha hb hr hs h
    cases b with
    | joined join' b =>
      obtain rfl := Follow.joined.inj hfollow
      have hphrase := (List.cons.inj (List.cons.inj (List.cons.inj h).2).2).2
      obtain ⟨rfl, hend⟩ := Phrase.eq_of_write_append_eq a b depth r s ha hb hr hs hphrase
      exact ⟨rfl, hend⟩
    | _ => cases hfollow
  | .condition bound whenTrue whenFalse, b, depth, r, s, ha, hb, hr, hs, h => by
    have hfollow := Rest.follow_eq_of_write ha hb hr hs h
    cases b with
    | condition bound' whenTrue' whenFalse' =>
      simp only [Rest.write, List.cons_append, List.append_assoc, List.cons.injEq, true_and,
        List.append_cancel_left_eq] at h
      obtain ⟨rfl, hmark⟩ := Phrase.eq_of_write_append_eq bound bound' depth _ _ ha.1 hb.1
        (.spaced (by decide) _) (.spaced (by decide) _) h
      simp only [List.cons.injEq, true_and] at hmark
      obtain ⟨rfl, hcolon⟩ := Phrase.eq_of_write_append_eq whenTrue whenTrue' depth _ _ ha.2.1
        hb.2.1 (.spaced (by decide) _) (.spaced (by decide) _) hmark
      simp only [List.cons.injEq, true_and] at hcolon
      obtain ⟨rfl, hend⟩ := Phrase.eq_of_write_append_eq whenFalse whenFalse' depth r s ha.2.2
        hb.2.2 hr hs hcolon
      exact ⟨rfl, hend⟩
    | _ => cases hfollow
termination_by structural a => a

/-- The same for a head, if what follows cannot belong to it. -/
theorem Head.eq_of_write_append_eq : ∀ (a b : Head) (depth : Nat) (r s : List Char),
    a.Legal → b.Legal → Bare r → r.head? ≠ some '<' → Bare s → s.head? ≠ some '<' →
      a.write depth ++ r = b.write depth ++ s → a = b ∧ r = s
  | .parens a, b, depth, r, s, ha, hb, hr, hr', hs, hs', h => by
    -- The first characters tell that the two are made alike. Then part after part is cancelled.
    have hstart := Head.start_eq_of_write ha hb hr hr' hs hs' h
    cases b with
    | parens b =>
      simp only [Head.write, List.cons_append, List.append_assoc, List.cons.injEq, true_and,
        List.nil_append] at h
      obtain ⟨rfl, hclose⟩ := Phrase.eq_of_write_append_eq a b depth _ _ ha hb
        (.mark (by decide) _) (.mark (by decide) _) h
      exact ⟨rfl, (List.cons.inj hclose).2⟩
    | _ => cases hstart
  | .name name, b, depth, r, s, ha, hb, hr, hr', hs, hs', h => by
    have hstart := Head.start_eq_of_write ha hb hr hr' hs hs' h
    cases b with
    | name name' =>
      obtain ⟨rfl, hend⟩ := identifier_append_inj ha hb hr hs h
      exact ⟨rfl, hend⟩
    | _ => cases hstart
  | .generic name arguments, b, depth, r, s, ha, hb, hr, hr', hs, hs', h => by
    have hstart := Head.start_eq_of_write ha hb hr hr' hs hs' h
    cases b with
    | generic name' arguments' =>
      simp only [Head.write, List.cons_append, List.append_assoc, List.nil_append] at h
      obtain ⟨rfl, hopen⟩ :=
        identifier_append_inj ha.1 hb.1 (bare_cons rfl _) (bare_cons rfl _) h
      simp only [List.cons.injEq, true_and] at hopen
      obtain ⟨rfl, hend⟩ := Phrase.eq_of_writeAll_append_eq arguments arguments' depth '>' r s
        (by decide) ha.2.2 hb.2.2 hopen
      exact ⟨rfl, hend⟩
    | _ => cases hstart
  | .literal value, b, depth, r, s, ha, hb, hr, hr', hs, hs', h => by
    have hstart := Head.start_eq_of_write ha hb hr hr' hs hs' h
    cases b with
    | literal value' =>
      simp only [Head.write, List.cons_append, List.append_assoc, List.cons.injEq, true_and,
        List.nil_append] at h
      obtain ⟨rfl, hend⟩ := quotable_inj ha hb h
      exact ⟨rfl, hend⟩
    | _ => cases hstart
  | .tuple members, b, depth, r, s, ha, hb, hr, hr', hs, hs', h => by
    have hstart := Head.start_eq_of_write ha hb hr hr' hs hs' h
    cases b with
    | tuple members' =>
      simp only [Head.write, List.cons_append, List.append_assoc, List.cons.injEq, true_and,
        List.nil_append] at h
      obtain ⟨rfl, hend⟩ := Phrase.eq_of_writeAll_append_eq members members' depth ']' r s
        (by decide) ha hb h
      exact ⟨rfl, hend⟩
    | _ => cases hstart
  | .object fields multiline, b, depth, r, s, ha, hb, hr, hr', hs, hs', h => by
    have hstart := Head.start_eq_of_write ha hb hr hr' hs hs' h
    cases b with
    | object fields' multiline' =>
      obtain rfl := Start.object.inj hstart
      simp only [Head.write, List.cons_append, List.append_assoc, List.cons.injEq, true_and,
        List.append_cancel_left_eq] at h
      obtain ⟨rfl, hend⟩ := Field.eq_of_writeAll_append_eq fields fields' depth multiline r s
        ha.1 hb.1 ha.2 hb.2 h
      exact ⟨rfl, hend⟩
    | _ => cases hstart
  | .mapped parameter source remap value optional, b, depth, r, s, ha, hb, hr, hr', hs, hs', h => by
    have hstart := Head.start_eq_of_write ha hb hr hr' hs hs' h
    cases b with
    | mapped parameter' source' remap' value' optional' =>
      simp only [Head.write, List.cons_append, List.append_assoc, List.cons.injEq, true_and] at h
      obtain ⟨rfl, hsource⟩ :=
        identifier_append_inj ha.1 hb.1 (bare_cons rfl _) (bare_cons rfl _) h
      simp only [List.cons.injEq, true_and] at hsource
      obtain ⟨rfl, hremap⟩ := Phrase.eq_of_write_append_eq source source' depth _ _ ha.2.1 hb.2.1
        (Phrase.stops_writeRemap ha.2.2.1 depth _) (Phrase.stops_writeRemap hb.2.2.1 depth _)
        hsource
      obtain ⟨rfl, hoptional⟩ := Phrase.eq_of_writeRemap_append_eq remap remap' depth _ _
        ha.2.2.1 hb.2.2.1 hremap
      obtain ⟨rfl, hvalue⟩ := questionIf_append_inj hoptional
      obtain ⟨rfl, hclose⟩ := Phrase.eq_of_write_append_eq value value' depth _ _ ha.2.2.2
        hb.2.2.2 (.spaced (by decide) _) (.spaced (by decide) _) hvalue
      simp only [List.cons.injEq, true_and, List.nil_append] at hclose
      exact ⟨rfl, hclose⟩
    | _ => cases hstart
termination_by structural a => a

/-- The same for some phrases up to the bracket that closes them. -/
theorem Phrase.eq_of_writeAll_append_eq : ∀ (a b : List Phrase) (depth : Nat) (close : Char)
    (r s : List Char), close ∈ closers → Phrase.LegalAll a → Phrase.LegalAll b →
      Phrase.writeAll depth a ++ close :: r = Phrase.writeAll depth b ++ close :: s →
        a = b ∧ r = s
  | [], [], _, _, _, _, _, _, _, h => ⟨rfl, (List.cons.inj h).2⟩
  | [], _ :: _, _, _, _, _, hclose, _, hb, h =>
    absurd h.symm (Phrase.writeAll_cons_ne hclose hb.1)
  | _ :: _, [], _, _, _, _, hclose, ha, _, h => absurd h (Phrase.writeAll_cons_ne hclose ha.1)
  | a :: as, b :: bs, depth, close, r, s, hclose, ha, hb, h => by
    rw [Phrase.writeAll, Phrase.writeAll, List.append_assoc, List.append_assoc] at h
    obtain ⟨rfl, hmore⟩ := Phrase.eq_of_write_append_eq a b depth _ _ ha.1 hb.1
      (Phrase.stops_writeMore (stops_closer hclose r))
      (Phrase.stops_writeMore (stops_closer hclose s)) h
    obtain ⟨rfl, hend⟩ :=
      Phrase.eq_of_writeMore_append_eq as bs depth close r s hclose ha.2 hb.2 hmore
    exact ⟨rfl, hend⟩
termination_by structural a => a

/-- The same for some phrases that each follow a comma. -/
theorem Phrase.eq_of_writeMore_append_eq : ∀ (a b : List Phrase) (depth : Nat) (close : Char)
    (r s : List Char), close ∈ closers → Phrase.LegalAll a → Phrase.LegalAll b →
      Phrase.writeMore depth a ++ close :: r = Phrase.writeMore depth b ++ close :: s →
        a = b ∧ r = s
  | [], [], _, _, _, _, _, _, _, h => ⟨rfl, (List.cons.inj h).2⟩
  | [], _ :: _, _, _, _, _, hclose, _, _, h => absurd (List.cons.inj h).1 (ne_comma hclose)
  | _ :: _, [], _, _, _, _, hclose, _, _, h => absurd (List.cons.inj h).1.symm (ne_comma hclose)
  | a :: as, b :: bs, depth, close, r, s, hclose, ha, hb, h => by
    simp only [Phrase.writeMore, List.cons_append, List.append_assoc, List.cons.injEq, true_and]
      at h
    obtain ⟨rfl, hmore⟩ := Phrase.eq_of_write_append_eq a b depth _ _ ha.1 hb.1
      (Phrase.stops_writeMore (stops_closer hclose r))
      (Phrase.stops_writeMore (stops_closer hclose s)) h
    obtain ⟨rfl, hend⟩ :=
      Phrase.eq_of_writeMore_append_eq as bs depth close r s hclose ha.2 hb.2 hmore
    exact ⟨rfl, hend⟩
termination_by structural a => a

/-- The same for the key of a mapped property. -/
theorem Phrase.eq_of_writeRemap_append_eq : ∀ (a b : Option Phrase) (depth : Nat)
    (r s : List Char), Phrase.LegalRemap a → Phrase.LegalRemap b →
      Phrase.writeRemap depth a ++ ']' :: r = Phrase.writeRemap depth b ++ ']' :: s →
        a = b ∧ r = s
  | none, none, _, _, _, _, _, h => ⟨rfl, (List.cons.inj h).2⟩
  | none, some _, _, _, _, _, _, h => by cases h
  | some _, none, _, _, _, _, _, h => by cases h
  | some a, some b, depth, r, s, ha, hb, h => by
    simp only [Phrase.writeRemap, List.cons_append, List.append_assoc, List.cons.injEq, true_and,
      List.append_cancel_left_eq] at h
    obtain ⟨rfl, hclose⟩ := Phrase.eq_of_write_append_eq a b depth _ _ ha hb
      (.mark (by decide) _) (.mark (by decide) _) h
    exact ⟨rfl, (List.cons.inj hclose).2⟩
termination_by structural a => a

/-- The same for the properties of an object. -/
theorem Field.eq_of_writeAll_append_eq : ∀ (a b : List Field) (depth : Nat) (multiline : Bool)
    (r s : List Char), a ≠ [] → b ≠ [] → Field.LegalAll a → Field.LegalAll b →
      Field.writeAll (fieldDepth depth multiline) (fieldLead depth multiline) a ++
          (fieldClose depth multiline ++ r) =
        Field.writeAll (fieldDepth depth multiline) (fieldLead depth multiline) b ++
          (fieldClose depth multiline ++ s) → a = b ∧ r = s
  | [], _, _, _, _, _, hne, _, _, _, _ => absurd rfl hne
  | _ :: _, [], _, _, _, _, _, hne, _, _, _ => absurd rfl hne
  | a :: as, b :: bs, depth, multiline, r, s, _, _, ha, hb, h => by
    rw [Field.writeAll, Field.writeAll, List.append_assoc, List.append_assoc] at h
    obtain ⟨rfl, hmore⟩ := Field.eq_of_write_append_eq a b _ _ _ ha.1 hb.1
      (Field.stops_writeMore (stops_fieldClose depth multiline r))
      (Field.stops_writeMore (stops_fieldClose depth multiline s)) h
    obtain ⟨rfl, hend⟩ :=
      Field.eq_of_writeMore_append_eq as bs depth multiline r s ha.2 hb.2 hmore
    exact ⟨rfl, hend⟩
termination_by structural a => a

/-- The same for some properties that each follow a semicolon. -/
theorem Field.eq_of_writeMore_append_eq : ∀ (a b : List Field) (depth : Nat) (multiline : Bool)
    (r s : List Char), Field.LegalAll a → Field.LegalAll b →
      Field.writeMore (fieldDepth depth multiline) (fieldLead depth multiline) a ++
          (fieldClose depth multiline ++ r) =
        Field.writeMore (fieldDepth depth multiline) (fieldLead depth multiline) b ++
          (fieldClose depth multiline ++ s) → a = b ∧ r = s
  | [], [], _, _, _, _, _, _, h => ⟨rfl, List.append_cancel_left h⟩
  | [], _ :: _, _, _, _, _, _, _, h => by
    rw [Field.writeMore, Field.writeMore, List.nil_append, List.cons_append,
      List.append_assoc] at h
    exact absurd h fieldClose_append_ne
  | _ :: _, [], _, _, _, _, _, _, h => by
    rw [Field.writeMore, Field.writeMore, List.nil_append, List.cons_append,
      List.append_assoc] at h
    exact absurd h.symm fieldClose_append_ne
  | a :: as, b :: bs, depth, multiline, r, s, ha, hb, h => by
    simp only [Field.writeMore, List.cons_append, List.append_assoc, List.cons.injEq, true_and,
      List.append_cancel_left_eq] at h
    obtain ⟨rfl, hmore⟩ := Field.eq_of_write_append_eq a b _ _ _ ha.1 hb.1
      (Field.stops_writeMore (stops_fieldClose depth multiline r))
      (Field.stops_writeMore (stops_fieldClose depth multiline s)) h
    obtain ⟨rfl, hend⟩ :=
      Field.eq_of_writeMore_append_eq as bs depth multiline r s ha.2 hb.2 hmore
    exact ⟨rfl, hend⟩
termination_by structural a => a

/-- The same for a property. -/
theorem Field.eq_of_write_append_eq : ∀ (a b : Field) (depth : Nat) (r s : List Char),
    a.Legal → b.Legal → Stops r → Stops s → a.write depth ++ r = b.write depth ++ s →
      a = b ∧ r = s
  | .mk key value optional readonly, .mk key' value' optional' readonly', depth, r, s, ha, hb, hr,
      hs, h => by
    simp only [Field.write, List.append_assoc, List.cons_append] at h
    obtain ⟨rfl, hkey⟩ := readonly_append_inj ha.1 hb.1 h
    obtain ⟨rfl, hoptional⟩ :=
      identifier_append_inj ha.1 hb.1 (bare_questionIf _ _) (bare_questionIf _ _) hkey
    obtain ⟨rfl, hvalue⟩ := questionIf_append_inj hoptional
    obtain ⟨rfl, hend⟩ :=
      Phrase.eq_of_write_append_eq value value' depth r s ha.2 hb.2 hr hs hvalue
    exact ⟨rfl, hend⟩
termination_by structural a => a

end

end TypeScript

end GraphClient
