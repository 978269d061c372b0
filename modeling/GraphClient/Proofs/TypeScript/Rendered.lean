import GraphClient.Proofs.Text.Joined
import GraphClient.Proofs.TypeScript.Readable
import GraphClient.TypeScript.TypeExpr

/-!
# Types as phrases

The text of a type is that of a phrase. The tree of the type decides which of its parts stand in
parentheses; all others are put one behind the other, whatever they are.

* `TypeExpr.plain` : types whose texts are made from identifiers.
* `TypeExpr.phrase` : the phrase of a type.
* `TypeExpr.write_phrase` : the text of a type is that of its phrase.
-/

namespace GraphClient

namespace TypeScript

/-! ## Plain types -/

namespace TypeExpr

mutual

/-- Names, parameters and keys are identifiers, no apostrophe stands in the type of a string, no
property has a comment, and only tuples may be empty. -/
def plain : TypeExpr → Bool
  | .named text => isIdentifier text
  | .literal value => !value.toList.contains '\''
  | .generic name arguments => isIdentifier name && !arguments.isEmpty && plainAll arguments
  | .array element => element.plain
  | .union members => !members.isEmpty && plainAll members
  | .intersection members => !members.isEmpty && plainAll members
  | .object properties _ => !properties.isEmpty && plainProperties properties
  | .keys type => type.plain
  | .index type key => type.plain && key.plain
  | .tuple members => plainAll members
  | .conditional checked bound whenTrue whenFalse =>
    checked.plain && bound.plain && whenTrue.plain && whenFalse.plain
  | .mapped parameter source remap value _ =>
    isIdentifier parameter && source.plain && plainRemap remap && value.plain

/-- All of some types are plain. -/
def plainAll : List TypeExpr → Bool
  | [] => true
  | type :: rest => type.plain && plainAll rest

/-- The key of a mapped property is plain. -/
def plainRemap : Option TypeExpr → Bool
  | none => true
  | some key => key.plain

/-- All of some properties are plain. -/
def plainProperties : List Property → Bool
  | [] => true
  | property :: rest => plainProperty property && plainProperties rest

/-- A property is plain. -/
def plainProperty : Property → Bool
  | ⟨key, value, _, _, docs⟩ => isIdentifier key && value.plain && docs.isNone

end

end TypeExpr

/-! ## Phrases of types -/

/-- Whether a type stands in parentheses where it is joined with others. -/
def Join.wraps : Join → TypeExpr → Bool
  | .or => TypeExpr.wrapsInUnion
  | .and => TypeExpr.wrapsInIntersection

/-- A phrase in parentheses if a condition holds. -/
def Phrase.wrapIf (condition : Bool) (phrase : Phrase) : Phrase :=
  if condition then .headed (.parens phrase) .stop else phrase

/-- Some phrases with an operator between them. -/
def Phrase.joinAll (join : Join) : List Phrase → Phrase
  | [] => default
  | [phrase] => phrase
  | phrase :: next :: rest => phrase.extend (.joined join (joinAll join (next :: rest)))

namespace TypeExpr

mutual

/-- The phrase of a type. -/
def phrase : TypeExpr → Phrase
  | .named text => .headed (.name text) .stop
  | .literal value => .headed (.literal value) .stop
  | .generic name arguments => .headed (.generic name (phrases arguments)) .stop
  | .array element => (element.phrase.wrapIf element.wrapsInArray).extend (.list .stop)
  | .union members => .joinAll .or (memberPhrases .or members)
  | .intersection members => .joinAll .and (memberPhrases .and members)
  | .object properties multiline => .headed (.object (fields properties) multiline) .stop
  | .keys type => .keys type.phrase
  | .index type key => (type.phrase.wrapIf type.wrapsInIndex).extend (.lookup key.phrase .stop)
  | .tuple members => .headed (.tuple (phrases members)) .stop
  | .conditional checked bound whenTrue whenFalse =>
    checked.phrase.extend
      (.condition (bound.phrase.wrapIf bound.wrapsInUnion) whenTrue.phrase whenFalse.phrase)
  | .mapped parameter source remap value optional =>
    .headed (.mapped parameter source.phrase (remapPhrase remap) value.phrase optional) .stop

/-- The phrases of some types. -/
def phrases : List TypeExpr → List Phrase
  | [] => []
  | type :: rest => type.phrase :: phrases rest

/-- The phrases of some types that are joined. -/
def memberPhrases (join : Join) : List TypeExpr → List Phrase
  | [] => []
  | type :: rest => type.phrase.wrapIf (join.wraps type) :: memberPhrases join rest

/-- The phrase of the key of a mapped property. -/
def remapPhrase : Option TypeExpr → Option Phrase
  | none => none
  | some key => some key.phrase

/-- The texts of some properties. -/
def fields : List Property → List Field
  | [] => []
  | property :: rest => field property :: fields rest

/-- The text of a property. -/
def field : Property → Field
  | ⟨key, value, optional, readonly, _⟩ => .mk key value.phrase optional readonly

end

end TypeExpr

/-! ## Characters of joined texts -/

/-- Parentheses are written around a phrase. -/
theorem Phrase.write_wrapIf (depth : Nat) (condition : Bool) (phrase : Phrase) :
    (phrase.wrapIf condition).write depth =
      if condition then '(' :: (phrase.write depth ++ [')']) else phrase.write depth := by
  cases condition with
  | true => exact List.append_nil _
  | false => rfl

/-- Joined phrases are written with the operator between them. -/
theorem Phrase.write_joinAll (depth : Nat) (join : Join) (phrases : List Phrase) :
    (joinAll join phrases).write depth =
      List.intercalate [' ', join.symbol, ' '] (phrases.map (·.write depth)) := by
  induction phrases with
  | nil => rfl
  | cons phrase rest ih =>
    cases rest with
    | nil => exact List.intercalate_singleton.symm
    | cons next rest =>
      rw [joinAll, write_extend, Rest.write, ih]
      simp only [List.map_cons]
      rw [List.intercalate_cons_cons, List.append_assoc]
      rfl

/-- Phrases in a list are written with commas between them. -/
theorem Phrase.writeAll_eq (depth : Nat) (phrases : List Phrase) :
    writeAll depth phrases = List.intercalate [',', ' '] (phrases.map (·.write depth)) := by
  have hmore : ∀ phrases, writeMore depth phrases =
      (phrases.map (·.write depth)).flatMap ([',', ' '] ++ ·) := by
    intro phrases
    induction phrases with
    | nil => rfl
    | cons phrase rest ih =>
      rw [writeMore, ih]
      rfl
  cases phrases with
  | nil => rfl
  | cons phrase rest => rw [writeAll, hmore, List.map_cons, intercalate_cons_eq]

/-- Fields are written with semicolons between them, each after the same white space. -/
theorem Field.writeAll_eq (depth : Nat) (lead : List Char) (fields : List Field) :
    writeAll depth lead fields = List.intercalate (';' :: lead) (fields.map (·.write depth)) := by
  have hmore : ∀ fields, writeMore depth lead fields =
      (fields.map (·.write depth)).flatMap (';' :: lead ++ ·) := by
    intro fields
    induction fields with
    | nil => rfl
    | cons field rest ih =>
      rw [writeMore, ih, List.map_cons, List.flatMap_cons, List.append_assoc]
      rfl
  cases fields with
  | nil => rfl
  | cons field rest => rw [writeAll, hmore, List.map_cons, intercalate_cons_eq]

/-! ## Indented texts -/

/-- Texts one behind the other are indented one by one. -/
theorem indented_append (depth : Nat) (a b : List Char) :
    indented depth (a ++ b) = indented depth a ++ indented depth b := List.flatMap_append

/-- There is nothing to indent in the empty text. -/
theorem indented_nil (depth : Nat) : indented depth [] = [] := rfl

/-- A character that ends no line stays as it is. -/
theorem indented_cons {c : Char} (h : c ≠ '\n') (depth : Nat) (text : List Char) :
    indented depth (c :: text) = c :: indented depth text := by
  unfold indented
  rw [List.flatMap_cons, if_neg h]
  rfl

/-- A text on one line stays as it is. -/
theorem indented_of_not_mem {text : List Char} (h : '\n' ∉ text) (depth : Nat) :
    indented depth text = text := by
  induction text with
  | nil => rfl
  | cons c text ih =>
    rw [List.mem_cons, not_or] at h
    rw [indented_cons (Ne.symm h.1), ih h.2]

/-- An identifier is on one line. -/
theorem indented_identifier {name : String} (h : isIdentifier name = true) (depth : Nat) :
    indented depth name.toList = name.toList := by
  refine indented_of_not_mem (fun hmem => ?_) depth
  have hinside := (isWord_of_isIdentifier h).2 _ hmem
  revert hinside
  decide

/-- Texts with a separator on one line are indented one by one. -/
theorem indented_intercalate {separator : List Char} (h : '\n' ∉ separator) (depth : Nat)
    (texts : List (List Char)) :
    indented depth (separator.intercalate texts) =
      separator.intercalate (texts.map (indented depth)) := by
  have hflat := flatMap_intercalate (fun c => if c = '\n' then '\n' :: blanks depth else [c])
    separator texts
  have hseparator := indented_of_not_mem h depth
  unfold indented at hseparator ⊢
  rw [hflat, hseparator]

/-- A line feed inside a block is followed by the indentation of the block. -/
theorem indented_indentLines (depth : Nat) (text : String) :
    indented depth (Text.indentLines "  " text).toList = indented (depth + 1) text.toList := by
  rw [Text.indentLines, Text.toList_substitute]
  unfold indented
  rw [List.flatMap_assoc]
  refine List.flatMap_congr fun c _ => ?_
  by_cases hc : c = '\n'
  · have hfeed : '\n' ∉ [' ', ' '] := by decide
    have hblanks := indented_of_not_mem hfeed depth
    unfold indented at hblanks
    have hindent : "  ".toList = [' ', ' '] := rfl
    rw [if_pos hc, if_pos hc, hindent, List.flatMap_cons, if_pos rfl, hblanks, blanks_succ]
    rfl
  · rw [if_neg hc, if_neg hc, List.flatMap_cons, if_neg hc]
    rfl

/-- The lines of some properties inside a block, up to the line that closes the block. -/
theorem indented_propertyLines (depth : Nat) (text : String) (texts : List String) :
    blanks depth ++ indented depth (TypeExpr.propertyLines (text :: texts)).toList =
      blanks (depth + 1) ++ (List.intercalate (';' :: '\n' :: blanks (depth + 1))
        ((text :: texts).map fun text => indented (depth + 1) text.toList) ++
          ';' :: '\n' :: blanks depth) := by
  have hline : ∀ text rest, indented depth ("  " ++ Text.indentLines "  " text ++ ";\n" ++
      rest : String).toList = [' ', ' '] ++ (indented (depth + 1) text.toList ++
        (';' :: '\n' :: blanks depth ++ indented depth rest.toList)) := by
    intro text rest
    have hindent : "  ".toList = [' ', ' '] := rfl
    have hend : ";\n".toList = [';', '\n'] := rfl
    have hmark : indented depth [';', '\n'] = ';' :: '\n' :: blanks depth := by
      rw [indented]
      simp
    rw [String.toList_append, String.toList_append, String.toList_append, indented_append,
      indented_append, indented_append, indented_indentLines, hindent, hend, hmark,
      indented_of_not_mem (by decide)]
    simp only [List.append_assoc]
  have hcons : ∀ text texts, TypeExpr.propertyLines (text :: texts) =
      "  " ++ Text.indentLines "  " text ++ ";\n" ++ TypeExpr.propertyLines texts := by
    intro text texts
    rw [TypeExpr.propertyLines, List.map_cons, String.join_cons]
    rfl
  -- Each line ends in a line feed, and the blanks behind it indent the next one.
  induction texts generalizing text with
  | nil =>
    have hnil : TypeExpr.propertyLines [] = "" := rfl
    rw [hcons, hline, hnil, List.map_cons, List.map_nil, List.intercalate_singleton, blanks_succ]
    simp [indented]
  | cons next texts ih =>
    rw [hcons, hline]
    simp only [List.cons_append, List.nil_append]
    rw [ih next]
    simp only [List.map_cons, List.intercalate_cons_cons, blanks_succ, List.append_assoc,
      List.cons_append, List.nil_append]

/-! ## The text of a type -/

namespace TypeExpr

/-- Joined texts are indented one by one. -/
theorem indented_toList_intercalate {separator : String} (h : '\n' ∉ separator.toList)
    (depth : Nat) (texts : List String) :
    indented depth (String.intercalate separator texts).toList =
      separator.toList.intercalate (texts.map fun text => indented depth text.toList) := by
  rw [String.toList_intercalate, indented_intercalate h, List.map_map]
  rfl

/-- Parentheses of a text are parentheses of its phrase. -/
theorem write_wrapIf_eq {depth : Nat} {type : TypeExpr}
    (h : type.phrase.write depth = indented depth type.text.toList) (condition : Bool) :
    (type.phrase.wrapIf condition).write depth =
      indented depth (wrapIf condition type.text).toList := by
  rw [Phrase.write_wrapIf, h]
  cases condition with
  | false => rfl
  | true => simp [wrapIf, indented_append, indented_cons, indented_nil]

/-- A text without an apostrophe is written between apostrophes as it is. -/
theorem toList_apostrophized {value : String} (h : '\'' ∉ value.toList) :
    (apostrophized value).toList = '\'' :: (value.toList ++ ['\'']) := by
  have hsame : (Text.substitute (fun c => if c = '\'' then ['\\', '\''] else [c]) value).toList =
      value.toList := by
    rw [Text.toList_substitute]
    generalize value.toList = text at h ⊢
    induction text with
    | nil => rfl
    | cons c rest ih =>
      rw [List.mem_cons, not_or] at h
      rw [List.flatMap_cons, if_neg (Ne.symm h.1), ih h.2]
      rfl
  rw [apostrophized, String.toList_append, String.toList_append, hsame]
  simp

/-- The text of a plain literal can be quoted. -/
theorem isQuotable_of_plain {value : String} (h : (TypeExpr.literal value).plain = true) :
    IsQuotable value := by
  intro hmem
  rw [plain, Bool.not_eq_true', List.contains_eq_mem, decide_eq_false_iff_not] at h
  exact h hmem

mutual

/-- The text of a plain type is that of its phrase, inside any number of blocks. -/
theorem write_phrase : ∀ (type : TypeExpr) (depth : Nat), type.plain = true →
    type.phrase.write depth = indented depth type.text.toList
  | .named text, depth, h => by
    rw [TypeExpr.text, indented_identifier h, phrase, Phrase.write, Head.write, Rest.write,
      List.append_nil]
  | .literal value, depth, h => by
    rw [TypeExpr.text, toList_apostrophized (isQuotable_of_plain h), phrase, Phrase.write,
      Head.write, Rest.write]
    simp [indented_append, indented_cons, indented_nil]
  | .generic name arguments, depth, h => by
    simp only [plain, Bool.and_eq_true] at h
    have hname := indented_identifier h.1.1 depth
    rw [phrase, Phrase.write, Head.write, Rest.write, Phrase.writeAll_eq,
      write_phrases arguments depth h.2, TypeExpr.text]
    simp [indented_append, indented_cons, indented_nil, hname, indented_intercalate,
      Function.comp_def]
  | .array element, depth, h => by
    have helement := write_wrapIf_eq (write_phrase element depth h) element.wrapsInArray
    rw [phrase, Phrase.write_extend, helement, TypeExpr.text]
    simp [Rest.write, indented_append, indented_cons, indented_nil]
  | .union members, depth, h => by
    simp only [plain, Bool.and_eq_true] at h
    rw [phrase, Phrase.write_joinAll, write_memberPhrases .or members depth h.2, TypeExpr.text,
      unionTexts_eq_map, indented_toList_intercalate (by decide)]
    rfl
  | .intersection members, depth, h => by
    simp only [plain, Bool.and_eq_true] at h
    rw [phrase, Phrase.write_joinAll, write_memberPhrases .and members depth h.2, TypeExpr.text,
      intersectionTexts_eq_map, indented_toList_intercalate (by decide)]
    rfl
  | .object [] multiline, depth, h => by cases h
  | .object (property :: rest) false, depth, h => by
    rw [phrase, Phrase.write, Head.write, Rest.write, Field.writeAll_eq, fieldDepth,
      if_neg Bool.false_ne_true, write_fields (property :: rest) depth h, TypeExpr.text]
    simp [fieldLead, fieldClose, indented_append, indented_cons, indented_nil,
      indented_intercalate, Function.comp_def]
  | .object (property :: rest) true, depth, h => by
    have hlines := indented_propertyLines depth (propertyText property) (propertyTexts rest)
    rw [phrase, Phrase.write, Head.write, Rest.write, Field.writeAll_eq, fieldDepth,
      if_pos rfl, write_fields (property :: rest) (depth + 1) h, TypeExpr.text, if_pos rfl,
      propertyTexts]
    have hopen : indented depth ['\x7b', '\n'] = '\x7b' :: '\n' :: blanks depth := by
      simp [indented]
    have htext : ("\x7b\n" ++ propertyLines (propertyText property :: propertyTexts rest) ++
        "\x7d").toList = ['\x7b', '\n'] ++
          ((propertyLines (propertyText property :: propertyTexts rest)).toList ++ ['\x7d']) := by
      simp
    rw [htext, indented_append, indented_append, hopen, List.cons_append, List.cons_append,
      List.cons_append, ← List.append_assoc (blanks depth), hlines]
    simp [fieldLead, fieldClose, indented_cons, indented_nil]
  | .keys type, depth, h => by
    rw [phrase, Phrase.write, write_phrase type depth h, TypeExpr.text]
    simp [keyofWord, indented_cons]
  | .index type key, depth, h => by
    simp only [plain, Bool.and_eq_true] at h
    have htype := write_wrapIf_eq (write_phrase type depth h.1) type.wrapsInIndex
    rw [phrase, Phrase.write_extend, htype, Rest.write, write_phrase key depth h.2, TypeExpr.text]
    simp [Rest.write, indented_append, indented_cons, indented_nil]
  | .tuple members, depth, h => by
    rw [phrase, Phrase.write, Head.write, Rest.write, Phrase.writeAll_eq,
      write_phrases members depth h, TypeExpr.text]
    simp [indented_append, indented_cons, indented_nil, indented_intercalate,
      Function.comp_def]
  | .conditional checked bound whenTrue whenFalse, depth, h => by
    simp only [plain, Bool.and_eq_true] at h
    have hbound := write_wrapIf_eq (write_phrase bound depth h.1.1.2) bound.wrapsInUnion
    rw [phrase, Phrase.write_extend, write_phrase checked depth h.1.1.1, Rest.write, hbound,
      write_phrase whenTrue depth h.1.2, write_phrase whenFalse depth h.2, TypeExpr.text]
    simp [extendsWord, indented_append, indented_cons]
  | .mapped parameter source remap value optional, depth, h => by
    simp only [plain, Bool.and_eq_true] at h
    have hparameter := indented_identifier h.1.1.1 depth
    rw [phrase, Phrase.write, Head.write, Rest.write, write_phrase source depth h.1.1.2,
      write_remapPhrase remap depth h.1.2, write_phrase value depth h.2, TypeExpr.text]
    cases optional <;> simp [questionIf, indented_append, indented_cons, indented_nil, hparameter]

/-- The phrases of plain types are written as the types are. -/
theorem write_phrases : ∀ (types : List TypeExpr) (depth : Nat), plainAll types = true →
    (phrases types).map (·.write depth) =
      (texts types).map fun text => indented depth text.toList
  | [], _, _ => rfl
  | type :: rest, depth, h => by
    simp only [plainAll, Bool.and_eq_true] at h
    rw [phrases, texts, List.map_cons, List.map_cons, write_phrase type depth h.1,
      write_phrases rest depth h.2]

/-- The phrases of plain members are written as the members are, with the same parentheses. -/
theorem write_memberPhrases (join : Join) : ∀ (types : List TypeExpr) (depth : Nat),
    plainAll types = true → (memberPhrases join types).map (·.write depth) =
      (types.map fun type => wrapIf (join.wraps type) type.text).map
        fun text => indented depth text.toList
  | [], _, _ => rfl
  | type :: rest, depth, h => by
    simp only [plainAll, Bool.and_eq_true] at h
    rw [memberPhrases, List.map_cons, List.map_cons, List.map_cons,
      write_wrapIf_eq (write_phrase type depth h.1), write_memberPhrases join rest depth h.2]

/-- The phrase of the key of a mapped property is written as the key is. -/
theorem write_remapPhrase : ∀ (remap : Option TypeExpr) (depth : Nat), plainRemap remap = true →
    Phrase.writeRemap depth (remapPhrase remap) = indented depth (remapText remap).toList
  | none, _, _ => rfl
  | some key, depth, h => by
    rw [remapPhrase, Phrase.writeRemap, write_phrase key depth h, remapText]
    simp [asWord, indented_cons]

/-- The fields of plain properties are written as the properties are. -/
theorem write_fields : ∀ (properties : List Property) (depth : Nat),
    plainProperties properties = true → (fields properties).map (·.write depth) =
      (propertyTexts properties).map fun text => indented depth text.toList
  | [], _, _ => rfl
  | property :: rest, depth, h => by
    simp only [plainProperties, Bool.and_eq_true] at h
    rw [fields, propertyTexts, List.map_cons, List.map_cons, write_field property depth h.1,
      write_fields rest depth h.2]

/-- The field of a plain property is written as the property is. -/
theorem write_field : ∀ (property : Property) (depth : Nat), plainProperty property = true →
    (field property).write depth = indented depth (propertyText property).toList
  | ⟨key, value, optional, readonly, docs⟩, depth, h => by
    simp only [plainProperty, Bool.and_eq_true, Option.isNone_iff_eq_none] at h
    obtain ⟨⟨hkey, hvalue⟩, rfl⟩ := h
    have hkeyText : keyText key = key := if_pos hkey
    rw [field, Field.write, write_phrase value depth hvalue, propertyText, hkeyText]
    cases readonly <;> cases optional <;>
      simp [docComment?, readonlyWord, questionIf, indented_append, indented_cons,
        indented_identifier hkey]

end

/-! ## Phrases of plain types are legal -/

end TypeExpr

/-- Parentheses may stand around any legal phrase. -/
theorem Phrase.legal_wrapIf {phrase : Phrase} (h : phrase.Legal) (condition : Bool) :
    (phrase.wrapIf condition).Legal := by
  cases condition with
  | true => exact ⟨h, trivial⟩
  | false => exact h

/-- Legal phrases make a legal phrase when they are joined. -/
theorem Phrase.legal_joinAll (join : Join) {phrases : List Phrase} (nonempty : phrases ≠ [])
    (h : LegalAll phrases) : (joinAll join phrases).Legal := by
  induction phrases with
  | nil => exact absurd rfl nonempty
  | cons phrase rest ih =>
    cases rest with
    | nil => exact h.1
    | cons next rest =>
      have hrest := ih (List.cons_ne_nil _ _) h.2
      exact legal_extend (.joined join _) hrest phrase h.1

namespace TypeExpr

/-- A list that is tested not to be empty has elements. -/
theorem ne_nil_of_plain {α : Type} {things : List α} (h : (!things.isEmpty) = true) :
    things ≠ [] := by
  rintro rfl
  cases h

/-- There is a phrase for every type. -/
theorem phrases_ne_nil {types : List TypeExpr} (h : (!types.isEmpty) = true) :
    phrases types ≠ [] := by
  obtain ⟨type, rest, rfl⟩ := List.exists_cons_of_ne_nil (ne_nil_of_plain h)
  exact List.cons_ne_nil _ _

/-- There is a phrase for every member. -/
theorem memberPhrases_ne_nil (join : Join) {types : List TypeExpr} (h : (!types.isEmpty) = true) :
    memberPhrases join types ≠ [] := by
  obtain ⟨type, rest, rfl⟩ := List.exists_cons_of_ne_nil (ne_nil_of_plain h)
  exact List.cons_ne_nil _ _

/-- There is a field for every property. -/
theorem fields_ne_nil {properties : List Property} (h : (!properties.isEmpty) = true) :
    fields properties ≠ [] := by
  obtain ⟨property, rest, rfl⟩ := List.exists_cons_of_ne_nil (ne_nil_of_plain h)
  exact List.cons_ne_nil _ _

mutual

/-- The phrase of a plain type is legal, by recursion over the type. -/
theorem legal_phrase : ∀ type : TypeExpr, type.plain = true → type.phrase.Legal
  | .named _, h => ⟨h, trivial⟩
  | .literal _, h => ⟨isQuotable_of_plain h, trivial⟩
  | .generic _ arguments, h => by
    simp only [plain, Bool.and_eq_true] at h
    exact ⟨⟨h.1.1, phrases_ne_nil h.1.2, legal_phrases arguments h.2⟩, trivial⟩
  | .array element, h =>
    Phrase.legal_extend (.list .stop) trivial _
      (Phrase.legal_wrapIf (legal_phrase element h) element.wrapsInArray)
  | .union members, h => by
    simp only [plain, Bool.and_eq_true] at h
    exact Phrase.legal_joinAll .or (memberPhrases_ne_nil .or h.1)
      (legal_memberPhrases .or members h.2)
  | .intersection members, h => by
    simp only [plain, Bool.and_eq_true] at h
    exact Phrase.legal_joinAll .and (memberPhrases_ne_nil .and h.1)
      (legal_memberPhrases .and members h.2)
  | .object properties _, h => by
    simp only [plain, Bool.and_eq_true] at h
    exact ⟨⟨fields_ne_nil h.1, legal_fields properties h.2⟩, trivial⟩
  | .keys type, h => legal_phrase type h
  | .index type key, h => by
    simp only [plain, Bool.and_eq_true] at h
    exact Phrase.legal_extend (.lookup key.phrase .stop) ⟨legal_phrase key h.2, trivial⟩ _
      (Phrase.legal_wrapIf (legal_phrase type h.1) type.wrapsInIndex)
  | .tuple members, h => ⟨legal_phrases members h, trivial⟩
  | .conditional checked bound whenTrue whenFalse, h => by
    simp only [plain, Bool.and_eq_true] at h
    have hbound := Phrase.legal_wrapIf (legal_phrase bound h.1.1.2) bound.wrapsInUnion
    exact Phrase.legal_extend (.condition _ _ _)
      ⟨hbound, legal_phrase whenTrue h.1.2, legal_phrase whenFalse h.2⟩ _
      (legal_phrase checked h.1.1.1)
  | .mapped _ source remap value _, h => by
    simp only [plain, Bool.and_eq_true] at h
    exact ⟨⟨h.1.1.1, legal_phrase source h.1.1.2, legal_remapPhrase remap h.1.2,
      legal_phrase value h.2⟩, trivial⟩

/-- The phrases of plain types are legal. -/
theorem legal_phrases : ∀ types : List TypeExpr, plainAll types = true →
    Phrase.LegalAll (phrases types)
  | [], _ => trivial
  | type :: rest, h => by
    simp only [plainAll, Bool.and_eq_true] at h
    exact ⟨legal_phrase type h.1, legal_phrases rest h.2⟩

/-- The phrases of plain members are legal. -/
theorem legal_memberPhrases (join : Join) : ∀ types : List TypeExpr, plainAll types = true →
    Phrase.LegalAll (memberPhrases join types)
  | [], _ => trivial
  | type :: rest, h => by
    simp only [plainAll, Bool.and_eq_true] at h
    exact ⟨Phrase.legal_wrapIf (legal_phrase type h.1) (join.wraps type),
      legal_memberPhrases join rest h.2⟩

/-- The phrase of the key of a mapped property is legal. -/
theorem legal_remapPhrase : ∀ remap : Option TypeExpr, plainRemap remap = true →
    Phrase.LegalRemap (remapPhrase remap)
  | none, _ => trivial
  | some key, h => legal_phrase key h

/-- The fields of plain properties are legal. -/
theorem legal_fields : ∀ properties : List Property, plainProperties properties = true →
    Field.LegalAll (fields properties)
  | [], _ => trivial
  | property :: rest, h => by
    simp only [plainProperties, Bool.and_eq_true] at h
    exact ⟨legal_field property h.1, legal_fields rest h.2⟩

/-- The field of a plain property is legal. -/
theorem legal_field : ∀ property : Property, plainProperty property = true →
    (field property).Legal
  | ⟨_, value, _, _, _⟩, h => by
    simp only [plainProperty, Bool.and_eq_true] at h
    exact ⟨h.1.1, legal_phrase value h.1.2⟩

end

/-- Plain types with the same text are the same phrase. -/
theorem phrase_eq_of_text_eq {a b : TypeExpr} (ha : a.plain = true) (hb : b.plain = true)
    (h : a.text = b.text) : a.phrase = b.phrase := by
  have hwrite : a.phrase.write 0 ++ [] = b.phrase.write 0 ++ [] := by
    rw [write_phrase a 0 ha, write_phrase b 0 hb, h]
  exact (Phrase.eq_of_write_append_eq a.phrase b.phrase 0 [] [] (legal_phrase a ha)
    (legal_phrase b hb) .nil .nil hwrite).1

end TypeExpr

end TypeScript

end GraphClient
