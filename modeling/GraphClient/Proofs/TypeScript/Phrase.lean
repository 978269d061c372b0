import GraphClient.Proofs.TypeScript.Comments

/-!
# Phrases

The text of a type as a tree, with all that is written: the parentheses are kept, and no operator
binds more tightly than another one. A phrase begins with a head, which is a name or stands between
brackets. What follows the head goes on to the end of the phrase: the brackets of arrays, an
operator with another phrase, or a condition. `keyof` stands in front of a whole phrase.

* `Phrase`, `Rest`, `Head`, `Field` : the texts of types.
* `Phrase.write` : the characters of a phrase inside some blocks.
* `Phrase.extend` : a phrase with more behind it.
-/

namespace GraphClient

namespace TypeScript

/-- The operators that join types. -/
inductive Join where
  | or
  | and
deriving DecidableEq

/-- The character of an operator. -/
def Join.symbol : Join → Char
  | .or => '|'
  | .and => '&'

mutual

/-- The text of a type. -/
inductive Phrase where
  /-- The word `keyof` in front. -/
  | keys (phrase : Phrase)
  /-- A head with what follows it. -/
  | headed (head : Head) (rest : Rest)

/-- What follows the head of a phrase. -/
inductive Rest where
  | stop
  /-- The brackets of an array. -/
  | list (rest : Rest)
  /-- A key between brackets. -/
  | lookup (key : Phrase) (rest : Rest)
  | joined (join : Join) (phrase : Phrase)
  | condition (bound whenTrue whenFalse : Phrase)

/-- What a phrase begins with. -/
inductive Head where
  | parens (phrase : Phrase)
  | name (name : String)
  | generic (name : String) (arguments : List Phrase)
  | literal (value : String)
  | tuple (members : List Phrase)
  | object (fields : List Field) (multiline : Bool)
  | mapped (parameter : String) (source : Phrase) (remap : Option Phrase) (value : Phrase)
      (optional : Bool)

/-- The text of a property. -/
inductive Field where
  | mk (key : String) (value : Phrase) (optional readonly : Bool)

end

instance : Inhabited Phrase := ⟨.headed (.name "") .stop⟩

/-! ## Characters -/

/-- The word in front of a type whose keys are meant. -/
def keyofWord : List Char := ['k', 'e', 'y', 'o', 'f']

/-- The word in front of a bound. -/
def extendsWord : List Char := ['e', 'x', 't', 'e', 'n', 'd', 's']

/-- The word in front of the key of a mapped property. -/
def asWord : List Char := ['a', 's']

/-- The word in front of a property that cannot be changed. -/
def readonlyWord : List Char := ['r', 'e', 'a', 'd', 'o', 'n', 'l', 'y']

/-- The indentation inside some blocks. -/
def blanks (depth : Nat) : List Char := List.replicate (2 * depth) ' '

/-- A text inside some blocks. -/
def indented (depth : Nat) (text : List Char) : List Char :=
  text.flatMap fun c => if c = '\n' then '\n' :: blanks depth else [c]

/-- What stands in front of each property of an object, after the brace or a semicolon. -/
def fieldLead (depth : Nat) (multiline : Bool) : List Char :=
  if multiline then '\n' :: blanks (depth + 1) else [' ']

/-- What closes an object. -/
def fieldClose (depth : Nat) (multiline : Bool) : List Char :=
  if multiline then ';' :: '\n' :: (blanks depth ++ ['\x7d']) else [' ', '\x7d']

/-- The number of blocks around the properties of an object. -/
def fieldDepth (depth : Nat) (multiline : Bool) : Nat := if multiline then depth + 1 else depth

/-- A question mark if a condition holds. -/
def questionIf (condition : Bool) : List Char := if condition then ['?'] else []

theorem blanks_succ (depth : Nat) : blanks (depth + 1) = blanks depth ++ [' ', ' '] := by
  rw [blanks, Nat.mul_succ, ← List.replicate_append_replicate]
  rfl

mutual

/-- The characters of a phrase inside some blocks. -/
def Phrase.write (depth : Nat) : Phrase → List Char
  | .keys phrase => keyofWord ++ ' ' :: phrase.write depth
  | .headed head rest => head.write depth ++ rest.write depth

/-- The characters of what follows a head. -/
def Rest.write (depth : Nat) : Rest → List Char
  | .stop => []
  | .list rest => '[' :: ']' :: rest.write depth
  | .lookup key rest => '[' :: (key.write depth ++ ']' :: rest.write depth)
  | .joined join phrase => ' ' :: join.symbol :: ' ' :: phrase.write depth
  | .condition bound whenTrue whenFalse =>
    ' ' :: (extendsWord ++ ' ' :: (bound.write depth ++ ' ' :: '?' :: ' ' ::
      (whenTrue.write depth ++ ' ' :: ':' :: ' ' :: whenFalse.write depth)))

/-- The characters of a head. -/
def Head.write (depth : Nat) : Head → List Char
  | .parens phrase => '(' :: (phrase.write depth ++ [')'])
  | .name name => name.toList
  | .generic name arguments =>
    name.toList ++ '<' :: (Phrase.writeAll depth arguments ++ ['>'])
  | .literal value => '\'' :: (indented depth value.toList ++ ['\''])
  | .tuple members => '[' :: (Phrase.writeAll depth members ++ [']'])
  | .object fields multiline =>
    '\x7b' :: (fieldLead depth multiline ++
      (Field.writeAll (fieldDepth depth multiline) (fieldLead depth multiline) fields ++
        fieldClose depth multiline))
  | .mapped parameter source remap value optional =>
    '\x7b' :: ' ' :: '[' :: (parameter.toList ++ ' ' :: 'i' :: 'n' :: ' ' ::
      (source.write depth ++ (Phrase.writeRemap depth remap ++ ']' :: (questionIf optional ++
        ':' :: ' ' :: (value.write depth ++ [' ', '\x7d'])))))

/-- The characters of some phrases, with commas between them. -/
def Phrase.writeAll (depth : Nat) : List Phrase → List Char
  | [] => []
  | phrase :: rest => phrase.write depth ++ Phrase.writeMore depth rest

/-- The characters of some phrases, each one after a comma. -/
def Phrase.writeMore (depth : Nat) : List Phrase → List Char
  | [] => []
  | phrase :: rest => ',' :: ' ' :: (phrase.write depth ++ Phrase.writeMore depth rest)

/-- The characters of the key of a mapped property. -/
def Phrase.writeRemap (depth : Nat) : Option Phrase → List Char
  | none => []
  | some key => ' ' :: (asWord ++ ' ' :: key.write depth)

/-- The characters of some properties. -/
def Field.writeAll (depth : Nat) (lead : List Char) : List Field → List Char
  | [] => []
  | field :: rest => field.write depth ++ Field.writeMore depth lead rest

/-- The characters of some properties, each one after a semicolon. -/
def Field.writeMore (depth : Nat) (lead : List Char) : List Field → List Char
  | [] => []
  | field :: rest => ';' :: (lead ++ (field.write depth ++ Field.writeMore depth lead rest))

/-- The characters of a property. -/
def Field.write (depth : Nat) : Field → List Char
  | .mk key value optional readonly =>
    (if readonly then readonlyWord ++ [' '] else []) ++
      (key.toList ++ (questionIf optional ++ ':' :: ' ' :: value.write depth))

end

/-! ## Legal phrases -/

/-- A text between apostrophes has none inside. -/
def IsQuotable (text : String) : Prop := '\'' ∉ text.toList

mutual

/-- The names in a phrase are identifiers, and nothing is left empty that has to be filled. -/
def Phrase.Legal : Phrase → Prop
  | .keys phrase => phrase.Legal
  | .headed head rest => head.Legal ∧ rest.Legal

/-- What follows a head is legal. -/
def Rest.Legal : Rest → Prop
  | .stop => True
  | .list rest => rest.Legal
  | .lookup key rest => key.Legal ∧ rest.Legal
  | .joined _ phrase => phrase.Legal
  | .condition bound whenTrue whenFalse => bound.Legal ∧ whenTrue.Legal ∧ whenFalse.Legal

/-- A head is legal. -/
def Head.Legal : Head → Prop
  | .parens phrase => phrase.Legal
  | .name name => isIdentifier name = true
  | .generic name arguments =>
    isIdentifier name = true ∧ arguments ≠ [] ∧ Phrase.LegalAll arguments
  | .literal value => IsQuotable value
  | .tuple members => Phrase.LegalAll members
  | .object fields _ => fields ≠ [] ∧ Field.LegalAll fields
  | .mapped parameter source remap value _ =>
    isIdentifier parameter = true ∧ source.Legal ∧ Phrase.LegalRemap remap ∧ value.Legal

/-- All of some phrases are legal. -/
def Phrase.LegalAll : List Phrase → Prop
  | [] => True
  | phrase :: rest => phrase.Legal ∧ Phrase.LegalAll rest

/-- The key of a mapped property is legal. -/
def Phrase.LegalRemap : Option Phrase → Prop
  | none => True
  | some key => key.Legal

/-- All of some properties are legal. -/
def Field.LegalAll : List Field → Prop
  | [] => True
  | field :: rest => field.Legal ∧ Field.LegalAll rest

/-- A property is legal. -/
def Field.Legal : Field → Prop
  | .mk key value _ _ => isIdentifier key = true ∧ value.Legal

end

/-! ## More behind a phrase -/

mutual

/-- A phrase with more behind it. -/
def Phrase.extend : Phrase → Rest → Phrase
  | .keys phrase, more => .keys (phrase.extend more)
  | .headed head rest, more => .headed head (rest.extend more)

/-- What follows a head, with more behind it. -/
def Rest.extend : Rest → Rest → Rest
  | .stop, more => more
  | .list rest, more => .list (rest.extend more)
  | .lookup key rest, more => .lookup key (rest.extend more)
  | .joined join phrase, more => .joined join (phrase.extend more)
  | .condition bound whenTrue whenFalse, more =>
    .condition bound whenTrue (whenFalse.extend more)

end

mutual

/-- More that follows a phrase is written behind it. -/
theorem Phrase.write_extend (depth : Nat) (more : Rest) : ∀ phrase : Phrase,
    (phrase.extend more).write depth = phrase.write depth ++ more.write depth
  | .keys phrase => by
    rw [Phrase.extend, Phrase.write, Phrase.write, Phrase.write_extend depth more phrase,
      List.append_assoc]
    rfl
  | .headed head rest => by
    rw [Phrase.extend, Phrase.write, Phrase.write, Rest.write_extend depth more rest,
      List.append_assoc]

/-- More that follows what follows is written behind it. -/
theorem Rest.write_extend (depth : Nat) (more : Rest) : ∀ rest : Rest,
    (rest.extend more).write depth = rest.write depth ++ more.write depth
  | .stop => rfl
  | .list rest => by
    rw [Rest.extend, Rest.write, Rest.write, Rest.write_extend depth more rest]
    rfl
  | .lookup key rest => by
    rw [Rest.extend, Rest.write, Rest.write, Rest.write_extend depth more rest]
    simp only [List.cons_append, List.append_assoc]
  | .joined join phrase => by
    rw [Rest.extend, Rest.write, Rest.write, Phrase.write_extend depth more phrase]
    rfl
  | .condition bound whenTrue whenFalse => by
    rw [Rest.extend, Rest.write, Rest.write, Phrase.write_extend depth more whenFalse]
    simp only [List.cons_append, List.append_assoc]

end

mutual

/-- A legal phrase stays legal when something legal follows. -/
theorem Phrase.legal_extend (more : Rest) (hmore : more.Legal) :
    ∀ phrase : Phrase, phrase.Legal → (phrase.extend more).Legal
  | .keys phrase, h => Phrase.legal_extend more hmore phrase h
  | .headed _ rest, h => ⟨h.1, Rest.legal_extend more hmore rest h.2⟩

/-- What follows stays legal when something legal follows it. -/
theorem Rest.legal_extend (more : Rest) (hmore : more.Legal) :
    ∀ rest : Rest, rest.Legal → (rest.extend more).Legal
  | .stop, _ => hmore
  | .list rest, h => Rest.legal_extend more hmore rest h
  | .lookup _ rest, h => ⟨h.1, Rest.legal_extend more hmore rest h.2⟩
  | .joined _ phrase, h => Phrase.legal_extend more hmore phrase h
  | .condition _ _ whenFalse, h => ⟨h.1, h.2.1, Phrase.legal_extend more hmore whenFalse h.2.2⟩

end

end TypeScript

end GraphClient
