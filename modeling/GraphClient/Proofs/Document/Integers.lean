import GraphClient.Proofs.Document.Literal
import GraphClient.Proofs.Number.Rounded
import GraphClient.Proofs.Text.Joined

/-!
# Integers in the texts of JSON values

The text of a value is made of pieces that are the same for all integers, and of the integers in
their order. A signed word is written by its own digits. A greater integer is written as a
floating-point number, and so is another one with the same text.

* `Json.pieces` : the pieces of the text of a value.
* `Json.Differ` : two values that differ in one integer.
* `Literal.toList_text_ofJson` : the text consists of the pieces.
* `Literal.exact_iff` : which values are written with all their integers.
-/

namespace GraphClient

namespace Json

/-! ## Integers of a value -/

mutual

/-- The integers of a value, in their order. -/
def integers : Json → List Int
  | .int value => [value]
  | .array items => itemIntegers items
  | .object fields => fieldIntegers fields
  | _ => []

/-- The integers of the elements of an array. -/
def itemIntegers : List Json → List Int
  | [] => []
  | value :: rest => value.integers ++ itemIntegers rest

/-- The integers of the fields of an object. -/
def fieldIntegers : List (String × Json) → List Int
  | [] => []
  | (_, value) :: rest => value.integers ++ fieldIntegers rest

end

/-- Two values differ in one place only, in which they have two integers. -/
inductive Differ (m n : Int) : Json → Json → Prop
  | here : Differ m n (.int m) (.int n)
  | item {value other : Json} (before after : List Json) (inner : Differ m n value other) :
      Differ m n (.array (before ++ value :: after)) (.array (before ++ other :: after))
  | field {value other : Json} (before : List (String × Json)) (key : String)
      (after : List (String × Json)) (inner : Differ m n value other) :
      Differ m n (.object (before ++ (key, value) :: after))
        (.object (before ++ (key, other) :: after))

mutual

/-- Any integer of a value may be changed by itself. -/
theorem exists_differ (m n : Int) :
    ∀ value : Json, m ∈ value.integers → ∃ other, Differ m n value other
  | .int value, h => by
    obtain rfl : m = value := by simpa [integers] using h
    exact ⟨_, .here⟩
  | .array items, h => by
    obtain ⟨before, value, after, other, rfl, inner⟩ := exists_differ_item m n items h
    exact ⟨_, .item before after inner⟩
  | .object fields, h => by
    obtain ⟨before, key, value, after, other, rfl, inner⟩ := exists_differ_field m n fields h
    exact ⟨_, .field before key after inner⟩
  | .null, h | .bool _, h | .float _, h | .string _, h => by simp [integers] at h

/-- An integer of an array is in one of its items, where it can be another one. -/
theorem exists_differ_item (m n : Int) : ∀ items : List Json, m ∈ itemIntegers items →
    ∃ before value after other, items = before ++ value :: after ∧ Differ m n value other
  | [], h => by simp [itemIntegers] at h
  | value :: rest, h => by
    rcases List.mem_append.1 h with h | h
    · obtain ⟨other, inner⟩ := exists_differ m n value h
      exact ⟨[], value, rest, other, rfl, inner⟩
    · obtain ⟨before, inner, after, other, rfl, hinner⟩ := exists_differ_item m n rest h
      exact ⟨value :: before, inner, after, other, rfl, hinner⟩

/-- An integer of an object is in one of its values, where it can be another one. -/
theorem exists_differ_field (m n : Int) : ∀ fields : List (String × Json),
    m ∈ fieldIntegers fields → ∃ before key value after other,
      fields = before ++ (key, value) :: after ∧ Differ m n value other
  | [], h => by simp [fieldIntegers] at h
  | (key, value) :: rest, h => by
    rcases List.mem_append.1 h with h | h
    · obtain ⟨other, inner⟩ := exists_differ m n value h
      exact ⟨[], key, value, rest, other, rfl, inner⟩
    · obtain ⟨before, key', inner, after, other, rfl, hinner⟩ := exists_differ_field m n rest h
      exact ⟨(key, value) :: before, key', inner, after, other, rfl, hinner⟩

end

/-! ## Pieces of a text -/

/-- A piece of a text: characters, or the place of an integer. -/
inductive Piece where
  | fixed (text : String)
  | integer (value : Int)

/-- The characters of a piece, if integers are written in some way. -/
def Piece.write (number : Int → String) : Piece → List Char
  | .fixed text => text.toList
  | .integer value => (number value).toList

/-- The integer of a piece. -/
def Piece.integers : Piece → List Int
  | .fixed _ => []
  | .integer value => [value]

mutual

/-- The pieces of the text of a value. -/
def pieces : Json → List Piece
  | .null => [.fixed "null"]
  | .bool value => [.fixed (if value then "true" else "false")]
  | .int value => [.integer value]
  | .float value => [.fixed value.text]
  | .string value => [.fixed (quoted value)]
  | .array items =>
    .fixed "[" :: (List.intercalate [.fixed ", "] (itemPieces items) ++ [.fixed "]"])
  | .object [] => [.fixed "\x7b\x7d"]
  | .object (field :: rest) =>
    .fixed "\x7b " ::
      (List.intercalate [.fixed ", "] (fieldPieces (field :: rest)) ++ [.fixed " \x7d"])

/-- The pieces of each element of an array. -/
def itemPieces : List Json → List (List Piece)
  | [] => []
  | value :: rest => value.pieces :: itemPieces rest

/-- The pieces of each field of an object. -/
def fieldPieces : List (String × Json) → List (List Piece)
  | [] => []
  | (key, value) :: rest => (.fixed key :: .fixed ": " :: value.pieces) :: fieldPieces rest

end

/-- The text of a value with all integers written by their own digits and signs. -/
def exactText (value : Json) : String :=
  .ofList (value.pieces.flatMap (Piece.write toString))

/-- An object with fields has their pieces between braces. -/
theorem pieces_object_of_ne_nil {fields : List (String × Json)} (h : fields ≠ []) :
    pieces (.object fields) = .fixed "\x7b " ::
      (List.intercalate [.fixed ", "] (fieldPieces fields) ++ [.fixed " \x7d"]) := by
  cases fields with
  | nil => exact absurd rfl h
  | cons field rest => rfl

/-- The items of two arrays have their pieces one behind the other. -/
theorem itemPieces_append (a b : List Json) :
    itemPieces (a ++ b) = itemPieces a ++ itemPieces b := by
  induction a with
  | nil => rfl
  | cons value rest ih => rw [List.cons_append, itemPieces, itemPieces, ih, List.cons_append]

/-- The fields of two objects have their pieces one behind the other. -/
theorem fieldPieces_append (a b : List (String × Json)) :
    fieldPieces (a ++ b) = fieldPieces a ++ fieldPieces b := by
  induction a with
  | nil => rfl
  | cons field rest ih =>
    obtain ⟨key, value⟩ := field
    rw [List.cons_append, fieldPieces, fieldPieces, ih, List.cons_append]

mutual

/-- The integers stand in the text in their order. -/
theorem flatMap_pieces_integers :
    ∀ value : Json, value.pieces.flatMap Piece.integers = value.integers
  | .null | .bool _ | .int _ | .float _ | .string _ | .object [] => rfl
  | .array items => by
    have hitems := flatten_itemPieces_integers items
    rw [pieces, List.flatMap_cons, List.flatMap_append, flatMap_intercalate]
    show [] ++ (([] : List Int).intercalate _ ++ []) = itemIntegers items
    rw [intercalate_nil_left, hitems, List.nil_append, List.append_nil]
  | .object ((key, value) :: rest) => by
    have hfields := flatten_fieldPieces_integers ((key, value) :: rest)
    rw [pieces, List.flatMap_cons, List.flatMap_append, flatMap_intercalate]
    show [] ++ (([] : List Int).intercalate _ ++ []) = fieldIntegers ((key, value) :: rest)
    rw [intercalate_nil_left, hfields, List.nil_append, List.append_nil]

/-- The pieces of some items hold the integers of the items. -/
theorem flatten_itemPieces_integers : ∀ items : List Json,
    ((itemPieces items).map (·.flatMap Piece.integers)).flatten = itemIntegers items
  | [] => rfl
  | value :: rest => by
    rw [itemPieces, List.map_cons, List.flatten_cons, flatMap_pieces_integers value,
      flatten_itemPieces_integers rest, itemIntegers]

/-- The pieces of some fields hold the integers of the fields. -/
theorem flatten_fieldPieces_integers : ∀ fields : List (String × Json),
    ((fieldPieces fields).map (·.flatMap Piece.integers)).flatten = fieldIntegers fields
  | [] => rfl
  | (key, value) :: rest => by
    rw [fieldPieces, List.map_cons, List.flatten_cons, flatten_fieldPieces_integers rest,
      fieldIntegers, ← flatMap_pieces_integers value]
    rfl

end

/-- The texts of two values that differ in one integer are the same around it. -/
theorem Differ.exists_pieces {m n : Int} {value other : Json} (h : Differ m n value other) :
    ∃ before after, value.pieces = before ++ .integer m :: after ∧
      other.pieces = before ++ .integer n :: after := by
  induction h with
  | here => exact ⟨[], [], rfl, rfl⟩
  | item outer outer' _ ih =>
    obtain ⟨before, after, hvalue, hother⟩ := ih
    obtain ⟨left, right, hjoin⟩ :=
      exists_intercalate_append [.fixed ", "] (itemPieces outer) (itemPieces outer')
    refine ⟨.fixed "[" :: (left ++ before), after ++ (right ++ [.fixed "]"]), ?_, ?_⟩
    · rw [pieces, itemPieces_append, itemPieces, hjoin, hvalue]
      simp
    · rw [pieces, itemPieces_append, itemPieces, hjoin, hother]
      simp
  | field outer key outer' _ ih =>
    obtain ⟨before, after, hvalue, hother⟩ := ih
    obtain ⟨left, right, hjoin⟩ :=
      exists_intercalate_append [.fixed ", "] (fieldPieces outer) (fieldPieces outer')
    refine ⟨.fixed "\x7b " :: (left ++ (.fixed key :: .fixed ": " :: before)),
      after ++ (right ++ [.fixed " \x7d"]), ?_, ?_⟩
    · rw [pieces_object_of_ne_nil (by simp), fieldPieces_append, fieldPieces, hjoin, hvalue]
      simp
    · rw [pieces_object_of_ne_nil (by simp), fieldPieces_append, fieldPieces, hjoin, hother]
      simp

/-- Where two values differ in an integer, the first one holds it. -/
theorem Differ.mem_integers {m n : Int} {value other : Json} (h : Differ m n value other) :
    m ∈ value.integers := by
  obtain ⟨before, after, hvalue, -⟩ := h.exists_pieces
  rw [← flatMap_pieces_integers, hvalue]
  simp [Piece.integers]

end Json

namespace Literal

/-! ## Integers by themselves -/

/-- An integer in the range is written with its own digits. -/
theorem text_ofInt_of_fitsSigned {n : Int} (h : Word.fitsSigned n = true) :
    (ofInt n).text = toString n := by
  rw [ofInt, if_pos h, text]

/-- An integer is written with digits, and with a minus sign in front of them. -/
theorem isNumeral_of_mem_toString (n : Int) : ∀ c ∈ (toString n).toList, isNumeral c = true := by
  show ∀ c ∈ script.write (.int n), isNumeral c = true
  refine forall_mem_write_int (by decide) (fun c hdigit => ?_) n
  rw [isNumeral, hdigit, Bool.true_or]

/-- An integer is written by numerals exactly if it is a signed word. -/
theorem forall_isNumeral_iff (n : Int) :
    (∀ c ∈ (ofInt n).text.toList, isNumeral c = true) ↔ Word.fitsSigned n = true := by
  constructor
  · intro h
    by_cases hfits : Word.fitsSigned n = true
    · exact hfits
    · obtain ⟨c, hc, hmark⟩ := (Binary64.ofInt n).exists_not_isNumeral
      rw [ofInt, if_neg hfits] at h
      exact absurd (hmark.symm.trans (h c hc)) Bool.false_ne_true
  · intro h
    rw [text_ofInt_of_fitsSigned h]
    exact isNumeral_of_mem_toString n

/-- A signed word does not have its text in common with another integer. -/
theorem ofInt_unique {m n : Int} (hm : Word.fitsSigned m = true)
    (h : (ofInt n).text = (ofInt m).text) : n = m := by
  have hn : Word.fitsSigned n = true := by
    rw [← forall_isNumeral_iff, h, forall_isNumeral_iff]
    exact hm
  rw [text_ofInt_of_fitsSigned hn, text_ofInt_of_fitsSigned hm] at h
  exact write_int_injective (congrArg String.toList h)

/-- An integer above the range becomes a floating-point number. -/
theorem ofInt_eq_float {n : Int} (high : Word.maxSigned < n) :
    ofInt n = .float (Binary64.ofInt n) := by
  have hsigned : ¬ Word.fitsSigned n = true := by
    rw [Word.fitsSigned_iff, not_and]
    exact fun _ => Int.not_le.2 high
  rw [ofInt, if_neg hsigned]

/-- Any other word has its text in common with another one. -/
theorem exists_text_ofInt_eq {m : Int} (hfits : Word.fits m = true)
    (hsigned : ¬ Word.fitsSigned m = true) :
    ∃ n, n ≠ m ∧ Word.fits n = true ∧ (ofInt n).text = (ofInt m).text := by
  have high : Word.maxSigned < m := by
    have hlow := (Word.fits_iff m).1 hfits
    rw [Word.fitsSigned_iff, not_and] at hsigned
    exact Int.not_le.1 (hsigned hlow.1)
  obtain ⟨n, hne, hhigh, hfits, hround⟩ := Binary64.exists_ofInt_eq high hfits
  refine ⟨n, hne, hfits, ?_⟩
  rw [ofInt_eq_float hhigh, ofInt_eq_float high, hround]

/-! ## Integers in a text -/

mutual

/-- The text of a value consists of its pieces. -/
theorem toList_text_ofJson : ∀ value : Json,
    (ofJson value).text.toList = value.pieces.flatMap (Json.Piece.write fun n => (ofInt n).text)
  | .null | .bool _ | .int _ | .float _ | .string _ => by
    simp [ofJson, text, Json.pieces, Json.Piece.write]
  | .array items => by
    have hwrite := write_list (ofItems items)
    rw [write_eq, Script.listed, map_ofItems items] at hwrite
    rw [ofJson, hwrite, Json.pieces, List.flatMap_cons, List.flatMap_append, flatMap_intercalate]
    rfl
  | .object [] => rfl
  | .object ((key, value) :: rest) => by
    have hwrite := write_object_cons (key, ofJson value) (ofFields rest)
    rw [write_eq, Script.listed, ← ofFields, map_ofFields ((key, value) :: rest)] at hwrite
    rw [ofJson, hwrite, Json.pieces, List.flatMap_cons, List.flatMap_append, flatMap_intercalate]
    rfl

/-- The items of a list are written piece by piece. -/
theorem map_ofItems : ∀ items : List Json, (ofItems items).map script.write =
    (Json.itemPieces items).map (·.flatMap (Json.Piece.write fun n => (ofInt n).text))
  | [] => rfl
  | value :: rest => by
    rw [ofItems, Json.itemPieces, List.map_cons, List.map_cons, map_ofItems rest,
      ← toList_text_ofJson value]
    rfl

/-- The fields of an object are written piece by piece. -/
theorem map_ofFields : ∀ fields : List (String × Json), (ofFields fields).map fieldScript.write =
    (Json.fieldPieces fields).map (·.flatMap (Json.Piece.write fun n => (ofInt n).text))
  | [] => rfl
  | (key, value) :: rest => by
    rw [ofFields, Json.fieldPieces, List.map_cons, List.map_cons, map_ofFields rest,
      List.flatMap_cons, List.flatMap_cons, ← toList_text_ofJson value]
    rfl

end

/-- The marks in a text are those in its fixed pieces, which the exact text has too, and those of
its integers, which the exact text does not have. -/
theorem countP_write (number : Int → String) (pieces : List Json.Piece) :
    (pieces.flatMap (Json.Piece.write number)).countP (!isNumeral ·) =
      (pieces.flatMap (Json.Piece.write toString)).countP (!isNumeral ·) +
        ((pieces.flatMap Json.Piece.integers).flatMap fun n => (number n).toList).countP
          (!isNumeral ·) := by
  induction pieces with
  | nil => rfl
  | cons piece rest ih =>
    simp only [List.flatMap_cons, List.countP_append, List.flatMap_append]
    rw [ih]
    cases piece with
    | fixed text =>
      simp only [Json.Piece.write, Json.Piece.integers, List.flatMap_nil, List.countP_nil]
      omega
    | integer n =>
      have hexact : (toString n).toList.countP (!isNumeral ·) = 0 := by
        rw [List.countP_eq_zero]
        intro c hc
        rw [isNumeral_of_mem_toString n c hc]
        simp
      simp only [Json.Piece.write, Json.Piece.integers, List.flatMap_singleton, hexact]
      omega

/-- The text of a value shows all integers by their own digits exactly if they are signed words. -/
theorem text_ofJson_eq_exactText_iff (value : Json) :
    (ofJson value).text = value.exactText ↔
      ∀ n ∈ value.integers, Word.fitsSigned n = true := by
  have htext := toList_text_ofJson value
  constructor
  · intro h n hn
    have hcount := countP_write (fun n => (ofInt n).text) value.pieces
    rw [← htext, h, Json.exactText, String.toList_ofList, Json.flatMap_pieces_integers,
      Nat.left_eq_add, List.countP_eq_zero] at hcount
    rw [← forall_isNumeral_iff]
    intro c hc
    have hmark : ¬ (!isNumeral c) = true := hcount c (List.mem_flatMap.2 ⟨n, hn, hc⟩)
    simpa using hmark
  · intro h
    rw [← String.toList_inj, htext, Json.exactText, String.toList_ofList]
    refine List.flatMap_congr fun piece hpiece => ?_
    cases piece with
    | fixed text => rfl
    | integer n =>
      have hn : n ∈ value.integers := by
        rw [← Json.flatMap_pieces_integers, List.mem_flatMap]
        exact ⟨_, hpiece, List.mem_singleton_self n⟩
      rw [Json.Piece.write, Json.Piece.write, text_ofInt_of_fitsSigned (h n hn)]

/-- Two values that differ in one integer have the same text exactly if the two integers have. -/
theorem text_eq_iff_of_differ {m n : Int} {value other : Json}
    (h : Json.Differ m n value other) :
    (ofJson other).text = (ofJson value).text ↔ (ofInt n).text = (ofInt m).text := by
  obtain ⟨before, after, hvalue, hother⟩ := h.exists_pieces
  rw [← String.toList_inj, toList_text_ofJson, toList_text_ofJson, hvalue, hother,
    List.flatMap_append, List.flatMap_append, List.append_cancel_left_eq, List.flatMap_cons,
    List.flatMap_cons, List.append_cancel_right_eq]
  exact String.toList_inj

/-- Which values are written with all their integers: the text shows each of them by its own digits
and sign, in order, exactly if all of them are signed words; and exactly then no other word in the
place of one of them leaves the text as it is. -/
theorem exact_iff {value : Json} (words : ∀ n ∈ value.integers, Word.fits n = true) :
    ((ofJson value).text = value.exactText ↔
        ∀ n ∈ value.integers, Word.fitsSigned n = true) ∧
      ((∀ m n other, Json.Differ m n value other → n ≠ m → Word.fits n = true →
          (ofJson other).text ≠ (ofJson value).text) ↔
        ∀ n ∈ value.integers, Word.fitsSigned n = true) := by
  refine ⟨text_ofJson_eq_exactText_iff value, ?_, ?_⟩
  · intro h m hm
    by_contra hsigned
    obtain ⟨n, hne, hfits, htext⟩ := exists_text_ofInt_eq (words m hm) hsigned
    obtain ⟨other, hdiffer⟩ := Json.exists_differ m n value hm
    exact h m n other hdiffer hne hfits ((text_eq_iff_of_differ hdiffer).2 htext)
  · intro h m n other hdiffer hne hfits heq
    rw [text_eq_iff_of_differ hdiffer] at heq
    exact hne (ofInt_unique (h m hdiffer.mem_integers) heq)

end Literal

namespace Sample

/-- A filter with signed words, one of them the least. -/
def sizeFilter : Json :=
  .object [("or", .array [.object [("size", .int 4294967295)], .object []]),
    ("offset", .int (-9223372036854775808))]

/-- The filter is written with its integers, and tells them from others. -/
theorem sizeFilter_exact : (∀ n ∈ sizeFilter.integers, Word.fits n = true) ∧
    sizeFilter.integers = [4294967295, -9223372036854775808] ∧
    (Literal.ofJson sizeFilter).text = sizeFilter.exactText ∧
    ∀ other, Json.Differ 4294967295 18446744073709551615 sizeFilter other →
      (Literal.ofJson other).text ≠ (Literal.ofJson sizeFilter).text := by
  have words : ∀ n ∈ sizeFilter.integers, Word.fits n = true := by decide
  have signed : ∀ n ∈ sizeFilter.integers, Word.fitsSigned n = true := by decide
  obtain ⟨hexact, hdiffer⟩ := Literal.exact_iff words
  refine ⟨words, rfl, hexact.2 signed, fun other h => ?_⟩
  exact hdiffer.2 signed _ _ other h (by decide) (by decide)

/-- The two greatest unsigned words are written alike, and not by their digits. -/
theorem greatest_alike :
    Word.fits 18446744073709551614 = true ∧ Word.fits 18446744073709551615 = true ∧
    Json.Differ 18446744073709551614 18446744073709551615
      (.array [.int 18446744073709551614]) (.array [.int 18446744073709551615]) ∧
    (Literal.ofJson (.array [.int 18446744073709551614])).text =
      (Literal.ofJson (.array [.int 18446744073709551615])).text ∧
    (Literal.ofJson (.array [.int 18446744073709551615])).text ≠
      Json.exactText (.array [.int 18446744073709551615]) := by
  have hround : Binary64.ofInt 18446744073709551614 = Binary64.ofInt 18446744073709551615 := by
    decide +kernel
  have hdiffer : Json.Differ 18446744073709551614 18446744073709551615
      (.array [.int 18446744073709551614]) (.array [.int 18446744073709551615]) :=
    .item [] [] .here
  refine ⟨by decide, by decide, hdiffer, ?_, ?_⟩
  · rw [eq_comm, Literal.text_eq_iff_of_differ hdiffer]
    exact congrArg (fun x => (Literal.float x).text) hround.symm
  · rw [ne_eq, Literal.text_ofJson_eq_exactText_iff]
    decide

end Sample

end GraphClient
