/-!
# Places of files

Where a file stands inside a package, and which place a relative import leads to. A path is split at
its slashes; an empty name and a single dot stay in a directory, two dots go to the directory around
it, and there is no way out of the package.

* `Place.split`, `Place.walk` : the names of a path, and the way they lead.
* `Place.ofPath`, `Place.ofImport` : where a file stands, and where one of its imports leads to.
-/

namespace GraphClient

/-- The names on the way to a place, the innermost first. -/
abbrev Place := List (List Char)

namespace Place

/-- The names between the slashes of a path. -/
def split : List Char → List (List Char)
  | [] => [[]]
  | c :: rest =>
    if c = '/' then [] :: split rest
    else
      match split rest with
      | [] => [[c]]
      | name :: names => (c :: name) :: names

/-- Follows the names of a path from a place. -/
def walk : Place → List (List Char) → Option Place
  | place, [] => some place
  | place, name :: rest =>
    if name = [] ∨ name = ['.'] then walk place rest
    else if name = ['.', '.'] then
      match place with
      | [] => none
      | _ :: around => walk around rest
    else walk (name :: place) rest

/-- A text without slashes is one name. -/
theorem split_eq_singleton {text : List Char} (h : '/' ∉ text) : split text = [text] := by
  induction text with
  | nil => rfl
  | cons c rest ih =>
    rw [List.mem_cons, not_or] at h
    rw [split, if_neg (Ne.symm h.1), ih h.2]

theorem split_ne_nil (text : List Char) : split text ≠ [] := by
  cases text with
  | nil => simp [split]
  | cons c rest =>
    rw [split]
    split
    · simp
    · split <;> simp

/-- The names before a slash and those behind it. -/
theorem split_append_slash (a b : List Char) : split (a ++ '/' :: b) = split a ++ split b := by
  induction a with
  | nil => rfl
  | cons c rest ih =>
    rw [List.cons_append, split, split, ih]
    split
    · rfl
    · cases hs : split rest with
      | nil => exact absurd hs (split_ne_nil rest)
      | cons name names => rfl

theorem walk_cons (place : Place) (name : List Char) (rest : List (List Char)) :
    walk place (name :: rest) =
      if name = [] ∨ name = ['.'] then walk place rest
      else if name = ['.', '.'] then place.head?.bind fun _ => walk place.tail rest
      else walk (name :: place) rest := by
  cases place <;> simp [walk]

/-- A path leads through its first names to a place, and on from there. -/
theorem walk_append (place : Place) (a b : List (List Char)) :
    walk place (a ++ b) = (walk place a).bind (walk · b) := by
  induction a generalizing place with
  | nil => rfl
  | cons name rest ih =>
    rw [List.cons_append, walk_cons, walk_cons]
    split
    · exact ih place
    · split
      · cases place with
        | nil => rfl
        | cons _ around => exact ih around
      · exact ih (name :: place)

/-- The name of a file is none of the names with a meaning of their own. -/
theorem walk_file (place : Place) (name : List Char) :
    walk place [name ++ ['.', 't', 's']] = some ((name ++ ['.', 't', 's']) :: place) := by
  -- The ending makes the name longer than each of them.
  have hlength : (name ++ ['.', 't', 's']).length = name.length + 3 := by simp
  rw [walk_cons, if_neg, if_neg, walk]
  · intro h
    rw [h] at hlength
    simp at hlength
  · rintro (h | h)
    · rw [h] at hlength
      simp at hlength
    · rw [h] at hlength
      simp at hlength

/-- The last name of a path, and the path before it. -/
theorem exists_last (text : List Char) :
    '/' ∉ text ∨ ∃ before last, '/' ∉ last ∧ text = before ++ '/' :: last := by
  induction text with
  | nil => exact .inl (by simp)
  | cons c rest ih =>
    rcases ih with h | ⟨before, last, hlast, rfl⟩
    · by_cases hc : c = '/'
      · exact .inr ⟨[], rest, h, by simp [hc]⟩
      · exact .inl (by simp [h, Ne.symm hc])
    · exact .inr ⟨c :: before, last, hlast, rfl⟩

/-- A file inside a directory is named by the end of the name that it was given there. -/
theorem exists_split_file (directory field : List Char) :
    ∃ before last, last <:+ field ∧
      split (directory ++ '/' :: (field ++ ['.', 't', 's'])) =
        before ++ [last ++ ['.', 't', 's']] := by
  -- The ending goes to the last name, so the slashes of the field stay where they are.
  rcases exists_last field with h | ⟨before, last, hlast, rfl⟩
  · refine ⟨split directory, field, List.suffix_refl field, ?_⟩
    have hfield : '/' ∉ field ++ ['.', 't', 's'] := by simp [h]
    rw [split_append_slash, split_eq_singleton hfield]
  · refine ⟨split (directory ++ '/' :: before), last, ⟨before ++ ['/'], by simp⟩, ?_⟩
    have hlast' : '/' ∉ last ++ ['.', 't', 's'] := by simp [hlast]
    rw [← split_eq_singleton hlast', ← split_append_slash]
    simp

/-- The place that a path leads to, unless it leaves the package. -/
def ofPath (path : String) : Option Place := walk [] (split path.toList)

/-- The place that a relative import of the file at a path leads to: the source is followed from the
directory of the file, and stands for a file of its name. -/
def ofImport (path source : String) : Option Place :=
  (ofPath path).bind fun place => walk place.tail (split (source ++ ".ts").toList)

/-- A file with a plain name stands at the top. -/
theorem ofPath_top {name : String} (h : '/' ∉ name.toList) :
    ofPath (name ++ ".ts") = some [name.toList ++ ['.', 't', 's']] := by
  have hname : '/' ∉ name.toList ++ ['.', 't', 's'] := by simp [h]
  have hlist : (name ++ ".ts").toList = name.toList ++ ['.', 't', 's'] := by
    simp [String.toList_append]
  rw [ofPath, hlist, split_eq_singleton hname, walk_file]

/-- An import from the directory around the one of a file. -/
theorem ofImport_up {path name : String} {file : List Char} {around : Place}
    (hpath : ofPath path = some (file :: around)) (h : '/' ∉ name.toList) :
    ofImport path ("../" ++ name) =
      around.head?.map fun _ => (name.toList ++ ['.', 't', 's']) :: around.tail := by
  have hname : '/' ∉ name.toList ++ ['.', 't', 's'] := by simp [h]
  have hlist : ("../" ++ name ++ ".ts").toList =
      ['.', '.'] ++ '/' :: (name.toList ++ ['.', 't', 's']) := by
    simp [String.toList_append]
  have hup : split ['.', '.'] = [['.', '.']] := by decide
  rw [ofImport, hpath, Option.bind_some, List.tail_cons, hlist, split_append_slash, hup,
    split_eq_singleton hname, List.singleton_append, walk_cons, if_neg (by simp), if_pos rfl]
  cases around with
  | nil => rfl
  | cons directory around => exact walk_file around name.toList

/-- An import from the directory of a file. -/
theorem ofImport_beside {path name : String} {file : List Char} {around : Place}
    (hpath : ofPath path = some (file :: around)) (h : '/' ∉ name.toList) :
    ofImport path ("./" ++ name) = some ((name.toList ++ ['.', 't', 's']) :: around) := by
  have hname : '/' ∉ name.toList ++ ['.', 't', 's'] := by simp [h]
  have hlist : ("./" ++ name ++ ".ts").toList =
      ['.'] ++ '/' :: (name.toList ++ ['.', 't', 's']) := by
    simp [String.toList_append]
  have hhere : split ['.'] = [['.']] := by decide
  rw [ofImport, hpath, Option.bind_some, List.tail_cons, hlist, split_append_slash, hhere,
    split_eq_singleton hname, List.singleton_append, walk_cons, if_pos (by simp), walk_file]

/-- Whether a source leads to a file of the package. -/
def isRelative (source : String) : Bool :=
  ['.', '/'].isPrefixOf source.toList || ['.', '.', '/'].isPrefixOf source.toList

theorem isRelative_up (name : String) : isRelative ("../" ++ name) = true := by
  simp [isRelative, String.toList_append]

/-- The path of a file inside a directory. -/
def inside (directory field : String) : String := directory ++ "/" ++ field ++ ".ts"

theorem toList_inside (directory field : String) :
    (inside directory field).toList =
      directory.toList ++ '/' :: (field.toList ++ ['.', 't', 's']) := by
  simp [inside, String.toList_append]

/-- A file with a plain name stands in its directory. -/
theorem ofPath_inside {directory field : String} {place : Place}
    (hdirectory : ofPath directory = some place) (h : '/' ∉ field.toList) :
    ofPath (inside directory field) = some ((field.toList ++ ['.', 't', 's']) :: place) := by
  have hfield : '/' ∉ field.toList ++ ['.', 't', 's'] := by simp [h]
  rw [ofPath] at hdirectory
  rw [ofPath, toList_inside, split_append_slash, split_eq_singleton hfield, walk_append,
    hdirectory, Option.bind_some, walk_file]

/-- The innermost name of a file inside a directory is the end of the name that it was given. -/
theorem exists_of_ofPath_inside {directory field : String} {place : Place}
    (h : ofPath (inside directory field) = some place) :
    ∃ last around, last <:+ field.toList ∧ place = (last ++ ['.', 't', 's']) :: around := by
  obtain ⟨before, last, hlast, hsplit⟩ := exists_split_file directory.toList field.toList
  rw [ofPath, toList_inside, hsplit, walk_append] at h
  obtain ⟨around, -, hwalk⟩ := Option.bind_eq_some_iff.1 h
  rw [walk_file, Option.some.injEq] at hwalk
  exact ⟨last, around, hlast, hwalk.symm⟩

end Place

end GraphClient
