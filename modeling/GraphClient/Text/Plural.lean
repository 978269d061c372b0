import GraphClient.Text.CharClass

/-!
# Plurals

English plurals by a table of endings. Some words have no plural of their own, some an irregular
one; for the others the rules are tried in turn and the first that fits decides. A rule keeps a part
of the word, drops the ending after it and appends another; what stands before the last run of word
characters is lost with the ending.
-/

namespace GraphClient

namespace Plural

/-- One position of an ending. -/
inductive Slot where
  /-- A given character. -/
  | letter (c : Char)
  /-- One of some characters. -/
  | oneOf (choices : List Char)
  /-- Any character but some. -/
  | noneOf (barred : List Char)
deriving Repr, Inhabited

/-- Whether a character fits a position. -/
def Slot.fits : Slot → Char → Bool
  | .letter x, c => x == c
  | .oneOf choices, c => choices.contains c
  | .noneOf barred, c => !barred.contains c

/-- The positions of a word's letters. -/
def word (text : String) : List Slot := text.toList.map .letter

/-- A character outside `barred` followed by letters. -/
def unlike (barred text : String) : List Slot := .noneOf barred.toList :: word text

/-- One character of `choices` followed by letters. -/
def among (choices text : String) : List Slot := .oneOf choices.toList :: word text

/-- A rule: the word ends in one of the kept endings followed by one of the dropped ones, and the
appended text takes the place of the dropped one. -/
structure Rule where
  kept : List (List Slot)
  dropped : List String
  appended : String

/-- The characters before an ending, if the text has it. -/
def beforeEnding? (ending : List Slot) (text : List Char) : Option (List Char) :=
  let start := text.length - ending.length
  let tail := text.drop start
  if ending.length ≤ text.length && (ending.zip tail).all fun p => p.1.fits p.2 then
    some (text.take start)
  else none

/-- The length of the run of word characters at the end of a text. -/
def runLength (text : List Char) : Nat := (text.reverse.takeWhile Text.isWordChar).length

/-- A match of a rule: where the kept part begins, counted from the front, and the kept part. -/
def Rule.matches (rule : Rule) (text : List Char) : List (Nat × List Char) :=
  rule.dropped.flatMap fun dropped =>
    rule.kept.filterMap fun kept =>
      (beforeEnding? (kept ++ word dropped) text).map fun before =>
        let start := before.length - runLength before
        (start, (text.drop start).take (text.length - start - dropped.length))

/-- The kept part of the match that begins first. -/
def leftmost : List (Nat × List Char) → Option (List Char)
  | [] => none
  | first :: rest => some (rest.foldl (fun best p => if p.1 < best.1 then p else best) first).2

/-- The plural by a rule, if the rule fits. -/
def Rule.applied? (rule : Rule) (text : List Char) : Option String :=
  (leftmost (rule.matches text)).map fun kept => String.ofList kept ++ rule.appended

/-- The rules in the order in which they are tried. -/
def rules : List Rule := [
  ⟨[word "eaux"], [""], ""⟩,
  ⟨[word "child"], ["ren", ""], "ren"⟩,
  ⟨[word "person", word "people"], [""], "ople"⟩,
  ⟨[word "mice", word "mouse", word "lice", word "louse"], [""], "ice"⟩,
  ⟨["matr", "cod", "mur", "sil", "vert", "ind", "append"].map word, ["ix", "ex"], "ices"⟩,
  ⟨["x", "ch", "ss", "sh", "zz"].map word, [""], "es"⟩,
  ⟨["xes", "ches", "sses", "shes", "zzes"].map word, [""], ""⟩,
  ⟨[[.noneOf ['c', 'h'], .oneOf ['i', 'e', 'o'], .oneOf ['l', 'n']]], ["ey"], "ies"⟩,
  ⟨[unlike "aeiouy" "", word "qu"], ["y"], "ies"⟩,
  ⟨["ar", "l", "ea", "eo", "oa", "hoo"].map word, ["f"], "ves"⟩,
  ⟨["kni", "wi", "li"].map word, ["fe"], "ves"⟩,
  ⟨[word ""], ["sis"], "ses"⟩,
  ⟨["apheli", "hyperbat", "periheli", "asyndet", "noumen", "phenomen", "criteri", "organ",
    "prolegomen", "hedr", "automat"].map word, ["a", "on"], "a"⟩,
  ⟨["agend", "addend", "millenni", "dat", "extrem", "bacteri", "desiderat", "strat", "candelabr",
    "errat", "ov", "symposi", "curricul", "automat", "quor"].map word, ["a", "um"], "a"⟩,
  ⟨["her", "at", "gr"].map word, ["o"], "oes"⟩,
  ⟨["seraph", "cherub"].map word, ["im", ""], "im"⟩,
  ⟨["alumn", "alg", "vertebr"].map word, ["a", "ae"], "ae"⟩,
  ⟨["alumn", "syllab", "octop", "vir", "radi", "nucle", "fung", "cact", "stimul", "termin",
    "bacill", "foc", "uter", "loc", "strat"].map word, ["us", "i"], "i"⟩,
  ⟨[unlike "l" "ias", among "aeiou" "las", among "emjzr" "as", among "iu" "am"], [""], ""⟩,
  ⟨[[.letter 'e', .oneOf ['m', 'n'], .letter 'u']], ["s", ""], "s"⟩,
  ⟨[word "alias", unlike "aou" "us", word "tlas", word "gas", word "ris"], [""], "es"⟩,
  ⟨["ax", "test"].map word, ["is"], "es"⟩,
  ⟨[unlike "aeiou" "ese"], [""], ""⟩,
  ⟨[word ""], ["s"], "s"⟩]

/-- Words whose plural follows no rule. -/
def irregular : List (String × String) := [
  ("ox", "oxen"), ("man", "men"), ("woman", "women"), ("die", "dice"), ("yes", "yeses"),
  ("foot", "feet"), ("eave", "eaves"), ("goose", "geese"), ("tooth", "teeth"), ("quiz", "quizzes")]

/-- Words without a plural of their own. -/
def uncountable : List String := [
  "accommodation", "adulthood", "advertising", "advice", "aggression", "aid", "air", "aircraft",
  "alcohol", "anger", "applause", "arithmetic", "assistance", "athletics", "bacon", "baggage",
  "beef", "biology", "blood", "botany", "bread", "butter", "carbon", "cardboard", "cash",
  "chalk", "chaos", "chess", "crossroads", "countryside", "dancing", "deer", "dignity", "dirt",
  "dust", "economics", "education", "electricity", "engineering", "enjoyment", "envy",
  "equipment", "ethics", "evidence", "evolution", "fame", "fiction", "flour", "flu", "food",
  "fuel", "fun", "furniture", "gallows", "garbage", "garlic", "genetics", "gold", "golf",
  "gossip", "grammar", "gratitude", "grief", "guilt", "gymnastics", "happiness", "hardware",
  "harm", "hate", "hatred", "health", "heat", "help", "homework", "honesty", "honey",
  "hospitality", "housework", "humour", "hunger", "hydrogen", "ice", "importance", "inflation",
  "information", "innocence", "iron", "irony", "jam", "jewelry", "judo", "karate", "knowledge",
  "lack", "laughter", "lava", "leather", "leisure", "lightning", "linguine", "linguini",
  "linguistics", "literature", "litter", "livestock", "logic", "loneliness", "luck", "luggage",
  "macaroni", "machinery", "magic", "management", "mankind", "marble", "mathematics",
  "mayonnaise", "measles", "methane", "milk", "money", "mud", "music", "mumps", "nature",
  "news", "nitrogen", "nonsense", "nurture", "nutrition", "obedience", "obesity", "oxygen",
  "pasta", "patience", "physics", "poetry", "pollution", "poverty", "pride", "psychology",
  "publicity", "punctuation", "quartz", "racism", "relaxation", "reliability", "research",
  "respect", "revenge", "rice", "rubbish", "rum", "safety", "scenery", "seafood", "seaside",
  "series", "shame", "sheep", "shopping", "sleep", "smoke", "smoking", "snow", "soap",
  "software", "soil", "spaghetti", "species", "steam", "stuff", "stupidity", "sunshine",
  "symmetry", "tennis", "thirst", "thunder", "timber", "traffic", "transportation", "trust",
  "underwear", "unemployment", "unity", "validity", "veal", "vegetation", "vegetarianism",
  "vengeance", "violence", "vitality", "warmth", "wealth", "weather", "welfare", "wheat",
  "wildlife", "wisdom", "yoga", "zinc", "zoology"]

end Plural

/-- The plural of a word. Upper and lower case are told apart throughout. -/
def Text.plural (text : String) : String :=
  if Plural.uncountable.contains text then text
  else
    match Plural.irregular.lookup text with
    | some form => form
    | none => (Plural.rules.findSome? (·.applied? text.toList)).getD (text ++ "s")

end GraphClient
