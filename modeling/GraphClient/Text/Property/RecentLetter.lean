/-!
# Recent letters

The alphabetic characters that Unicode 17 added, as increasing ranges. Words are made of the
characters of Unicode 16, so these do not belong to words.
-/

namespace GraphClient.Property

set_option maxRecDepth 8000

/-- The ranges of alphabetic characters that are no word characters. -/
def recentLetterSpans : List (Nat × Nat) :=
  [(2191, 2191), (3164, 3164), (3292, 3292), (42958, 42959), (42962, 42962), (42964, 42964),
   (42993, 42993), (67904, 67929), (69317, 69319), (69370, 69371), (72544, 72551),
   (73136, 73179), (93856, 93880), (93883, 93907), (94194, 94198), (100344, 100351),
   (101641, 101662), (101760, 101874), (124608, 124638), (124640, 124661), (124670, 124671),
   (177978, 177983), (183970, 183981), (205744, 210041)]

end GraphClient.Property
