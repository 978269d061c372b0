import GraphClient.Json.Reader
import GraphClient.Json.Decode
import GraphClient.Request.Table
import GraphClient.Number.Word

/-!
# Values of list requests in JSON

An object with any of the values for a list of rows. A value that is null counts as missing, and no
other field may occur.
-/

namespace GraphClient

namespace ListArguments

/-- The fields that may occur. -/
def fieldNames : List String := ["filter", "orderBy", "first", "last", "offset", "before", "after"]

/-- Reads the values for a list of rows. -/
def ofJson (value : Json) : Json.Decoded ListArguments := do
  let fields ← value.toFields
  Entries.knownOnly fields fieldNames
  let number (name : String) : Json.Decoded (Option Nat) :=
    fields.optional name (Json.toNatUpTo Word.maxUnsigned)
  return {
    filter := ← fields.optional "filter" fun value => .ok value.finite
    orderBy := ← fields.optional "orderBy" (Json.toListOf Json.toText)
    first := ← number "first"
    last := ← number "last"
    offset := ← number "offset"
    before := ← fields.optional "before" Json.toText
    after := ← fields.optional "after" Json.toText }

end ListArguments

end GraphClient
