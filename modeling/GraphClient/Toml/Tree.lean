import GraphClient.Json.Basic

/-!
# Tables under construction

A document with table headers and dotted keys is put together piece by piece. What a key holds is a
finished value, a table, or a list of tables. A table remembers how it came to be, which decides
what may still be added to it: a header gives a table its place and may be written once, a dotted
key extends only tables that dotted keys made.
-/

namespace GraphClient

namespace Toml

/-- How a table came to be. -/
inductive Origin where
  /-- It has a header of its own, or is written as a value. -/
  | declared
  /-- It is mentioned on the way to a deeper header. -/
  | implied
  /-- It is mentioned on the way to the last part of a dotted key. -/
  | dotted
deriving Repr, DecidableEq, Inhabited

/-- What a key holds while a document is read. -/
inductive Item where
  | leaf (value : Json)
  | table (origin : Origin) (entries : List (String × Item))
  | tables (earlier : List (List (String × Item))) (last : List (String × Item))
deriving Repr, Inhabited

/-- The entries of a table under construction. -/
abbrev Body := Entries Item

namespace Body

/-- Changes the table at the end of a path. Tables that are missing on the way are made with the
origin `origin`; the path leads through the last one of a list of tables. A dotted key may not lead
through a declared table. -/
def modifyAt (origin : Origin) (change : Origin → Body → Option Body) :
    List String → Origin → Body → Option Body
  | [], here, body => change here body
  | key :: path, _, body =>
    match Entries.find? body key with
    | none => do
      let inner ← modifyAt origin change path origin []
      return body ++ [(key, .table origin inner)]
    | some (.leaf _) => none
    | some (.table found inner) =>
      if origin = .dotted ∧ found = .declared then none
      else do
        let inner ← modifyAt origin change path found inner
        return Entries.insert body key (.table found inner)
    | some (.tables earlier last) => do
      let last ← modifyAt origin change path .declared last
      return Entries.insert body key (.tables earlier last)

/-- Writes a value under a dotted key, whose last part is `key`, into the table of a section. The
key must be free, and the table that holds it must be made by dotted keys if the path is not empty.
-/
def assign (path : List String) (key : String) (item : Item) (body : Body) : Option Body :=
  modifyAt .dotted (fun here body =>
      if (here = .dotted ↔ path ≠ []) ∧ (Entries.find? body key).isNone then
        some (body ++ [(key, item)])
      else none)
    path .declared body

/-- The table of a list of dotted keys and values. -/
def ofPairs (start : Body) (pairs : List (List String × String × Item)) : Option Body :=
  pairs.foldlM (fun body p => assign p.1 p.2.1 p.2.2 body) start

/-- Adds the table of a header. A table that was only implied so far keeps its entries and moves to
the place of its header. -/
def declare (path : List String) (key : String) (pairs : List (List String × String × Item))
    (body : Body) : Option Body :=
  modifyAt .implied (fun _ body =>
      match Entries.find? body key with
      | none => (ofPairs [] pairs).map fun inner => body ++ [(key, .table .declared inner)]
      | some (.table .implied inner) => (ofPairs inner pairs).map fun inner =>
          body.filter (·.1 != key) ++ [(key, .table .declared inner)]
      | some _ => none)
    path .declared body

/-- Adds one more table to the list of tables of a header. -/
def extend (path : List String) (key : String) (pairs : List (List String × String × Item))
    (body : Body) : Option Body :=
  modifyAt .implied (fun _ body =>
      match Entries.find? body key with
      | none => (ofPairs [] pairs).map fun inner => body ++ [(key, .tables [] inner)]
      | some (.tables earlier last) => (ofPairs [] pairs).map fun inner =>
          Entries.insert body key (.tables (earlier ++ [last]) inner)
      | some _ => none)
    path .declared body

end Body

mutual

/-- The finished value of what a key holds. -/
def Item.toJson : Item → Json
  | .leaf value => value
  | .table _ entries => .object (Item.fieldsToJson entries)
  | .tables earlier last =>
    .array (Item.bodiesToJson earlier ++ [.object (Item.fieldsToJson last)])

/-- The finished fields of a table. -/
def Item.fieldsToJson : List (String × Item) → List (String × Json)
  | [] => []
  | (key, item) :: rest => (key, item.toJson) :: Item.fieldsToJson rest

/-- The finished tables of a list. -/
def Item.bodiesToJson : List (List (String × Item)) → List Json
  | [] => []
  | body :: rest => .object (Item.fieldsToJson body) :: Item.bodiesToJson rest

end

/-- The finished value of a table. -/
def Body.toJson (body : Body) : Json := .object (Item.fieldsToJson body)

end Toml

end GraphClient
