import GraphClient.Json.Token

/-!
# Passing over JSON values

A value that nobody looks at is passed over token by token. What the text still owes is the list of
the open containers, innermost first, and what comes next in the innermost one; values may therefore
nest to any depth.
-/

namespace GraphClient

namespace Json

namespace Reader

/-- The two kinds of containers. -/
inductive Container where
  | array
  | object
deriving Repr, DecidableEq, Inhabited

/-- What comes next in a text. -/
inductive Awaited where
  /-- A value. -/
  | value
  /-- The key of a field and its value. -/
  | field
  /-- A comma or the end of the innermost container; the end of all, if none is open. -/
  | more
deriving Repr, DecidableEq, Inhabited

/-- What comes after a comma. -/
def Container.next : Container → Awaited
  | .array => .value
  | .object => .field

/-- The end of a container. -/
def Container.closing : Container → Char
  | .array => ']'
  | .object => '\x7d'

/-- Passes over all that the text owes. `fuel` bounds the number of tokens. -/
def passOver? (fuel : Nat) (awaited : Awaited) (containers : List Container) (text : List Char) :
    Option (List Char) :=
  match fuel with
  | 0 => none
  | fuel + 1 =>
    match awaited, containers with
    | .more, [] => some text
    | .more, container :: outer =>
      match skip text with
      | c :: rest =>
        if c = ',' then passOver? fuel container.next containers rest
        else if c = container.closing then passOver? fuel .more outer rest
        else none
      | [] => none
    | .field, _ =>
      match skip text with
      | '"' :: rest =>
        match passString? rest with
        | some rest =>
          match skip rest with
          | ':' :: rest => passOver? fuel .value containers rest
          | _ => none
        | none => none
      | _ => none
    | .value, _ =>
      match skip text with
      | '[' :: rest =>
        match skip rest with
        | ']' :: rest => passOver? fuel .more containers rest
        | rest => passOver? fuel .value (.array :: containers) rest
      | '\x7b' :: rest =>
        match skip rest with
        | '\x7d' :: rest => passOver? fuel .more containers rest
        | rest => passOver? fuel .field (.object :: containers) rest
      | text =>
        match passToken? text with
        | some rest => passOver? fuel .more containers rest
        | none => none

/-- Passes over one value. -/
def passValue? (fuel : Nat) (text : List Char) : Option (List Char) :=
  passOver? fuel .value [] text

end Reader

end Json

end GraphClient
