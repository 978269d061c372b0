/-!
# Quoted strings

The quoted form of a string escapes the quotation mark, the backslash and the control characters
below U+0020, five of them by a letter and the others by four lower-case hexadecimal digits. All
other characters stand for themselves.
-/

namespace GraphClient

namespace Quoted

/-- A lower-case hexadecimal digit. -/
def hexDigit (n : Nat) : Char := Nat.digitChar (n % 16)

/-- The characters that stand for one character between quotation marks. -/
def escape (c : Char) : List Char :=
  if c = '"' then ['\\', '"']
  else if c = '\\' then ['\\', '\\']
  else if c = '\n' then ['\\', 'n']
  else if c = '\r' then ['\\', 'r']
  else if c = '\t' then ['\\', 't']
  else if c = Char.ofNat 8 then ['\\', 'b']
  else if c = Char.ofNat 12 then ['\\', 'f']
  else if c.toNat < 32 then ['\\', 'u', '0', '0', hexDigit (c.toNat / 16), hexDigit c.toNat]
  else [c]

/-- The text between the quotation marks. -/
def encode (text : List Char) : List Char := text.flatMap escape

@[simp] theorem encode_nil : encode [] = [] := rfl

theorem encode_cons (c : Char) (text : List Char) : encode (c :: text) = escape c ++ encode text :=
  List.flatMap_cons

end Quoted

/-- The quoted form of a string. -/
def quoted (text : String) : String := "\"" ++ String.ofList (Quoted.encode text.toList) ++ "\""

end GraphClient
