import ChessArbiter.Json.Basic

/-! # Writing JSON

No spaces are written, and fields come in the order in which the object holds them. In a string only
the quotation mark, the backslash and the characters below U+0020 are escaped: five of these by a
letter, the others by four small hexadecimal digits.
-/

namespace ChessArbiter.Json

/-- One character of a string as it is written. -/
def escaped (c : Char) : List Char :=
  if c = '"' then ['\\', '"']
  else if c = '\\' then ['\\', '\\']
  else if c = '\n' then ['\\', 'n']
  else if c = '\t' then ['\\', 't']
  else if c = '\r' then ['\\', 'r']
  else if c = '\x08' then ['\\', 'b']
  else if c = '\x0c' then ['\\', 'f']
  else if c.toNat < 0x20 then
    ['\\', 'u', '0', '0', Nat.digitChar (c.toNat / 16), Nat.digitChar (c.toNat % 16)]
  else [c]

/-- A string between quotation marks. One with a lone surrogate has no text and is written empty. -/
def quoted (content : Json.Content) : List Char :=
  '"' :: (content.getD "").toList.flatMap escaped ++ ['"']

mutual

/-- The text of a value. -/
def write : Json → List Char
  | .null => ['n', 'u', 'l', 'l']
  | .bool true => ['t', 'r', 'u', 'e']
  | .bool false => ['f', 'a', 'l', 's', 'e']
  | .number literal => literal
  | .string content => quoted content
  | .array items => '[' :: writeItems items ++ [']']
  | .object fields => '{' :: writeFields fields ++ ['}']

/-- Values with commas between them. -/
def writeItems : List Json → List Char
  | [] => []
  | [item] => write item
  | item :: next :: rest => write item ++ ',' :: writeItems (next :: rest)

/-- Fields with commas between them. -/
def writeFields : List (Json.Content × Json) → List Char
  | [] => []
  | [(name, value)] => quoted name ++ ':' :: write value
  | (name, value) :: next :: rest => quoted name ++ ':' :: write value ++ ',' :: writeFields (next :: rest)

end

/-- The text of a value as a string. -/
def toText (value : Json) : String :=
  String.ofList value.write

end ChessArbiter.Json
