import ChessArbiter.Text.Numeral

/-! # JSON values

Objects keep the order of their fields and may repeat a name, numbers keep the literal they were
written with, and a text may stand for no sequence of characters: an escape can name one half of a
surrogate pair without the other. What such a document means is left to whoever decodes it.
-/

namespace ChessArbiter

/-- The content of a JSON string, `none` where a surrogate stands alone in it. -/
abbrev Json.Content := Option String

inductive Json where
  | null
  | bool (value : Bool)
  | number (literal : List Char)
  | string (content : Json.Content)
  | array (items : List Json)
  | object (fields : List (Json.Content × Json))

namespace Json

/-- A JSON string with the given content. -/
def ofString (content : String) : Json :=
  .string (some content)

/-- A number written as an integer. -/
def ofInt (n : Int) : Json :=
  .number (Text.integer n)

/-- A number written as an integer without a sign. -/
def ofNat (n : Nat) : Json :=
  .number (Text.digits n)

/-- An object with the given fields, in order. -/
def record (fields : List (String × Json)) : Json :=
  .object (fields.map fun field => (some field.1, field.2))

/-- A value, or `null` where there is none. -/
def optional (value : Option Json) : Json :=
  value.getD .null

/-- The value of an integer literal; zero has no negative form. -/
def literalInteger? : List Char → Option Int
  | '-' :: text => ((Text.digitsValue? text).filter (· ≠ 0)).map fun n => -(n : Int)
  | text => (Text.digitsValue? text).map Int.ofNat

end Json

end ChessArbiter
