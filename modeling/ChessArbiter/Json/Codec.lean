import ChessArbiter.Json.Reader
import ChessArbiter.Json.Writer

/-! # Values as JSON

A record is an object with the fields of the record, in any order and possibly among others, or an
array with exactly the values of the fields in their order. An object that names a field twice, or
that has a field whose name stands for no text, is no record. A value of an enumeration is its name,
or an object with that name alone and `null` under it.
-/

namespace ChessArbiter

/-- Types whose values are written as JSON and read back. -/
class Encoding (α : Type) where
  encode : α → Json
  decode? : Json → Option α

/-- The JSON text of a value. -/
def Encoding.text {α : Type} [Encoding α] (value : α) : String :=
  (Encoding.encode value).toText

/-- The value of a JSON text. -/
def Encoding.ofText? {α : Type} [Encoding α] (text : String) : Option α :=
  (Json.parse? text).bind Encoding.decode?

namespace Json

def bool? : Json → Option Bool
  | .bool value => some value
  | _ => none

/-- The content of a string that stands for a text. -/
def string? : Json → Option String
  | .string content => content
  | _ => none

/-- A number written as an integer. -/
def integer? : Json → Option Int
  | .number literal => literalInteger? literal
  | _ => none

/-- An integer of 32 bits without a sign. -/
def natural32? (value : Json) : Option UInt32 :=
  value.integer?.bind fun n =>
    if 0 ≤ n ∧ n < UInt32.size then some (UInt32.ofNat n.toNat) else none

/-- An integer of 32 bits. -/
def integer32? (value : Json) : Option Int32 :=
  value.integer?.bind fun n =>
    if Int32.minValue.toInt ≤ n ∧ n ≤ Int32.maxValue.toInt then some (Int32.ofInt n) else none

/-- The value of a field that may be there once, `none` where it is there more often. -/
def field? (fields : List (Json.Content × Json)) (name : String) : Option (Option Json) :=
  match fields.filter fun field => field.1 == some name with
  | [] => some none
  | [field] => some (some field.2)
  | _ => none

/-- The values of a record's fields in the order of their names, each `none` where it is missing. -/
def fields? (names : List String) : Json → Option (List (Option Json))
  | .array items => if items.length = names.length then some (items.map some) else none
  | .object fields =>
    if fields.all (·.1.isSome) then names.mapM (field? fields) else none
  | _ => none

/-- The values of a record of which no field may be missing. -/
def record? (names : List String) (value : Json) : Option (List Json) :=
  (value.fields? names).bind fun values => values.mapM id

/-- The name of a value of an enumeration. -/
def variant? : Json → Option String
  | .string name => name
  | .object [(name, .null)] => name
  | _ => none

/-- The value of an enumeration that has the name. -/
def enumerated? {α : Type} (values : List α) (name : α → String) (value : Json) : Option α :=
  value.variant?.bind fun written => values.find? fun candidate => name candidate == written

end Json

end ChessArbiter
