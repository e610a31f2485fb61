import ChessArbiter.Scalar
import ChessArbiter.Text.Blank
import ChessArbiter.Text.Numeral
import ChessArbiter.Chess.Error

/-! # Time controls

A time control is read from the name of a preset or from minutes and an increment with a plus sign
between them. Its text has that second form and says nothing of the time added after a number of
moves.
-/

namespace ChessArbiter

structure TimeControl where
  /-- The seconds with which each side begins. -/
  initial : UInt32
  /-- The seconds added after every move. -/
  increment : UInt32
  /-- The move after which `extra` is added once; zero for never. -/
  extraAfter : UInt32
  extra : UInt32
deriving DecidableEq

namespace TimeControl

def bullet : TimeControl := ⟨60, 0, 0, 0⟩

def blitz : TimeControl := ⟨300, 3, 0, 0⟩

def rapid : TimeControl := ⟨900, 10, 0, 0⟩

def classical : TimeControl := ⟨5400, 30, 40, 1800⟩

/-- The presets with their names. -/
def presets : List (String × TimeControl) :=
  [("bullet", bullet), ("blitz", blitz), ("rapid", rapid), ("classical", classical)]

def text (control : TimeControl) : String :=
  String.ofList (Text.digits (control.initial.toNat / 60) ++
    '+' :: Text.digits control.increment.toNat)

/-- Minutes, at least one, and an increment, each with blanks around it. -/
def ofParts? (minutes increment : List Char) : Option TimeControl := do
  let minutes ← Text.natural32? (Text.trimList minutes)
  let increment ← Text.natural32? (Text.trimList increment)
  if minutes = 0 then none else some ⟨minutes * 60, increment, 0, 0⟩

/-- The two parts of a text on either side of its first plus sign. -/
def cut? (text : List Char) : Option (List Char × List Char) :=
  match text.span (· != '+') with
  | (minutes, _ :: increment) => some (minutes, increment)
  | (_, []) => none

/-- The name of a preset in any case, or minutes and an increment. -/
def read? (text : List Char) : Option TimeControl :=
  let trimmed := Text.trimList text
  match presets.find? fun preset => preset.1.toList == Text.lowerAscii trimmed with
  | some preset => some preset.2
  | none => (cut? trimmed).bind fun (minutes, increment) => ofParts? minutes increment

def ofText? (text : String) : Except ChessError TimeControl :=
  match read? text.toList with
  | some control => .ok control
  | none => .error (.timeControlText text)

variable {α : Type} [Scalar α]

/-- The seconds with which each side begins. -/
def initialSeconds (control : TimeControl) : α :=
  Scalar.ofInt control.initial.toNat

/-- The seconds that a side gains by completing the move of this number. -/
def bonusAfter (control : TimeControl) (moveNumber : Nat) : α :=
  let increment : α := Scalar.ofInt control.increment.toNat
  if 0 < control.extraAfter ∧ moveNumber = control.extraAfter.toNat then
    increment + Scalar.ofInt control.extra.toNat
  else increment

end TimeControl

end ChessArbiter
