import ChessArbiter.Text.Blank
import ChessArbiter.Chess.Error
import ChessArbiter.Chess.Move

/-! # Move requests

A request names a move in coordinate notation without promising that its parts are squares or a
piece: `ofText?` cuts a text of four or five ASCII characters, and `move?` says which move the parts
name, if any. The text of a request is its parts side by side.
-/

namespace ChessArbiter

structure MoveRequest where
  source : String
  target : String
  promotion : Option String
deriving DecidableEq

namespace MoveRequest

def text (request : MoveRequest) : String :=
  request.source ++ request.target ++ request.promotion.getD ""

/-- Two characters, two characters and at most one more, blanks around them dropped. -/
def ofText? (text : String) : Except ChessError MoveRequest :=
  let trimmed := Text.trimList text.toList
  if trimmed.all (·.toNat < 128) ∧ (trimmed.length = 4 ∨ trimmed.length = 5) then
    let promotion := trimmed.drop 4
    .ok {
      source := String.ofList (trimmed.take 2)
      target := String.ofList ((trimmed.drop 2).take 2)
      promotion := if promotion.isEmpty then none else some (String.ofList promotion) }
  else .error (.moveText (String.ofList trimmed))

/-- The piece that a letter names, of either case. -/
def promotionOfText? (text : String) : Option Promotion :=
  Promotion.all.find? fun promotion => Text.lowerAscii text.toList == [promotion.letter]

/-- The promotion that a request asks for, where it asks for one. -/
def promotion? (request : MoveRequest) : Except ChessError (Option Promotion) :=
  match request.promotion with
  | none => .ok none
  | some text =>
    match promotionOfText? text with
    | some promotion => .ok (some promotion)
    | none => .error .promotionPiece

/-- The move that a request names. The source is judged first, then the target, then the
promotion. -/
def move? (request : MoveRequest) : Except ChessError Move := do
  let some source := Square.ofName? request.source.toList | .error .sourceSquare
  let some target := Square.ofName? request.target.toList | .error .targetSquare
  return ⟨source, target, ← request.promotion?⟩

end MoveRequest

end ChessArbiter
