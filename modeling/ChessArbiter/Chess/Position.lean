import ChessArbiter.Chess.Fen
import ChessArbiter.Chess.Legality
import ChessArbiter.Chess.MoveRequest

/-! # Positions of a game

A position is a board with what a game adds to it: the close checkers, the half-move clock, the number
of the full move, and the boards that could still recur. A move is refused once the position has an
outcome. The outcome is judged after each move and not when a position is set up. The two counters are
not bounded.
-/

namespace ChessArbiter

/-- How the rules of chess end a game, whatever the clocks say. -/
inductive Outcome where
  | checkmate (winner : Colour)
  | stalemate
  | insufficientMaterial
  | fiftyMoveRule
  | threefoldRepetition
deriving DecidableEq

namespace Placement

/-- How many pieces of a kind there are, of both colours together. -/
def countKind (placement : Placement) (kind : Kind) : Nat :=
  placement.pieces.countP fun entry => entry.2.kind == kind

/-- The squares of all bishops. -/
def bishopSquares (placement : Placement) : List Square :=
  (placement.pieces.filter fun entry => entry.2.kind == .bishop).map (·.1)

/-- Nothing is left that could mate: no pawn, rook or queen, and either three pieces at most, or no
knight and all bishops on squares of one colour. -/
def insufficientMaterial (placement : Placement) : Bool :=
  placement.countKind .pawn + placement.countKind .rook + placement.countKind .queen == 0 &&
    (decide (placement.pieces.length ≤ 3) ||
      (placement.countKind .knight == 0 &&
        (placement.bishopSquares.all (·.isDark) || placement.bishopSquares.all (!·.isDark))))

end Placement

structure Position where
  board : Board
  /-- The knights and pawns that are known to give check. -/
  closeCheckers : List Square
  /-- Moves since the last capture or pawn move. -/
  halfmoveClock : Nat
  /-- The number of the move, counted up after Black has moved. -/
  fullmoveNumber : Nat
  /-- The boards since the last capture or pawn move, the present one last. -/
  repetitions : List Board
  outcome : Option Outcome
deriving DecidableEq

namespace Board

/-- The placement at the beginning of a game. -/
def startText : List Char :=
  "rnbqkbnr/pppppppp/8/8/8/8/PPPPPPPP/RNBQKBNR".toList

/-- The board at the beginning of a game. -/
def start : Board :=
  { placement := (Placement.read? startText).getD .empty
    turn := .white
    rights := ⟨true, true, true, true⟩
    enPassant := none }

/-- A capture or a pawn move, after which no earlier board can recur. A capture in passing is a pawn
move. -/
def irreversible (board : Board) (move : Move) : Bool :=
  board.movesPawn move || (board.piece move.target).isSome

/-- The outcome of a game that has come to this board. -/
def outcome (board : Board) (close : List Square) (halfmoveClock : Nat)
    (repetitions : List Board) : Option Outcome :=
  if (board.moves close).isEmpty then
    some (if (board.checkers close).isEmpty then .stalemate else .checkmate board.turn.other)
  else if board.placement.insufficientMaterial then some .insufficientMaterial
  else if 100 ≤ halfmoveClock then some .fiftyMoveRule
  else if 3 ≤ repetitions.count board then some .threefoldRepetition
  else none

end Board

namespace Position

/-- The position that begins on a board. All knights and pawns that give check are known. -/
def ofBoard (board : Board) (halfmoveClock fullmoveNumber : Nat) : Position :=
  { board := board
    closeCheckers := board.placement.closeCheckers board.turn
    halfmoveClock := halfmoveClock
    fullmoveNumber := fullmoveNumber
    repetitions := [board]
    outcome := none }

/-- The position at the beginning of a game. -/
def start : Position :=
  ofBoard .start 0 1

/-- A counter of a FEN: the value of a field between blanks, if there is one and it is a numeral
below `2 ^ 32`. -/
def counter (text : List Char) (field default : Nat) : Nat :=
  (((Text.words text)[field]?.bind Text.natural32?).map (·.toNat)).getD default

/-- The position that a FEN describes; counters that are missing or no numerals are 0 and 1. -/
def ofFen? (fen : String) : Except ChessError Position :=
  match Board.read? fen.toList with
  | .ok board => .ok (ofBoard board (counter fen.toList 4 0) (counter fen.toList 5 1))
  | .error cause => .error (.fen cause)

/-- The FEN of a position. -/
def fen (position : Position) : String :=
  String.ofList (position.board.write ++ ' ' :: Text.digits position.halfmoveClock ++
    ' ' :: Text.digits position.fullmoveNumber)

/-- The moves that are allowed, whether or not the position has an outcome. -/
def moves (position : Position) : List Move :=
  position.board.moves position.closeCheckers

/-- The source and target of each move that is allowed, side by side; the four promotions of a pawn
look the same. -/
def moveTexts (position : Position) : List String :=
  position.moves.map fun move => String.ofList (move.source.name ++ move.target.name)

/-- The position after a move, with its outcome. -/
def play (position : Position) (move : Move) : Position :=
  let board := position.board.play move
  let close := position.board.closeAfter move
  let irreversible := position.board.irreversible move
  let halfmoveClock := if irreversible then 0 else position.halfmoveClock + 1
  let repetitions := (if irreversible then [] else position.repetitions) ++ [board]
  { board := board
    closeCheckers := close
    halfmoveClock := halfmoveClock
    fullmoveNumber :=
      if position.board.turn = .black then position.fullmoveNumber + 1 else position.fullmoveNumber
    repetitions := repetitions
    outcome := board.outcome close halfmoveClock repetitions }

/-- The request names a move that is allowed, and the game is not over. -/
def accepts (position : Position) (request : MoveRequest) : Bool :=
  position.outcome.isNone &&
    match request.move? with
    | .ok move => position.board.allows position.closeCheckers move
    | .error _ => false

/-- The position after a requested move. A request that names no move changes nothing. -/
def apply (position : Position) (request : MoveRequest) : Position :=
  match request.move? with
  | .ok move => position.play move
  | .error _ => position

end Position

end ChessArbiter
