/-! # What is refused as chess

A text or a request that is not in the notation fails validation; a FEN that describes no playable
board is an invalid position. Each cause carries what its message quotes.
-/

namespace ChessArbiter

inductive FenError where
  /-- The text does not have the form of a FEN. -/
  | malformed (text : String)
  /-- The board it describes contradicts the rules. -/
  | unsound
deriving DecidableEq

def FenError.message : FenError → String
  | .malformed text => "Invalid FEN string: " ++ text
  | .unsound =>
    "The board specified did not pass sanity checks.  Are you sure the kings exist and " ++
      "the side to move cannot capture the opposing king?"

inductive ChessError where
  /-- A text that is not a move, without the blanks around it. -/
  | moveText (text : String)
  | sourceSquare
  | targetSquare
  | promotionPiece
  /-- A text that is not a time control, as it was given. -/
  | timeControlText (text : String)
  | fen (cause : FenError)
deriving DecidableEq

namespace ChessError

inductive Category where
  | validation
  | position
deriving DecidableEq

/-- The message of an error of this category with the given detail. -/
def Category.message : Category → String → String
  | .validation, detail => "Validation error: " ++ detail
  | .position, detail => "Invalid position: " ++ detail

def category : ChessError → Category
  | .fen _ => .position
  | _ => .validation

def detail : ChessError → String
  | .moveText text => "Invalid move notation: " ++ text
  | .sourceSquare => "Invalid from square"
  | .targetSquare => "Invalid to square"
  | .promotionPiece => "Invalid promotion piece"
  | .timeControlText text => "Invalid time control: " ++ text
  | .fen cause => "Invalid FEN: " ++ cause.message

def message (error : ChessError) : String :=
  error.category.message error.detail

end ChessError

end ChessArbiter
