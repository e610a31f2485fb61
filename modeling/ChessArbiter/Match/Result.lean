import ChessArbiter.Chess.Position

/-! # Results of a match -/

namespace ChessArbiter

/-- How a match is won. -/
inductive Victory where
  | checkmate
  | timeout
  | resignation
deriving DecidableEq

/-- How a match is drawn. -/
inductive Draw where
  | stalemate
  | insufficientMaterial
  | fiftyMoveRule
  | threefoldRepetition
deriving DecidableEq

inductive MatchResult where
  | inProgress
  | win (winner : Colour) (cause : Victory)
  | draw (cause : Draw)
deriving DecidableEq

namespace MatchResult

/-- The match is over. -/
def isTerminal (result : MatchResult) : Bool :=
  result != .inProgress

/-- What the outcome on the board means for the match. -/
def ofOutcome : Option Outcome → MatchResult
  | none => .inProgress
  | some (.checkmate winner) => .win winner .checkmate
  | some .stalemate => .draw .stalemate
  | some .insufficientMaterial => .draw .insufficientMaterial
  | some .fiftyMoveRule => .draw .fiftyMoveRule
  | some .threefoldRepetition => .draw .threefoldRepetition

end MatchResult

end ChessArbiter
