import ChessArbiter.Match.Basic

/-! # Amendments

An amendment replaces some of what a match says. Times are taken as they are, without the floor that
a clock has elsewhere. A position is given as a FEN, and where that cannot be read nothing is
amended.
-/

namespace ChessArbiter

structure Amendment (α : Type) where
  white : Option ClientKey
  black : Option ClientKey
  whiteTime : Option α
  blackTime : Option α
  timeControl : Option TimeControl
  lastMove : Option Instant
  result : Option MatchResult
  generation : Option Nat
  history : Option (List String)
  fen : Option String

/-- The match with what an amendment gives in place of its own. -/
def Match.amend {α : Type} (chessMatch : Match α) (amendment : Amendment α) :
    Except ChessError (Match α) := do
  let position ← match amendment.fen with
    | some fen => Position.ofFen? fen
    | none => .ok chessMatch.position
  return {
    id := chessMatch.id
    position := position
    white := amendment.white.getD chessMatch.white
    whiteTime := amendment.whiteTime.getD chessMatch.whiteTime
    black := amendment.black.getD chessMatch.black
    blackTime := amendment.blackTime.getD chessMatch.blackTime
    timeControl := amendment.timeControl.getD chessMatch.timeControl
    lastMove := amendment.lastMove.getD chessMatch.lastMove
    result := amendment.result.getD chessMatch.result
    generation := amendment.generation.getD chessMatch.generation
    history := amendment.history.getD chessMatch.history }

end ChessArbiter
