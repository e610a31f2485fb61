import ChessArbiter.Challenge
import ChessArbiter.Match.Result

/-! # Matches

A match is a position, two participants, a clock for each and what has become of it. Participants and
time control are its identity and never change. The generation counts the writes to a registered
match, by which a clock set before a write knows that it is stale.

Generations are counted in 64 bits and the counters of a position in 32, and the timer takes waits of
less than `2 ^ 64` seconds. The numbers here have no such bounds; `Proofs/Registry/Bounds.lean` says for
how long they stay inside them.
-/

namespace ChessArbiter

/-- A match's identity, of which nothing is known but whether two are equal. -/
structure MatchId where
  number : Nat
deriving DecidableEq

structure Match (α : Type) where
  id : MatchId
  position : Position
  white : ClientKey
  whiteTime : α
  black : ClientKey
  blackTime : α
  timeControl : TimeControl
  lastMove : Instant
  result : MatchResult
  generation : Nat
  history : List String
deriving BEq, DecidableEq

namespace Match

variable {α : Type}

/-- The participant that plays a colour. -/
def client (chessMatch : Match α) : Colour → ClientKey
  | .white => chessMatch.white
  | .black => chessMatch.black

/-- The colour that a client plays, white where it plays both. -/
def colourOf? (chessMatch : Match α) (key : ClientKey) : Option Colour :=
  if chessMatch.white = key then some .white
  else if chessMatch.black = key then some .black
  else none

def participants (chessMatch : Match α) : List ClientKey :=
  [chessMatch.white, chessMatch.black]

/-- The seconds that a side has left. -/
def time (chessMatch : Match α) : Colour → α
  | .white => chessMatch.whiteTime
  | .black => chessMatch.blackTime

/-- The side to move. -/
def turn (chessMatch : Match α) : Colour :=
  chessMatch.position.board.turn

def isTerminal (chessMatch : Match α) : Bool :=
  chessMatch.result.isTerminal

/-- The participants and the time control agree. -/
def sameIdentity (a b : Match α) : Bool :=
  a.white == b.white && a.black == b.black && a.timeControl == b.timeControl

variable [Scalar α]

/-- The match with one side's clock set; a clock never shows less than nothing. -/
def withTime (chessMatch : Match α) (colour : Colour) (seconds : α) : Match α :=
  let seconds := Scalar.atLeast (Scalar.ofInt 0) seconds
  match colour with
  | .white => { chessMatch with whiteTime := seconds }
  | .black => { chessMatch with blackTime := seconds }

/-- A match that begins now. -/
def start (id : MatchId) (white black : ClientKey) (control : TimeControl) (now : Instant) :
    Match α :=
  { id := id
    position := .start
    white := white
    whiteTime := control.initialSeconds
    black := black
    blackTime := control.initialSeconds
    timeControl := control
    lastMove := now
    result := .inProgress
    generation := 0
    history := [] }

/-- A match whose colours are drawn: `draw` gives the first client white. -/
def startDrawn (id : MatchId) (first second : ClientKey) (draw : Bool) (control : TimeControl)
    (now : Instant) : Match α :=
  if draw then start id first second control now else start id second first control now

/-- The match that a challenge asks for; the colours are drawn where it leaves them open. -/
def ofChallenge (id : MatchId) (challenge : Challenge) (draw : Bool) (now : Instant) : Match α :=
  match challenge.requested with
  | some .white => start id challenge.challenger challenge.challenged challenge.timeControl now
  | some .black => start id challenge.challenged challenge.challenger challenge.timeControl now
  | none =>
    startDrawn id challenge.challenger challenge.challenged draw challenge.timeControl now

/-- The seconds since the last move, and at least the given minimum. -/
def elapsed (chessMatch : Match α) (minimum : α) (now : Instant) : α :=
  Scalar.atLeast minimum (Scalar.ofMillis (now.millisSince chessMatch.lastMove))

/-- The match after a move that is allowed. The time since the last move is taken from the mover's
clock. If nothing is left the flag has fallen: the move stands on the board, but the mover loses on
time. Otherwise the mover gains the bonus and the board decides. -/
def afterMove (chessMatch : Match α) (minimum : α) (request : MoveRequest) (now : Instant) :
    Match α :=
  let mover := chessMatch.turn
  let zero : α := Scalar.ofInt 0
  let left := Scalar.atLeast zero (chessMatch.time mover - chessMatch.elapsed minimum now)
  let result := if left ≤ zero then .win mover.other .timeout else chessMatch.result
  let played :=
    { chessMatch.withTime mover left with
      lastMove := now
      result := result
      position := chessMatch.position.apply request
      history := chessMatch.history ++ [request.text] }
  if played.isTerminal then played
  else
    let bonus := chessMatch.timeControl.bonusAfter chessMatch.position.fullmoveNumber
    { played.withTime mover (left + bonus) with
      result := .ofOutcome played.position.outcome }

/-- The match in which the side to move has run out of time. -/
def afterTimeout (chessMatch : Match α) : Match α :=
  { chessMatch.withTime chessMatch.turn (Scalar.ofInt 0) with
    result := .win chessMatch.turn.other .timeout }

/-- The match that a side has resigned. -/
def afterResignation (chessMatch : Match α) (colour : Colour) : Match α :=
  { chessMatch with result := .win colour.other .resignation }

/-- The seconds after which the side to move runs out of time. -/
def untilTimeout (chessMatch : Match α) (now : Instant) : α :=
  let zero : α := Scalar.ofInt 0
  let spent := Scalar.atLeast zero (Scalar.ofMillis (now.millisSince chessMatch.lastMove))
  Scalar.atLeast zero (chessMatch.time chessMatch.turn - spent)

end Match

end ChessArbiter
