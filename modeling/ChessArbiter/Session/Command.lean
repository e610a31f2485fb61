import ChessArbiter.Match.Amendment
import ChessArbiter.Pool
import ChessArbiter.Registry.Basic

/-! # Commands and answers of a session

A command names matches by their names in the session. A fault is whatever part of the arbiter
refuses a command.
-/

namespace ChessArbiter

inductive Command where
  | setRole (key : ClientKey) (role : Role)
  /-- Nobody listens to notices any more. -/
  | closeSink
  | challenge (challenge : Challenge)
  | accept (challenged challenger : ClientKey)
  | decline (challenged challenger : ClientKey)
  | revoke (challenger challenged : ClientKey)
  | challenges (challenger : ClientKey)
  | openChallenge (challenger challenged : ClientKey)
  /-- A new match, under the identity of a named one where `reused` names it. -/
  | addMatch (white black : ClientKey) (control : TimeControl) (amendment : Amendment Float)
      (reused : Option String)
  | move (name : String) (request : Except ChessError MoveRequest)
  /-- Writes an amended match over the stored one. -/
  | setMatch (name : String) (amendment : Amendment Float)
  | removeMatch (name : String)
  | resign (name : String) (key : ClientKey)
  /-- Lets the clock of a match ring for a generation. -/
  | expire (name : String) (generation : Nat)
  | showMatch (name : String)
  | matchOf (key : ClientKey)
  | canStart (key : ClientKey)
  | enqueue (profile : ClientProfile)
  | leave (key : ClientKey)
  | requeue (client : QueuedClient)
  | snapshot
  | queueState (key : ClientKey)
  /-- One pass of the scheduler. -/
  | tick
  /-- The scheduler runs for so many milliseconds of the timer. -/
  | run (millis : Nat)
  /-- The wall clock moves, alone. -/
  | clock (millis : Int)
  | setClock (millis : Int)
  /-- The timer's time passes, alone. -/
  | sleep (millis : Nat)
  /-- The wall clock moves, and then the timer's time passes. -/
  | advance (millis : Nat)

inductive Fault where
  | chess (cause : ChessError)
  | registry (cause : RegistryError)
  | queue (cause : PoolError)
deriving DecidableEq

def Fault.message : Fault → String
  | .chess cause => cause.message
  | .registry cause => cause.message
  | .queue cause => cause.clientMessage

inductive Answer where
  | done
  | refused (fault : Fault)
  | flag (value : Bool)
  | count (number : Nat)
  /-- What the wall clock shows, in milliseconds. -/
  | clock (millis : Int)
  | challenges (challenges : List Challenge)
  | challenge (challenge : Option Challenge)
  | entered (id : MatchId)
  | chessMatch (chessMatch : Option (Match Float))
  | client (client : QueuedClient)
  /-- The waiting clients and the seconds for which each has waited. -/
  | clients (clients : List (QueuedClient × Float))
  | queueState (size : Nat) (isEmpty contains : Bool)

namespace Answer

/-- The answer to a call that yields nothing. -/
def ofResult {ε : Type} (fault : ε → Fault) : Except ε Unit → Answer
  | .ok () => .done
  | .error error => .refused (fault error)

end Answer

end ChessArbiter
