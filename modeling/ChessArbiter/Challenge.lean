import ChessArbiter.Client
import ChessArbiter.TimeControl
import ChessArbiter.Chess.Square

/-! # Challenges

A challenge invites one client to a match with another. The challenger asks for a colour by one of
two flags; with neither or both of them set it leaves the colour open.
-/

namespace ChessArbiter

structure Challenge where
  challenger : ClientKey
  challenged : ClientKey
  asksWhite : Bool
  asksBlack : Bool
  timeControl : TimeControl
deriving DecidableEq

/-- The ways in which an open challenge ends. -/
inductive ChallengeResolution where
  | accepted
  | declined
  | revoked
deriving DecidableEq

namespace Challenge

/-- The challenge with the challenger asking for the given colour alone. -/
def asking (challenge : Challenge) (colour : Colour) : Challenge :=
  { challenge with asksWhite := colour == .white, asksBlack := colour == .black }

/-- The colour that the challenger asks for. -/
def requested (challenge : Challenge) : Option Colour :=
  match challenge.asksWhite, challenge.asksBlack with
  | true, false => some .white
  | false, true => some .black
  | _, _ => none

end Challenge

end ChessArbiter
