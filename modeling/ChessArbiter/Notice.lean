import ChessArbiter.Match.Basic

/-! # Notices

What the arbiter tells its clients. A notice about a match goes to both participants, one about a
challenge to both clients except that a failed request is told to the challenger alone, and a
refused move to the participants that the notice names.
-/

namespace ChessArbiter

inductive Notice (α : Type) where
  | matchCreated (chessMatch : Match α)
  | matchUpdated (chessMatch : Match α)
  | matchEnded (chessMatch : Match α)
  | matchCreationFailed (chessMatch : Match α) (reason : String)
  | challengeCreated (challenge : Challenge)
  | challengeDenied (challenge : Challenge)
  | challengeRevoked (challenge : Challenge)
  | challengeAccepted (challenge : Challenge)
  | challengeRequestFailed (challenge : Challenge) (reason : String)
  | moveFailure (id : MatchId) (move : String) (reason : String) (participants : List ClientKey)
deriving DecidableEq

namespace Notice

variable {α : Type}

def kind : Notice α → String
  | .matchCreated _ => "match_created"
  | .matchUpdated _ => "match_updated"
  | .matchEnded _ => "match_ended"
  | .matchCreationFailed _ _ => "match_creation_failed"
  | .challengeCreated _ => "challenge_created"
  | .challengeDenied _ => "challenge_denied"
  | .challengeRevoked _ => "challenge_revoked"
  | .challengeAccepted _ => "challenge_accepted"
  | .challengeRequestFailed _ _ => "challenge_request_failed"
  | .moveFailure _ _ _ _ => "move_failure"

/-- The match that a notice shows. -/
def match? : Notice α → Option (Match α)
  | .matchCreated chessMatch => some chessMatch
  | .matchUpdated chessMatch => some chessMatch
  | .matchEnded chessMatch => some chessMatch
  | .matchCreationFailed chessMatch _ => some chessMatch
  | _ => none

def recipients : Notice α → List ClientKey
  | .matchCreated chessMatch => chessMatch.participants
  | .matchUpdated chessMatch => chessMatch.participants
  | .matchEnded chessMatch => chessMatch.participants
  | .matchCreationFailed chessMatch _ => chessMatch.participants
  | .challengeCreated challenge => [challenge.challenger, challenge.challenged]
  | .challengeDenied challenge => [challenge.challenger, challenge.challenged]
  | .challengeRevoked challenge => [challenge.challenger, challenge.challenged]
  | .challengeAccepted challenge => [challenge.challenger, challenge.challenged]
  | .challengeRequestFailed challenge _ => [challenge.challenger]
  | .moveFailure _ _ _ participants => participants

end Notice

/-- Why a notice cannot be delivered. -/
inductive DeliveryError where
  | closed
deriving DecidableEq

def DeliveryError.message : DeliveryError → String
  | .closed => "Notification channel is closed"

end ChessArbiter
