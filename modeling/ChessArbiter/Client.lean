import ChessArbiter.Scalar
import ChessArbiter.Time.Instant

/-! # Clients

A client is known by its key. Whether it is a player or a bot is asked anew each time it matters; a
bot may sit in any number of matches at once.
-/

namespace ChessArbiter

abbrev ClientKey := String

inductive Role where
  | player
  | bot
deriving DecidableEq

structure ClientProfile where
  key : ClientKey
  elo : Int32
  winStreak : Int32
  lossStreak : Int32
deriving DecidableEq

/-- A client that waits for a match, and since when. -/
structure QueuedClient where
  profile : ClientProfile
  joinedAt : Instant
deriving DecidableEq

namespace QueuedClient

def key (client : QueuedClient) : ClientKey :=
  client.profile.key

/-- The seconds for which a client has waited, none where it joins in the future. -/
def waited {α : Type} [Scalar α] (client : QueuedClient) (now : Instant) : α :=
  Scalar.atLeast (Scalar.ofInt 0) (Scalar.ofMillis (now.millisSince client.joinedAt))

end QueuedClient

end ChessArbiter
