import ChessArbiter.Client

/-! # Pairing waiting clients

The weight of a pair is the distance of the ratings, and less the longer the first of the two has
waited. Clients are taken in order; each is paired with the one behind it of least weight that is
still free, where that weight does not exceed the threshold.

Ratings are 32-bit numbers and so is their distance, which wraps around where it does not fit.
-/

namespace ChessArbiter

variable {α : Type} [Scalar α]

/-- How far the ratings of two clients are apart, in 32 bits. -/
def ratingDistance (candidate opponent : QueuedClient) : Int32 :=
  (candidate.profile.elo - opponent.profile.elo).abs

/-- What it costs to pair a candidate with an opponent. Fifty seconds are added to the wait, so that
newcomers are not divided by nothing and early waits count for less. -/
def pairingWeight (candidate opponent : QueuedClient) (now : Instant) : α :=
  Scalar.ofInt (ratingDistance candidate opponent).toInt *
    (Scalar.ofInt 100 / (candidate.waited now + Scalar.ofInt 50))

/-- The weight does not exceed the threshold. -/
def matchable (threshold weight : α) : Bool :=
  weight ≤ threshold

structure Pairing (α : Type) where
  first : QueuedClient
  second : QueuedClient
  weight : α
deriving DecidableEq

/-- The better of the best opponent so far and another, which has to have a smaller weight. -/
def betterOpponent (candidate : QueuedClient) (now : Instant) (best : Option (QueuedClient × α))
    (opponent : QueuedClient) : Option (QueuedClient × α) :=
  let weight := pairingWeight candidate opponent now
  match best with
  | some (_, least) => if least ≤ weight then best else some (opponent, weight)
  | none => some (opponent, weight)

/-- The earliest opponent of least weight, with that weight. -/
def bestOpponent (candidate : QueuedClient) (opponents : List QueuedClient) (now : Instant) :
    Option (QueuedClient × α) :=
  opponents.foldl (betterOpponent candidate now) none

/-- The pairs among the rest of the clients, without those already taken. -/
def pairsAmong (threshold : α) (now : Instant) (taken : List ClientKey) :
    List QueuedClient → List (Pairing α)
  | [] => []
  | candidate :: rest =>
    if taken.contains candidate.key then pairsAmong threshold now taken rest
    else
      match bestOpponent candidate (rest.filter fun other => !taken.contains other.key) now with
      | none => pairsAmong threshold now taken rest
      | some (opponent, weight) =>
        if matchable threshold weight then
          ⟨candidate, opponent, weight⟩ ::
            pairsAmong threshold now (candidate.key :: opponent.key :: taken) rest
        else pairsAmong threshold now taken rest

/-- The pairs among waiting clients, in the order of their first clients. -/
def findPairs (threshold : α) (queued : List QueuedClient) (now : Instant) : List (Pairing α) :=
  pairsAmong threshold now [] queued

end ChessArbiter
