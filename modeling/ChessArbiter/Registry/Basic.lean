import Std.Data.ExtTreeMap
import ChessArbiter.Notice

/-! # The registry of matches and challenges

The registry holds the matches that are being played, the match in which each player sits, the open
challenges and the clock of each match. Bots are not seated, so that they may play any number of
matches.

An operation yields a `Step`: its answer, the registry after it, the notices it publishes in order,
and what it asks of the timer. What the role table says while the operation runs is given to it as a
function.
-/

namespace ChessArbiter

instance : Ord MatchId :=
  ⟨fun a b => compare a.number b.number⟩

theorem MatchId.compare_eq (a b : MatchId) : compare a b = compare a.number b.number :=
  rfl

instance : Std.TransOrd MatchId where
  eq_swap {a b} := by
    rw [MatchId.compare_eq, MatchId.compare_eq, Std.OrientedOrd.eq_swap]
  isLE_trans {a b c} first second := by
    rw [MatchId.compare_eq] at first second ⊢
    exact Std.TransOrd.isLE_trans first second

instance : Std.LawfulEqOrd MatchId where
  eq_of_compare {a b} equal := by
    rw [MatchId.compare_eq, Std.LawfulEqOrd.compare_eq_iff_eq] at equal
    obtain ⟨_⟩ := a
    exact congrArg MatchId.mk equal

/-- Why the registry refuses an operation. -/
inductive RegistryError where
  | selfChallenge
  | unavailable
  | duplicateChallenge
  | challengeNotFound
  | participantUnavailable
  | matchNotFound
  | illegalMove
  | immutableFieldChanged
  | notParticipant
deriving DecidableEq

def RegistryError.message : RegistryError → String
  | .selfChallenge => "Cannot challenge yourself"
  | .unavailable => "Challenger cannot start a match right now"
  | .duplicateChallenge => "An open challenge already exists for this player"
  | .challengeNotFound => "Challenge not found"
  | .participantUnavailable => "A participant is already playing another match"
  | .matchNotFound => "Match not found"
  | .illegalMove => "Move is not legal"
  | .immutableFieldChanged => "Match participants and time control cannot change"
  | .notParticipant => "Client is not a participant of this match"

/-- A clock that runs for the side to move: for which generation of its match, since when, and how
many seconds after that it rings. -/
structure MatchClock (α : Type) where
  generation : Nat
  setAt : Instant
  wait : α

/-- What an operation asks of the timer. -/
inductive Alarm (α : Type) where
  /-- Ring for the match after so many seconds, in place of what was set for it before. -/
  | set (id : MatchId) (generation : Nat) (wait : α)
  /-- Do not ring for the match any more. -/
  | cancel (id : MatchId)
  /-- What was set for the match has rung, or rings without consequence. -/
  | release (id : MatchId)

structure Registry (α : Type) where
  active : Std.ExtTreeMap MatchId (Match α)
  /-- The match in which a player sits. -/
  seats : Std.ExtTreeMap ClientKey MatchId
  /-- The open challenges by challenger and challenged client. -/
  challenges : Std.ExtTreeMap ClientKey (Std.ExtTreeMap ClientKey Challenge)
  clocks : Std.ExtTreeMap MatchId (MatchClock α)

/-- What an operation answers, leaves, publishes and asks of the timer. -/
structure Step (α β : Type) where
  answer : β
  registry : Registry α
  notices : List (Notice α)
  alarms : List (Alarm α)

variable {α : Type}

/-- A step that changes nothing. -/
def Step.refused {β : Type} (registry : Registry α) (error : RegistryError)
    (notices : List (Notice α)) : Step α (Except RegistryError β) :=
  { answer := .error error, registry := registry, notices := notices, alarms := [] }

/-- The same step without the value that it answers. -/
def Step.done {β : Type} (step : Step α (Except RegistryError β)) :
    Step α (Except RegistryError Unit) :=
  { step with answer := step.answer.map fun _ => () }

namespace Registry

def empty : Registry α :=
  ⟨∅, ∅, ∅, ∅⟩

/-- The client may enter a new match: a bot always, a player that sits in none. -/
def canStart (registry : Registry α) (key : ClientKey) (role : Role) : Bool :=
  role == .bot || !registry.seats.contains key

/-- The participants are two clients, and both may enter a new match. -/
def canSeat (registry : Registry α) (roles : ClientKey → Role) (chessMatch : Match α) : Bool :=
  chessMatch.white != chessMatch.black &&
    registry.canStart chessMatch.white (roles chessMatch.white) &&
    registry.canStart chessMatch.black (roles chessMatch.black)

def match? (registry : Registry α) (id : MatchId) : Option (Match α) :=
  registry.active[id]?

/-- The match in which a player sits. -/
def matchOf? (registry : Registry α) (key : ClientKey) : Option (Match α) :=
  registry.seats[key]?.bind registry.match?

/-- The open challenge from one client to another. -/
def challenge? (registry : Registry α) (challenger challenged : ClientKey) : Option Challenge :=
  registry.challenges[challenger]?.bind (·[challenged]?)

/-- The open challenges of a challenger, in the order of the challenged clients. -/
def challengesOf (registry : Registry α) (challenger : ClientKey) : List Challenge :=
  (registry.challenges[challenger]?.map (·.values)).getD []

end Registry

end ChessArbiter
