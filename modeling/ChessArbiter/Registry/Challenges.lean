import ChessArbiter.Registry.Matches

/-! # Operations on challenges

A challenger may have one open challenge for each other client. It ends when it is accepted, declined
or revoked. Accepting needs both clients to be free; where one is not, the challenge stays open.
-/

namespace ChessArbiter.Registry

variable {α : Type}

/-- The registry with a challenge opened. -/
def openChallenge (registry : Registry α) (challenge : Challenge) : Registry α :=
  let others := registry.challenges[challenge.challenger]?.getD ∅
  { registry with
    challenges := registry.challenges.insert challenge.challenger
      (others.insert challenge.challenged challenge) }

/-- The registry with a challenge closed; a challenger with no open challenge has no entry. -/
def closeChallenge (registry : Registry α) (challenger challenged : ClientKey) : Registry α :=
  match registry.challenges[challenger]? with
  | none => registry
  | some others =>
    let rest := others.erase challenged
    { registry with
      challenges :=
        if rest.isEmpty then registry.challenges.erase challenger
        else registry.challenges.insert challenger rest }

/-- Why a challenge cannot be opened, where there is a reason. -/
def challengeFault? (registry : Registry α) (roles : ClientKey → Role) (challenge : Challenge) :
    Option RegistryError :=
  if challenge.challenger = challenge.challenged then some .selfChallenge
  else if !registry.canStart challenge.challenger (roles challenge.challenger) then
    some .unavailable
  else if (registry.challenge? challenge.challenger challenge.challenged).isSome then
    some .duplicateChallenge
  else none

/-- Opens a challenge. -/
def challenge (registry : Registry α) (roles : ClientKey → Role) (challenge : Challenge) :
    Step α (Except RegistryError Unit) :=
  match registry.challengeFault? roles challenge with
  | some error => .refused registry error [.challengeRequestFailed challenge error.message]
  | none =>
    { answer := .ok ()
      registry := registry.openChallenge challenge
      notices := [.challengeCreated challenge]
      alarms := [] }

end Registry

/-- The notice that tells how a challenge ended. -/
def Challenge.resolved {α : Type} (challenge : Challenge) : ChallengeResolution → Notice α
  | .accepted => .challengeAccepted challenge
  | .declined => .challengeDenied challenge
  | .revoked => .challengeRevoked challenge

namespace Registry

/-- Closes an open challenge and tells how it ended. -/
def resolve (registry : Registry α) (challenger challenged : ClientKey)
    (resolution : ChallengeResolution) : Step α (Except RegistryError Unit) :=
  match registry.challenge? challenger challenged with
  | none => .refused (registry.closeChallenge challenger challenged) .challengeNotFound []
  | some challenge =>
    { answer := .ok ()
      registry := registry.closeChallenge challenger challenged
      notices := [challenge.resolved resolution]
      alarms := [] }

def decline (registry : Registry α) (challenged challenger : ClientKey) :
    Step α (Except RegistryError Unit) :=
  registry.resolve challenger challenged .declined

def revoke (registry : Registry α) (challenger challenged : ClientKey) :
    Step α (Except RegistryError Unit) :=
  registry.resolve challenger challenged .revoked

variable [Scalar α]

/-- Turns an open challenge into a match with the given identity, whose colours follow the draw where
the challenge leaves them open. -/
def accept (registry : Registry α) (roles : ClientKey → Role) (challenged challenger : ClientKey)
    (id : MatchId) (draw : Bool) (now : Instant) : Step α (Except RegistryError Unit) :=
  match registry.challenge? challenger challenged with
  | none => .refused registry .challengeNotFound []
  | some challenge =>
    let chessMatch := Match.ofChallenge id challenge draw now
    if registry.canSeat roles chessMatch then
      let closed := registry.resolve challenger challenged .accepted
      match closed.answer with
      | .error _ => closed
      | .ok () =>
        let seated := closed.registry.register roles chessMatch now
        { seated with notices := closed.notices ++ seated.notices }
    else
      .refused registry .participantUnavailable
        [.challengeRequestFailed challenge RegistryError.participantUnavailable.message]

end ChessArbiter.Registry
