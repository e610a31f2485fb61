import ChessArbiter.Registry.Basic

/-! # Operations on matches

Every write to a match counts up its generation and sets its clock anew, so that a clock which rings
for an older generation has no effect. A match that is over leaves the registry together with the
seats of its participants and its clock.

Setting a clock always succeeds here. The timer takes waits of less than `2 ^ 64` seconds and fails where
a side to move has more than that left; `Proofs/Registry/Bounds.lean` says when none has.
-/

namespace ChessArbiter.Registry

variable {α : Type}

/-- The seats without those of a match. A participant that sits in another match keeps that seat. -/
def vacate (registry : Registry α) (chessMatch : Match α) : Std.ExtTreeMap ClientKey MatchId :=
  chessMatch.participants.foldl
    (fun seats key => if seats[key]? = some chessMatch.id then seats.erase key else seats)
    registry.seats

/-- The registry without a match, its seats and its clock. -/
def close (registry : Registry α) (chessMatch : Match α) : Registry α :=
  { registry with
    active := registry.active.erase chessMatch.id
    seats := registry.vacate chessMatch
    clocks := registry.clocks.erase chessMatch.id }

/-- The order to cancel the clock of a match, where it has one. -/
def cancelClock (registry : Registry α) (id : MatchId) : List (Alarm α) :=
  if registry.clocks.contains id then [.cancel id] else []

variable [Scalar α]

/-- The registry with the clock of a match set for what is left of the turn. -/
def setClock (registry : Registry α) (chessMatch : Match α) (now : Instant) : Registry α :=
  { registry with
    clocks := registry.clocks.insert chessMatch.id
      ⟨chessMatch.generation, now, chessMatch.untilTimeout now⟩ }

/-- The order to set the clock of a match. -/
def clockAlarm (chessMatch : Match α) (now : Instant) : Alarm α :=
  .set chessMatch.id chessMatch.generation (chessMatch.untilTimeout now)

/-- The registry with the players of a match seated in it. -/
def seat (registry : Registry α) (roles : ClientKey → Role) (chessMatch : Match α) : Registry α :=
  { registry with
    seats := chessMatch.participants.foldl
      (fun seats key => if roles key = .bot then seats else seats.insert key chessMatch.id)
      registry.seats }

/-- Enters a match: seats its players, stores it and sets its clock. -/
def register (registry : Registry α) (roles : ClientKey → Role) (chessMatch : Match α)
    (now : Instant) : Step α (Except RegistryError Unit) :=
  let seated := registry.seat roles chessMatch
  let stored := { seated with active := seated.active.insert chessMatch.id chessMatch }
  { answer := .ok ()
    registry := stored.setClock chessMatch now
    notices := [.matchCreated chessMatch]
    alarms := [clockAlarm chessMatch now] }

/-- Enters a match whose participants are free. -/
def add (registry : Registry α) (roles : ClientKey → Role) (chessMatch : Match α) (now : Instant) :
    Step α (Except RegistryError Unit) :=
  if registry.canSeat roles chessMatch then registry.register roles chessMatch now
  else
    .refused registry .participantUnavailable
      [.matchCreationFailed chessMatch RegistryError.participantUnavailable.message]

/-- Writes a match over the stored one of the same identity. One that is over is closed. -/
def set (registry : Registry α) (chessMatch : Match α) (now : Instant) :
    Step α (Except RegistryError (Match α)) :=
  match registry.match? chessMatch.id with
  | none => .refused registry .matchNotFound []
  | some stored =>
    if stored.sameIdentity chessMatch then
      let written := { chessMatch with generation := stored.generation + 1 }
      if written.isTerminal then
        { answer := .ok written
          registry := registry.close written
          notices := [.matchEnded written]
          alarms := registry.cancelClock written.id }
      else
        let kept := { registry with active := registry.active.insert written.id written }
        { answer := .ok written
          registry := kept.setClock written now
          notices := [.matchUpdated written]
          alarms := [clockAlarm written now] }
    else .refused registry .immutableFieldChanged []

/-- Plays a move. A move that is refused is told to the participants, or to nobody where there is no
such match. -/
def move (registry : Registry α) (minimum : α) (id : MatchId) (request : MoveRequest)
    (now : Instant) : Step α (Except RegistryError Unit) :=
  let refused (error : RegistryError) (participants : List ClientKey) :=
    Step.refused registry error [.moveFailure id request.text error.message participants]
  match registry.match? id with
  | none => refused .matchNotFound []
  | some stored =>
    if stored.position.accepts request then
      (registry.set (stored.afterMove minimum request now) now).done
    else refused .illegalMove stored.participants

/-- Takes a match out, as it stands. -/
def remove (registry : Registry α) (id : MatchId) : Step α (Except RegistryError Unit) :=
  match registry.match? id with
  | none => .refused registry .matchNotFound []
  | some stored =>
    { answer := .ok ()
      registry := registry.close stored
      notices := [.matchEnded stored]
      alarms := registry.cancelClock id }

/-- Resigns a match for a participant. -/
def resign (registry : Registry α) (id : MatchId) (key : ClientKey) (now : Instant) :
    Step α (Except RegistryError Unit) :=
  match registry.match? id with
  | none => .refused registry .matchNotFound []
  | some stored =>
    match stored.colourOf? key with
    | none => .refused registry .notParticipant []
    | some colour => (registry.set (stored.afterResignation colour) now).done

/-- A clock rings. It ends the match on time if it was set for the generation that is stored. -/
def expire (registry : Registry α) (id : MatchId) (generation : Nat) (now : Instant) :
    Step α Unit :=
  match registry.match? id with
  | none => { answer := (), registry := registry, notices := [], alarms := [] }
  | some stored =>
    if stored.generation = generation then
      let released := { registry with clocks := registry.clocks.erase id }
      let written := released.set stored.afterTimeout now
      { answer := ()
        registry := written.registry
        notices := written.notices
        alarms := .release id :: written.alarms }
    else { answer := (), registry := registry, notices := [], alarms := [] }

end ChessArbiter.Registry
