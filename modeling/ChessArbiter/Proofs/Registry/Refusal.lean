import ChessArbiter.Proofs.Registry.History

/-! # Refused calls

A call is refused for the reasons that `Refuses` lists and for no others, each with what is told of
it. A refused call leaves the registry exactly as it was. Some calls check and then write through
others that check again: a move and a resignation write over the stored match, and accepting a
challenge closes it first. In a history these second checks always pass, since every match is stored
under its own identity and no move or resignation changes participants or time control.
-/

namespace ChessArbiter

variable {α : Type} [Scalar α]

/-- Why a call is refused, and what is published then. -/
inductive Refuses (registry : Registry α) (call : Call α) : RegistryError → List (Notice α) → Prop
  /-- A challenge that cannot be opened. -/
  | challenge {challenge : Challenge} {error : RegistryError}
      (asked : call.operation = .challenge challenge)
      (fault : registry.challengeFault? call.roles challenge = some error) :
      Refuses registry call error [.challengeRequestFailed challenge error.message]
  /-- Accepting a challenge that is not open. -/
  | acceptAbsent {challenged challenger : ClientKey} {id : MatchId} {draw : Bool}
      (asked : call.operation = .accept challenged challenger id draw)
      (absent : registry.challenge? challenger challenged = none) :
      Refuses registry call .challengeNotFound []
  /-- Accepting an open challenge while one of the two clients is busy. -/
  | acceptBusy {challenged challenger : ClientKey} {id : MatchId} {draw : Bool}
      {challenge : Challenge} (asked : call.operation = .accept challenged challenger id draw)
      (opened : registry.challenge? challenger challenged = some challenge)
      (busy : registry.canSeat call.roles (.ofChallenge id challenge draw call.now) = false) :
      Refuses registry call .participantUnavailable
        [.challengeRequestFailed challenge RegistryError.participantUnavailable.message]
  | declineAbsent {challenged challenger : ClientKey}
      (asked : call.operation = .decline challenged challenger)
      (absent : registry.challenge? challenger challenged = none) :
      Refuses registry call .challengeNotFound []
  | revokeAbsent {challenger challenged : ClientKey}
      (asked : call.operation = .revoke challenger challenged)
      (absent : registry.challenge? challenger challenged = none) :
      Refuses registry call .challengeNotFound []
  /-- A new match with a participant that is busy, or with the same client on both sides. -/
  | addBusy {chessMatch : Match α} (asked : call.operation = .add chessMatch)
      (busy : registry.canSeat call.roles chessMatch = false) :
      Refuses registry call .participantUnavailable
        [.matchCreationFailed chessMatch RegistryError.participantUnavailable.message]
  /-- A move in an unknown match is told to nobody. -/
  | moveAbsent {id : MatchId} {request : MoveRequest} (asked : call.operation = .move id request)
      (absent : registry.match? id = none) :
      Refuses registry call .matchNotFound
        [.moveFailure id request.text RegistryError.matchNotFound.message []]
  /-- A move that is not allowed is told to both participants. -/
  | moveIllegal {id : MatchId} {request : MoveRequest} {stored : Match α}
      (asked : call.operation = .move id request) (found : registry.match? id = some stored)
      (illegal : stored.position.accepts request = false) :
      Refuses registry call .illegalMove
        [.moveFailure id request.text RegistryError.illegalMove.message [stored.white, stored.black]]
  | setAbsent {chessMatch : Match α} (asked : call.operation = .set chessMatch)
      (absent : registry.match? chessMatch.id = none) : Refuses registry call .matchNotFound []
  /-- A write that would change the participants or the time control. -/
  | setForeign {chessMatch stored : Match α} (asked : call.operation = .set chessMatch)
      (found : registry.match? chessMatch.id = some stored)
      (differs : stored.sameIdentity chessMatch = false) :
      Refuses registry call .immutableFieldChanged []
  | removeAbsent {id : MatchId} (asked : call.operation = .remove id)
      (absent : registry.match? id = none) : Refuses registry call .matchNotFound []
  | resignAbsent {id : MatchId} {key : ClientKey} (asked : call.operation = .resign id key)
      (absent : registry.match? id = none) : Refuses registry call .matchNotFound []
  | resignForeign {id : MatchId} {key : ClientKey} {stored : Match α}
      (asked : call.operation = .resign id key) (found : registry.match? id = some stored)
      (stranger : stored.colourOf? key = none) : Refuses registry call .notParticipant []

namespace Registry

variable {registry : Registry α} {call : Call α} {minimum : α}

/-- A write of a stored match's own identity succeeds. -/
theorem set_ok {draft stored : Match α} (now : Instant) (found : registry.match? draft.id = some stored)
    (same : stored.sameIdentity draft = true) : (registry.set draft now).done.answer = .ok () := by
  cases terminal : draft.isTerminal with
  | false =>
    rw [set_of_continues found same terminal]
    rfl
  | true =>
    rw [set_of_over found same terminal]
    rfl

/-- A move that is allowed succeeds. -/
theorem move_ok (keyed : registry.Keyed) {id : MatchId} {request : MoveRequest} {stored : Match α}
    (now : Instant) (found : registry.match? id = some stored)
    (allowed : stored.position.accepts request = true) :
    (registry.move minimum id request now).answer = .ok () := by
  obtain rfl := keyed id stored found
  unfold move
  simp only [found, allowed, if_true]
  refine set_ok now ?_ (stored.afterMove_sameIdentity minimum request now)
  rw [stored.afterMove_id]
  exact found

/-- A participant's resignation succeeds. -/
theorem resign_ok (keyed : registry.Keyed) {id : MatchId} {key : ClientKey} {stored : Match α}
    {colour : Colour} (now : Instant) (found : registry.match? id = some stored)
    (plays : stored.colourOf? key = some colour) : (registry.resign id key now).answer = .ok () := by
  obtain rfl := keyed id stored found
  unfold resign
  simp only [found, plays]
  exact set_ok now found (stored.afterResignation_sameIdentity colour)

/-- Accepting an open challenge succeeds if both clients are free: closing it cannot fail any more. -/
theorem accept_ok {roles : ClientKey → Role} {challenged challenger : ClientKey} {id : MatchId}
    {draw : Bool} {challenge : Challenge} (now : Instant)
    (opened : registry.challenge? challenger challenged = some challenge)
    (free : registry.canSeat roles (.ofChallenge id challenge draw now) = true) :
    (registry.accept roles challenged challenger id draw now).answer = .ok () := by
  rw [accept_of_free opened free]
  rfl

/-- What is refused is refused for one of the listed reasons, and nothing else happens. -/
def RefusedFor (registry : Registry α) (call : Call α)
    (step : Step α (Except RegistryError Unit)) : Prop :=
  ∀ error, step.answer = .error error →
    ∃ notices, Refuses registry call error notices ∧ step = .refused registry error notices

private theorem refusedFor_of_ok {step : Step α (Except RegistryError Unit)}
    (success : step.answer = .ok ()) : RefusedFor registry call step := by
  intro error failed
  cases success.symm.trans failed

private theorem refusedFor_of_refuses {error : RegistryError} {notices : List (Notice α)}
    (refuses : Refuses registry call error notices) :
    RefusedFor registry call (.refused registry error notices) := by
  rintro _ ⟨rfl⟩
  exact ⟨notices, refuses, rfl⟩

private theorem refusedFor_challenge {challenge : Challenge}
    (operation : call.operation = .challenge challenge) :
    RefusedFor registry call (registry.challenge call.roles challenge) := by
  unfold Registry.challenge
  split
  · next fault => exact refusedFor_of_refuses (.challenge operation fault)
  · exact refusedFor_of_ok rfl

private theorem refusedFor_resolve (populated : registry.Populated) {challenger challenged : ClientKey}
    (resolution : ChallengeResolution)
    (refuses : registry.challenge? challenger challenged = none →
      Refuses registry call .challengeNotFound []) :
    RefusedFor registry call (registry.resolve challenger challenged resolution) := by
  cases found : registry.challenge? challenger challenged with
  | none =>
    rw [resolve_of_absent populated found]
    exact refusedFor_of_refuses (refuses found)
  | some challenge =>
    rw [resolve_of_open found]
    exact refusedFor_of_ok rfl

private theorem refusedFor_accept {challenged challenger : ClientKey} {id : MatchId} {draw : Bool}
    (operation : call.operation = .accept challenged challenger id draw) :
    RefusedFor registry call
      (registry.accept call.roles challenged challenger id draw call.now) := by
  cases found : registry.challenge? challenger challenged with
  | none =>
    simp only [accept, found]
    exact refusedFor_of_refuses (.acceptAbsent operation found)
  | some challenge =>
    cases free : registry.canSeat call.roles (.ofChallenge id challenge draw call.now) with
    | false =>
      simp only [accept, found, free, Bool.false_eq_true, if_false]
      exact refusedFor_of_refuses (.acceptBusy operation found free)
    | true => exact refusedFor_of_ok (accept_ok call.now found free)

private theorem refusedFor_add {chessMatch : Match α} (operation : call.operation = .add chessMatch) :
    RefusedFor registry call (registry.add call.roles chessMatch call.now) := by
  unfold add
  split
  · exact refusedFor_of_ok rfl
  · next busy => exact refusedFor_of_refuses (.addBusy operation (Bool.eq_false_iff.mpr busy))

private theorem refusedFor_move (keyed : registry.Keyed) {id : MatchId} {request : MoveRequest}
    (operation : call.operation = .move id request) :
    RefusedFor registry call (registry.move minimum id request call.now) := by
  cases found : registry.match? id with
  | none =>
    simp only [move, found]
    exact refusedFor_of_refuses (.moveAbsent operation found)
  | some stored =>
    cases allowed : stored.position.accepts request with
    | false =>
      simp only [move, found, allowed, Bool.false_eq_true, if_false]
      exact refusedFor_of_refuses (.moveIllegal operation found allowed)
    | true => exact refusedFor_of_ok (move_ok keyed call.now found allowed)

private theorem refusedFor_set {chessMatch : Match α} (operation : call.operation = .set chessMatch) :
    RefusedFor registry call (registry.set chessMatch call.now).done := by
  cases found : registry.match? chessMatch.id with
  | none =>
    rw [set_of_absent found]
    exact refusedFor_of_refuses (.setAbsent operation found)
  | some stored =>
    cases same : stored.sameIdentity chessMatch with
    | false =>
      rw [set_of_mismatch found same]
      exact refusedFor_of_refuses (.setForeign operation found same)
    | true => exact refusedFor_of_ok (set_ok call.now found same)

private theorem refusedFor_remove {id : MatchId} (operation : call.operation = .remove id) :
    RefusedFor registry call (registry.remove id) := by
  unfold remove
  split
  · next absent => exact refusedFor_of_refuses (.removeAbsent operation absent)
  · exact refusedFor_of_ok rfl

private theorem refusedFor_resign (keyed : registry.Keyed) {id : MatchId} {key : ClientKey}
    (operation : call.operation = .resign id key) :
    RefusedFor registry call (registry.resign id key call.now) := by
  cases found : registry.match? id with
  | none =>
    simp only [resign, found]
    exact refusedFor_of_refuses (.resignAbsent operation found)
  | some stored =>
    cases plays : stored.colourOf? key with
    | none =>
      simp only [resign, found, plays]
      exact refusedFor_of_refuses (.resignForeign operation found plays)
    | some colour => exact refusedFor_of_ok (resign_ok keyed call.now found plays)

/-- Whatever is asked of a registry is refused for one of the listed reasons or succeeds. -/
theorem refusedFor_perform (keyed : registry.Keyed) (populated : registry.Populated) :
    RefusedFor registry call (registry.perform minimum call) := by
  unfold perform
  split
  · next operation => exact refusedFor_challenge operation
  · next operation => exact refusedFor_accept operation
  · next operation => exact refusedFor_resolve populated .declined (.declineAbsent operation)
  · next operation => exact refusedFor_resolve populated .revoked (.revokeAbsent operation)
  · next operation => exact refusedFor_add operation
  · next operation => exact refusedFor_move keyed operation
  · next operation => exact refusedFor_set operation
  · next operation => exact refusedFor_remove operation
  · next operation => exact refusedFor_resign keyed operation
  · exact refusedFor_of_ok rfl

/-- Whatever there is a reason to refuse is refused. -/
theorem answer_of_refuses {error : RegistryError} {notices : List (Notice α)}
    (refuses : Refuses registry call error notices) :
    (registry.perform minimum call).answer = .error error := by
  cases refuses with
  | challenge asked fault => simp only [perform, asked, Registry.challenge, fault]; rfl
  | acceptAbsent asked absent => simp only [perform, asked, accept, absent]; rfl
  | acceptBusy asked opened busy =>
    simp only [perform, asked, accept, opened, busy, Bool.false_eq_true, if_false]
    rfl
  | declineAbsent asked absent => simp only [perform, asked, decline, resolve, absent]; rfl
  | revokeAbsent asked absent => simp only [perform, asked, revoke, resolve, absent]; rfl
  | addBusy asked busy =>
    simp only [perform, asked, add, busy, Bool.false_eq_true, if_false]
    rfl
  | moveAbsent asked absent => simp only [perform, asked, move, absent]; rfl
  | moveIllegal asked found illegal =>
    simp only [perform, asked, move, found, illegal, Bool.false_eq_true, if_false]
    rfl
  | setAbsent asked absent => simp only [perform, asked, set_of_absent absent]; rfl
  | setForeign asked found differs => simp only [perform, asked, set_of_mismatch found differs]; rfl
  | removeAbsent asked absent => simp only [perform, asked, remove, absent]; rfl
  | resignAbsent asked absent => simp only [perform, asked, resign, absent]; rfl
  | resignForeign asked found stranger =>
    simp only [perform, asked, resign, found, stranger]
    rfl

end Registry

/-- After every history, also one that gives an identity to several matches, a call is refused exactly
for the listed reasons. A refused call leaves the registry as it was, asks nothing of the timer and
publishes what goes with its reason. So a move never fails once it is found to be allowed, and accepting
a challenge never fails once the challenge is open and both clients are free. -/
theorem History.refusal {rule : Registry α → Call α → Prop} {minimum : α} {events : List (Event α)}
    {registry : Registry α} (history : History rule minimum events registry) (call : Call α) :
    let step := registry.perform minimum call
    (∀ error, step.answer = .error error →
      step.registry = registry ∧ step.alarms = [] ∧ Refuses registry call error step.notices) ∧
    (∀ error notices, Refuses registry call error notices → step.answer = .error error) ∧
    (∀ id request stored, call.operation = .move id request → registry.match? id = some stored →
      stored.position.accepts request = true → step.answer = .ok ()) ∧
    (∀ challenged challenger id draw challenge,
      call.operation = .accept challenged challenger id draw →
      registry.challenge? challenger challenged = some challenge →
      registry.canSeat call.roles (.ofChallenge id challenge draw call.now) = true →
      step.answer = .ok ()) := by
  intro step
  refine ⟨?_, ?_, ?_, ?_⟩
  · intro error failed
    obtain ⟨notices, refuses, refused⟩ :=
      Registry.refusedFor_perform history.keyed history.populated error failed
    have same : step = .refused registry error notices := refused
    rw [same]
    exact ⟨rfl, rfl, refuses⟩
  · intro error notices refuses
    exact Registry.answer_of_refuses refuses
  · intro id request stored operation found allowed
    simp only [step, Registry.perform, operation]
    exact Registry.move_ok history.keyed call.now found allowed
  · intro challenged challenger id draw challenge operation opened free
    simp only [step, Registry.perform, operation]
    exact Registry.accept_ok call.now opened free

/-- A challenge whose challenged client has since begun a match stays open when it is accepted, and the
challenger is told. -/
theorem refusal_of_busy :
    ∃ (events : List (Event Rat)) (registry : Registry Rat) (challenge : Challenge),
      History (fun _ _ => True) 0 events registry ∧
      registry.challenge? "cid" "ada" = some challenge ∧
      let accepted := registry.perform 0
        ⟨.accept "ada" "cid" ⟨2⟩ true, fun _ => .player, .ofMillis 0⟩
      accepted.answer = .error .participantUnavailable ∧ accepted.registry = registry ∧
      accepted.notices =
        [.challengeRequestFailed challenge "A participant is already playing another match"] := by
  let beginning : Instant := .ofMillis 0
  let call (operation : Operation Rat) : Call Rat := ⟨operation, fun _ => .player, beginning⟩
  let challenge : Challenge := ⟨"cid", "ada", true, false, .blitz⟩
  let accepting := call (.accept "ada" "cid" ⟨2⟩ true)
  obtain ⟨events, registry, history, opened, busy, told⟩ : ∃ events registry,
      History (fun _ _ => True) (0 : Rat) events registry ∧
      registry.challenge? "cid" "ada" = some challenge ∧
      registry.canSeat accepting.roles (.ofChallenge ⟨2⟩ challenge true beginning) = false ∧
      (registry.perform 0 accepting).notices = [.challengeRequestFailed challenge
        RegistryError.participantUnavailable.message] := by
    have begun : History (fun _ _ => True) (0 : Rat) [] .empty := .start
    have challenged := begun.call (call (.challenge challenge)) trivial
    have entered := challenged.call (call (.add (.start ⟨1⟩ "ada" "bob" .blitz beginning))) trivial
    exact ⟨_, _, entered, by decide +kernel, by decide +kernel, by decide +kernel⟩
  obtain ⟨whenRefused, refusedWhen, _⟩ := history.refusal accepting
  have failed := refusedWhen _ _ (.acceptBusy rfl opened busy)
  exact ⟨events, registry, challenge, history, opened, failed, (whenRefused _ failed).1, told⟩

end ChessArbiter
