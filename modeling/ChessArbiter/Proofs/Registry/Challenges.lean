import ChessArbiter.Proofs.Registry.Effect

/-! # What a call can do to the open challenges

Open challenges are kept by challenger and then by challenged client. A challenger with no open
challenge has no entry (`Populated`), which every run keeps; therefore closing a challenge that is not
open leaves the registry as it was. `ChallengeEffect` says what a call does to the challenges and tells
of them, as `Effect` does for the matches.
-/

namespace ChessArbiter

variable {α : Type}

namespace Registry

/-- Every challenger that has an entry has an open challenge. -/
def Populated (registry : Registry α) : Prop :=
  ∀ (challenger : ClientKey) (others : Std.ExtTreeMap ClientKey Challenge),
    registry.challenges[challenger]? = some others → others ≠ ∅

variable {registry : Registry α} {challenger challenged : ClientKey}

theorem populated_empty : (empty : Registry α).Populated := by
  intro challenger others found
  simp [empty] at found

theorem populated_of_eq {after : Registry α} (populated : registry.Populated)
    (challenges : after.challenges = registry.challenges) : after.Populated := by
  intro challenger others found
  rw [challenges] at found
  exact populated challenger others found

theorem populated_openChallenge (populated : registry.Populated) (challenge : Challenge) :
    (registry.openChallenge challenge).Populated := by
  intro other others found
  rw [openChallenge, lookup_insert] at found
  split at found
  · cases found
    intro isEmpty
    have own := congrArg (·[challenge.challenged]?) isEmpty
    simp at own
  · exact populated other others found

theorem populated_closeChallenge (populated : registry.Populated) (challenger challenged : ClientKey) :
    (registry.closeChallenge challenger challenged).Populated := by
  unfold closeChallenge
  split
  · exact populated
  · next remaining opened =>
    dsimp only
    split
    · intro other others found
      rw [lookup_erase] at found
      split at found
      · cases found
      · exact populated other others found
    · next nonempty =>
      intro other others found
      rw [lookup_insert] at found
      split at found
      · cases found
        exact mt Std.ExtTreeMap.isEmpty_iff.mpr nonempty
      · exact populated other others found

/-- Closing a challenge that is not open changes nothing. -/
theorem closeChallenge_of_absent (populated : registry.Populated)
    (absent : registry.challenge? challenger challenged = none) :
    registry.closeChallenge challenger challenged = registry := by
  unfold closeChallenge
  split
  · rfl
  · next others found =>
    rw [challenge?, found, Option.bind_some] at absent
    have rest : others.erase challenged = others := by
      apply Std.ExtTreeMap.ext_getElem?
      intro key
      rw [lookup_erase]
      split
      · next same => rw [← same, absent]
      · rfl
    have nonempty : ¬ others.isEmpty = true :=
      mt Std.ExtTreeMap.isEmpty_iff.mp (populated challenger others found)
    have same : registry.challenges.insert challenger others = registry.challenges := by
      apply Std.ExtTreeMap.ext_getElem?
      intro key
      rw [lookup_insert]
      split
      · next same => rw [← same, found]
      · rfl
    simp only [rest, nonempty, if_false, same, Bool.false_eq_true]

/-- Asking for a challenge that is not open to be ended changes nothing. -/
theorem resolve_of_absent (populated : registry.Populated)
    (absent : registry.challenge? challenger challenged = none) (resolution : ChallengeResolution) :
    registry.resolve challenger challenged resolution = .refused registry .challengeNotFound [] := by
  simp only [resolve, absent, closeChallenge_of_absent populated absent]

theorem resolve_of_open {challenge : Challenge}
    (opened : registry.challenge? challenger challenged = some challenge)
    (resolution : ChallengeResolution) :
    registry.resolve challenger challenged resolution =
      { answer := .ok ()
        registry := registry.closeChallenge challenger challenged
        notices := [challenge.resolved resolution]
        alarms := [] } := by
  simp only [resolve, opened]

/-- An open challenge whose clients are free is closed, and then its match is entered. -/
theorem accept_of_free [Scalar α] {roles : ClientKey → Role} {challenge : Challenge} {id : MatchId}
    {draw : Bool} {now : Instant}
    (opened : registry.challenge? challenger challenged = some challenge)
    (free : registry.canSeat roles (.ofChallenge id challenge draw now) = true) :
    registry.accept roles challenged challenger id draw now =
      let entered := (registry.closeChallenge challenger challenged).register roles
        (.ofChallenge id challenge draw now) now
      { entered with notices := .challengeAccepted challenge :: entered.notices } := by
  simp only [accept, opened, free, if_true, resolve_of_open opened]
  rfl

end Registry

/-- How a challenge stands when it is told of. -/
inductive ChallengeStage where
  | opened
  | ended (resolution : ChallengeResolution)
deriving DecidableEq

/-- The stage of a challenge of which a notice tells, and the challenge as it shows it. -/
def Notice.challengeStage? : Notice α → Option (ChallengeStage × Challenge)
  | .challengeCreated challenge => some (.opened, challenge)
  | .challengeAccepted challenge => some (.ended .accepted, challenge)
  | .challengeDenied challenge => some (.ended .declined, challenge)
  | .challengeRevoked challenge => some (.ended .revoked, challenge)
  | _ => none

def Step.challengeStages {β : Type} (step : Step α β) : List (ChallengeStage × Challenge) :=
  step.notices.filterMap Notice.challengeStage?

/-- From whom and to whom the challenge goes that an operation is about, where it is about one. -/
def Operation.pair? : Operation α → Option (ClientKey × ClientKey)
  | .challenge opened => some (opened.challenger, opened.challenged)
  | .accept challenged challenger _ _ => some (challenger, challenged)
  | .decline challenged challenger => some (challenger, challenged)
  | .revoke challenger challenged => some (challenger, challenged)
  | _ => none

/-- The step neither changes the open challenges nor tells of any. -/
def Step.SparesChallenges {β : Type} (registry : Registry α) (step : Step α β) : Prop :=
  step.registry.challenges = registry.challenges ∧ step.challengeStages = []

variable [Scalar α]

/-- The ways in which a call can change the open challenges, each with what is told of it. -/
inductive ChallengeEffect (registry : Registry α) (call : Call α)
    (step : Step α (Except RegistryError Unit)) : Prop
  | kept (spares : step.SparesChallenges registry)
  | opened (challenge : Challenge) (asked : call.operation = .challenge challenge)
      (faultless : registry.challengeFault? call.roles challenge = none)
      (challenges : step.registry.challenges = (registry.openChallenge challenge).challenges)
      (told : step.challengeStages = [(.opened, challenge)])
  | closed (challenger challenged : ClientKey) (challenge : Challenge)
      (resolution : ChallengeResolution)
      (asked : call.operation.pair? = some (challenger, challenged))
      (found : registry.challenge? challenger challenged = some challenge)
      (challenges : step.registry.challenges =
        (registry.closeChallenge challenger challenged).challenges)
      (told : step.challengeStages = [(.ended resolution, challenge)])

namespace Registry

variable {minimum : α} {registry : Registry α} {call : Call α}

private theorem spares_set (registry : Registry α) (chessMatch : Match α) (now : Instant) :
    (registry.set chessMatch now).SparesChallenges registry := by
  unfold set
  split
  · exact ⟨rfl, rfl⟩
  · split
    · dsimp only
      split <;> exact ⟨rfl, rfl⟩
    · exact ⟨rfl, rfl⟩

private theorem spares_move (registry : Registry α) (minimum : α) (id : MatchId)
    (request : MoveRequest) (now : Instant) :
    (registry.move minimum id request now).SparesChallenges registry := by
  unfold move
  split
  · exact ⟨rfl, rfl⟩
  · split
    · exact spares_set _ _ _
    · exact ⟨rfl, rfl⟩

private theorem spares_resign (registry : Registry α) (id : MatchId) (key : ClientKey)
    (now : Instant) : (registry.resign id key now).SparesChallenges registry := by
  unfold resign
  split
  · exact ⟨rfl, rfl⟩
  · split
    · exact ⟨rfl, rfl⟩
    · exact spares_set _ _ _

omit [Scalar α] in
private theorem spares_remove (registry : Registry α) (id : MatchId) :
    (registry.remove id).SparesChallenges registry := by
  unfold remove
  split <;> exact ⟨rfl, rfl⟩

private theorem spares_expire (registry : Registry α) (id : MatchId) (generation : Nat)
    (now : Instant) : (registry.expire id generation now).SparesChallenges registry := by
  unfold expire
  split
  · exact ⟨rfl, rfl⟩
  · dsimp only
    split
    · exact spares_set _ _ _
    · exact ⟨rfl, rfl⟩

private theorem spares_add (registry : Registry α) (roles : ClientKey → Role) (chessMatch : Match α)
    (now : Instant) : (registry.add roles chessMatch now).SparesChallenges registry := by
  unfold add
  split <;> exact ⟨rfl, rfl⟩

omit [Scalar α] in
private theorem challengeEffect_challenge {challenge : Challenge}
    (operation : call.operation = .challenge challenge) :
    ChallengeEffect registry call (registry.challenge call.roles challenge) := by
  unfold Registry.challenge
  split
  · exact .kept ⟨rfl, rfl⟩
  · next faultless => exact .opened challenge operation faultless rfl rfl

omit [Scalar α] in
private theorem challengeEffect_resolve (populated : registry.Populated)
    {challenger challenged : ClientKey} (resolution : ChallengeResolution)
    (asked : call.operation.pair? = some (challenger, challenged)) :
    ChallengeEffect registry call (registry.resolve challenger challenged resolution) := by
  cases found : registry.challenge? challenger challenged with
  | none =>
    rw [resolve_of_absent populated found]
    exact .kept ⟨rfl, rfl⟩
  | some challenge =>
    rw [resolve_of_open found]
    refine .closed challenger challenged challenge resolution asked found rfl ?_
    cases resolution <;> rfl

private theorem challengeEffect_accept {challenged challenger : ClientKey} {id : MatchId}
    {draw : Bool} (asked : call.operation.pair? = some (challenger, challenged)) :
    ChallengeEffect registry call
      (registry.accept call.roles challenged challenger id draw call.now) := by
  unfold accept
  split
  · exact .kept ⟨rfl, rfl⟩
  · next challenge found =>
    dsimp only
    split
    · simp only [resolve_of_open found]
      exact .closed challenger challenged challenge .accepted asked found rfl rfl
    · exact .kept ⟨rfl, rfl⟩

/-- Whatever is asked of a registry, it does no more to the challenges than `ChallengeEffect`
allows. -/
theorem challengeEffect_perform (populated : registry.Populated) :
    ChallengeEffect registry call (registry.perform minimum call) := by
  have pair {operation : Operation α} (asked : call.operation = operation) :
      call.operation.pair? = operation.pair? := congrArg Operation.pair? asked
  unfold perform
  split
  · next operation => exact challengeEffect_challenge operation
  · next operation => exact challengeEffect_accept (pair operation)
  · next operation => exact challengeEffect_resolve populated _ (pair operation)
  · next operation => exact challengeEffect_resolve populated _ (pair operation)
  · exact .kept (spares_add _ _ _ _)
  · exact .kept (spares_move _ _ _ _ _)
  · exact .kept (spares_set _ _ _)
  · exact .kept (spares_remove _ _)
  · exact .kept (spares_resign _ _ _ _)
  · exact .kept (spares_expire _ _ _ _)

end Registry

omit [Scalar α] in
/-- A call leaves no challenger without an open challenge behind. -/
theorem ChallengeEffect.populated {registry : Registry α} {call : Call α}
    {step : Step α (Except RegistryError Unit)} (effect : ChallengeEffect registry call step)
    (populated : registry.Populated) : step.registry.Populated := by
  cases effect with
  | kept spares => exact Registry.populated_of_eq populated spares.1
  | opened challenge _ _ challenges _ =>
    exact Registry.populated_of_eq (Registry.populated_openChallenge populated challenge) challenges
  | closed challenger challenged _ _ _ _ challenges _ =>
    exact Registry.populated_of_eq
      (Registry.populated_closeChallenge populated challenger challenged) challenges

end ChessArbiter
