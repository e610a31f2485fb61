import ChessArbiter.Proofs.Registry.History

/-! # The lifecycle of a challenge

Between two clients, in either direction, there is one challenge at a time: it is opened, it ends as it
was opened, and only then another is opened. `PairEffect` says what a call can do to the challenge from
one client to another; a call that is about no challenge, or about another one, does nothing to it.
That challenges of one challenger do not get in each other's way is a matter of looking them up
after one of them was opened or closed. The induction is over the history and carries the rounds that
are over.
-/

namespace ChessArbiter

/-- The challenge goes from the one client to the other. -/
def Challenge.Goes (challenge : Challenge) (challenger challenged : ClientKey) : Prop :=
  challenge.challenger = challenger ∧ challenge.challenged = challenged

instance (challenge : Challenge) (challenger challenged : ClientKey) :
    Decidable (challenge.Goes challenger challenged) :=
  inferInstanceAs (Decidable (_ ∧ _))

/-- The stages of a challenge that was opened and has ended. -/
def Challenge.round (challenge : Challenge) (resolution : ChallengeResolution) :
    List (ChallengeStage × Challenge) :=
  [(.opened, challenge), (.ended resolution, challenge)]

variable {α : Type}

/-- What a step tells of the challenge from one client to another. -/
def Step.challengeStagesOf {β : Type} (challenger challenged : ClientKey) (step : Step α β) :
    List (ChallengeStage × Challenge) :=
  step.challengeStages.filter fun (_, challenge) => challenge.Goes challenger challenged

/-- What is told of the challenges from one client to another, in the order in which it is told. -/
def challengeStagesOf (challenger challenged : ClientKey) (events : List (Event α)) :
    List (ChallengeStage × Challenge) :=
  events.flatMap fun event => event.step.challengeStagesOf challenger challenged

theorem challengeStagesOf_concat (challenger challenged : ClientKey) (events : List (Event α))
    (event : Event α) :
    challengeStagesOf challenger challenged (events ++ [event]) =
      challengeStagesOf challenger challenged events ++
        event.step.challengeStagesOf challenger challenged := by
  simp only [challengeStagesOf, List.flatMap_append, List.flatMap_singleton]

namespace Registry

variable {registry : Registry α}

theorem challenge?_empty (challenger challenged : ClientKey) :
    (empty : Registry α).challenge? challenger challenged = none := by
  simp [challenge?, empty]

theorem challenge?_of_eq {after : Registry α} (challenges : after.challenges = registry.challenges)
    (challenger challenged : ClientKey) :
    after.challenge? challenger challenged = registry.challenge? challenger challenged := by
  rw [challenge?, challenge?, challenges]

/-- Opening a challenge leaves all others as they were, those of the same challenger too. -/
theorem challenge?_openChallenge (registry : Registry α) (challenge : Challenge)
    (challenger challenged : ClientKey) :
    (registry.openChallenge challenge).challenge? challenger challenged =
      if challenge.Goes challenger challenged then some challenge
      else registry.challenge? challenger challenged := by
  rw [challenge?, openChallenge, lookup_insert]
  by_cases same : challenge.challenger = challenger
  · subst same
    rw [if_pos rfl, Option.bind_some, lookup_insert]
    by_cases own : challenge.challenged = challenged
    · rw [if_pos own, if_pos ⟨rfl, own⟩]
    · rw [if_neg own, if_neg (fun goes => own goes.2), challenge?]
      cases registry.challenges[challenge.challenger]? with
      | none => simp
      | some others => rfl
  · rw [if_neg same, if_neg (fun goes => same goes.1)]
    rfl

/-- Closing a challenge leaves all others as they were, those of the same challenger too. -/
theorem challenge?_closeChallenge (registry : Registry α)
    (closer closed challenger challenged : ClientKey) :
    (registry.closeChallenge closer closed).challenge? challenger challenged =
      if closer = challenger ∧ closed = challenged then none
      else registry.challenge? challenger challenged := by
  unfold closeChallenge
  split
  · next absent =>
    split
    · next same => rw [challenge?, ← same.1, absent, Option.bind_none]
    · rfl
  · next others found =>
    by_cases same : closer = challenger
    · subst same
      have rest : (others.erase closed)[challenged]? =
          if closed = challenged then none else registry.challenge? closer challenged := by
        rw [lookup_erase, challenge?, found, Option.bind_some]
      simp only [true_and]
      rw [← rest, challenge?]
      dsimp only
      split
      · next isEmpty =>
        rw [lookup_erase, if_pos rfl, Std.ExtTreeMap.isEmpty_iff.mp isEmpty]
        simp
      · rw [lookup_insert, if_pos rfl, Option.bind_some]
    · rw [if_neg (fun both => same both.1), challenge?, challenge?]
      dsimp only
      split
      · rw [lookup_erase, if_neg same]
      · rw [lookup_insert, if_neg same]

/-- Every open challenge is kept under the two clients between whom it goes, and they differ. -/
def Attributed (registry : Registry α) : Prop :=
  ∀ challenger challenged challenge, registry.challenge? challenger challenged = some challenge →
    challenge.Goes challenger challenged ∧ challenger ≠ challenged

/-- A challenge that can be opened goes to somebody else and is not open yet. -/
theorem of_faultless {roles : ClientKey → Role} {challenge : Challenge}
    (faultless : registry.challengeFault? roles challenge = none) :
    challenge.challenger ≠ challenge.challenged ∧
      registry.challenge? challenge.challenger challenge.challenged = none := by
  unfold challengeFault? at faultless
  split at faultless
  · cases faultless
  · next differ =>
    split at faultless
    · cases faultless
    · split at faultless
      · cases faultless
      · next closed => exact ⟨differ, Option.not_isSome_iff_eq_none.mp closed⟩

/-- The challenges of a challenger that go to the same client are the one that is open. -/
theorem filter_challengesOf (attributed : registry.Attributed) (challenger challenged : ClientKey) :
    (registry.challengesOf challenger).filter (·.challenged = challenged) =
      (registry.challenge? challenger challenged).toList := by
  rw [challengesOf, challenge?]
  cases found : registry.challenges[challenger]? with
  | none => rfl
  | some others =>
    have own (key : ClientKey) (challenge : Challenge) (listed : others[key]? = some challenge) :
        challenge.challenged = key := by
      have opened : registry.challenge? challenger key = some challenge := by
        rw [challenge?, found, Option.bind_some, listed]
      exact (attributed challenger key challenge opened).1.2
    exact filter_values others (·.challenged) own challenged

end Registry

section Calls

variable [Scalar α] {minimum : α} {registry : Registry α} {call : Call α}
  {step : Step α (Except RegistryError Unit)}

omit [Scalar α] in
/-- A step that tells of one challenge tells of it to its own pair of clients. -/
theorem Step.challengeStagesOf_of_singleton (challenger challenged : ClientKey)
    {stage : ChallengeStage} {challenge : Challenge}
    (told : step.challengeStages = [(stage, challenge)]) :
    step.challengeStagesOf challenger challenged =
      if challenge.Goes challenger challenged then [(stage, challenge)] else [] := by
  rw [Step.challengeStagesOf, told]
  by_cases goes : challenge.Goes challenger challenged <;> simp [goes]

/-- The ways in which a call can change the challenge from one client to another. -/
inductive PairEffect (registry : Registry α) (call : Call α)
    (step : Step α (Except RegistryError Unit)) (challenger challenged : ClientKey) : Prop
  | untouched
      (kept : step.registry.challenge? challenger challenged =
        registry.challenge? challenger challenged)
      (untold : step.challengeStagesOf challenger challenged = [])
  | opened (challenge : Challenge)
      (asked : call.operation.pair? = some (challenger, challenged))
      (goes : challenge.Goes challenger challenged) (differ : challenger ≠ challenged)
      (closed : registry.challenge? challenger challenged = none)
      (stores : step.registry.challenge? challenger challenged = some challenge)
      (told : step.challengeStagesOf challenger challenged = [(.opened, challenge)])
  | ended (challenge : Challenge) (resolution : ChallengeResolution)
      (asked : call.operation.pair? = some (challenger, challenged))
      (found : registry.challenge? challenger challenged = some challenge)
      (absent : step.registry.challenge? challenger challenged = none)
      (told : step.challengeStagesOf challenger challenged = [(.ended resolution, challenge)])

omit [Scalar α] in
/-- What a call does to the challenges it does to each pair of clients. -/
theorem ChallengeEffect.pairEffect (effect : ChallengeEffect registry call step)
    (attributed : registry.Attributed) (challenger challenged : ClientKey) :
    PairEffect registry call step challenger challenged := by
  cases effect with
  | kept spares =>
    obtain ⟨challenges, untold⟩ := spares
    refine .untouched (Registry.challenge?_of_eq challenges challenger challenged) ?_
    rw [Step.challengeStagesOf, untold, List.filter_nil]
  | opened challenge asked faultless challenges told =>
    obtain ⟨differ, closed⟩ := Registry.of_faultless faultless
    have after := (Registry.challenge?_of_eq challenges challenger challenged).trans
      (registry.challenge?_openChallenge challenge challenger challenged)
    have tells := Step.challengeStagesOf_of_singleton challenger challenged told
    by_cases goes : challenge.Goes challenger challenged
    · rw [if_pos goes] at after tells
      obtain ⟨rfl, rfl⟩ := goes
      exact .opened challenge (congrArg Operation.pair? asked) ⟨rfl, rfl⟩ differ closed after tells
    · rw [if_neg goes] at after tells
      exact .untouched after tells
  | closed closer closed challenge resolution asked found challenges told =>
    obtain ⟨⟨rfl, rfl⟩, _⟩ := attributed closer closed challenge found
    have after : step.registry.challenge? challenger challenged =
        if challenge.Goes challenger challenged then none
        else registry.challenge? challenger challenged :=
      (Registry.challenge?_of_eq challenges challenger challenged).trans
        (registry.challenge?_closeChallenge _ _ challenger challenged)
    have tells := Step.challengeStagesOf_of_singleton challenger challenged told
    by_cases goes : challenge.Goes challenger challenged
    · rw [if_pos goes] at after tells
      obtain ⟨rfl, rfl⟩ := goes
      exact .ended challenge resolution asked found after tells
    · rw [if_neg goes] at after tells
      exact .untouched after tells

omit [Scalar α] in
theorem PairEffect.attributed
    (effect : ∀ challenger challenged, PairEffect registry call step challenger challenged)
    (attributed : registry.Attributed) : step.registry.Attributed := by
  intro challenger challenged challenge opened
  cases effect challenger challenged with
  | untouched kept _ => exact attributed challenger challenged challenge (kept ▸ opened)
  | opened other _ goes differ _ stores _ =>
    cases stores.symm.trans opened
    exact ⟨goes, differ⟩
  | ended _ _ _ _ absent _ => cases absent.symm.trans opened

omit [Scalar α] in
/-- A call that is not about the challenge from one client to another does nothing to it. -/
theorem PairEffect.untouched_of_ne {challenger challenged : ClientKey}
    (effect : PairEffect registry call step challenger challenged)
    (other : call.operation.pair? ≠ some (challenger, challenged)) :
    step.registry.challenge? challenger challenged = registry.challenge? challenger challenged ∧
      step.challengeStagesOf challenger challenged = [] := by
  cases effect with
  | untouched kept untold => exact ⟨kept, untold⟩
  | opened _ asked => exact (other asked).elim
  | ended _ _ asked => exact (other asked).elim

end Calls

/-- What is told of the challenges from one client to another, and what the registry holds of them. -/
structure ChallengeLifecycle (challenger challenged : ClientKey)
    (told : List (ChallengeStage × Challenge)) (registry : Registry α) : Prop where
  /-- Each challenge is opened and ends as it was opened, before the next is opened. The last one may
  still be open. -/
  alternates : ∃ rounds : List (Challenge × ChallengeResolution),
    told = rounds.flatMap (fun (challenge, resolution) => challenge.round resolution) ++
      (registry.challenge? challenger challenged).toList.map (.opened, ·)
  /-- A challenge is open exactly when its opening was told last. -/
  current : ∀ challenge, registry.challenge? challenger challenged = some challenge ↔
    told.getLast? = some (.opened, challenge)
  /-- Among the open challenges of the challenger it is listed once when it is open, and else not. -/
  listed : (registry.challengesOf challenger).filter (·.challenged = challenged) =
    (registry.challenge? challenger challenged).toList
  own : ∀ challenge, registry.challenge? challenger challenged = some challenge →
    challenge.challenger = challenger ∧ challenge.challenged = challenged ∧ challenger ≠ challenged
  /-- A challenger with no open challenge has no entry. -/
  populated : ∀ others, registry.challenges[challenger]? = some others → others ≠ ∅

/-- Where rounds are told and then what is open, something is open exactly if its opening is last. -/
theorem getLast?_rounds (rounds : List (Challenge × ChallengeResolution)) (opened : Option Challenge)
    (challenge : Challenge) :
    (rounds.flatMap (fun (challenge, resolution) => challenge.round resolution) ++
        opened.toList.map (ChallengeStage.opened, ·)).getLast? = some (.opened, challenge) ↔
      opened = some challenge := by
  cases opened with
  | some other => simp
  | none =>
    refine iff_of_false ?_ nofun
    rcases List.eq_nil_or_concat rounds with rfl | ⟨before, ⟨last, resolution⟩, rfl⟩
    · simp
    · simp [Challenge.round]

namespace History

variable [Scalar α] {rule : Registry α → Call α → Prop} {minimum : α} {events : List (Event α)}
  {registry : Registry α}

theorem attributed (history : History rule minimum events registry) : registry.Attributed := by
  induction history with
  | start =>
    intro challenger challenged challenge opened
    rw [Registry.challenge?_empty] at opened
    cases opened
  | call history call _ ih =>
    exact PairEffect.attributed
      (fun _ _ => (Registry.challengeEffect_perform history.populated).pairEffect ih _ _) ih

/-- What the next call of a history can do to the challenge from one client to another. -/
theorem pairEffect (history : History rule minimum events registry) (call : Call α)
    (challenger challenged : ClientKey) :
    PairEffect registry call (registry.perform minimum call) challenger challenged :=
  (Registry.challengeEffect_perform history.populated).pairEffect history.attributed _ _

theorem rounds (history : History rule minimum events registry) (challenger challenged : ClientKey) :
    ∃ rounds : List (Challenge × ChallengeResolution),
      challengeStagesOf challenger challenged events =
        rounds.flatMap (fun (challenge, resolution) => challenge.round resolution) ++
          (registry.challenge? challenger challenged).toList.map (.opened, ·) := by
  induction history with
  | start => exact ⟨[], by rw [Registry.challenge?_empty]; rfl⟩
  | @call events registry history call _ ih =>
    obtain ⟨rounds, before⟩ := ih
    rw [challengeStagesOf_concat, before]
    cases history.pairEffect call challenger challenged with
    | untouched kept untold =>
      refine ⟨rounds, ?_⟩
      rw [Registry.event, kept, untold, List.append_nil]
    | opened challenge _ _ _ closed stores told =>
      refine ⟨rounds, ?_⟩
      rw [Registry.event, closed, stores, told]
      simp
    | ended challenge resolution _ found absent told =>
      refine ⟨rounds ++ [(challenge, resolution)], ?_⟩
      rw [Registry.event, found, absent, told]
      simp [Challenge.round]

/-- In every history, what is told of the challenges from one client to another are rounds of one
opening and one end, the last of which may lack its end; the challenge is then open, and only then. A
call that is about no challenge or about another one neither changes it nor tells of it. -/
theorem challenge_rounds (history : History rule minimum events registry)
    (challenger challenged : ClientKey) :
    ChallengeLifecycle challenger challenged (challengeStagesOf challenger challenged events)
        registry ∧
      ∀ call : Call α, call.operation.pair? ≠ some (challenger, challenged) →
        (registry.perform minimum call).registry.challenge? challenger challenged =
            registry.challenge? challenger challenged ∧
          (registry.perform minimum call).challengeStagesOf challenger challenged = [] := by
  obtain ⟨rounds, told⟩ := history.rounds challenger challenged
  refine ⟨⟨⟨rounds, told⟩, ?_, ?_, ?_, ?_⟩, ?_⟩
  · intro challenge
    rw [told, getLast?_rounds]
  · exact Registry.filter_challengesOf history.attributed challenger challenged
  · intro challenge opened
    obtain ⟨⟨own, other⟩, differ⟩ := history.attributed challenger challenged challenge opened
    exact ⟨own, other, differ⟩
  · exact history.populated challenger
  · intro call other
    exact (history.pairEffect call challenger challenged).untouched_of_ne other

end History

/-- Bob is busy and cannot accept the challenge of Ada, which stays open until he declines it; then she
challenges him again. His own challenge to her is another one. -/
theorem challenge_rounds_of_declined :
    ∃ (events : List (Event Rat)) (registry : Registry Rat) (first second reply : Challenge),
      History (fun _ _ => True) 0 events registry ∧
      challengeStagesOf "ada" "bob" events = first.round .declined ++ [(.opened, second)] ∧
      challengeStagesOf "bob" "ada" events = [(.opened, reply)] ∧
      registry.challenge? "ada" "bob" = some second ∧
      registry.challenge? "bob" "ada" = some reply ∧
      ((registry.perform 0 ⟨.revoke "bob" "ada", fun _ => .player, .ofMillis 0⟩).registry.challenge?
        "ada" "bob") = some second := by
  let first : Challenge := ⟨"ada", "bob", true, false, .blitz⟩
  let second : Challenge := ⟨"ada", "bob", false, false, .rapid⟩
  let reply : Challenge := ⟨"bob", "ada", false, true, .blitz⟩
  let call (operation : Operation Rat) : Call Rat := ⟨operation, fun _ => .player, .ofMillis 0⟩
  have history : History (fun _ _ => True) (0 : Rat) [] .empty := .start
  have history := history.call (call (.challenge first)) trivial
  have history := history.call (call (.challenge reply)) trivial
  have history := history.call (call (.add (.start ⟨1⟩ "bob" "cid" .blitz (.ofMillis 0)))) trivial
  have history := history.call (call (.accept "bob" "ada" ⟨2⟩ true)) trivial
  have history := history.call (call (.decline "bob" "ada")) trivial
  have history := history.call (call (.challenge second)) trivial
  obtain ⟨events, registry, history, told, replied⟩ : ∃ events registry,
      History (fun _ _ => True) (0 : Rat) events registry ∧
      challengeStagesOf "ada" "bob" events = first.round .declined ++ [(.opened, second)] ∧
      challengeStagesOf "bob" "ada" events = [(.opened, reply)] :=
    ⟨_, _, history, by decide +kernel, by decide +kernel⟩
  obtain ⟨lifecycle, others⟩ := history.challenge_rounds "ada" "bob"
  obtain ⟨replies, -⟩ := history.challenge_rounds "bob" "ada"
  have opened := (lifecycle.current second).mpr (by rw [told]; rfl)
  have standing := (replies.current reply).mpr (by rw [replied]; rfl)
  refine ⟨events, registry, first, second, reply, history, told, replied, opened, standing, ?_⟩
  exact (others (call (.revoke "bob" "ada")) (by decide)).1.trans opened

end ChessArbiter
