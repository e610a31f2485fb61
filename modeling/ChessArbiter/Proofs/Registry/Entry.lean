import ChessArbiter.Proofs.Registry.Effect

/-! # Entering matches

Only adding a match and accepting a challenge enter one, under the identity that the operation names
(`Call.Enters`); everything else leaves a match under an identity only where there was one.
-/

namespace ChessArbiter

variable {α : Type}

/-- The identity under which an operation enters a match, where it is one that does. -/
def Operation.entry? : Operation α → Option MatchId
  | .add chessMatch => some chessMatch.id
  | .accept _ _ id _ => some id
  | _ => none

variable [Scalar α]

/-- The matches that a call can enter: the one that it adds, or one that begins now for a challenge
that it accepts. -/
inductive Call.Enters (call : Call α) : Match α → Prop
  | added {chessMatch : Match α} (asked : call.operation = .add chessMatch) : call.Enters chessMatch
  | accepted {challenged challenger : ClientKey} {id : MatchId} {draw : Bool} {challenge : Challenge}
      (asked : call.operation = .accept challenged challenger id draw) :
      call.Enters (.ofChallenge id challenge draw call.now)

theorem Match.startDrawn_id (id : MatchId) (first second : ClientKey) (draw : Bool)
    (control : TimeControl) (now : Instant) :
    (startDrawn id first second draw control now : Match α).id = id := by
  cases draw <;> rfl

theorem Match.ofChallenge_id (id : MatchId) (challenge : Challenge) (draw : Bool) (now : Instant) :
    (ofChallenge id challenge draw now : Match α).id = id := by
  unfold ofChallenge
  split
  · rfl
  · rfl
  · exact startDrawn_id ..

/-- A match for a challenge begins as every match does. -/
theorem Match.ofChallenge_eq_start (id : MatchId) (challenge : Challenge) (draw : Bool)
    (now : Instant) : ∃ white black control,
      (ofChallenge id challenge draw now : Match α) = .start id white black control now := by
  unfold ofChallenge startDrawn
  split
  · exact ⟨_, _, _, rfl⟩
  · exact ⟨_, _, _, rfl⟩
  · split
    · exact ⟨_, _, _, rfl⟩
    · exact ⟨_, _, _, rfl⟩

/-- A match is entered under the identity that the operation names. -/
theorem Call.Enters.entry? {call : Call α} {chessMatch : Match α} (enters : call.Enters chessMatch) :
    call.operation.entry? = some chessMatch.id := by
  cases enters with
  | added asked =>
    rw [asked]
    rfl
  | accepted asked =>
    rw [asked, Match.ofChallenge_id]
    rfl

/-- A match has no moves behind it when it is entered, if none that is added has. -/
theorem Call.Enters.history_eq_nil {call : Call α} {chessMatch : Match α}
    (enters : call.Enters chessMatch)
    (added : call.operation = .add chessMatch → chessMatch.history = []) :
    chessMatch.history = [] := by
  cases enters with
  | added asked => exact added asked
  | @accepted _ _ id draw challenge =>
    obtain ⟨_, _, _, started⟩ := Match.ofChallenge_eq_start (α := α) id challenge draw call.now
    rw [started]
    rfl

namespace Registry

variable {minimum : α} {registry : Registry α} {call : Call α}

private theorem not_created_of_set (registry : Registry α) (chessMatch : Match α) (now : Instant) :
    ∀ stage ∈ (registry.set chessMatch now).stages, stage.1 ≠ .created := by
  unfold set
  split
  · exact List.forall_mem_nil _
  · split
    · dsimp only
      split <;> exact List.forall_mem_singleton.mpr nofun
    · exact List.forall_mem_nil _

private theorem not_created_of_move (registry : Registry α) (minimum : α) (id : MatchId)
    (request : MoveRequest) (now : Instant) :
    ∀ stage ∈ (registry.move minimum id request now).stages, stage.1 ≠ .created := by
  unfold move
  split
  · exact List.forall_mem_nil _
  · split
    · exact not_created_of_set _ _ _
    · exact List.forall_mem_nil _

private theorem not_created_of_resign (registry : Registry α) (id : MatchId) (key : ClientKey)
    (now : Instant) : ∀ stage ∈ (registry.resign id key now).stages, stage.1 ≠ .created := by
  unfold resign
  split
  · exact List.forall_mem_nil _
  · split
    · exact List.forall_mem_nil _
    · exact not_created_of_set _ _ _

private theorem not_created_of_expire (registry : Registry α) (id : MatchId) (generation : Nat)
    (now : Instant) : ∀ stage ∈ (registry.expire id generation now).stages, stage.1 ≠ .created := by
  unfold expire
  split
  · exact List.forall_mem_nil _
  · dsimp only
    split
    · exact not_created_of_set _ _ _
    · exact List.forall_mem_nil _

omit [Scalar α] in
private theorem not_created_of_remove (registry : Registry α) (id : MatchId) :
    ∀ stage ∈ (registry.remove id).stages, stage.1 ≠ .created := by
  unfold remove
  split
  · exact List.forall_mem_nil _
  · exact List.forall_mem_singleton.mpr nofun

omit [Scalar α] in
private theorem stages_resolve (registry : Registry α) (challenger challenged : ClientKey)
    (resolution : ChallengeResolution) :
    (registry.resolve challenger challenged resolution).stages = [] := by
  unfold resolve
  split
  · rfl
  · cases resolution <;> rfl

private theorem created_of_accept {roles : ClientKey → Role} {challenged challenger : ClientKey}
    {id : MatchId} {draw : Bool} {now : Instant} {chessMatch : Match α}
    (told : (.created, chessMatch) ∈
      (registry.accept roles challenged challenger id draw now).stages) :
    ∃ challenge, chessMatch = .ofChallenge id challenge draw now := by
  have resolved := registry.stages_resolve challenger challenged .accepted
  unfold accept at told
  split at told
  · cases told
  · next challenge _ =>
    dsimp only at told
    split at told
    · split at told
      · rw [resolved] at told
        cases told
      · simp only [Step.stages, register, List.filterMap_append, List.mem_append] at told
        rcases told with earlier | entered
        · rw [Step.stages] at resolved
          rw [resolved] at earlier
          cases earlier
        · cases List.mem_singleton.mp entered
          exact ⟨challenge, rfl⟩
    · cases told

/-- A match whose entry is told is one that the call enters. -/
theorem enters_of_created {chessMatch : Match α}
    (told : (.created, chessMatch) ∈ (registry.perform minimum call).stages) :
    call.Enters chessMatch := by
  unfold perform at told
  split at told
  · unfold Registry.challenge at told
    split at told <;> cases told
  · next challenged challenger id draw operation =>
    obtain ⟨challenge, rfl⟩ := created_of_accept told
    exact .accepted operation
  · rw [decline, stages_resolve] at told
    cases told
  · rw [revoke, stages_resolve] at told
    cases told
  · next entered operation =>
    unfold add at told
    split at told
    · cases List.mem_singleton.mp told
      exact .added operation
    · cases told
  · exact absurd rfl (not_created_of_move _ _ _ _ _ _ told)
  · exact absurd rfl (not_created_of_set _ _ _ _ told)
  · exact absurd rfl (not_created_of_remove _ _ _ told)
  · exact absurd rfl (not_created_of_resign _ _ _ _ _ told)
  · exact absurd rfl (not_created_of_expire _ _ _ _ _ told)

theorem entered_of_entryless (entryless : call.operation.entry? = none) :
    (registry.event minimum call).entered = [] := by
  rw [List.eq_nil_iff_forall_not_mem]
  intro chessMatch enters
  have entered : call.Enters chessMatch := enters_of_created (Event.mem_entered.mp enters)
  rw [entered.entry?] at entryless
  cases entryless

theorem entriesOf_concat_of_entryless {id : MatchId} {history : List (Event α)}
    (entryless : call.operation.entry? = none) :
    entriesOf id (history ++ [registry.event minimum call]) = entriesOf id history := by
  apply entriesOf_concat_of_other
  rw [entered_of_entryless entryless]
  exact List.forall_mem_nil _

/-- Whatever has happened before, a call that enters no match can be made. -/
theorem fresh_of_entryless {history : List (Event α)} (entryless : call.operation.entry? = none) :
    Fresh history (registry.event minimum call) := by
  rw [Fresh, entered_of_entryless entryless]
  exact List.forall_mem_nil _

/-- A match is stored under an identity only if one was before, or is entered under it. -/
theorem isSome_of_perform (keyed : registry.Keyed) {id : MatchId}
    (stored : ((registry.perform minimum call).registry.match? id).isSome) :
    (registry.match? id).isSome ∨ call.operation.entry? = some id := by
  have effect : Effect minimum registry call (registry.perform minimum call) := effect_perform keyed
  cases effect with
  | idle active _ _ _ _ =>
    rw [match?_of_eq active] at stored
    exact .inl stored
  | enter chessMatch _ active _ _ stages _ =>
    rw [match?_of_insert active] at stored
    split at stored
    · next same =>
      have enters := enters_of_created (stages ▸ List.mem_singleton_self (Stage.created, chessMatch))
      exact .inr (same ▸ enters.entry?)
    · exact .inl stored
  | write kept draft found _ _ active _ _ _ _ _ =>
    rw [match?_of_insert active] at stored
    split at stored
    · next same =>
      rw [same] at found
      exact .inl (found ▸ rfl)
    · exact .inl stored
  | close kept last _ _ active _ _ _ _ _ =>
    rw [match?_of_erase active] at stored
    split at stored
    · cases stored
    · exact .inl stored

end Registry

end ChessArbiter
