import ChessArbiter.Proofs.Match.Turn
import ChessArbiter.Proofs.Registry.Lifecycle
import ChessArbiter.Proofs.Registry.Refusal

/-! # What is written over a stored match

A match is written over by a move that its position accepts, by a match that is set over it, by the
resignation of a participant and by its own clock (`Call.Rewrites`). An accepted move ends the match
or the match goes on, and either is told once; a match that is not stored refuses every move.
-/

namespace ChessArbiter

variable {α : Type} [Scalar α]

theorem Match.Flagged.following {stored final : Match α} (flagged : stored.Flagged final)
    (earlier : Match α) : stored.Flagged (final.following earlier) :=
  ⟨flagged.lost, flagged.spent, flagged.kept⟩

theorem Match.InTime.following {stored next : Match Rat} {request : MoveRequest} {seconds : Rat}
    (inTime : stored.InTime request seconds next) (earlier : Match Rat) :
    stored.InTime request seconds (next.following earlier) :=
  ⟨inTime.judged, inTime.paid, inTime.kept⟩

/-- The ways in which a call can write over a stored match, each with what it writes. -/
inductive Call.Rewrites (minimum : α) (call : Call α) (stored : Match α) : Match α → Prop
  | moved {request : MoveRequest} (asked : call.operation = .move stored.id request)
      (accepted : stored.position.accepts request = true) :
      call.Rewrites minimum stored (stored.afterMove minimum request call.now)
  | replaced {draft : Match α} (asked : call.operation = .set draft) (own : draft.id = stored.id)
      (same : stored.sameIdentity draft = true) : call.Rewrites minimum stored draft
  | resigned {key : ClientKey} {colour : Colour} (asked : call.operation = .resign stored.id key)
      (plays : stored.colourOf? key = some colour) :
      call.Rewrites minimum stored (stored.afterResignation colour)
  | expired (asked : call.operation = .expire stored.id stored.generation) :
      call.Rewrites minimum stored stored.afterTimeout

theorem Call.rewrites {minimum : α} {call : Call α} {stored draft : Match α}
    (asked : call.rewrite? minimum stored = some draft) : call.Rewrites minimum stored draft := by
  cases operation : call.operation with
  | move id request =>
    simp only [rewrite?, operation, Option.ite_none_right_eq_some, Option.some.injEq] at asked
    obtain ⟨⟨rfl, accepted⟩, rfl⟩ := asked
    exact .moved operation accepted
  | set chessMatch =>
    simp only [rewrite?, operation, Option.ite_none_right_eq_some, Option.some.injEq] at asked
    obtain ⟨⟨own, same⟩, rfl⟩ := asked
    exact .replaced operation own same
  | resign id key =>
    simp only [rewrite?, operation, Option.ite_none_right_eq_some, Option.map_eq_some_iff] at asked
    obtain ⟨rfl, colour, plays, rfl⟩ := asked
    exact .resigned operation plays
  | expire id generation =>
    simp only [rewrite?, operation, Option.ite_none_right_eq_some, Option.some.injEq] at asked
    obtain ⟨⟨rfl, rfl⟩, rfl⟩ := asked
    exact .expired operation
  | _ => simp only [rewrite?, operation, reduceCtorEq] at asked

/-- Only a move and a match that is set let a match go on. -/
theorem Call.rewrites_of_continues {minimum : α} {call : Call α} {stored draft : Match α}
    (asked : call.rewrite? minimum stored = some draft) (continues : draft.isTerminal = false) :
    (∃ request, call.operation = .move stored.id request ∧
      stored.position.accepts request = true ∧
      draft = stored.afterMove minimum request call.now) ∨
    (call.operation = .set draft ∧ draft.id = stored.id ∧ stored.sameIdentity draft = true) := by
  cases rewrites asked with
  | moved operation accepted => exact .inl ⟨_, operation, accepted, rfl⟩
  | replaced operation own same => exact .inr ⟨operation, own, same⟩
  | resigned => cases continues
  | expired => cases continues

omit [Scalar α] in
/-- What is stored of a match after a write is the match that was written. -/
theorem Step.Publishes.stored {β : Type} {step : Step α β} {id : MatchId} {written next : Match α}
    (publishes : step.Publishes id written) (found : step.registry.match? id = some next) :
    next = written := by
  obtain ⟨_, outcome⟩ := publishes
  split at outcome
  · cases outcome.2.symm.trans found
  · exact Option.some.inj (found.symm.trans outcome.2)

omit [Scalar α] in
/-- A write is told. -/
theorem Step.Publishes.exists_told {β : Type} {step : Step α β} {id : MatchId} {written : Match α}
    (publishes : step.Publishes id written) : ∃ stage ∈ step.stages, stage.2.id = id := by
  obtain ⟨own, outcome⟩ := publishes
  rw [Step.stages]
  split at outcome
  · rw [outcome.1]
    exact ⟨(.ended, written), List.mem_singleton_self _, own⟩
  · rw [outcome.1]
    exact ⟨(.updated, written), List.mem_singleton_self _, own⟩

namespace Registry

variable {registry : Registry α} {stored : Match α} {minimum : α} {request : MoveRequest}
  {now : Instant}

omit [Scalar α] in
theorem match?_close (registry : Registry α) (chessMatch : Match α) :
    (registry.close chessMatch).match? chessMatch.id = none :=
  (match?_of_erase rfl chessMatch.id).trans (if_pos rfl)

theorem move_of_absent {id : MatchId} (absent : registry.match? id = none) :
    registry.move minimum id request now =
      .refused registry .matchNotFound
        [.moveFailure id request.text RegistryError.matchNotFound.message []] := by
  simp only [move, absent]

private theorem move_of_accepts (found : registry.match? stored.id = some stored)
    (accepted : stored.position.accepts request = true) :
    registry.move minimum stored.id request now =
      (registry.set (stored.afterMove minimum request now) now).done := by
  simp only [move, found, accepted, if_true]

private theorem found_afterMove (minimum : α) (request : MoveRequest) (now : Instant)
    (found : registry.match? stored.id = some stored) :
    registry.match? (stored.afterMove minimum request now).id = some stored := by
  rw [Match.afterMove_id]
  exact found

/-- An accepted move that ends the match. -/
theorem move_of_over (found : registry.match? stored.id = some stored)
    (accepted : stored.position.accepts request = true)
    (finished : (stored.afterMove minimum request now).isTerminal = true) :
    registry.move minimum stored.id request now =
      { answer := .ok ()
        registry := registry.close ((stored.afterMove minimum request now).following stored)
        notices := [.matchEnded ((stored.afterMove minimum request now).following stored)]
        alarms := registry.cancelClock stored.id } := by
  have same := stored.afterMove_sameIdentity minimum request now
  rw [move_of_accepts found accepted, set_of_over (found_afterMove _ _ _ found) same finished,
    Match.afterMove_id]
  rfl

/-- An accepted move is told once, with the match that it writes. -/
theorem move_publishes (minimum : α) (now : Instant) (found : registry.match? stored.id = some stored)
    (accepted : stored.position.accepts request = true) :
    (registry.move minimum stored.id request now).Publishes stored.id
      ((stored.afterMove minimum request now).following stored) := by
  have publishes := set_publishes _ now (found_afterMove minimum request now found)
    (stored.afterMove_sameIdentity minimum request now)
  rw [Match.afterMove_id] at publishes
  rw [move_of_accepts found accepted]
  exact publishes

/-- A call that does not tell of a stored match asks for no move that its position accepts. -/
theorem refuses_of_untold {call : Call α} (found : registry.match? stored.id = some stored)
    (untold : ∀ stage ∈ (registry.perform minimum call).stages, stage.2.id ≠ stored.id)
    (asked : call.operation = .move stored.id request) : stored.position.accepts request = false := by
  rw [Bool.eq_false_iff]
  intro accepted
  simp only [perform, asked] at untold
  obtain ⟨stage, told, own⟩ := (move_publishes minimum call.now found accepted).exists_told
  exact untold stage told own

end Registry

end ChessArbiter
