import ChessArbiter.Proofs.Registry.Continuation
import ChessArbiter.Proofs.Registry.Writes

/-! # A move and a clock that rings

The time of a turn is over for a move exactly when it is over for the clock of the match, and
whichever comes first ends the match for both (`FlagFalls`). A move that comes in time supersedes the
clock, which carries an older generation from then on.
-/

namespace ChessArbiter

variable {α : Type} [Scalar α] {minimum : α} {registry : Registry α}

namespace Registry

omit [Scalar α] in
/-- Two matches of one identity leave the same registry when they are closed. -/
theorem close_of_sameIdentity (registry : Registry α) {stored last : Match α}
    (id : last.id = stored.id) (same : stored.sameIdentity last = true) :
    registry.close last = registry.close stored := by
  simp only [close, id, registry.vacate_of_sameIdentity id same]

/-- The side to move has lost on time, for a move as for a clock that rings. Whichever comes first
tells of the end, the other has no effect, and in either order the same registry is left. -/
structure FlagFalls (minimum : α) (registry : Registry α) (stored : Match α) (clock : MatchClock α)
    (request : MoveRequest) (now rings : Instant) : Prop where
  move_succeeds : (registry.move minimum stored.id request now).answer = .ok ()
  move_tells : ∃ final, stored.Flagged final ∧
    (registry.move minimum stored.id request now).notices = [.matchEnded final]
  clock_is_silent : let moved := (registry.move minimum stored.id request now).registry
    moved.expire stored.id clock.generation rings = .still moved
  clock_tells : ∃ final, stored.Flagged final ∧
    (registry.expire stored.id clock.generation rings).notices = [.matchEnded final]
  move_is_refused : let rung := (registry.expire stored.id clock.generation rings).registry
    rung.move minimum stored.id request now =
      .refused rung .matchNotFound
        [.moveFailure stored.id request.text RegistryError.matchNotFound.message []]
  agree : (registry.move minimum stored.id request now).registry =
    (registry.expire stored.id clock.generation rings).registry

variable {stored : Match α} {clock : MatchClock α} {request : MoveRequest} {now : Instant}

theorem flagFalls (found : registry.match? stored.id = some stored)
    (current : clock.generation = stored.generation)
    (accepted : stored.position.accepts request = true)
    (fallen : stored.left minimum now ≤ Scalar.ofInt 0) (rings : Instant) :
    registry.FlagFalls minimum stored clock request now rings := by
  have flagged := Match.flagged_afterMove request fallen
  have moved := move_of_over found accepted flagged.isTerminal
  have rung := expire_of_current rings found
  rw [← current] at rung
  -- Both close a match of the stored identity, whatever its board and clocks show.
  have closed : registry.close ((stored.afterMove minimum request now).following stored) =
      registry.close stored := by
    refine registry.close_of_sameIdentity ?_ (stored.afterMove_sameIdentity minimum request now)
    exact stored.afterMove_id minimum request now
  have closedByClock : registry.close (stored.afterTimeout.following stored) =
      registry.close stored :=
    registry.close_of_sameIdentity stored.afterTimeout_id stored.afterTimeout_sameIdentity
  rw [closed] at moved
  rw [closedByClock] at rung
  have absent := registry.match?_close stored
  constructor
  · rw [moved]
  · exact ⟨_, flagged.following stored, by rw [moved]⟩
  · rw [moved]
    apply expire_of_stale
    intro other foundOther
    cases absent.symm.trans foundOther
  · exact ⟨_, stored.flagged_afterTimeout.following stored, by rw [rung]⟩
  · rw [rung]
    exact move_of_absent absent
  · rw [moved, rung]

end Registry

/-- In every history, at whole milliseconds, a move of a stored match in progress and the clock of that
match agree. If the time since the last move, and at least the minimum, is all that the side to move
has left, the match ends on time, whichever of the two comes first. If it is less, the move is not
lost on time, and the clock that ran before it has no effect any more: neither right after the move nor
later, as long as no other match is entered under the identity. -/
theorem History.flag_falls {rule : Registry Rat → Call Rat → Prop} {minimum : Rat}
    {events : List (Event Rat)} {registry : Registry Rat}
    (history : History rule minimum events registry) {stored : Match Rat}
    (found : registry.match? stored.id = some stored) (undecided : stored.result = .inProgress)
    {request : MoveRequest} (accepted : stored.position.accepts request = true) {now : Instant}
    (atMillis : now.OnMillis) (movedAtMillis : stored.lastMove.OnMillis) :
    ∃ clock, registry.clocks[stored.id]? = some clock ∧
      let charge := max minimum (now.seconds - stored.lastMove.seconds)
      (stored.time stored.turn ≤ charge →
        ∀ rings, registry.FlagFalls minimum stored clock request now rings) ∧
      (charge < stored.time stored.turn → ∀ roles,
        let event := registry.event minimum ⟨.move stored.id request, roles, now⟩
        let moved := event.step.registry
        (∃ next, stored.InTime request charge next ∧
          (∀ winner, next.result ≠ .win winner .timeout) ∧
          event.step.answer = .ok () ∧ event.step.Publishes stored.id next) ∧
        (∀ rings, moved.expire stored.id clock.generation rings = .still moved) ∧
        ∀ later after, History rule minimum (events ++ event :: later) after →
          (∀ chessMatch ∈ entered later, chessMatch.id ≠ stored.id) →
          ∀ rings, after.expire stored.id clock.generation rings = .still after) := by
  obtain ⟨clock, runs, current⟩ := history.clocked.exists_running found
  have elapsed : stored.elapsed minimum now = max minimum (now.seconds - stored.lastMove.seconds) := by
    rw [Match.elapsed_rat, Instant.secondsSince_eq_sub atMillis movedAtMillis]
  refine ⟨clock, runs, ?_⟩
  intro charge
  have elapsed : stored.elapsed minimum now = charge := elapsed
  rw [← elapsed]
  constructor
  · intro spent rings
    exact Registry.flagFalls found current accepted (Match.left_le_iff.mpr spent) rings
  · intro standing roles event moved
    have inTime := Match.inTime_afterMove request standing undecided
    have success : event.step.answer = .ok () := Registry.move_ok history.keyed now found accepted
    have publishes := Registry.move_publishes minimum now found accepted
    -- What is stored after the move, if anything is, carries the next generation.
    have superseded : moved.Superseded stored.id clock.generation := by
      intro next foundNext
      cases publishes.stored foundNext
      exact current ▸ Nat.lt_succ_self stored.generation
    refine ⟨⟨_, inTime.following stored, ?_, success, publishes⟩, superseded.expire, ?_⟩
    · intro winner
      exact inTime.judged ▸ MatchResult.ofOutcome_ne_timeout _ winner
    · intro later after continued others
      exact (continued.superseded_of_continued others superseded).expire

/-- A side that has a minute left gives checkmate. At the end of the minute it has lost all the same,
a millisecond before it wins. -/
theorem flag_falls_at_the_last_moment :
    ∃ (events : List (Event Rat)) (registry : Registry Rat) (stored : Match Rat)
      (clock : MatchClock Rat), History (fun _ _ => True) (1 / 10) events registry ∧
      registry.clocks[stored.id]? = some clock ∧
      (∀ rings, registry.FlagFalls (1 / 10) stored clock ⟨"h1", "h8", none⟩ (.ofMillis 60000) rings) ∧
      ∃ next, stored.InTime ⟨"h1", "h8", none⟩ (59999 / 1000) next ∧
        next.result = .win .white .checkmate := by
  let beginning : Instant := .ofMillis 0
  let placement := (Placement.read? "k7/8/1K6/8/8/8/8/7R".toList).getD .empty
  let board : Board := ⟨placement, .white, ⟨false, false, false, false⟩, none⟩
  let stored : Match Rat :=
    { Match.start ⟨1⟩ "ada" "bob" .bullet beginning with position := .ofBoard board 0 1 }
  let call : Call Rat := ⟨.add stored, fun _ => .player, beginning⟩
  have history : History (fun _ _ => True) (1 / 10 : Rat) [] .empty := .start
  have history := history.call call trivial
  have mates : stored.position.accepts ⟨"h1", "h8", none⟩ = true ∧
      (stored.position.apply ⟨"h1", "h8", none⟩).outcome = some (.checkmate .white) := by
    decide +kernel
  have found : (Registry.perform (1 / 10) .empty call).registry.match? stored.id = some stored := rfl
  have moved : stored.lastMove.OnMillis := Instant.onMillis_ofMillis 0
  obtain ⟨clock, runs, spent, -⟩ :=
    history.flag_falls found rfl mates.1 (Instant.onMillis_ofMillis 60000) moved
  obtain ⟨_, _, -, standing⟩ :=
    history.flag_falls found rfl mates.1 (Instant.onMillis_ofMillis 59999) moved
  have charge : max (1 / 10) ((Instant.ofMillis 59999).seconds - stored.lastMove.seconds) =
      (59999 / 1000 : Rat) := by decide +kernel
  rw [charge] at standing
  obtain ⟨⟨next, inTime, -⟩, -⟩ := standing (by decide +kernel) fun _ => .player
  refine ⟨_, _, stored, clock, history, runs, spent (by decide +kernel), next, inTime, ?_⟩
  rw [inTime.judged, mates.2]
  rfl

end ChessArbiter
