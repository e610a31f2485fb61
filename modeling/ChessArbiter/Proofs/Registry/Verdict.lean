import ChessArbiter.Proofs.Chess.Game
import ChessArbiter.Proofs.Registry.Continuation
import ChessArbiter.Proofs.Registry.Writes

/-! # Why a match has ended

As long as nobody decides a match from outside, every stored match is in progress, and whatever is
told as the end of one has a reason (`Verdict`): the flag of the side to move fell, the board decided
after a move that came in time, a participant resigned, or the match was taken out as it stood. The
end is final: of that match nothing is told any more.
-/

namespace ChessArbiter

variable {α : Type} [Scalar α]

/-- Neither the board nor anything else has decided the match. -/
structure Match.Undecided (chessMatch : Match α) : Prop where
  result : chessMatch.result = .inProgress
  outcome : chessMatch.position.outcome = none

/-- The call decides no match from outside: it adds none that is decided, and sets none that changes
the result of the stored one or has an outcome. -/
structure Call.Fair (registry : Registry α) (call : Call α) : Prop where
  added : ∀ chessMatch, call.operation = .add chessMatch →
    registry.canSeat call.roles chessMatch = true → chessMatch.Undecided
  replaced : ∀ draft stored, call.operation = .set draft → registry.match? draft.id = some stored →
    stored.sameIdentity draft = true →
    draft.result = stored.result ∧ draft.position.outcome = none

/-- A run of fair calls. -/
inductive FairRun (minimum : α) : List (Event α) → Registry α → Prop
  | start : FairRun minimum [] .empty
  | call {history : List (Event α)} {registry : Registry α} (run : FairRun minimum history registry)
      (call : Call α) (fresh : Fresh history (registry.event minimum call))
      (fair : call.Fair registry) :
      FairRun minimum (history ++ [registry.event minimum call])
        (registry.perform minimum call).registry

/-- What justifies the end of a match that was stored. -/
inductive Verdict (minimum : α) (call : Call α) (stored final : Match α) : Prop
  | timeout (flagged : stored.Flagged final)
      (late : (∃ request, call.operation = .move final.id request ∧
          stored.position.accepts request = true) ∨
        call.operation = .expire final.id stored.generation)
  | board (request : MoveRequest) (asked : call.operation = .move final.id request)
      (accepted : stored.position.accepts request = true)
      (inTime : ¬ stored.left minimum call.now ≤ Scalar.ofInt 0)
      (played : final.position = stored.position.apply request)
      (decided : final.position.outcome ≠ none)
      (result : final.result = .ofOutcome final.position.outcome)
      (mates : ∀ winner, final.result = .win winner .checkmate → winner = stored.turn)
  | resigned (key : ClientKey) (colour : Colour) (asked : call.operation = .resign final.id key)
      (plays : stored.client colour = key) (opponent : stored.client colour.other ≠ key)
      (result : final.result = .win colour.other .resignation)
  | removed (asked : call.operation = .remove final.id) (same : final = stored)
      (result : final.result = .inProgress)

namespace Position

/-- A move that gives checkmate wins for the side that makes it. -/
theorem winner_of_checkmate {position : Position} {request : MoveRequest} {winner : Colour}
    (accepted : position.accepts request = true)
    (mate : (position.apply request).outcome = some (.checkmate winner)) :
    winner = position.board.turn := by
  obtain ⟨move, _, played⟩ := exists_of_accepts accepted
  rw [played] at mate
  have outcome : (position.board.play move).outcome _ _ _ = some (.checkmate winner) := mate
  unfold Board.outcome at outcome
  split at outcome
  · split at outcome
    · cases outcome
    · cases outcome
      exact Colour.other_other _
  · repeat' split at outcome
    all_goals cases outcome

end Position

theorem MatchResult.ofOutcome_eq_inProgress {outcome : Option Outcome}
    (undecided : ofOutcome outcome = .inProgress) : outcome = none := by
  rcases outcome with _ | _ | _ | _ | _ | _
  · rfl
  all_goals cases undecided

theorem MatchResult.ofOutcome_eq_checkmate {outcome : Option Outcome} {winner : Colour}
    (mate : ofOutcome outcome = .win winner .checkmate) : outcome = some (.checkmate winner) := by
  rcases outcome with _ | winner | _ | _ | _ | _
  · cases mate
  · cases mate
    rfl
  all_goals cases mate

omit [Scalar α] in
theorem Match.client_of_colourOf? {chessMatch : Match α} {key : ClientKey} {colour : Colour}
    (plays : chessMatch.colourOf? key = some colour) : chessMatch.client colour = key := by
  unfold colourOf? at plays
  split at plays
  · next white =>
    cases plays
    exact white
  · split at plays
    · next black =>
      cases plays
      exact black
    · cases plays

namespace Match

variable {stored : Match α} {minimum : α} {request : MoveRequest} {now : Instant}

/-- A move of an undecided match after which it goes on leaves it undecided. -/
theorem Undecided.afterMove (undecided : stored.Undecided)
    (continues : (stored.afterMove minimum request now).isTerminal = false) :
    (stored.afterMove minimum request now).Undecided := by
  have standing : ¬ stored.left minimum now ≤ Scalar.ofInt 0 := by
    intro fallen
    rw [(flagged_afterMove request fallen).isTerminal] at continues
    cases continues
  have judged := (afterMove_of_standing request standing undecided.result).1
  have result : (stored.afterMove minimum request now).result = .inProgress := by
    simpa [isTerminal, MatchResult.isTerminal] using continues
  refine ⟨result, ?_⟩
  rw [afterMove_position]
  exact MatchResult.ofOutcome_eq_inProgress (judged.symm.trans result)

end Match

section Calls

variable {minimum : α} {history : List (Event α)} {registry : Registry α}

/-- In every run the participants of a stored match are two clients. -/
theorem Run.white_ne_black (run : Run minimum history registry) {id : MatchId} {stored : Match α}
    (found : registry.match? id = some stored) : stored.white ≠ stored.black := by
  induction run generalizing stored with
  | start =>
    rw [Registry.match?_empty] at found
    cases found
  | @call history registry run call fresh ih =>
    cases run.matchEffect call id with
    | untouched kept => exact ih (kept ▸ found)
    | entered chessMatch _ _ stores _ _ free =>
      cases stores.symm.trans found
      exact ((registry.canSeat_iff call.roles stored).mp free).1
    | written earlier draft foundEarlier asked _ stores =>
      cases stores.symm.trans found
      obtain ⟨white, black, _⟩ := Match.sameIdentity_iff.mp (Call.rewrite?_identity asked).2
      have differ := ih foundEarlier
      rw [white, black] at differ
      exact differ
    | closed _ _ _ _ absent => cases absent.symm.trans found

omit [Scalar α] in
/-- The participant that resigns has an opponent. -/
theorem Match.client_other_ne {stored : Match α} (differ : stored.white ≠ stored.black)
    {key : ClientKey} {colour : Colour} (plays : stored.client colour = key) :
    stored.client colour.other ≠ key := by
  subst plays
  cases colour with
  | white => exact differ.symm
  | black => exact differ

/-- A move that ends an undecided match either came too late, or the board decides after it. -/
theorem Verdict.of_move {call : Call α} {stored : Match α} {request : MoveRequest}
    (undecided : stored.Undecided) (asked : call.operation = .move stored.id request)
    (accepted : stored.position.accepts request = true)
    (finished : (stored.afterMove minimum request call.now).isTerminal = true) :
    Verdict minimum call stored ((stored.afterMove minimum request call.now).following stored) := by
  rw [← stored.afterMove_id minimum request call.now] at asked
  by_cases fallen : stored.left minimum call.now ≤ Scalar.ofInt 0
  · have flagged := Match.flagged_afterMove request fallen
    exact .timeout (flagged.following stored) (.inl ⟨request, asked, accepted⟩)
  · have played := stored.afterMove_position minimum request call.now
    have judged := (Match.afterMove_of_standing request fallen undecided.result).1
    refine .board request asked accepted fallen played ?_ (played ▸ judged) ?_
    · intro outcome
      have outcome : (stored.position.apply request).outcome = none := played ▸ outcome
      rw [Match.isTerminal, judged, outcome] at finished
      cases finished
    · intro winner mate
      have mate := MatchResult.ofOutcome_eq_checkmate (judged.symm.trans mate)
      exact Position.winner_of_checkmate accepted mate

/-- A match that comes to its end by a fair call has been decided for a reason. -/
theorem Verdict.of_ending {call : Call α} {stored final : Match α} (undecided : stored.Undecided)
    (differ : stored.white ≠ stored.black) (found : registry.match? stored.id = some stored)
    (fair : call.Fair registry) (ending : Ending minimum call stored final) :
    Verdict minimum call stored final := by
  cases ending with
  | removed asked => exact .removed asked rfl undecided.result
  | @written draft rewritten finished =>
    cases Call.rewrites rewritten with
    | moved asked accepted => exact .of_move undecided asked accepted finished
    | replaced asked own same =>
      obtain ⟨result, _⟩ := fair.replaced draft stored asked (own ▸ found) same
      rw [Match.isTerminal, result, undecided.result] at finished
      cases finished
    | @resigned key colour asked plays =>
      have plays := Match.client_of_colourOf? plays
      exact .resigned key colour asked plays (Match.client_other_ne differ plays) rfl
    | expired asked =>
      rw [← stored.afterTimeout_id] at asked
      exact .timeout (stored.flagged_afterTimeout.following stored) (.inr asked)

end Calls

namespace FairRun

variable {minimum : α} {history : List (Event α)} {registry : Registry α}

theorem run (fair : FairRun minimum history registry) : Run minimum history registry := by
  induction fair with
  | start => exact .start
  | call _ call fresh _ ih => exact ih.call call fresh

/-- Every stored match of a fair run is undecided. -/
theorem undecided (fair : FairRun minimum history registry) {id : MatchId} {stored : Match α}
    (found : registry.match? id = some stored) : stored.Undecided := by
  induction fair generalizing stored with
  | start =>
    rw [Registry.match?_empty] at found
    cases found
  | @call history registry before call fresh fair ih =>
    cases before.run.matchEffect call id with
    | untouched kept => exact ih (kept ▸ found)
    | entered chessMatch _ enters stores _ _ free =>
      cases stores.symm.trans found
      cases enters with
      | added asked => exact fair.added stored asked free
      | @accepted _ _ id draw challenge =>
        obtain ⟨_, _, _, started⟩ := Match.ofChallenge_eq_start (α := α) id challenge draw call.now
        rw [started]
        exact ⟨rfl, rfl⟩
    | written earlier draft foundEarlier asked continues stores =>
      cases stores.symm.trans found
      have same := before.run.keyed id earlier foundEarlier
      have undecided := ih foundEarlier
      have next : draft.Undecided := by
        rcases Call.rewrites_of_continues asked continues with
          ⟨request, _, _, rfl⟩ | ⟨operation, own, identity⟩
        · exact undecided.afterMove continues
        · obtain ⟨result, outcome⟩ :=
            fair.replaced draft earlier operation (own ▸ same ▸ foundEarlier) identity
          exact ⟨result.trans undecided.result, outcome⟩
      exact ⟨next.result, next.outcome⟩
    | closed _ _ _ _ absent => cases absent.symm.trans found

/-- A fair run has come by each of its calls. -/
theorem split {before after : List (Event α)} {event : Event α}
    (fair : FairRun minimum (before ++ event :: after) registry) :
    ∃ earlier, FairRun minimum before earlier ∧ event = earlier.event minimum event.call ∧
      event.call.Fair earlier ∧ FairRun minimum (before ++ [event]) event.step.registry := by
  generalize whole : before ++ event :: after = history at fair
  induction fair generalizing after with
  | start =>
    have filled := List.append_ne_nil_of_right_ne_nil before (List.cons_ne_nil event after)
    exact (filled whole).elim
  | @call history registry earlier call fresh fair ih =>
    -- The event is the last one of the run, or the cut lies in the run before the last one.
    rcases cut_concat whole with ⟨rfl, rfl, -⟩ | ⟨_, -, cut⟩
    · exact ⟨registry, earlier, rfl, fair, earlier.call call fresh fair⟩
    · exact ih cut

/-- After the end of a match nothing is told of it. -/
theorem untold_of_ended {later : List (Event α)} (fair : FairRun minimum (history ++ later) registry)
    {id : MatchId} {milestone : Milestone α} (member : milestone ∈ milestonesOf id history)
    (ended : milestone.stage = .ended) :
    registry.match? id = none ∧ ∀ event ∈ later, ∀ stage ∈ event.step.stages, stage.2.id ≠ id := by
  have ends (more : List (Event α)) : milestone ∈ milestonesOf id (history ++ more) := by
    rw [milestonesOf_append]
    exact List.mem_append_left _ member
  refine ⟨(fair.run.course id).absent_of_ended (ends later) ended, ?_⟩
  intro event happened
  obtain ⟨first, rest, rfl⟩ := List.mem_iff_append.mp happened
  rw [← List.append_assoc] at fair
  obtain ⟨earlier, before, same, _, next⟩ := fair.split
  -- An event that tells of a match finds it stored or leaves it stored; this one does neither.
  have absent := (before.run.course id).absent_of_ended (ends first) ended
  rw [List.append_assoc] at next
  have stillAbsent := (next.run.course id).absent_of_ended (ends _) ended
  have effect := before.run.matchEffect event.call id
  rw [same] at stillAbsent ⊢
  cases effect with
  | untouched _ _ untold => exact untold
  | entered _ _ _ stores => cases stillAbsent.symm.trans stores
  | written _ _ found => cases absent.symm.trans found
  | closed _ _ found => cases absent.symm.trans found

/-- Whenever the end of a match is told in a fair run, it was stored and has been decided for a
reason. -/
theorem verdict_of_ended (before : FairRun minimum history registry) {call : Call α}
    (fair : call.Fair registry) {final : Match α}
    (told : (.ended, final) ∈ (registry.perform minimum call).stages) :
    ∃ stored, registry.match? final.id = some stored ∧ Verdict minimum call stored final := by
  cases before.run.matchEffect call final.id with
  | untouched _ _ untold => exact (untold _ told rfl).elim
  | entered _ _ _ _ _ tells =>
    rw [tells] at told
    cases List.mem_singleton.mp told
  | written _ _ _ _ _ _ _ tells =>
    rw [tells] at told
    cases List.mem_singleton.mp told
  | closed stored last found ending _ tells =>
    rw [tells] at told
    cases List.mem_singleton.mp told
    have own := before.run.keyed _ stored found
    have differ := before.run.white_ne_black found
    exact ⟨stored, found, .of_ending (before.undecided found) differ (own ▸ found) fair ending⟩

/-- In every fair run each stored match is in progress and undecided on the board. Whatever is told
as the end of a match has a reason in the match that was stored before, and is final: nothing is told
of that match any more, and it is not stored again. -/
theorem verdict_final (fair : FairRun minimum history registry) :
    (∀ id stored, registry.match? id = some stored →
      stored.result = .inProgress ∧ stored.position.outcome = none) ∧
    ∀ before event after, history = before ++ event :: after →
      ∀ final, .matchEnded final ∈ event.step.notices →
        (∃ earlier stored, FairRun minimum before earlier ∧
          event = earlier.event minimum event.call ∧ earlier.match? final.id = some stored ∧
          Verdict minimum event.call stored final) ∧
        (∀ later ∈ after, ∀ stage ∈ later.step.stages, stage.2.id ≠ final.id) ∧
        registry.match? final.id = none := by
  constructor
  · intro id stored found
    have undecided := fair.undecided found
    exact ⟨undecided.result, undecided.outcome⟩
  · rintro before event after rfl final told
    have ended : (.ended, final) ∈ event.step.stages := List.mem_filterMap.mpr ⟨_, told, rfl⟩
    obtain ⟨earlier, run, same, fairCall, _⟩ := fair.split
    have performed : event.step = earlier.perform minimum event.call := congrArg Event.step same
    obtain ⟨stored, found, verdict⟩ := run.verdict_of_ended fairCall (performed ▸ ended)
    have happened := List.mem_append_right before (List.mem_singleton_self event)
    have milestone := mem_milestonesOf_of_told happened ended
    rw [List.append_cons] at fair
    obtain ⟨absent, untold⟩ := fair.untold_of_ended milestone rfl
    exact ⟨⟨earlier, stored, run, same, found, verdict⟩, untold, absent⟩

end FairRun

/-- Black resigns, and the match is then set once more as it began: this is refused, and White has
won. -/
theorem verdict_final_of_resigned :
    ∃ (before after : List (Event Rat)) (event : Event Rat) (registry : Registry Rat)
      (stored final : Match Rat), FairRun 0 (before ++ event :: after) registry ∧ after ≠ [] ∧
      .matchEnded final ∈ event.step.notices ∧ Verdict 0 event.call stored final ∧
      final.result = .win .white .resignation ∧
      (∀ later ∈ after, ∀ stage ∈ later.step.stages, stage.2.id ≠ final.id) ∧
      registry.match? final.id = none := by
  let chessMatch : Match Rat := .start ⟨1⟩ "ada" "bob" .blitz (.ofMillis 0)
  let call (operation : Operation Rat) : Call Rat := ⟨operation, fun _ => .player, .ofMillis 0⟩
  have run : FairRun (0 : Rat) [] .empty := .start
  have run := run.call (call (.add chessMatch)) (by decide) (by
    constructor
    · rintro _ ⟨⟩ _
      exact ⟨rfl, rfl⟩
    · intro _ _ asked
      cases asked)
  have run := run.call (call (.resign ⟨1⟩ "bob")) (Registry.fresh_of_entryless rfl) (by
    constructor
    · intro _ asked
      cases asked
    · intro _ _ asked
      cases asked)
  have run := run.call (call (.set chessMatch)) (Registry.fresh_of_entryless rfl) (by
    constructor
    · intro _ asked
      cases asked
    · rintro _ _ ⟨⟩ found
      cases found)
  obtain ⟨-, ends⟩ := run.verdict_final
  let final : Match Rat := (chessMatch.afterResignation .black).following chessMatch
  obtain ⟨⟨_, stored, _, _, _, verdict⟩, untold, absent⟩ :=
    ends [_] _ [_] rfl final (List.mem_singleton_self _)
  exact ⟨[_], [_], _, _, stored, _, run, List.cons_ne_nil _ _, List.mem_singleton_self _, verdict, rfl,
    untold, absent⟩

end ChessArbiter
