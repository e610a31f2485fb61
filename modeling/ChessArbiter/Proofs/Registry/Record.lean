import ChessArbiter.Proofs.Chess.Replay
import ChessArbiter.Proofs.Registry.History
import ChessArbiter.Proofs.Registry.MatchEffect
import ChessArbiter.Proofs.Registry.Writes

/-! # The record of a match

Where matches are added with an empty record, moves are read from texts, and what is set over a match
leaves its position and its record alone (`Call.KeepsRecord`), each call continues a stored match with
the accepted move that it asks for or leaves position and record as they are (`Call.Continues`). So
the record of a match is its game: replayed from the position with which the match was entered it
comes to the position that is stored, and to the one that is told at the end.
-/

namespace ChessArbiter

variable {α : Type}

section Opening

variable {id : MatchId} {events : List (Event α)} {event : Event α}

/-- The position with which the match of an identity was entered last. -/
def openingOf? (id : MatchId) (events : List (Event α)) : Option Position :=
  ((entered events).filter (·.id = id)).getLast?.map (·.position)

theorem openingOf?_concat_of_other (other : ∀ chessMatch ∈ event.entered, chessMatch.id ≠ id) :
    openingOf? id (events ++ [event]) = openingOf? id events := by
  have kept : entriesOf id (events ++ [event]) = entriesOf id events := entriesOf_concat_of_other other
  exact congrArg (·.getLast?.map (·.position)) kept

theorem openingOf?_concat_of_created {chessMatch : Match α}
    (told : event.step.stages = [(.created, chessMatch)]) :
    openingOf? chessMatch.id (events ++ [event]) = some chessMatch.position := by
  have grown : entriesOf chessMatch.id (events ++ [event]) =
      entriesOf chessMatch.id events ++ [chessMatch] := entriesOf_concat_of_created rfl told
  have last := congrArg (·.getLast?.map (·.position)) grown
  rw [List.getLast?_concat] at last
  exact last

end Opening

/-- The record of the match, replayed from the position with which it was entered, comes to its
position. -/
def Match.Replays (events : List (Event α)) (chessMatch : Match α) : Prop :=
  ∃ opening, openingOf? chessMatch.id events = some opening ∧
    opening.replay? chessMatch.history = some chessMatch.position

/-- The call begins no record with moves in it, asks for no move that was not read from a text, and
sets nothing over a match that changes its position or its record. -/
structure Call.KeepsRecord (registry : Registry α) (call : Call α) : Prop where
  added : ∀ chessMatch, call.operation = .add chessMatch →
    registry.canSeat call.roles chessMatch = true → chessMatch.history = []
  requested : ∀ id request, call.operation = .move id request →
    ∃ text, MoveRequest.ofText? text = .ok request
  replaced : ∀ draft stored, call.operation = .set draft → registry.match? draft.id = some stored →
    stored.sameIdentity draft = true →
    draft.position = stored.position ∧ draft.history = stored.history

/-- A call for a move that was read from a text keeps the record. -/
theorem Call.keepsRecord_of_read {call : Call α} {id : MatchId} {request : MoveRequest} {text : String}
    (asked : call.operation = .move id request) (read : MoveRequest.ofText? text = .ok request)
    (registry : Registry α) : call.KeepsRecord registry := by
  constructor
  · intro _ other
    cases asked.symm.trans other
  · intro _ _ same
    cases asked.symm.trans same
    exact ⟨text, read⟩
  · intro _ _ other
    cases asked.symm.trans other

/-- What a call can do to the position and the record of a stored match: add the move for which it
asks, if the position accepts it, and else nothing. -/
inductive Call.Continues (call : Call α) (stored next : Match α) : Prop
  | moved (request : MoveRequest) (asked : call.operation = .move stored.id request)
      (accepted : stored.position.accepts request = true)
      (played : next.position = stored.position.apply request)
      (recorded : next.history = stored.history ++ [request.text])
  | kept (unmoved : ∀ request, call.operation = .move stored.id request →
        stored.position.accepts request = false)
      (position : next.position = stored.position) (history : next.history = stored.history)

theorem Call.Continues.replays {events : List (Event α)} {registry : Registry α} {call : Call α}
    {stored next : Match α} (continues : call.Continues stored next)
    (keeps : call.KeepsRecord registry) (own : next.id = stored.id)
    (replayed : stored.Replays events) : next.Replays events := by
  obtain ⟨opening, entered, comes⟩ := replayed
  refine ⟨opening, own ▸ entered, ?_⟩
  cases continues with
  | moved request asked accepted played recorded =>
    rw [recorded, played]
    exact Position.replay?_concat comes (keeps.requested _ request asked) accepted
  | kept _ position history =>
    rw [history, position]
    exact comes

variable [Scalar α]

theorem Match.afterMove_history (chessMatch : Match α) (minimum : α) (request : MoveRequest)
    (now : Instant) :
    (chessMatch.afterMove minimum request now).history = chessMatch.history ++ [request.text] := by
  unfold afterMove
  extract_lets mover zero left result charged played
  have unpaid (colour : Colour) (seconds : α) :
      (played.withTime colour seconds).history = played.history := by
    cases colour <;> rfl
  split
  · rfl
  · exact unpaid mover _

section Calls

variable {minimum : α} {registry : Registry α} {call : Call α}

/-- What is written over a stored match continues it. -/
theorem Call.KeepsRecord.continues {stored draft : Match α} (keeps : call.KeepsRecord registry)
    (found : registry.match? stored.id = some stored)
    (asked : call.rewrite? minimum stored = some draft) :
    call.Continues stored (draft.following stored) := by
  cases Call.rewrites asked with
  | @moved request operation accepted =>
    exact .moved request operation accepted (stored.afterMove_position minimum request call.now)
      (stored.afterMove_history minimum request call.now)
  | replaced operation own same =>
    obtain ⟨position, history⟩ := keeps.replaced draft stored operation (own ▸ found) same
    refine .kept ?_ position history
    intro request move
    cases operation.symm.trans move
  | resigned operation =>
    refine .kept ?_ rfl rfl
    intro request move
    cases operation.symm.trans move
  | expired operation =>
    refine .kept ?_ (stored.withTime_position stored.turn _) ?_
    · intro request move
      cases operation.symm.trans move
    · unfold Match.afterTimeout Match.withTime
      split <;> rfl

/-- A match that is closed is told as it was stored or as it was written last. -/
theorem Call.KeepsRecord.continues_of_ending {stored last : Match α}
    (keeps : call.KeepsRecord registry) (found : registry.match? stored.id = some stored)
    (ending : Ending minimum call stored last) : call.Continues stored last := by
  cases ending with
  | written asked _ => exact keeps.continues found asked
  | removed operation =>
    refine .kept ?_ rfl rfl
    intro request move
    cases operation.symm.trans move

/-- A match with which a record begins has no moves behind it. -/
theorem Call.KeepsRecord.history_of_enters {chessMatch : Match α} (keeps : call.KeepsRecord registry)
    (enters : call.Enters chessMatch) (free : registry.canSeat call.roles chessMatch = true) :
    chessMatch.history = [] :=
  enters.history_eq_nil fun asked => keeps.added chessMatch asked free

/-- Every match that a call leaves or tells is one whose entry it tells, or continues a stored one. -/
theorem Call.KeepsRecord.created_or_continues (keeps : call.KeepsRecord registry)
    (keyed : registry.Keyed) {next : Match α}
    (shown : (registry.perform minimum call).registry.match? next.id = some next ∨
      ∃ stage, (stage, next) ∈ (registry.perform minimum call).stages) :
    (registry.perform minimum call).stages = [(.created, next)] ∧ next.history = [] ∨
      ∃ stored, registry.match? next.id = some stored ∧ call.Continues stored next := by
  have shown : call.Shown minimum registry next := Registry.shown keyed shown
  cases shown with
  | entered enters free told => exact .inl ⟨told, keeps.history_of_enters enters free⟩
  | untouched found untold =>
    refine .inr ⟨next, found, .kept ?_ rfl rfl⟩
    intro request asked
    exact Registry.refuses_of_untold found untold asked
  | written stored draft found own asked same =>
    exact .inr ⟨stored, own ▸ found, same ▸ keeps.continues found asked⟩
  | removed found asked =>
    have ending : Ending minimum call next next := .removed asked
    exact .inr ⟨next, found, keeps.continues_of_ending found ending⟩

end Calls

namespace History

variable {rule : Registry α → Call α → Prop} {minimum : α} {events : List (Event α)}
  {registry : Registry α}

/-- A history has come by each of its calls. -/
theorem split {before after : List (Event α)} {event : Event α}
    (history : History rule minimum (before ++ event :: after) registry) :
    ∃ earlier, History rule minimum before earlier ∧ event = earlier.event minimum event.call ∧
      rule earlier event.call := by
  generalize whole : before ++ event :: after = events at history
  induction history generalizing after with
  | start =>
    have filled := List.append_ne_nil_of_right_ne_nil before (List.cons_ne_nil event after)
    exact (filled whole).elim
  | @call events earlier history call allowed ih =>
    rcases cut_concat whole with ⟨rfl, rfl, -⟩ | ⟨_, -, cut⟩
    · exact ⟨earlier, history, rfl, allowed⟩
    · exact ih cut

/-- Every stored match is its record replayed. -/
theorem replays_of_stored (history : History Call.KeepsRecord minimum events registry) {id : MatchId}
    {stored : Match α} (found : registry.match? id = some stored) : stored.Replays events := by
  induction history generalizing id stored with
  | start =>
    rw [Registry.match?_empty] at found
    cases found
  | @call events registry history call keeps ih =>
    cases history.matchEffect call id with
    | untouched kept _ untold =>
      rw [kept] at found
      obtain rfl := history.keyed id stored found
      rw [Match.Replays, openingOf?_concat_of_other]
      · exact ih found
      · intro chessMatch enters
        exact untold _ (Event.mem_entered.mp enters)
    | entered chessMatch own enters stores _ told free =>
      -- From here on the position with which this match is entered counts, and no earlier one.
      cases stores.symm.trans found
      refine ⟨_, openingOf?_concat_of_created told, ?_⟩
      rw [keeps.history_of_enters enters free]
      rfl
    | written earlier draft foundEarlier asked _ stores _ told =>
      cases stores.symm.trans found
      obtain rfl := history.keyed id earlier foundEarlier
      rw [Match.Replays, openingOf?_concat_of_other]
      · exact (keeps.continues foundEarlier asked).replays keeps (Call.rewrite?_identity asked).1
          (ih foundEarlier)
      · rw [Event.entered_of_later told (by decide)]
        exact List.forall_mem_nil _
    | closed _ _ _ _ absent => cases absent.symm.trans found

/-- Every match that is told after its entry is its record replayed. -/
theorem replays_of_told (history : History Call.KeepsRecord minimum events registry) {call : Call α}
    (keeps : call.KeepsRecord registry) {stage : Stage} {next : Match α}
    (told : (stage, next) ∈ (registry.perform minimum call).stages) (later : stage ≠ .created) :
    next.Replays events := by
  rcases keeps.created_or_continues history.keyed (.inr ⟨stage, told⟩) with
    ⟨created, _⟩ | ⟨stored, found, continues⟩
  · rw [created] at told
    cases List.mem_singleton.mp told
    exact (later rfl).elim
  · have own := history.keyed next.id stored found
    exact continues.replays keeps own.symm (history.replays_of_stored found)

/-- In every history whose calls keep the record, every stored match and every match that is told
after its entry is its record replayed from the position with which it was entered. A next call begins
an empty record or adds the accepted move that it asks for, also one by which the mover's flag falls;
everything else leaves position and record as they were. -/
theorem record_replays (history : History Call.KeepsRecord minimum events registry) :
    (∀ id stored, registry.match? id = some stored → stored.Replays events) ∧
      (∀ before event after, events = before ++ event :: after → ∀ stage ∈ event.step.stages,
        stage.1 ≠ .created → stage.2.Replays before) ∧
      ∀ call : Call α, call.KeepsRecord registry → ∀ next,
        ((registry.perform minimum call).registry.match? next.id = some next ∨
          ∃ stage, (stage, next) ∈ (registry.perform minimum call).stages) →
        (registry.perform minimum call).stages = [(.created, next)] ∧ next.history = [] ∨
          ∃ stored, registry.match? next.id = some stored ∧ call.Continues stored next := by
  refine ⟨fun _ _ => history.replays_of_stored, ?_, ?_⟩
  · rintro before event after rfl ⟨stage, next⟩ told later
    obtain ⟨earlier, begun, same, keeps⟩ := history.split
    have performed : event.step = earlier.perform minimum event.call := congrArg Event.step same
    exact begun.replays_of_told keeps (performed ▸ told) later
  · intro call keeps next
    exact keeps.created_or_continues history.keyed

end History

/-- White asks in vain for a capture by its king; then its rook gives check. Black's flag falls with the
reply, which is on record all the same. -/
theorem record_replays_of_flagged :
    ∃ (events : List (Event Rat)) (event : Event Rat) (registry : Registry Rat) (final : Match Rat),
      History Call.KeepsRecord 0 (events ++ [event]) registry ∧
      (.ended, final) ∈ event.step.stages ∧ final.result = .win .white .timeout ∧
      final.history = ["h1h8", "a8a7"] ∧ final.Replays events := by
  let placement := (Placement.read? "k7/8/2K5/8/8/8/8/7R".toList).getD .empty
  let board : Board := ⟨placement, .white, ⟨false, false, false, false⟩, none⟩
  let opening : Match Rat :=
    { Match.start ⟨1⟩ "ada" "bob" .bullet (.ofMillis 0) with position := .ofBoard board 0 1 }
  let call (operation : Operation Rat) (millis : Int) : Call Rat :=
    ⟨operation, fun _ => .player, .ofMillis millis⟩
  let move (source target : String) : Operation Rat := .move ⟨1⟩ ⟨source, target, none⟩
  let late := call (move "a8" "a7") 62000
  have history : History Call.KeepsRecord (0 : Rat) [] .empty := .start
  have history := history.call (call (.add opening) 0) (by
    constructor
    · rintro _ ⟨⟩ _
      rfl
    · intro _ _ asked
      cases asked
    · intro _ _ asked
      cases asked)
  have vain : MoveRequest.ofText? "c6a8" = .ok ⟨"c6", "a8", none⟩ := by decide +kernel
  have check : MoveRequest.ofText? " h1h8 " = .ok ⟨"h1", "h8", none⟩ := by decide +kernel
  have reply : MoveRequest.ofText? "a8a7" = .ok ⟨"a8", "a7", none⟩ := by decide +kernel
  have history := history.call (call (move "c6" "a8") 1000) (Call.keepsRecord_of_read rfl vain _)
  have history := history.call (call (move "h1" "h8") 2000) (Call.keepsRecord_of_read rfl check _)
  obtain ⟨events, registry, history, shown⟩ : ∃ events registry,
      History Call.KeepsRecord (0 : Rat) events registry ∧
      (registry.perform 0 late).stages.map (fun stage => (stage.1, stage.2.result, stage.2.history)) =
        [(.ended, .win .white .timeout, ["h1h8", "a8a7"])] :=
    ⟨_, _, history, by decide +kernel⟩
  have keeps : late.KeepsRecord registry := Call.keepsRecord_of_read rfl reply registry
  obtain ⟨⟨stage, final⟩, told, same⟩ := List.map_eq_singleton_iff.mp shown
  simp only [Prod.mk.injEq] at same
  obtain ⟨rfl, lost, recorded⟩ := same
  have ended : (.ended, final) ∈ (registry.event 0 late).step.stages :=
    told ▸ List.mem_singleton_self (Stage.ended, final)
  have whole := history.call late keeps
  obtain ⟨-, replays, -⟩ := whole.record_replays
  exact ⟨events, registry.event 0 late, _, final, whole, ended, lost, recorded,
    replays events _ [] rfl _ ended nofun⟩

end ChessArbiter
