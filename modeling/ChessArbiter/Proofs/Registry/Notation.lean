import ChessArbiter.Proofs.Chess.Notation
import ChessArbiter.Proofs.Registry.Record

/-! # The notation of the record

The record of a match gets the text of every request that the match accepts, as the request has it. Where
matches are added with an empty record and what is set over a match leaves its record alone
(`Call.KeepsEntries`), each entry is such a text (`Match.Noted`). An entry is read back as the move that
was played exactly if its request is plain. Requests that are not are accepted all the same, because
only the first two characters of a square are looked at; their entries are read as another move or not
at all.
-/

namespace ChessArbiter

variable {α : Type}

/-- The call begins no record with moves in it and sets nothing over a match that changes its record. -/
structure Call.KeepsEntries (registry : Registry α) (call : Call α) : Prop where
  added : ∀ chessMatch, call.operation = .add chessMatch →
    registry.canSeat call.roles chessMatch = true → chessMatch.history = []
  replaced : ∀ draft stored, call.operation = .set draft → registry.match? draft.id = some stored →
    stored.sameIdentity draft = true → draft.history = stored.history

/-- A call for a move keeps the entries. -/
theorem Call.keepsEntries_of_move {call : Call α} {id : MatchId} {request : MoveRequest}
    (asked : call.operation = .move id request) (registry : Registry α) :
    call.KeepsEntries registry := by
  constructor
  · intro _ other
    cases asked.symm.trans other
  · intro _ _ other
    cases asked.symm.trans other

/-- So does a call that adds a match with an empty record. -/
theorem Call.keepsEntries_of_add {call : Call α} {chessMatch : Match α}
    (asked : call.operation = .add chessMatch) (empty : chessMatch.history = [])
    (registry : Registry α) : call.KeepsEntries registry := by
  constructor
  · intro other same _
    cases asked.symm.trans same
    exact empty
  · intro _ _ other
    cases asked.symm.trans other

/-- What is on record for a move that was requested: the text of the request. It is read back as that move
exactly if the request is plain, as every request is that was read from a text itself. -/
structure MoveRequest.Notes (request : MoveRequest) (move : Move) (entry : String) : Prop where
  text : entry = request.text
  named : request.move? = .ok move
  reads_back : (∃ read, ofText? entry = .ok read ∧ read.move? = .ok move) ↔ request.Plain
  plain : ∀ text, ofText? text = .ok request → request.Plain

/-- An accepted request names the move that is played, and its text goes on record. -/
theorem Position.exists_notes {position : Position} {request : MoveRequest}
    (accepted : position.accepts request = true) :
    ∃ move, position.apply request = position.play move ∧ request.Notes move request.text := by
  obtain ⟨move, named, _⟩ := Position.exists_move?_of_accepts accepted
  exact ⟨move, Position.apply_of_move? named, rfl, named, MoveRequest.reads_back_iff named,
    fun _ read => MoveRequest.plain_of_ofText? read named⟩

/-- Every entry of the record is there for an accepted move in the match. -/
def Match.Noted (events : List (Event α)) (chessMatch : Match α) : Prop :=
  ∀ entry ∈ chessMatch.history, ∃ event ∈ events, ∃ request move,
    event.call.operation = .move chessMatch.id request ∧ event.step.answer = .ok () ∧
      request.Notes move entry

theorem Match.Noted.concat {events : List (Event α)} {chessMatch next : Match α}
    (noted : chessMatch.Noted events) (event : Event α) (own : next.id = chessMatch.id)
    (same : next.history = chessMatch.history) : next.Noted (events ++ [event]) := by
  intro entry member
  rw [same] at member
  obtain ⟨earlier, happened, notes⟩ := noted entry member
  exact ⟨earlier, List.mem_append_left _ happened, own ▸ notes⟩

theorem Match.noted_of_empty (events : List (Event α)) {chessMatch : Match α}
    (empty : chessMatch.history = []) : chessMatch.Noted events := by
  rw [Match.Noted, empty]
  exact List.forall_mem_nil _

variable [Scalar α] {minimum : α} {registry : Registry α} {call : Call α} {events : List (Event α)}

/-- What is written over a match has its record, or that record with the move for which the call asks. -/
theorem Call.KeepsEntries.noted_of_rewrite {stored draft : Match α} (keeps : call.KeepsEntries registry)
    (keyed : registry.Keyed) (found : registry.match? stored.id = some stored)
    (asked : call.rewrite? minimum stored = some draft) (noted : stored.Noted events) :
    (draft.following stored).Noted (events ++ [registry.event minimum call]) := by
  have own : (draft.following stored).id = stored.id := (Call.rewrite?_identity asked).1
  cases Call.rewrites asked with
  | @moved request operation accepted =>
    have recorded : ((stored.afterMove minimum request call.now).following stored).history =
        stored.history ++ [request.text] := stored.afterMove_history minimum request call.now
    obtain ⟨move, -, notes⟩ := Position.exists_notes accepted
    have success : (registry.event minimum call).step.answer = .ok () := by
      simp only [Registry.event, Registry.perform, operation]
      exact Registry.move_ok keyed call.now found accepted
    intro entry member
    rw [recorded] at member
    rcases List.mem_append.mp member with earlier | latest
    · obtain ⟨event, happened, noted⟩ := noted entry earlier
      exact ⟨event, List.mem_append_left _ happened, own ▸ noted⟩
    · rw [List.mem_singleton.mp latest]
      refine ⟨_, List.mem_append_right _ (List.mem_singleton_self _), request, move, ?_, success, notes⟩
      rw [own]
      exact operation
  | replaced operation same identity =>
    exact noted.concat _ own (keeps.replaced draft stored operation (same ▸ found) identity)
  | resigned => exact noted.concat _ own rfl
  | expired =>
    refine noted.concat _ own ?_
    unfold Match.afterTimeout Match.withTime
    split <;> rfl

/-- Every match that a call leaves or tells has its record noted, if every stored match has. -/
theorem Call.KeepsEntries.noted_of_shown (keeps : call.KeepsEntries registry) (keyed : registry.Keyed)
    (noted : ∀ id stored, registry.match? id = some stored → stored.Noted events) {next : Match α}
    (shown : call.Shown minimum registry next) :
    next.Noted (events ++ [registry.event minimum call]) := by
  cases shown with
  | entered enters free _ =>
    apply Match.noted_of_empty
    exact enters.history_eq_nil fun asked => keeps.added next asked free
  | untouched found _ => exact (noted _ next found).concat _ rfl rfl
  | written stored draft found _ asked same =>
    rw [same]
    exact keeps.noted_of_rewrite keyed found asked (noted _ stored found)
  | removed found _ => exact (noted _ next found).concat _ rfl rfl

/-- An accepted move adds the text of its request to the record. -/
theorem Registry.notes_of_move (keyed : registry.Keyed) {id : MatchId} {request : MoveRequest}
    (asked : call.operation = .move id request)
    (success : (registry.perform minimum call).answer = .ok ()) :
    ∃ stored next move, registry.match? id = some stored ∧
      (registry.perform minimum call).Publishes id next ∧
      next.position = stored.position.play move ∧
      next.history = stored.history ++ [request.text] ∧ request.Notes move request.text := by
  simp only [Registry.perform, asked] at success ⊢
  obtain ⟨stored, found, accepted, -⟩ := Registry.exists_of_move_ok success
  obtain rfl := keyed id stored found
  obtain ⟨move, played, notes⟩ := Position.exists_notes accepted
  refine ⟨stored, (stored.afterMove minimum request call.now).following stored, move, found,
    Registry.move_publishes minimum call.now found accepted, ?_, ?_, notes⟩
  · rw [← played]
    exact stored.afterMove_position minimum request call.now
  · exact stored.afterMove_history minimum request call.now

namespace History

/-- Every stored match has its record noted. -/
theorem noted_of_stored (history : History Call.KeepsEntries minimum events registry) (id : MatchId)
    (stored : Match α) (found : registry.match? id = some stored) : stored.Noted events := by
  induction history generalizing id stored with
  | start =>
    rw [Registry.match?_empty] at found
    cases found
  | @call events registry history call keeps ih =>
    have own := (history.call call keeps).keyed id stored found
    have shown : call.Shown minimum registry stored := Registry.shown history.keyed (.inl (own ▸ found))
    exact keeps.noted_of_shown history.keyed ih shown

/-- In every history whose calls keep the entries, every entry in the record of a stored match, and of a
match that is told, is there for an accepted move. A next move that is accepted adds the text of its
request; and the text of a request is read back as the move that it names exactly if it is plain. -/
theorem record_notation (history : History Call.KeepsEntries minimum events registry) :
    (∀ id stored, registry.match? id = some stored → stored.Noted events) ∧
      (∀ before event after, events = before ++ event :: after →
        ∀ stage ∈ event.step.stages, stage.2.Noted (before ++ [event])) ∧
      ∀ (call : Call α) (id : MatchId) (request : MoveRequest), call.operation = .move id request →
        (registry.perform minimum call).answer = .ok () →
        ∃ stored next move, registry.match? id = some stored ∧
          (registry.perform minimum call).Publishes id next ∧
          next.position = stored.position.play move ∧
          next.history = stored.history ++ [request.text] ∧ request.Notes move request.text := by
  refine ⟨history.noted_of_stored, ?_, fun call id request => Registry.notes_of_move history.keyed⟩
  rintro before event after rfl ⟨stage, next⟩ told
  obtain ⟨earlier, begun, same, keeps⟩ := history.split
  rw [same] at told ⊢
  have shown : event.call.Shown minimum earlier next := Registry.shown begun.keyed (.inr ⟨stage, told⟩)
  exact keeps.noted_of_shown begun.keyed begun.noted_of_stored shown

end History

/-- A king and a pawn play on each side. White's move leaves something behind its first square and is not
read back; the blank behind Black's second square does no harm. -/
theorem record_notation_of_two :
    ∃ (events : List (Event Rat)) (registry : Registry Rat) (stored : Match Rat),
      History Call.KeepsEntries 0 events registry ∧ registry.match? ⟨1⟩ = some stored ∧
      stored.history = ["e2xe4", "e7e5 "] ∧ stored.Noted events ∧
      (∃ move, MoveRequest.Notes ⟨"e2x", "e4", none⟩ move "e2xe4" ∧
        ¬ ∃ read, MoveRequest.ofText? "e2xe4" = .ok read ∧ read.move? = .ok move) ∧
      ∃ move, MoveRequest.Notes ⟨"e7", "e5 ", none⟩ move "e7e5 " ∧
        ∃ read, MoveRequest.ofText? "e7e5 " = .ok read ∧ read.move? = .ok move := by
  let placement := (Placement.read? "4k3/4p3/8/8/8/8/4P3/4K3".toList).getD .empty
  let board : Board := ⟨placement, .white, ⟨false, false, false, false⟩, none⟩
  let opening : Match Rat :=
    { Match.start ⟨1⟩ "ada" "bob" .blitz (.ofMillis 0) with position := .ofBoard board 0 1 }
  let call (operation : Operation Rat) : Call Rat := ⟨operation, fun _ => .player, .ofMillis 0⟩
  let entered := (Registry.perform 0 .empty (call (.add opening))).registry
  let stray : MoveRequest := ⟨"e2x", "e4", none⟩
  let white := call (.move ⟨1⟩ stray)
  let black := call (.move ⟨1⟩ ⟨"e7", "e5 ", none⟩)
  have history : History Call.KeepsEntries (0 : Rat) [] .empty := .start
  have history := history.call (call (.add opening)) (Call.keepsEntries_of_add rfl rfl _)
  have accepted : opening.position.accepts stray = true := by decide +kernel
  have moved : (entered.move 0 ⟨1⟩ stray white.now).answer = .ok () :=
    Registry.move_ok history.keyed white.now rfl accepted
  obtain ⟨-, -, added⟩ := history.record_notation
  obtain ⟨_, _, first, -, -, -, -, noted⟩ := added white ⟨1⟩ _ rfl moved
  obtain ⟨events, registry, history, shown⟩ : ∃ events registry,
      History Call.KeepsEntries (0 : Rat) events registry ∧
        ((registry.perform 0 black).answer,
          ((registry.perform 0 black).registry.match? ⟨1⟩).map (·.history)) =
          (.ok (), some ["e2xe4", "e7e5 "]) :=
    ⟨_, _, history.call white (Call.keepsEntries_of_move rfl _), by decide +kernel⟩
  obtain ⟨success, shown⟩ := Prod.mk.inj shown
  obtain ⟨-, -, added⟩ := history.record_notation
  obtain ⟨_, _, second, -, -, -, -, notedNext⟩ := added black ⟨1⟩ _ rfl success
  have history := history.call black (Call.keepsEntries_of_move rfl _)
  obtain ⟨stored, found, recorded⟩ := Option.map_eq_some_iff.mp shown
  obtain ⟨notedAll, -, -⟩ := history.record_notation
  refine ⟨_, _, stored, history, found, recorded, notedAll ⟨1⟩ stored found,
    ⟨first, noted, ?_⟩, second, notedNext, notedNext.reads_back.mpr (by decide +kernel)⟩
  exact mt noted.reads_back.mp (by decide +kernel)

/-- A request is accepted whose text no request is read from. -/
theorem unread_entry :
    ∃ (events : List (Event Rat)) (registry : Registry Rat) (call : Call Rat),
      History Call.KeepsEntries 0 events registry ∧ call.KeepsEntries registry ∧
      call.operation = .move ⟨1⟩ ⟨"e2junk", "e4", none⟩ ∧
      (registry.perform 0 call).answer = .ok () ∧
      ((registry.perform 0 call).registry.match? ⟨1⟩).map (·.history) = some ["e2junke4"] ∧
      MoveRequest.ofText? "e2junke4" = .error (.moveText "e2junke4") := by
  let call (operation : Operation Rat) : Call Rat := ⟨operation, fun _ => .player, .ofMillis 0⟩
  have history : History Call.KeepsEntries (0 : Rat) [] .empty := .start
  have history := history.call (call (.add (.start ⟨1⟩ "ada" "bob" .blitz (.ofMillis 0))))
    (Call.keepsEntries_of_add rfl rfl _)
  exact ⟨_, _, call (.move ⟨1⟩ ⟨"e2junk", "e4", none⟩), history, Call.keepsEntries_of_move rfl _, rfl,
    Registry.move_ok history.keyed _ rfl (by decide +kernel), by decide +kernel, by decide +kernel⟩

end ChessArbiter
