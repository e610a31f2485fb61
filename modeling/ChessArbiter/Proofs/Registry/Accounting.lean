import ChessArbiter.Proofs.Match.ClockAccount
import ChessArbiter.Proofs.Registry.MatchEffect
import ChessArbiter.Proofs.Registry.Writes

/-! # The clocks of a match over its history

A history tells when the moves of a match were made (`movesOf`). As long as its identity is given to no
other match and nothing is written over it from outside, its clocks are what its account says about
these times, whatever else happens in the registry meanwhile. The induction is over the history: a call
that has nothing to do with the match makes no move of it, one that enters it finds no earlier moves
under its identity, and one that writes it and lets it go on is a move.
-/

namespace ChessArbiter

/-- The time at which an event makes a move of a match, where it makes one. -/
def Event.moveOf? {α : Type} (id : MatchId) (event : Event α) : Option Instant :=
  match event.call.operation, event.step.answer with
  | .move other _, .ok _ => if other = id then some event.call.now else none
  | _, _ => none

section History

variable {α : Type} {id : MatchId} {history : List (Event α)} {event : Event α}

/-- The times at which the moves of a match were made, in their order. -/
def movesOf (id : MatchId) (history : List (Event α)) : List Instant :=
  history.filterMap (Event.moveOf? id)

/-- No match was set over the match of this identity. -/
def Unwritten (id : MatchId) (history : List (Event α)) : Prop :=
  ∀ event ∈ history, ∀ chessMatch, event.call.operation = .set chessMatch →
    chessMatch.id = id → event.step.answer ≠ .ok ()

theorem movesOf_concat_of_none (none : event.moveOf? id = none) :
    movesOf id (history ++ [event]) = movesOf id history := by
  rw [movesOf, List.filterMap_append, List.filterMap_cons_none none, List.filterMap_nil,
    List.append_nil]
  rfl

theorem movesOf_concat_of_some {now : Instant} (moved : event.moveOf? id = some now) :
    movesOf id (history ++ [event]) = movesOf id history ++ [now] := by
  rw [movesOf, List.filterMap_append, List.filterMap_cons_some moved, List.filterMap_nil]
  rfl

/-- An event that is no call for a move of a match, or one that fails, makes none of it. -/
theorem Event.moveOf?_eq_none (fails : ∀ request, event.call.operation = .move id request →
    event.step.answer ≠ .ok ()) : event.moveOf? id = none := by
  unfold moveOf?
  split
  · next other request _ operation success =>
    split
    · next same => exact (fails request (same ▸ operation) success).elim
    · rfl
  · rfl

end History

section Calls

variable {α : Type} [Scalar α] {rule : Registry α → Call α → Prop} {minimum : α}
  {events : List (Event α)} {registry : Registry α} {call : Call α} {id : MatchId}

/-- A call of which this match is not told makes no move of it. -/
theorem Registry.moveOf?_of_untold (keyed : registry.Keyed)
    (untold : ∀ stage ∈ (registry.perform minimum call).stages, stage.2.id ≠ id) :
    (registry.event minimum call).moveOf? id = none := by
  apply Event.moveOf?_eq_none
  intro request operation success
  have operation : call.operation = .move id request := operation
  simp only [event, perform, operation] at success
  obtain ⟨stored, found, accepted, _⟩ := exists_of_move_ok success
  obtain rfl := keyed id stored found
  rw [refuses_of_untold found untold operation] at accepted
  cases accepted

/-- A call that enters a match makes no move. -/
theorem Registry.moveOf?_of_enters {chessMatch : Match α}
    (enters : call.Enters chessMatch) : (registry.event minimum call).moveOf? id = none := by
  apply Event.moveOf?_eq_none
  intro request operation
  have operation : call.operation = .move id request := operation
  have entry := enters.entry?
  rw [operation] at entry
  cases entry

/-- No moves have been made of a match that was never entered. -/
theorem History.movesOf_of_unknown (history : History rule minimum events registry)
    (unknown : entriesOf id events = []) : movesOf id events = [] := by
  induction history with
  | start => rfl
  | @call events registry history call _ ih =>
    rw [entriesOf, entered_concat, List.filter_append, List.append_eq_nil_iff] at unknown
    obtain ⟨before, now⟩ := unknown
    cases history.matchEffect call id with
    | untouched _ _ untold =>
      rw [movesOf_concat_of_none (Registry.moveOf?_of_untold history.keyed untold)]
      exact ih before
    | entered chessMatch own _ _ _ told =>
      rw [Event.entered_of_created told, List.filter_singleton, decide_eq_true own] at now
      cases now
    | written stored _ found => exact (history.entriesOf_ne_nil found before).elim
    | closed stored _ found => exact (history.entriesOf_ne_nil found before).elim

end Calls

namespace History

variable {rule : Registry Rat → Call Rat → Prop} {minimum : Rat} {events : List (Event Rat)}
  {registry : Registry Rat} {id : MatchId}

/-- The clocks of a match over which nothing was set are what its account says. -/
theorem clockAccount (history : History rule minimum events registry) {white black : ClientKey}
    {control : TimeControl} {beginning : Instant}
    (begun : entriesOf id events = [.start id white black control beginning])
    (unwritten : Unwritten id events) {stored : Match Rat}
    (found : registry.match? id = some stored) :
    ClockAccount minimum control beginning (movesOf id events) stored := by
  induction history generalizing stored with
  | start => cases begun
  | @call events registry history call _ ih =>
    obtain ⟨unwrittenBefore, unwrittenNow⟩ := List.forall_mem_append.mp unwritten
    have unwrittenNow := List.forall_mem_singleton.mp unwrittenNow
    cases history.matchEffect call id with
    | untouched kept _ untold =>
      rw [entriesOf_concat_of_other fun _ enters => untold _ (Event.mem_entered.mp enters)] at begun
      rw [movesOf_concat_of_none (Registry.moveOf?_of_untold history.keyed untold)]
      exact ih begun unwrittenBefore (kept ▸ found)
    | entered chessMatch own enters stores _ told =>
      cases stores.symm.trans found
      -- The only match of the identity is this one, and nobody has moved in it.
      rw [entriesOf_concat_of_created own told] at begun
      obtain ⟨unknown, same⟩ := List.append_inj' (begun.trans (List.nil_append _).symm) rfl
      rw [movesOf_concat_of_none (Registry.moveOf?_of_enters enters), history.movesOf_of_unknown unknown,
        List.singleton_inj.mp same]
      exact clockAccount_start minimum id white black control beginning
    | written earlier draft foundEarlier asked continues stores _ told =>
      cases stores.symm.trans found
      have none : (registry.event minimum call).entered = [] := Event.entered_of_later told (by decide)
      rw [entriesOf_concat_of_other (none ▸ List.forall_mem_nil _)] at begun
      obtain rfl := history.keyed id earlier foundEarlier
      have account := ih begun unwrittenBefore foundEarlier
      apply ClockAccount.following
      rcases Call.rewrites_of_continues asked continues with
        ⟨request, operation, accepted, rfl⟩ | ⟨operation, own, same⟩
      · have moved : (registry.event minimum call).moveOf? earlier.id = some call.now := by
          have success : (registry.move minimum earlier.id request call.now).answer = .ok () :=
            Registry.move_ok history.keyed call.now foundEarlier accepted
          simp only [Event.moveOf?, Registry.event, Registry.perform, operation, success, if_true]
        rw [movesOf_concat_of_some moved]
        exact account.move accepted continues
      · have foundDraft : registry.match? draft.id = some earlier := own ▸ foundEarlier
        have success : (registry.perform minimum call).answer = .ok () := by
          simp only [Registry.perform, operation]
          exact Registry.set_ok call.now foundDraft same
        exact (unwrittenNow draft operation own success).elim
    | closed _ _ _ _ absent => cases absent.symm.trans found

/-- In every history, each clock of a match that began as matches do, under an identity of its own, and
over which nothing was set shows what its side has left after its own moves, at the times at which they
were made. A move costs the time since the move before, counted in whole milliseconds; that is the exact
difference where the match begins and all moves are made at whole milliseconds outside leap seconds. A
move for which what is left is not enough ends the match on time. -/
theorem time_eq_remaining (history : History rule minimum events registry) {white black : ClientKey}
    {control : TimeControl} {beginning : Instant}
    (begun : entriesOf id events = [.start id white black control beginning])
    (unwritten : Unwritten id events) {stored : Match Rat}
    (found : registry.match? id = some stored) :
    let times := movesOf id events
    let spent := moveSeconds minimum beginning times
    (∀ colour, stored.time colour = control.remaining (colour.turnsOf spent)) ∧
      stored.turn = .toMove times.length ∧
      ((∀ instant ∈ beginning :: times, instant.OnMillis) →
        spent = List.zipWith (fun before now => max minimum (now.seconds - before.seconds))
          (beginning :: times) times) ∧
      ∀ request now, stored.position.accepts request = true →
        stored.time stored.turn ≤ max minimum (now.secondsSince (times.getLastD beginning)) →
        ∃ final, (registry.move minimum id request now).answer = .ok () ∧
          (registry.move minimum id request now).notices = [.matchEnded final] ∧
          (registry.move minimum id request now).registry.match? id = none ∧
          stored.Flagged final := by
  intro times spent
  have account := history.clockAccount begun unwritten found
  refine ⟨account.clock, account.turn, moveSeconds_exact minimum, ?_⟩
  intro request now accepted tooLittle
  have flagged : stored.Flagged (stored.afterMove minimum request now) := account.flagged tooLittle
  obtain rfl := history.keyed id stored found
  obtain ⟨_, told⟩ := Registry.move_publishes minimum now found accepted
  rw [if_pos (flagged.following stored).isTerminal] at told
  have success : (registry.move minimum stored.id request now).answer = .ok () :=
    Registry.move_ok history.keyed now found accepted
  exact ⟨_, success, told.1, told.2, flagged.following stored⟩

end History

/-- White has made two moves, by the second of which it gained the extra time, and Black one. Black's
next move comes too late. -/
theorem time_eq_remaining_of_three_moves :
    ∃ (events : List (Event Rat)) (registry : Registry Rat) (stored : Match Rat),
      History (fun _ _ => True) 1 events registry ∧ registry.match? ⟨1⟩ = some stored ∧
      stored.time .white = 14 ∧ stored.time .black = 8 ∧
      ∃ final,
        (registry.move 1 ⟨1⟩ ⟨"b8", "c6", none⟩ (.ofMillis 14000)).notices = [.matchEnded final] ∧
        stored.Flagged final := by
  let call (operation : Operation Rat) (millis : Int) : Call Rat :=
    ⟨operation, fun _ => .player, .ofMillis millis⟩
  let move (source target : String) : Operation Rat := .move ⟨1⟩ ⟨source, target, none⟩
  let control : TimeControl := ⟨10, 1, 2, 5⟩
  let chessMatch : Match Rat := .start ⟨1⟩ "ada" "bob" control (.ofMillis 0)
  let late : MoveRequest := ⟨"b8", "c6", none⟩
  obtain ⟨events, registry, history, begun, unwritten, times, accepted⟩ :
      ∃ events registry, History (fun _ _ => True) (1 : Rat) events registry ∧
      entriesOf ⟨1⟩ events = [chessMatch] ∧ Unwritten ⟨1⟩ events ∧
      (movesOf ⟨1⟩ events = [.ofMillis 2000, .ofMillis 5000, .ofMillis 5500] ∧
        (registry.match? ⟨1⟩).map (·.position.accepts late) = some true) := by
    have history : History (fun _ _ => True) (1 : Rat) [] .empty := .start
    have history := history.call (call (.add chessMatch) 0) trivial
    have history := history.call (call (move "e2" "e4") 2000) trivial
    have history := history.call (call (move "e7" "e5") 5000) trivial
    have history := history.call (call (move "g1" "f3") 5500) trivial
    refine ⟨_, _, history, ?_, ?_, by decide +kernel⟩
    · have told : (Registry.event 1 .empty (call (.add chessMatch) 0)).step.stages =
          [(.created, chessMatch)] := rfl
      have own : chessMatch.id = ⟨1⟩ := rfl
      rw [Registry.entriesOf_concat_of_entryless, Registry.entriesOf_concat_of_entryless,
        Registry.entriesOf_concat_of_entryless, entriesOf_concat_of_created own told] <;> rfl
    · intro event member other asked
      simp only [List.nil_append, List.cons_append, List.mem_cons, List.not_mem_nil,
        or_false] at member
      rcases member with rfl | rfl | rfl | rfl <;> cases asked
  obtain ⟨stored, found, accepted⟩ := Option.map_eq_some_iff.mp accepted
  have accounted := history.time_eq_remaining begun unwritten found
  rw [times] at accounted
  obtain ⟨clocks, turn, -, falls⟩ := accounted
  have white : stored.time .white = 14 := (clocks .white).trans (by decide +kernel)
  have black : stored.time .black = 8 := (clocks .black).trans (by decide +kernel)
  have turn : stored.turn = .black := turn
  obtain ⟨final, _, told, _, flagged⟩ := falls late (.ofMillis 14000) accepted (by
    rw [turn, black]
    decide +kernel)
  exact ⟨events, registry, stored, history, found, white, black, final, told, flagged⟩

end ChessArbiter
