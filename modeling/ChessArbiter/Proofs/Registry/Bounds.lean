import Mathlib.Tactic.Linarith
import Mathlib.Tactic.NormNum
import ChessArbiter.Proofs.Chess.Ways
import ChessArbiter.Proofs.Registry.Deadline

/-! # The sizes of the numbers of a match

Generations are counted in 64 bits and the counters of a position in 32, and the timer takes waits of
less than `2 ^ 64` seconds. Here nothing wraps around and no wait is too long. A call makes none of
these numbers more than a little larger (`Match.Within`): it counts up a generation and each counter by
at most one, and gives a side at most its increment and its extra time. So where the matches that are
given keep to half of the range, more than a billion calls stay inside it.
-/

namespace ChessArbiter

/-- The match keeps to half of the range of its numbers, and to what so many calls add to that. -/
structure Match.Within (calls : Nat) (chessMatch : Match Rat) : Prop where
  time : ∀ colour, chessMatch.time colour < 2 ^ 63 + calls * 2 ^ 33
  generation : chessMatch.generation < 2 ^ 63 + calls
  halfmoveClock : chessMatch.position.halfmoveClock < 2 ^ 31 + calls
  fullmoveNumber : chessMatch.position.fullmoveNumber < 2 ^ 31 + calls

/-- The match that the call gives, if it gives one, keeps to half of the range. -/
def Call.Moderate (call : Call Rat) : Prop :=
  ∀ chessMatch, call.operation.given? = some chessMatch → chessMatch.Within 0

/-- The numbers of a clock keep to the same bounds as those of its match. -/
structure MatchClock.Within (calls : Nat) (clock : MatchClock Rat) : Prop where
  generation : clock.generation < 2 ^ 63 + calls
  wait_nonneg : 0 ≤ clock.wait
  wait : clock.wait < 2 ^ 63 + calls * 2 ^ 33

theorem MatchClock.Within.mono {calls more : Nat} {clock : MatchClock Rat}
    (within : clock.Within calls) (le : calls ≤ more) : clock.Within more := by
  have grown : (calls : Rat) * 2 ^ 33 ≤ more * 2 ^ 33 := by gcongr
  obtain ⟨generation, wait_nonneg, wait⟩ := within
  exact ⟨by omega, wait_nonneg, by linarith⟩

theorem TimeControl.bonusAfter_lt (control : TimeControl) (moveNumber : Nat) :
    (control.bonusAfter moveNumber : Rat) < 2 ^ 33 := by
  have increment : (control.increment.toNat : Rat) < 2 ^ 32 := by
    exact_mod_cast control.increment.toNat_lt
  have extra : (control.extra.toNat : Rat) < 2 ^ 32 := by exact_mod_cast control.extra.toNat_lt
  rw [bonusAfter_rat]
  split
  · linarith
  · push_cast
    linarith

/-- One move counts up each counter by at most one. -/
theorem Position.counters_apply_le (position : Position) (request : MoveRequest) :
    (position.apply request).halfmoveClock ≤ position.halfmoveClock + 1 ∧
      (position.apply request).fullmoveNumber ≤ position.fullmoveNumber + 1 := by
  unfold apply
  split
  · next move _ =>
    dsimp only [play]
    constructor <;> split <;> omega
  · omega

namespace Match

variable {chessMatch : Match Rat} {minimum : Rat} {now : Instant} {request : MoveRequest}

namespace Within

variable {calls : Nat}

theorem mono {more : Nat} (within : chessMatch.Within calls) (le : calls ≤ more) :
    chessMatch.Within more := by
  have grown : (calls : Rat) * 2 ^ 33 ≤ more * 2 ^ 33 := by gcongr
  obtain ⟨time, generation, halfmoveClock, fullmoveNumber⟩ := within
  refine ⟨?_, by omega, by omega, by omega⟩
  intro colour
  linarith [time colour]

theorem start (id : MatchId) (white black : ClientKey) (control : TimeControl) (now : Instant) :
    (start id white black control now : Match Rat).Within 0 where
  time colour := by
    have initial : (control.initial.toNat : Rat) < 2 ^ 32 := by
      exact_mod_cast control.initial.toNat_lt
    have shows : (Match.start id white black control now : Match Rat).time colour =
        control.initial.toNat := by cases colour <;> rfl
    rw [shows]
    push_cast
    linarith
  generation := Nat.two_pow_pos 63
  halfmoveClock := Nat.two_pow_pos 31
  fullmoveNumber := Nat.one_lt_two_pow (by decide)

/-- A match that goes on after a move has been counted up once and been given the bonus once. -/
theorem afterMove (within : chessMatch.Within calls) (nonneg : 0 ≤ minimum)
    (continues : (chessMatch.afterMove minimum request now).isTerminal = false) :
    ((chessMatch.afterMove minimum request now).following chessMatch).Within (calls + 1) := by
  obtain ⟨standing, undecided⟩ := standing_of_continues continues
  have moved := inTime_afterMove request standing undecided
  have bonus := chessMatch.timeControl.bonusAfter_lt chessMatch.position.fullmoveNumber
  have cost : 0 ≤ chessMatch.elapsed minimum now := by
    rw [elapsed_rat]
    exact nonneg.trans (le_max_left _ _)
  obtain ⟨halfmove, fullmove⟩ := chessMatch.position.counters_apply_le request
  rw [← chessMatch.afterMove_position minimum request now] at halfmove fullmove
  obtain ⟨time, generation, halfmoveClock, fullmoveNumber⟩ := within
  refine ⟨?_, ?_, ?_, ?_⟩
  · intro colour
    change (chessMatch.afterMove minimum request now).time colour < _
    have shown := time colour
    push_cast
    rcases colour.eq_or_eq_other chessMatch.turn with rfl | rfl
    · rw [moved.paid]
      linarith
    · rw [moved.kept]
      linarith
  · change chessMatch.generation + 1 < _
    omega
  · change (chessMatch.afterMove minimum request now).position.halfmoveClock < _
    omega
  · change (chessMatch.afterMove minimum request now).position.fullmoveNumber < _
    omega

/-- A match that is set over another one takes up its generation. -/
theorem following {stored : Match Rat} (given : chessMatch.Within 0) (within : stored.Within calls) :
    (chessMatch.following stored).Within (calls + 1) := by
  have bounded := given.mono (Nat.zero_le (calls + 1))
  refine ⟨bounded.time, ?_, bounded.halfmoveClock, bounded.fullmoveNumber⟩
  have generation := within.generation
  change stored.generation + 1 < _
  omega

/-- The clock of a match waits no longer than its side to move has left. -/
theorem clock (within : chessMatch.Within calls) (now : Instant) :
    (chessMatch.clock now).Within calls := by
  have wait : (chessMatch.clock now).wait = _ := chessMatch.untilTimeout_rat now
  have shown := within.time chessMatch.turn
  refine ⟨within.generation, ?_, ?_⟩
  · rw [wait]
    exact le_max_left _ _
  · have spent := le_max_left 0 (now.secondsSince chessMatch.lastMove)
    rw [wait, max_lt_iff]
    constructor
    · positivity
    · linarith

end Within

end Match

variable {rule : Registry Rat → Call Rat → Prop} {minimum : Rat} {events : List (Event Rat)}
  {registry : Registry Rat}

/-- What a moderate call enters keeps to half of the range. -/
theorem Call.Moderate.entered {call : Call Rat} (moderate : call.Moderate) {chessMatch : Match Rat}
    (enters : call.Enters chessMatch) : chessMatch.Within 0 := by
  cases enters with
  | added asked => exact moderate chessMatch (congrArg Operation.given? asked)
  | accepted =>
    obtain ⟨white, black, control, started⟩ := Match.ofChallenge_eq_start (α := Rat) _ _ _ _
    rw [started]
    exact .start _ white black control _

/-- What a moderate call writes over a match, and lets go on, adds one call to it. -/
theorem Call.Moderate.written {call : Call Rat} (moderate : call.Moderate) (nonneg : 0 ≤ minimum)
    {calls : Nat} {stored draft : Match Rat} (within : stored.Within calls)
    (asked : call.rewrite? minimum stored = some draft) (continues : draft.isTerminal = false) :
    (draft.following stored).Within (calls + 1) := by
  rcases Call.rewrites_of_continues asked continues with ⟨request, _, _, rfl⟩ | ⟨operation, _⟩
  · exact within.afterMove nonneg continues
  · exact (moderate draft (congrArg Operation.given? operation)).following within

namespace History

/-- Every stored match keeps to half of the range and to what the calls have added to that. -/
theorem within (history : History rule minimum events registry) (nonneg : 0 ≤ minimum)
    (moderate : ∀ event ∈ events, event.call.Moderate) {id : MatchId} {stored : Match Rat}
    (found : registry.match? id = some stored) : stored.Within events.length := by
  induction history generalizing id stored with
  | start =>
    rw [Registry.match?_empty] at found
    cases found
  | @call events registry history call _ ih =>
    obtain ⟨moderateBefore, moderateNow⟩ := List.forall_mem_append.mp moderate
    have moderateNow : call.Moderate := moderateNow _ (List.mem_singleton_self _)
    rw [List.length_append, List.length_singleton]
    cases history.matchEffect call id with
    | untouched kept => exact (ih moderateBefore (kept ▸ found)).mono (Nat.le_succ _)
    | entered chessMatch _ enters stores =>
      cases stores.symm.trans found
      exact (moderateNow.entered enters).mono (Nat.zero_le _)
    | written earlier draft foundEarlier asked continues stores =>
      cases stores.symm.trans found
      exact moderateNow.written nonneg (ih moderateBefore foundEarlier) asked continues
    | closed _ _ _ _ absent => cases absent.symm.trans found

/-- So does every clock that was ever set. -/
theorem within_of_mem_clocksSet (history : History rule minimum events registry) (nonneg : 0 ≤ minimum)
    (moderate : ∀ event ∈ events, event.call.Moderate) {id : MatchId} {clock : MatchClock Rat}
    (wasSet : (id, clock) ∈ clocksSet events) : clock.Within events.length := by
  induction history with
  | start => cases wasSet
  | @call events registry history call allowed ih =>
    have whole := history.call call allowed
    rw [clocksSet_concat, List.mem_append] at wasSet
    rcases wasSet with earlier | now
    · rw [List.length_append]
      exact (ih (List.forall_mem_append.mp moderate).1 earlier).mono (Nat.le_add_right _ _)
    · have effect : Effect minimum registry call (registry.perform minimum call) :=
        Registry.effect_perform history.keyed
      obtain ⟨stored, found, rfl⟩ := effect.exists_of_mem_clocks now
      exact (whole.within nonneg moderate found).clock call.now

/-- In every history of at most `2 ^ 30` calls that give matches within half of the range, no number of
a stored match leaves the range, and no order tells the timer to wait for `2 ^ 64` seconds or more. -/
theorem bounded (history : History rule minimum events registry) (nonneg : 0 ≤ minimum)
    (moderate : ∀ event ∈ events, event.call.Moderate) (few : events.length ≤ 2 ^ 30) :
    (∀ id stored, registry.match? id = some stored → stored.generation < 2 ^ 64 ∧
      stored.position.halfmoveClock < 2 ^ 32 ∧ stored.position.fullmoveNumber < 2 ^ 32) ∧
    ∀ id clock, (id, clock) ∈ clocksSet events →
      clock.generation < 2 ^ 64 ∧ 0 ≤ clock.wait ∧ clock.wait < 2 ^ 64 := by
  constructor
  · intro id stored found
    obtain ⟨_, generation, halfmoveClock, fullmoveNumber⟩ := history.within nonneg moderate found
    omega
  · intro id clock wasSet
    obtain ⟨generation, wait_nonneg, wait⟩ := history.within_of_mem_clocksSet nonneg moderate wasSet
    have gained : (events.length : Rat) ≤ 2 ^ 30 := by exact_mod_cast few
    refine ⟨by omega, wait_nonneg, ?_⟩
    linarith

end History

end ChessArbiter
