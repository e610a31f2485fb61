import Mathlib.Algebra.BigOperators.Group.List.Basic
import Mathlib.Tactic.Linarith
import ChessArbiter.Proofs.Chess.Game
import ChessArbiter.Proofs.Match.Turn
import ChessArbiter.Proofs.Registry.Effect

/-! # The account of a match

The sides move in turn, and each pays for its own moves: `ClockAccount` says what the clocks show
after the moves made so far, in terms of the times at which they were made and of nothing else. A
match begins with the empty account (`clockAccount_start`), and a move that does not end it adds to
it (`ClockAccount.move`). The number of a side's move is nowhere kept; that the full-move number
gives it is part of the account.
-/

namespace ChessArbiter

namespace Colour

/-- The side to move after so many moves from the usual beginning. -/
def toMove (moves : Nat) : Colour :=
  if moves % 2 = 0 then .white else .black

theorem toMove_succ (moves : Nat) : toMove (moves + 1) = (toMove moves).other := by
  unfold toMove
  split <;> split
  · omega
  · rfl
  · rfl
  · omega

/-- What falls to a side of a list whose first element falls to White, its second to Black and so on
by turns. -/
def turnsOf {β : Type} : Colour → List β → List β
  | _, [] => []
  | .white, own :: rest => own :: turnsOf .black rest
  | .black, _ :: rest => turnsOf .white rest

variable {β : Type}

theorem turnsOf_concat (colour : Colour) (turns : List β) (last : β) :
    colour.turnsOf (turns ++ [last]) =
      colour.turnsOf turns ++ if colour = toMove turns.length then [last] else [] := by
  induction turns generalizing colour with
  | nil => cases colour <;> rfl
  | cons first rest ih =>
    rw [List.length_cons, toMove_succ]
    cases colour with
    | white =>
      rw [List.cons_append, turnsOf, turnsOf, ih, List.cons_append]
      cases toMove rest.length <;> rfl
    | black =>
      rw [List.cons_append, turnsOf, turnsOf, ih]
      cases toMove rest.length <;> rfl

/-- The side to move has had as many turns as there were full moves. -/
theorem length_turnsOf_toMove (turns : List β) :
    ((toMove turns.length).turnsOf turns).length = turns.length / 2 := by
  have share (colour : Colour) : (colour.turnsOf turns).length =
      if colour = .white then (turns.length + 1) / 2 else turns.length / 2 := by
    induction turns generalizing colour with
    | nil => cases colour <;> simp [turnsOf]
    | cons first rest ih =>
      cases colour with
      | white =>
        rw [turnsOf, List.length_cons, List.length_cons, ih, if_neg (by decide), if_pos rfl]
        omega
      | black =>
        rw [turnsOf, List.length_cons, ih, if_pos rfl, if_neg (by decide)]
  rw [share]
  unfold toMove
  split <;> simp only [if_true, reduceCtorEq, if_false]
  omega

end Colour

/-- What the clock of a side shows that has spent so many seconds on each of its moves: of what it
began with they are gone, each move has brought the increment, and the move that earns the extra time
has brought that once. -/
def TimeControl.remaining (control : TimeControl) (spent : List Rat) : Rat :=
  control.initial.toNat - spent.sum + spent.length * control.increment.toNat +
    if 0 < control.extraAfter.toNat ∧ control.extraAfter.toNat ≤ spent.length then
      control.extra.toNat
    else 0

theorem TimeControl.remaining_concat (control : TimeControl) (spent : List Rat) (seconds : Rat) :
    control.remaining (spent ++ [seconds]) =
      control.remaining spent - seconds + control.bonusAfter (spent.length + 1) := by
  have extra : (if 0 < control.extraAfter.toNat ∧ control.extraAfter.toNat ≤ spent.length + 1 then
      control.extra.toNat else 0) =
      (if 0 < control.extraAfter.toNat ∧ control.extraAfter.toNat ≤ spent.length then
        control.extra.toNat else 0) +
      if 0 < control.extraAfter.toNat ∧ spent.length + 1 = control.extraAfter.toNat then
        control.extra.toNat else 0 := by
    split <;> split <;> split <;> omega
  rw [remaining, remaining, bonusAfter_rat, List.length_append, List.length_singleton, extra,
    List.sum_append, List.sum_singleton, Nat.cast_add, Nat.cast_add, Nat.cast_one]
  ring

/-- The seconds that each of several moves costs, in a match that began before them: at least the
minimum, and otherwise the time since the move before. -/
def moveSeconds (minimum : Rat) (beginning : Instant) (times : List Instant) : List Rat :=
  List.zipWith (fun before now => max minimum (now.secondsSince before)) (beginning :: times) times

theorem moveSeconds_concat (minimum : Rat) (beginning : Instant) (times : List Instant)
    (now : Instant) :
    moveSeconds minimum beginning (times ++ [now]) =
      moveSeconds minimum beginning times ++
        [max minimum (now.secondsSince (times.getLastD beginning))] := by
  induction times generalizing beginning with
  | nil => rfl
  | cons first rest ih =>
    rw [List.getLastD_cons]
    exact congrArg (_ :: ·) (ih first)

theorem length_moveSeconds (minimum : Rat) (beginning : Instant) (times : List Instant) :
    (moveSeconds minimum beginning times).length = times.length := by
  rw [moveSeconds, List.length_zipWith, List.length_cons]
  omega

/-- Where all moves are made at whole milliseconds, each costs the exact difference. -/
theorem moveSeconds_exact (minimum : Rat) {beginning : Instant} {times : List Instant}
    (clean : ∀ instant ∈ beginning :: times, instant.OnMillis) :
    moveSeconds minimum beginning times =
      List.zipWith (fun before now => max minimum (now.seconds - before.seconds))
        (beginning :: times) times := by
  induction times generalizing beginning with
  | nil => rfl
  | cons first rest ih =>
    obtain ⟨before, clean⟩ := List.forall_mem_cons.mp clean
    obtain ⟨now, _⟩ := List.forall_mem_cons.mp clean
    have cost := congrArg (max minimum) (Instant.secondsSince_eq_sub now before)
    exact congrArg₂ List.cons cost (ih clean)

/-- A match that began at an instant and has gone on since with moves at the given times. -/
structure ClockAccount (minimum : Rat) (control : TimeControl) (beginning : Instant)
    (times : List Instant) (stored : Match Rat) : Prop where
  timeControl : stored.timeControl = control
  lastMove : stored.lastMove = times.getLastD beginning
  turn : stored.turn = .toMove times.length
  moveNumber : stored.position.fullmoveNumber = times.length / 2 + 1
  clock : ∀ colour, stored.time colour =
    control.remaining (colour.turnsOf (moveSeconds minimum beginning times))

theorem clockAccount_start (minimum : Rat) (id : MatchId) (white black : ClientKey)
    (control : TimeControl) (beginning : Instant) :
    ClockAccount minimum control beginning [] (.start id white black control beginning) where
  timeControl := rfl
  lastMove := rfl
  turn := rfl
  moveNumber := rfl
  clock colour := by
    have nothing : control.remaining [] = control.initial.toNat := by
      have unearned : ¬ (0 < control.extraAfter.toNat ∧ control.extraAfter.toNat ≤ 0) := by omega
      rw [TimeControl.remaining, List.length_nil, if_neg unearned]
      simp
    cases colour <;> exact nothing.symm

namespace ClockAccount

variable {minimum : Rat} {control : TimeControl} {beginning now : Instant} {times : List Instant}
  {stored : Match Rat} {request : MoveRequest}

/-- What the next move costs is told by the time of the last one. -/
theorem elapsed (account : ClockAccount minimum control beginning times stored) (now : Instant) :
    stored.elapsed minimum now = max minimum (now.secondsSince (times.getLastD beginning)) := by
  rw [Match.elapsed_rat, account.lastMove]

/-- How often the match was written is no part of its account. -/
theorem following (account : ClockAccount minimum control beginning times stored)
    (earlier : Match Rat) :
    ClockAccount minimum control beginning times (stored.following earlier) :=
  ⟨account.timeControl, account.lastMove, account.turn, account.moveNumber,
    account.clock⟩

/-- A move that is accepted and does not end the match goes to the account of the side to move. -/
theorem move (account : ClockAccount minimum control beginning times stored)
    (accepted : stored.position.accepts request = true)
    (continues : (stored.afterMove minimum request now).isTerminal = false) :
    ClockAccount minimum control beginning (times ++ [now])
      (stored.afterMove minimum request now) := by
  obtain ⟨standing, undecided⟩ := Match.standing_of_continues continues
  obtain ⟨_, ownClock, otherClock⟩ := Match.inTime_afterMove request standing undecided
  obtain ⟨played, _, plays⟩ := Position.exists_of_accepts accepted
  have position := (stored.afterMove_position minimum request now).trans plays
  have turn : (stored.afterMove minimum request now).turn = stored.turn.other :=
    congrArg (·.board.turn) position
  constructor
  · obtain ⟨_, _, same⟩ :=
      Match.sameIdentity_iff.mp (stored.afterMove_sameIdentity minimum request now)
    exact same.symm.trans account.timeControl
  · rw [Match.afterMove_lastMove, List.getLastD_concat]
  · rw [turn, account.turn, List.length_append, List.length_singleton, Colour.toMove_succ]
  · have number : (stored.afterMove minimum request now).position.fullmoveNumber =
        if stored.turn = .black then stored.position.fullmoveNumber + 1
        else stored.position.fullmoveNumber := congrArg (·.fullmoveNumber) position
    rw [number, account.turn, account.moveNumber, List.length_append, List.length_singleton]
    rcases Nat.mod_two_eq_zero_or_one times.length with even | odd
    · have white : Colour.toMove times.length = .white := if_pos even
      rw [white, if_neg (by decide)]
      omega
    · have black : Colour.toMove times.length = .black := if_neg (by omega)
      rw [black, if_pos rfl]
      omega
  · intro colour
    rw [moveSeconds_concat, Colour.turnsOf_concat, length_moveSeconds, ← account.turn]
    rcases colour.eq_or_eq_other stored.turn with rfl | rfl
    · have turns := Colour.length_turnsOf_toMove (moveSeconds minimum beginning times)
      rw [length_moveSeconds, ← account.turn] at turns
      rw [if_pos rfl, TimeControl.remaining_concat, turns, ← account.moveNumber, ← account.clock,
        ← account.elapsed, ← account.timeControl]
      exact ownClock
    · rw [if_neg stored.turn.ne_other.symm, List.append_nil, otherClock]
      exact account.clock _

/-- A move for which the side to move has too little left ends the match: nothing is credited, and the
other side keeps what its account says. -/
theorem flagged (account : ClockAccount minimum control beginning times stored)
    (spent : stored.time stored.turn ≤ max minimum (now.secondsSince (times.getLastD beginning))) :
    stored.Flagged (stored.afterMove minimum request now) := by
  apply Match.flagged_afterMove
  rw [Match.left_le_iff, account.elapsed]
  exact spent

end ClockAccount

end ChessArbiter
