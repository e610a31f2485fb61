import Mathlib.Tactic.Positivity
import ChessArbiter.Match.Basic
import ChessArbiter.Proofs.Time.Seconds

/-! # A turn and its clock

A move takes the time since the last one from the clock of the side to move. If that leaves nothing
the side has lost on time (`Flagged`), whatever the move does on the board; otherwise it gains its
bonus and the board decides. The clock of the other side is never touched.
-/

namespace ChessArbiter

namespace Match

variable {α : Type} [Scalar α]

section Clocks

variable (chessMatch : Match α) (colour : Colour) (seconds : α)

theorem time_withTime :
    (chessMatch.withTime colour seconds).time colour = Scalar.atLeast (Scalar.ofInt 0) seconds := by
  cases colour <;> rfl

theorem time_other_withTime :
    (chessMatch.withTime colour seconds).time colour.other = chessMatch.time colour.other := by
  cases colour <;> rfl

@[simp] theorem withTime_position :
    (chessMatch.withTime colour seconds).position = chessMatch.position := by
  cases colour <;> rfl

@[simp] theorem withTime_lastMove :
    (chessMatch.withTime colour seconds).lastMove = chessMatch.lastMove := by
  cases colour <;> rfl

end Clocks

/-- The side to move has lost on time: its clock shows nothing, and the other clock is as it was. -/
structure Flagged (stored final : Match α) : Prop where
  lost : final.result = .win stored.turn.other .timeout
  spent : final.time stored.turn = Scalar.ofInt 0
  kept : final.time stored.turn.other = stored.time stored.turn.other

theorem Flagged.isTerminal {stored final : Match α} (flagged : stored.Flagged final) :
    final.isTerminal = true := by
  rw [Match.isTerminal, flagged.lost]
  rfl

theorem flagged_afterTimeout (chessMatch : Match α) : chessMatch.Flagged chessMatch.afterTimeout where
  lost := rfl
  spent := (chessMatch.time_withTime chessMatch.turn _).trans (Scalar.atLeast_self _)
  kept := chessMatch.time_other_withTime chessMatch.turn _

/-- What the side to move has left when the time since the last move is taken from its clock. -/
def left (chessMatch : Match α) (minimum : α) (now : Instant) : α :=
  Scalar.atLeast (Scalar.ofInt 0) (chessMatch.time chessMatch.turn - chessMatch.elapsed minimum now)

section Move

theorem afterMove_position (chessMatch : Match α) (minimum : α) (request : MoveRequest)
    (now : Instant) :
    (chessMatch.afterMove minimum request now).position = chessMatch.position.apply request := by
  unfold afterMove
  extract_lets mover zero left result charged played
  split
  · rfl
  · exact played.withTime_position mover _

theorem afterMove_lastMove (chessMatch : Match α) (minimum : α) (request : MoveRequest)
    (now : Instant) : (chessMatch.afterMove minimum request now).lastMove = now := by
  unfold afterMove
  extract_lets mover zero left result charged played
  split
  · rfl
  · exact played.withTime_lastMove mover _

variable {chessMatch : Match α} {minimum : α} {now : Instant} (request : MoveRequest)

/-- A move for which nothing is left loses on time. -/
theorem flagged_afterMove (fallen : chessMatch.left minimum now ≤ Scalar.ofInt 0) :
    chessMatch.Flagged (chessMatch.afterMove minimum request now) := by
  unfold afterMove
  extract_lets mover zero left result charged played
  have flag : left ≤ zero := fallen
  have lost : played.result = .win chessMatch.turn.other .timeout := if_pos flag
  have terminal : played.isTerminal = true := by
    rw [isTerminal, lost]
    rfl
  rw [if_pos terminal]
  refine ⟨lost, ?_, chessMatch.time_other_withTime mover left⟩
  exact (chessMatch.time_withTime mover left).trans (if_pos flag)

/-- A move for which something is left gains the bonus, and the board decides. -/
theorem afterMove_of_standing (standing : ¬ chessMatch.left minimum now ≤ Scalar.ofInt 0)
    (undecided : chessMatch.result = .inProgress) :
    (chessMatch.afterMove minimum request now).result =
        .ofOutcome (chessMatch.position.apply request).outcome ∧
      (chessMatch.afterMove minimum request now).time chessMatch.turn =
        Scalar.atLeast (Scalar.ofInt 0) (chessMatch.left minimum now +
          chessMatch.timeControl.bonusAfter chessMatch.position.fullmoveNumber) ∧
      (chessMatch.afterMove minimum request now).time chessMatch.turn.other =
        chessMatch.time chessMatch.turn.other := by
  unfold afterMove
  extract_lets mover zero left result charged played bonus
  have undecided : played.result = .inProgress := (if_neg standing).trans undecided
  have continues : ¬ played.isTerminal = true := by
    rw [isTerminal, undecided]
    decide
  rw [if_neg continues]
  refine ⟨rfl, played.time_withTime mover _, ?_⟩
  exact (played.time_other_withTime mover _).trans (chessMatch.time_other_withTime mover left)

end Move

end Match

/-! ## In rational seconds -/

namespace TimeControl

variable (control : TimeControl)

theorem bonusAfter_rat (moveNumber : Nat) :
    (control.bonusAfter moveNumber : Rat) = control.increment.toNat +
      if 0 < control.extraAfter.toNat ∧ moveNumber = control.extraAfter.toNat then
        control.extra.toNat
      else 0 := by
  have positive : 0 < control.extraAfter ↔ 0 < control.extraAfter.toNat := Iff.rfl
  simp only [bonusAfter, positive]
  split
  · rfl
  · exact (add_zero _).symm

theorem bonusAfter_nonneg (moveNumber : Nat) : (0 : Rat) ≤ control.bonusAfter moveNumber := by
  rw [bonusAfter_rat]
  split <;> positivity

end TimeControl

namespace Match

variable {chessMatch : Match Rat} {minimum : Rat} {now : Instant}

theorem elapsed_rat (chessMatch : Match Rat) (minimum : Rat) (now : Instant) :
    chessMatch.elapsed minimum now = max minimum (now.secondsSince chessMatch.lastMove) :=
  Scalar.atLeast_rat _ _

theorem left_rat (chessMatch : Match Rat) (minimum : Rat) (now : Instant) :
    chessMatch.left minimum now =
      max 0 (chessMatch.time chessMatch.turn - chessMatch.elapsed minimum now) :=
  Scalar.atLeast_rat _ _

theorem untilTimeout_rat (chessMatch : Match Rat) (now : Instant) :
    chessMatch.untilTimeout now = max 0 (chessMatch.time chessMatch.turn -
      max 0 (now.secondsSince chessMatch.lastMove)) :=
  (Scalar.atLeast_rat _ _).trans <| congrArg (max 0 <| chessMatch.time chessMatch.turn - ·)
    (Scalar.atLeast_rat _ _)

/-- Nothing is left exactly if the clock showed no more than is taken from it. -/
theorem left_le_iff : chessMatch.left minimum now ≤ Scalar.ofInt 0 ↔
    chessMatch.time chessMatch.turn ≤ chessMatch.elapsed minimum now := by
  have zero : (Scalar.ofInt 0 : Rat) = 0 := rfl
  rw [left_rat, zero, max_le_iff, sub_nonpos]
  exact and_iff_right le_rfl

/-- Over the rational numbers, a side whose flag has not fallen pays for its move and gains its
bonus. -/
theorem time_afterMove (request : MoveRequest)
    (standing : chessMatch.elapsed minimum now < chessMatch.time chessMatch.turn)
    (undecided : chessMatch.result = .inProgress) :
    (chessMatch.afterMove minimum request now).time chessMatch.turn =
      chessMatch.time chessMatch.turn - chessMatch.elapsed minimum now +
        chessMatch.timeControl.bonusAfter chessMatch.position.fullmoveNumber := by
  have stands : ¬ chessMatch.left minimum now ≤ Scalar.ofInt 0 := mt left_le_iff.mp standing.not_ge
  have rest : 0 ≤ chessMatch.time chessMatch.turn - chessMatch.elapsed minimum now :=
    sub_nonneg.mpr standing.le
  have bonus := chessMatch.timeControl.bonusAfter_nonneg chessMatch.position.fullmoveNumber
  rw [(afterMove_of_standing request stands undecided).2.1, left_rat, max_eq_right rest,
    Scalar.atLeast_rat]
  exact max_eq_right (add_nonneg rest bonus)

/-- The side to move has moved in time: it has paid so many seconds for it and gained its bonus, the
other clock is as it was, and the board decides. -/
structure InTime (stored : Match Rat) (request : MoveRequest) (seconds : Rat) (next : Match Rat) :
    Prop where
  judged : next.result = .ofOutcome (stored.position.apply request).outcome
  paid : next.time stored.turn = stored.time stored.turn - seconds +
    stored.timeControl.bonusAfter stored.position.fullmoveNumber
  kept : next.time stored.turn.other = stored.time stored.turn.other

theorem inTime_afterMove (request : MoveRequest)
    (standing : chessMatch.elapsed minimum now < chessMatch.time chessMatch.turn)
    (undecided : chessMatch.result = .inProgress) :
    chessMatch.InTime request (chessMatch.elapsed minimum now)
      (chessMatch.afterMove minimum request now) := by
  have stands : ¬ chessMatch.left minimum now ≤ Scalar.ofInt 0 := mt left_le_iff.mp standing.not_ge
  obtain ⟨judged, _, kept⟩ := afterMove_of_standing request stands undecided
  exact ⟨judged, time_afterMove request standing undecided, kept⟩

/-- A move after which a match goes on was made in time, in a match that was in progress. -/
theorem standing_of_continues {request : MoveRequest}
    (continues : (chessMatch.afterMove minimum request now).isTerminal = false) :
    chessMatch.elapsed minimum now < chessMatch.time chessMatch.turn ∧
      chessMatch.result = .inProgress := by
  have standing : ¬ chessMatch.left minimum now ≤ Scalar.ofInt 0 := by
    intro fallen
    rw [(flagged_afterMove request fallen).isTerminal] at continues
    cases continues
  refine ⟨lt_of_not_ge (mt left_le_iff.mpr standing), ?_⟩
  unfold afterMove at continues
  extract_lets mover zero left result charged played at continues
  have kept : played.result = chessMatch.result := if_neg standing
  split at continues
  · next decided => cases decided.symm.trans continues
  · next undecided =>
    rw [isTerminal, kept] at undecided
    simpa [MatchResult.isTerminal] using undecided

end Match

/-- The board never decides that a side has lost on time. -/
theorem MatchResult.ofOutcome_ne_timeout (outcome : Option Outcome) (winner : Colour) :
    ofOutcome outcome ≠ .win winner .timeout := by
  rcases outcome with _ | _ | _ | _ | _ | _ <;> nofun

end ChessArbiter
