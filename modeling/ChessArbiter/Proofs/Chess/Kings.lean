import ChessArbiter.Proofs.Chess.Checks
import ChessArbiter.Proofs.Chess.RoundTrip

/-! # The two kings

Neither side ever has two kings, and the kings never touch. Unlike order, this is true of every game: a
capture in passing may leave a king attacked, or even take it, but where a king moves itself it goes to a
square that nothing attacks, and no other move brings kings nearer to each other.
-/

namespace ChessArbiter

namespace Placement

variable {placement other : Placement} {colour : Colour} {king : Square}

/-- Each side has one king at most, and the kings do not touch. -/
structure KingsApart (placement : Placement) : Prop where
  single : ∀ colour king other, placement.piece king = some ⟨colour, .king⟩ →
    placement.piece other = some ⟨colour, .king⟩ → other = king
  apart : ∀ colour king enemy, placement.piece king = some ⟨colour, .king⟩ →
    placement.piece enemy = some ⟨colour.other, .king⟩ → king.adjoins enemy = false

theorem HasKing.of_single (found : placement.piece king = some ⟨colour, .king⟩)
    (single : ∀ square, placement.piece square = some ⟨colour, .king⟩ → square = king) :
    placement.HasKing colour king :=
  fun square => ⟨single square, fun same => same ▸ found⟩

theorem KingsApart.hasKing (kings : placement.KingsApart)
    (found : placement.piece king = some ⟨colour, .king⟩) : placement.HasKing colour king :=
  .of_single found fun square => kings.single colour king square found

/-- Kings that stood there before are as far apart as they were. -/
theorem KingsApart.of_kings (kings : placement.KingsApart)
    (stood : ∀ colour square, other.piece square = some ⟨colour, .king⟩ →
      placement.piece square = some ⟨colour, .king⟩) : other.KingsApart where
  single colour king second found again :=
    kings.single colour king second (stood _ _ found) (stood _ _ again)
  apart colour king enemy found foe := kings.apart colour king enemy (stood _ _ found) (stood _ _ foe)

end Placement

namespace Board

variable {board : Board} {move : Move} {close : List Square}

theorem Orderly.kingsApart (orderly : board.Orderly) : board.placement.KingsApart := by
  have single (colour : Colour) (king other : Square)
      (found : board.placement.piece king = some ⟨colour, .king⟩)
      (again : board.placement.piece other = some ⟨colour, .king⟩) : other = king := by
    obtain ⟨only, has⟩ := orderly.king colour
    rw [(has king).mp found, (has other).mp again]
  refine ⟨single, fun colour king enemy found foe => ?_⟩
  have own := Placement.HasKing.of_single found fun square => single colour king square found
  have hasEnemy := Placement.HasKing.of_single foe fun square => single colour.other enemy square foe
  rcases colour.eq_or_eq_other board.turn with rfl | rfl
  · exact orderly.apart own hasEnemy
  · rw [Square.adjoins_comm]
    rw [Colour.other_other] at hasEnemy
    exact orderly.apart hasEnemy own

namespace Proper

theorem single_king (proper : board.Proper move) (consistent : board.Consistent)
    (kings : board.placement.KingsApart) (colour : Colour) (king other : Square)
    (found : (board.placementAfter move).piece king = some ⟨colour, .king⟩)
    (again : (board.placementAfter move).piece other = some ⟨colour, .king⟩) : other = king := by
  rw [proper.king_placementAfter_iff consistent] at found again
  split at found <;> split at again
  · next landed same => exact same.symm.trans landed
  · exact absurd (kings.single colour _ _ found again.2).symm again.1
  · exact absurd (kings.single colour _ _ again found.2).symm found.1
  · exact kings.single colour king other found.2 again.2

/-- After a move that leaves the own king unattacked the kings do not touch. -/
theorem kingsApart (proper : board.Proper move) (consistent : board.Consistent)
    (kings : board.placement.KingsApart)
    (safe : (board.placementAfter move).inCheck board.turn = false) :
    (board.placementAfter move).KingsApart := by
  have single := proper.single_king consistent kings
  have untouched (king enemy : Square)
      (found : (board.placementAfter move).piece king = some ⟨board.turn, .king⟩)
      (foe : (board.placementAfter move).piece enemy = some ⟨board.turn.other, .king⟩) :
      enemy.adjoins king = false := by
    rw [Bool.eq_false_iff]
    intro touches
    have has := Placement.HasKing.of_single found fun square => single board.turn king square found
    have attacker : (board.placementAfter move).colourAt enemy = some board.turn.other := by
      rw [Placement.colourAt, foe, Option.map_some]
    have check := has.inCheck_iff.mpr ⟨enemy, attacker, (Placement.attacks_king foe).trans touches⟩
    rw [safe] at check
    cases check
  refine ⟨single, fun colour king enemy found foe => ?_⟩
  rcases colour.eq_or_eq_other board.turn with rfl | rfl
  · rw [Square.adjoins_comm]
    exact untouched king enemy found foe
  · rw [Colour.other_other] at foe
    exact untouched enemy king foe found

end Proper

/-- A capture in passing moves no king, but it may take one. -/
theorem king_of_passes (passes : board.passes move = true) {colour : Colour} {square : Square}
    (found : (board.placementAfter move).piece square = some ⟨colour, .king⟩) :
    board.piece square = some ⟨colour, .king⟩ := by
  simp only [Board.passes, Bool.and_eq_true, beq_iff_eq, Option.isNone_iff_eq_none] at passes
  obtain ⟨⟨pawn, plain⟩, past⟩ := passes
  rw [placementAfter_of_pawn pawn, if_pos past, Placement.piece_put] at found
  split at found
  · cases found
  · rw [piece_landed_eq_some_iff] at found
    split at found
    · rw [landing, pawn, plain] at found
      cases congrArg (Option.map Piece.kind) found
    · exact found.2

/-- Whatever the arbiter allows leaves the kings apart. -/
theorem kingsApart_of_allows (kings : board.placement.KingsApart) (consistent : board.Consistent)
    (allowed : board.allows close move = true) : (board.placementAfter move).KingsApart := by
  simp only [allows, allowsPassing, Bool.or_eq_true, Bool.and_eq_true] at allowed
  rcases allowed with plain | ⟨⟨passes, _⟩, _⟩
  · have proper := proper_of_allowsPlain plain
    have safe := (Bool.and_eq_true_iff.mp plain).2
    unfold isSafe at safe
    split at safe
    · exact proper.kingsApart consistent kings ((Bool.not_eq_true' _).mp safe)
    · next notKing =>
      refine kings.of_kings fun colour square found => ?_
      rw [proper.king_placementAfter_iff consistent] at found
      split at found
      · obtain ⟨kind, mover⟩ := proper.way.exists_mover
        obtain ⟨rfl, rfl⟩ : board.turn = colour ∧ kind = .king := by
          simpa using Option.some.inj (mover.symm.trans found)
        exact absurd mover notKing
      · exact found.2
  · exact kings.of_kings fun colour square => king_of_passes passes

end Board

namespace Position

variable {opening position : Position} {boards : List Board}

/-- In every game the kings stay apart, whatever captures in passing it goes through. -/
theorem Game.kingsApart (opens : opening.Opening) (game : Game opening boards position) :
    position.board.placement.KingsApart := by
  induction game with
  | start => exact opens.settled.orderly.kingsApart
  | move game accepted ih =>
    obtain ⟨move, allowed, played⟩ := exists_of_accepts accepted
    rw [played]
    exact Board.kingsApart_of_allows ih (game.consistent opens _ game.board_mem) allowed

end Position

end ChessArbiter
