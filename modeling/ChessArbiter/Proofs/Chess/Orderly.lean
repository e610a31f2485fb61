import Mathlib.Data.List.Nodup
import ChessArbiter.Proofs.Chess.Game

/-! # Orderly boards

An orderly board is a sound one whose recorded pawn has an enemy pawn beside it, on the rank on which a
pawn lands after two squares. This is what a text that describes a board says of it, and what makes the
board the one that its own text describes. Each side has one king, so that a check is a strike at one
square.
-/

namespace ChessArbiter

namespace Square

theorem adjoins_comm (a b : Square) : a.adjoins b = b.adjoins a := by
  have files : (a.filesTo b).natAbs = (b.filesTo a).natAbs := by
    unfold filesTo
    omega
  have ranks : (a.ranksTo b).natAbs = (b.ranksTo a).natAbs := by
    unfold ranksTo
    omega
  rw [adjoins, adjoins, files, ranks, bne_comm]

end Square

namespace Placement

variable {placement other : Placement} {colour : Colour} {king source target : Square}

/-- The colour has one king, and this is where it stands. -/
def HasKing (placement : Placement) (colour : Colour) (king : Square) : Prop :=
  ∀ square, placement.piece square = some ⟨colour, .king⟩ ↔ square = king

theorem HasKing.squaresOf (has : placement.HasKing colour king) :
    placement.squaresOf ⟨colour, .king⟩ = [king] := by
  have isKing : (fun square => placement.piece square == some ⟨colour, .king⟩) = (· == king) := by
    funext square
    rw [Bool.eq_iff_iff, beq_iff_eq, beq_iff_eq]
    exact has square
  rw [Placement.squaresOf, isKing, List.filter_beq,
    List.count_eq_one_of_mem Square.nodup_all (Square.mem_all king)]
  rfl

theorem exists_hasKing (one : (placement.squaresOf ⟨colour, .king⟩).length = 1) :
    ∃ king, placement.HasKing colour king := by
  obtain ⟨king, only⟩ := List.length_eq_one_iff.mp one
  refine ⟨king, fun square => ?_⟩
  have member : square ∈ placement.squaresOf ⟨colour, .king⟩ ↔ square = king := by
    rw [only, List.mem_singleton]
  rw [← member, Placement.squaresOf, List.mem_filter, beq_iff_eq]
  exact (and_iff_right (Square.mem_all square)).symm

/-- A king is in check exactly if a piece of the other side strikes at it. -/
theorem HasKing.inCheck_iff (has : placement.HasKing colour king) :
    placement.inCheck colour = true ↔ ∃ source, placement.colourAt source = some colour.other ∧
      placement.attacks source king = true := by
  have attacked : placement.attackedBy colour.other king = true ↔ ∃ source,
      placement.colourAt source = some colour.other ∧ placement.attacks source king = true := by
    simp only [attackedBy, List.any_eq_true, Bool.and_eq_true, beq_iff_eq, Square.mem_all, true_and]
  rw [← attacked]
  simp only [inCheck, List.any_eq_true, Bool.and_eq_true, beq_iff_eq, Square.mem_all, true_and]
  constructor
  · rintro ⟨square, isKing, struck⟩
    rwa [← (has square).mp isKing]
  · intro struck
    exact ⟨king, (has king).mpr rfl, struck⟩

theorem HasKing.mem_closeCheckers (has : placement.HasKing colour king) :
    source ∈ placement.closeCheckers colour ↔
      (placement.piece source = some ⟨colour.other, .knight⟩ ∨
        placement.piece source = some ⟨colour.other, .pawn⟩) ∧
      placement.attacks source king = true := by
  simp only [closeCheckers, has.squaresOf, List.mem_filter, Square.mem_all, true_and,
    Bool.and_eq_true, List.any_cons, List.any_nil, Bool.or_false, Bool.or_eq_true, beq_iff_eq]

theorem attacks_king (found : placement.piece source = some ⟨colour, .king⟩) :
    placement.attacks source target = source.adjoins target := by
  simp only [attacks, found]

/-- What a piece strikes at from near does not depend on the other squares. -/
theorem attacks_congr {piece : Piece} (found : placement.piece source = some piece)
    (same : other.piece source = some piece) (near : piece.kind.sweeps source target = false) :
    placement.attacks source target = other.attacks source target := by
  simp only [attacks, found, same]
  split
  · rfl
  · rfl
  · rfl
  · rw [near, Bool.false_and, Bool.false_and]

theorem attacks_of_sweeps {piece : Piece} (found : placement.piece source = some piece)
    (sweeps : piece.kind.sweeps source target = true) :
    placement.attacks source target = placement.clear source target := by
  simp only [attacks, found]
  split
  · next pawn => rw [pawn] at sweeps; cases sweeps
  · next knight => rw [knight] at sweeps; cases sweeps
  · next king => rw [king] at sweeps; cases sweeps
  · rw [sweeps, Bool.true_and]

theorem HasKing.mem_lineCheckers {blockers : Placement} {piece : Piece}
    (has : placement.HasKing colour king) (found : placement.piece source = some piece) :
    source ∈ placement.lineCheckers blockers colour ↔ piece.colour = colour.other ∧
      piece.kind.sweeps source king = true ∧ blockers.clear source king = true := by
  simp only [lineCheckers, has.squaresOf, found, List.mem_filter, Square.mem_all, true_and,
    Option.any_some, Bool.and_eq_true, List.any_cons, List.any_nil, Bool.or_false, beq_iff_eq]

theorem pawnBeside_iff {square : Square} : Board.pawnBeside placement colour square = true ↔
    ∃ beside : Square, beside.rank = square.rank ∧ (square.filesTo beside).natAbs = 1 ∧
      placement.piece beside = some ⟨colour, .pawn⟩ := by
  simp only [Board.pawnBeside, List.any_eq_true, Bool.and_eq_true, beq_iff_eq, Square.mem_all,
    true_and, and_assoc]

end Placement

namespace Board

variable {board : Board} {text : List Char}

/-- A sound board whose recorded pawn may be captured in passing. -/
structure Orderly (board : Board) : Prop where
  consistent : board.Consistent
  king : ∀ colour, ∃ king, board.placement.HasKing colour king
  spared : board.placement.inCheck board.turn.other = false
  home : ∀ colour wing, board.rights.has colour wing = true →
    board.piece colour.kingHome = some ⟨colour, .king⟩
  beside : ∀ square, board.enPassant = some square →
    pawnBeside board.placement board.turn square = true

namespace Orderly

/-- The side to move strikes with nothing at the enemy king. -/
theorem not_attacks_king (orderly : board.Orderly) {source enemy : Square} {kind : Kind}
    (has : board.placement.HasKing board.turn.other enemy)
    (own : board.piece source = some ⟨board.turn, kind⟩) :
    board.placement.attacks source enemy = false := by
  rw [Bool.eq_false_iff]
  intro strikes
  have mine : board.placement.colourAt source = some board.turn.other.other := by
    rw [Placement.colourAt, ← Board.piece, own, Option.map_some, Colour.other_other]
  have check := has.inCheck_iff.mpr ⟨source, mine, strikes⟩
  rw [orderly.spared] at check
  cases check

/-- The kings do not touch: the one of the side to move would strike at the other. -/
theorem apart (orderly : board.Orderly) {king enemy : Square}
    (has : board.placement.HasKing board.turn king)
    (hasEnemy : board.placement.HasKing board.turn.other enemy) : king.adjoins enemy = false := by
  have found := (has king).mpr rfl
  rw [← Placement.attacks_king found]
  exact orderly.not_attacks_king hasEnemy found

theorem of_isSound (sound : board.isSound = true)
    (recorded : ∀ square, board.enPassant = some square → square.rank = board.turn.other.doubleRank ∧
      pawnBeside board.placement board.turn square = true) : board.Orderly := by
  have consistent : board.Consistent :=
    .of_isSound sound fun square passer => (recorded square passer).1
  simp only [isSound, Bool.and_eq_true, beq_iff_eq, Bool.not_eq_true'] at sound
  obtain ⟨⟨⟨⟨⟨white, black⟩, _⟩, spared⟩, homes⟩, _⟩ := sound
  refine ⟨consistent, ?_, spared, ?_, fun square passer => (recorded square passer).2⟩
  · intro colour
    cases colour with
    | white => exact Placement.exists_hasKing white
    | black => exact Placement.exists_hasKing black
  · intro colour wing right
    have home := List.all_eq_true.mp (List.all_eq_true.mp homes colour (by cases colour <;> simp))
      wing (by cases wing <;> simp)
    simp only [right, Bool.not_true, Bool.false_or, Bool.and_eq_true, beq_iff_eq] at home
    exact home.2

theorem isSound (orderly : board.Orderly) : board.isSound = true := by
  obtain ⟨white, hasWhite⟩ := orderly.king .white
  obtain ⟨black, hasBlack⟩ := orderly.king .black
  have apart : white.adjoins black = false := by
    cases turn : board.turn with
    | white => exact orderly.apart (turn ▸ hasWhite) (turn ▸ hasBlack)
    | black =>
      rw [Square.adjoins_comm]
      exact orderly.apart (turn ▸ hasBlack) (turn ▸ hasWhite)
  have passer : board.enPassant.all
      (fun square => board.placement.piece square == some ⟨board.turn.other, .pawn⟩) = true := by
    rw [Option.all_eq_true]
    intro square recorded
    exact beq_iff_eq.mpr (orderly.consistent.passer square recorded).2
  have home (colour : Colour) (wing : Wing) : (!board.rights.has colour wing ||
      (board.placement.piece (colour.rookHome wing) == some ⟨colour, .rook⟩ &&
        board.placement.piece colour.kingHome == some ⟨colour, .king⟩)) = true := by
    cases right : board.rights.has colour wing with
    | false => rfl
    | true =>
      have rook := beq_iff_eq.mpr (orderly.consistent.rooks colour wing right)
      have king := beq_iff_eq.mpr (orderly.home colour wing right)
      exact Bool.and_eq_true_iff.mpr ⟨rook, king⟩
  simp only [Board.isSound, hasWhite.squaresOf, hasBlack.squaresOf, passer, orderly.spared, home, apart,
    List.all_cons, List.all_nil]
  rfl

end Orderly

theorem orderly_of_read? (read : Board.read? text = .ok board) : board.Orderly := by
  obtain ⟨sound, field, enPassant⟩ := exists_of_read? read
  refine .of_isSound sound fun square recorded => ?_
  exact recorded_of_readEnPassant (enPassant ▸ recorded)

theorem orderly_start : Board.start.Orderly :=
  .of_isSound (by decide +kernel) nofun

end Board

end ChessArbiter
