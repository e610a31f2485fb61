import ChessArbiter.Chess.Position
import ChessArbiter.Proofs.Chess.Ways

/-! # Consistent boards

Castling rights have their rook at home, and the recorded pawn is an enemy pawn on the rank on which it
lands after two squares. A game begins on such a board and never leaves them, although a move may be
allowed that leaves a king attacked.
-/

namespace ChessArbiter

namespace Board

variable {board : Board} {move : Move} {piece : Piece}

section Placement

theorem movesPawn_of_found (found : board.piece move.source = some piece) :
    board.movesPawn move = (piece.kind == .pawn) := by
  rw [movesPawn, found, Option.any_some]

theorem movesPawn_of_notPawn (found : board.piece move.source = some piece)
    (notPawn : piece.kind ≠ .pawn) : board.movesPawn move = false := by
  rw [movesPawn_of_found found]
  exact beq_eq_false_iff_ne.mpr notPawn

theorem piece_landed (board : Board) (move : Move) (square : Square) :
    (board.landed move).piece square =
      if move.target = square then board.landing move
      else if move.source = square then none else board.piece square := by
  rw [landed, Placement.piece_put, Placement.piece_put]
  rfl

/-- What lands on a square that its own side does not hold keeps its colour. -/
theorem landing_of_foreign (found : board.piece move.source = some piece)
    (foreign : board.placement.colourAt move.target ≠ some piece.colour) :
    board.landing move = some ⟨piece.colour, (move.promotion.map (·.kind)).getD piece.kind⟩ := by
  rw [landing, found, Option.map_some, if_neg foreign]

theorem placementAfter_of_piece (found : board.piece move.source = some piece)
    (notPawn : piece.kind ≠ .pawn) (uncastled : board.castling? move = none) :
    board.placementAfter move = board.landed move := by
  have still := movesPawn_of_notPawn found notPawn
  simp only [placementAfter, still, uncastled, Bool.false_and, Bool.false_eq_true, if_false]

theorem placementAfter_of_pawn (found : board.piece move.source = some ⟨board.turn, .pawn⟩) :
    board.placementAfter move =
      if board.isEnPassant move = true then
        (board.landed move).put ⟨move.target.file, move.source.rank⟩ none
      else board.landed move := by
  have moves : board.movesPawn move = true := movesPawn_of_found found
  have uncastled := castling?_of_piece found nofun
  simp only [placementAfter, moves, uncastled, Bool.true_and]

theorem placementAfter_of_castling {wing : Wing} (castles : board.castling? move = some wing) :
    board.placementAfter move =
      ((board.landed move).put (board.turn.rookHome wing) none).put
        ⟨wing.rookTarget, board.turn.homeRank⟩ (some ⟨board.turn, .rook⟩) := by
  obtain ⟨king, _⟩ := castling?_eq_some castles
  have still := movesPawn_of_notPawn king nofun
  simp only [placementAfter, still, castles, Bool.false_and, Bool.false_eq_true, if_false]

end Placement

/-- Castling rights have their rook at home, and the recorded pawn is an enemy pawn that has moved two
squares. -/
structure Consistent (board : Board) : Prop where
  rooks : ∀ colour wing, board.rights.has colour wing = true →
    board.piece (colour.rookHome wing) = some ⟨colour, .rook⟩
  passer : ∀ square, board.enPassant = some square →
    square.rank = board.turn.other.doubleRank ∧
      board.piece square = some ⟨board.turn.other, .pawn⟩

namespace Consistent

theorem of_isSound (sound : board.isSound = true)
    (rank : ∀ square, board.enPassant = some square → square.rank = board.turn.other.doubleRank) :
    board.Consistent := by
  simp only [isSound, Bool.and_eq_true] at sound
  obtain ⟨⟨⟨⟨_, passer⟩, _⟩, rooks⟩, _⟩ := sound
  constructor
  · intro colour wing right
    have home := List.all_eq_true.mp (List.all_eq_true.mp rooks colour (by cases colour <;> simp))
      wing (by cases wing <;> simp)
    simp only [right, Bool.not_true, Bool.false_or, Bool.and_eq_true, beq_iff_eq] at home
    exact home.1
  · intro square recorded
    rw [recorded, Option.all_some, beq_iff_eq] at passer
    exact ⟨rank square recorded, passer⟩

/-- A pawn that captures in passing leaves the rooks at home alone. -/
theorem lifted_ne_rookHome (consistent : board.Consistent) (passes : board.isEnPassant move = true)
    (colour : Colour) (wing : Wing) :
    (⟨move.target.file, move.source.rank⟩ : Square) ≠ colour.rookHome wing := by
  simp only [isEnPassant, Bool.and_eq_true, beq_iff_eq] at passes
  obtain ⟨rank, _⟩ := consistent.passer _ passes.1
  intro same
  have home : move.source.rank = colour.homeRank := congrArg Square.rank same
  have rank : move.source.rank = board.turn.other.doubleRank := rank
  rw [home] at rank
  revert rank
  cases colour <;> cases board.turn <;> decide

/-- A rook whose right is left stays at home. -/
private theorem rook_stays (consistent : board.Consistent) (way : board.Way move) {colour : Colour}
    {wing : Wing} (left : (board.rightsAfter move).has colour wing = true) :
    (board.placementAfter move).piece (colour.rookHome wing) = some ⟨colour, .rook⟩ := by
  simp only [rightsAfter, CastlingRights.has_filter, Bool.and_eq_true, bne_iff_ne] at left
  obtain ⟨right, ⟨kingStays, notSource⟩, notTarget⟩ := left
  have stays : (board.landed move).piece (colour.rookHome wing) = some ⟨colour, .rook⟩ := by
    rw [piece_landed, if_neg notTarget, if_neg notSource]
    exact consistent.rooks colour wing right
  have staysByPawn (found : board.piece move.source = some ⟨board.turn, .pawn⟩) :
      (board.placementAfter move).piece (colour.rookHome wing) = some ⟨colour, .rook⟩ := by
    rw [placementAfter_of_pawn found]
    split
    · next passes =>
      rw [Placement.piece_put, if_neg (consistent.lifted_ne_rookHome passes colour wing)]
      exact stays
    · exact stays
  cases way with
  | piece piece found _ notPawn _ _ _ uncastled =>
    rw [placementAfter_of_piece found notPawn uncastled]
    exact stays
  | pawn found _ _ _ => exact staysByPawn found
  | castling own castles _ _ =>
    obtain ⟨_, home, _⟩ := castling?_eq_some castles
    have otherRank : board.turn.homeRank ≠ colour.homeRank := by
      intro same
      apply kingStays
      rw [home, Colour.kingHome, Colour.kingHome, same]
    have apart {square : Square} (onRank : square.rank = board.turn.homeRank) :
        square ≠ colour.rookHome wing :=
      fun same => otherRank (onRank.symm.trans (congrArg Square.rank same))
    rw [placementAfter_of_castling castles, Placement.piece_put, if_neg (apart rfl),
      Placement.piece_put, if_neg (apart rfl)]
    exact stays
  | passing found _ _ _ => exact staysByPawn found

/-- A pawn that has gone two squares ahead stands where it landed, as a pawn. -/
private theorem leaper_lands (found : board.piece move.source = some ⟨board.turn, .pawn⟩)
    (foreign : board.placement.colourAt move.target ≠ some board.turn)
    (home : move.source.rank = board.turn.pawnRank)
    (two : move.source.ranksTo move.target = 2 * board.turn.forward)
    (promotes : move.promotion.isSome = (move.target.rank == board.turn.other.homeRank)) :
    move.target.rank = board.turn.doubleRank ∧
      (board.placementAfter move).piece move.target = some ⟨board.turn, .pawn⟩ := by
  have rank : move.target.rank = board.turn.doubleRank := by
    rw [Square.ranksTo, home] at two
    apply Fin.ext
    cases turn : board.turn <;> rw [turn] at two <;>
      simp only [Colour.pawnRank, Colour.forward, Colour.doubleRank] at two ⊢ <;> omega
  have plain : move.promotion = none := by
    have short : (board.turn.doubleRank == board.turn.other.homeRank) = false := by
      cases board.turn <;> decide
    rw [rank, short] at promotes
    simpa using promotes
  have past : board.isEnPassant move = false := by
    rw [isEnPassant, Square.pawnStrikes, two]
    cases board.turn <;> simp [Colour.forward]
  refine ⟨rank, ?_⟩
  rw [placementAfter_of_pawn found, past, if_neg Bool.false_ne_true, piece_landed, if_pos rfl,
    landing_of_foreign found foreign, plain]
  rfl

/-- A pawn that is recorded after a move has just gone two squares ahead. -/
private theorem passer_lands (way : board.Way move) {square : Square}
    (recorded : board.enPassantAfter move = some square) :
    square.rank = board.turn.doubleRank ∧
      (board.placementAfter move).piece square = some ⟨board.turn, .pawn⟩ := by
  simp only [enPassantAfter, record] at recorded
  split at recorded
  · next leaps =>
    split at recorded
    · obtain rfl := Option.some.inj recorded
      simp only [Bool.and_eq_true, beq_iff_eq] at leaps
      obtain ⟨isPawn, two⟩ := leaps
      have notOne : move.source.ranksTo move.target ≠ board.turn.forward := by
        intro one
        rw [one] at two
        cases turn : board.turn <;> rw [turn] at two <;> cases two
      cases way with
      | piece piece found _ notPawn _ _ _ _ =>
        rw [movesPawn_of_found found] at isPawn
        exact absurd (eq_of_beq isPawn) notPawn
      | pawn found foreign ahead promotes =>
        obtain ⟨home, two⟩ := ahead.resolve_left notOne
        exact leaper_lands found foreign home two promotes
      | castling wing castles _ _ =>
        rw [movesPawn_of_found (castling?_eq_some castles).1] at isPawn
        cases isPawn
      | passing _ _ strikes _ => exact absurd (Square.ranksTo_of_pawnStrikes strikes) notOne
    · cases recorded
  · cases recorded

/-- Whatever way a board is left, the next one is consistent again. -/
theorem play (consistent : board.Consistent) (way : board.Way move) :
    (board.play move).Consistent where
  rooks _ _ left := consistent.rook_stays way left
  passer square recorded := by
    have lands := passer_lands way recorded
    rwa [← Colour.other_other board.turn] at lands

end Consistent

end Board

end ChessArbiter
