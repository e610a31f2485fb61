import ChessArbiter.Proofs.Chess.Orderly

/-! # Proper moves

A proper move takes no piece of its own side, strikes at what it takes, and castles over empty squares.
Rooks and enemy pawns aside, what stands on the board after such a move is what stands there when the
piece has landed (`Proper.piece_placementAfter`). So a king stays where it is or stands on the target,
none is taken, and the board is orderly again if the king of the side that has moved is not attacked.
-/

namespace ChessArbiter

namespace Board

variable {board : Board} {move : Move}

/-- A move that takes nothing of its own side, strikes at what it takes, and castles over empty squares.
What it does to its own king is not said. -/
structure Proper (board : Board) (move : Move) : Prop where
  way : board.Way move
  foreign : board.placement.colourAt move.target ≠ some board.turn
  strikes : board.piece move.target ≠ none → board.placement.attacks move.source move.target = true
  crossing : ∀ wing, board.castling? move = some wing →
    board.piece ⟨wing.rookTarget, board.turn.homeRank⟩ = none

section Moved

/-- Whatever moves is of the side to move. -/
theorem Way.exists_mover (way : board.Way move) :
    ∃ kind, board.piece move.source = some ⟨board.turn, kind⟩ := by
  cases way with
  | piece piece found own =>
    obtain ⟨colour, kind⟩ := piece
    obtain rfl : colour = board.turn := own
    exact ⟨kind, found⟩
  | pawn found => exact ⟨_, found⟩
  | castling _ castles => exact ⟨_, (castling?_eq_some castles).1⟩
  | passing found => exact ⟨_, found⟩

/-- Only a pawn that reaches the last rank promotes. -/
theorem Way.promotion_eq_none (way : board.Way move)
    (early : board.piece move.source = some ⟨board.turn, .pawn⟩ →
      move.target.rank ≠ board.turn.other.homeRank) : move.promotion = none := by
  cases way with
  | piece _ _ _ _ _ plain => exact plain
  | castling _ _ _ plain => exact plain
  | passing _ _ _ plain => exact plain
  | pawn found _ _ promotes =>
    rw [beq_eq_false_iff_ne.mpr (early found)] at promotes
    exact Option.isNone_iff_eq_none.mp (Option.isSome_eq_false_iff.mp promotes)

/-- A piece that reaches a square does not castle; it strikes at the square, if something stands there. -/
theorem strikes_of_reaches (reaches : board.reaches move = true) :
    board.placement.colourAt move.target ≠ some board.turn ∧
      (board.piece move.target ≠ none → board.placement.attacks move.source move.target = true) ∧
      board.castling? move = none := by
  unfold Board.reaches at reaches
  split at reaches
  · cases reaches
  · next piece found =>
    simp only [Bool.and_eq_true, beq_iff_eq, bne_iff_ne] at reaches
    obtain ⟨⟨own, foreign⟩, reaches⟩ := reaches
    split at reaches
    · next pawn =>
      refine ⟨foreign, fun occupied => ?_, castling?_of_piece found (by rw [pawn]; decide)⟩
      have found : board.placement.piece move.source = some piece := found
      have empty : (board.piece move.target).isNone = false := by
        rwa [Option.isNone_eq_false_iff, Option.isSome_iff_ne_none]
      simp only [pawnMoves, advances, empty, Bool.and_false, Bool.false_and, Bool.false_or,
        Bool.and_eq_true] at reaches
      simp only [Placement.attacks, found, pawn, own]
      exact reaches.1.1
    · simp only [Bool.and_eq_true] at reaches
      refine ⟨foreign, fun _ => reaches.2, ?_⟩
      by_cases king : piece.kind = .king
      · have found : board.placement.piece move.source = some ⟨piece.colour, .king⟩ := king ▸ found
        rw [Placement.attacks_king found] at reaches
        exact castling?_of_adjoins reaches.2
      · exact castling?_of_piece found king

/-- The squares that a castling king enters and that its rook enters are empty. -/
theorem empty_of_castles (castles : board.castles move = true) : board.piece move.target = none ∧
    ∀ wing, board.castling? move = some wing →
      board.piece ⟨wing.rookTarget, board.turn.homeRank⟩ = none := by
  simp only [Board.castles, Bool.and_eq_true, Option.any_eq_true] at castles
  obtain ⟨_, wing, castling, ⟨_, clear⟩, _⟩ := castles
  obtain ⟨_, source, target⟩ := castling?_eq_some castling
  rw [source, Placement.clear, List.all_eq_true] at clear
  have between (file : Fin 8) (inside : ∀ colour : Colour,
      (⟨file, colour.homeRank⟩ : Square) ∈ colour.kingHome.between (colour.rookHome wing)) :
      board.piece ⟨file, board.turn.homeRank⟩ = none :=
    Option.isNone_iff_eq_none.mp (clear _ (inside board.turn))
  rw [target]
  refine ⟨between wing.kingTarget ?_, ?_⟩
  · intro colour
    cases colour <;> cases wing <;> decide
  · intro other same
    cases castling.symm.trans same
    apply between
    intro colour
    cases colour <;> cases wing <;> decide

theorem Way.proper (way : board.Way move)
    (moves : board.reaches move = true ∨ board.castles move = true ∨
      board.passes move = true ∧ board.piece move.target = none) : board.Proper move := by
  have onEmpty (empty : board.piece move.target = none) :
      board.placement.colourAt move.target ≠ some board.turn := by
    rw [Placement.colourAt, ← Board.piece, empty, Option.map_none]
    exact (Option.some_ne_none _).symm
  have still (uncastled : board.castling? move = none) : ∀ wing, board.castling? move = some wing →
      board.piece ⟨wing.rookTarget, board.turn.homeRank⟩ = none := by
    intro wing castles
    cases uncastled.symm.trans castles
  rcases moves with reaches | castles | ⟨passes, empty⟩
  · obtain ⟨foreign, strikes, uncastled⟩ := strikes_of_reaches reaches
    exact ⟨way, foreign, strikes, still uncastled⟩
  · obtain ⟨empty, crossing⟩ := empty_of_castles castles
    exact ⟨way, onEmpty empty, fun occupied => (occupied empty).elim, crossing⟩
  · have pawn := (Bool.and_eq_true_iff.mp (Bool.and_eq_true_iff.mp passes).1).1
    have uncastled := castling?_of_piece (eq_of_beq pawn) (by simp)
    exact ⟨way, onEmpty empty, fun occupied => (occupied empty).elim, still uncastled⟩

/-- What is allowed and captures nothing in passing is proper. -/
theorem proper_of_allowsPlain {close : List Square} (allowed : board.allowsPlain close move = true) :
    board.Proper move := by
  simp only [allowsPlain, Bool.and_eq_true, Bool.or_eq_true] at allowed
  obtain ⟨reaches | ⟨castles, _⟩, _⟩ := allowed
  · exact (way_of_reaches reaches).proper (.inl reaches)
  · exact (way_of_castles castles).proper (.inr (.inl castles))

end Moved

section Placement

variable {piece : Piece}

theorem piece_landed_eq_some_iff (board : Board) (move : Move) (square : Square) :
    (board.landed move).piece square = some piece ↔
      if move.target = square then board.landing move = some piece
      else move.source ≠ square ∧ board.piece square = some piece := by
  rw [piece_landed]
  split
  · rfl
  · split
    · next left => simp [left]
    · next stays => simp [stays]

/-- The pawn that is captured in passing is an enemy pawn and stands beside the target. -/
theorem Consistent.passed (consistent : board.Consistent) (passes : board.isEnPassant move = true) :
    board.piece ⟨move.target.file, move.source.rank⟩ = some ⟨board.turn.other, .pawn⟩ ∧
      move.target ≠ ⟨move.target.file, move.source.rank⟩ := by
  simp only [isEnPassant, Bool.and_eq_true, beq_iff_eq] at passes
  obtain ⟨recorded, strikes⟩ := passes
  refine ⟨(consistent.passer _ recorded).2, fun same => ?_⟩
  have ahead := Square.ranksTo_of_pawnStrikes strikes
  have level : move.target.rank = move.source.rank := (congrArg Square.rank same).trans rfl
  rw [Square.ranksTo, level, Int.sub_self] at ahead
  revert ahead
  cases board.turn <;> decide

/-- A pawn that goes two squares goes past no pawn. -/
theorem not_isEnPassant_of_leap (two : (move.source.ranksTo move.target).natAbs = 2) :
    ¬ board.isEnPassant move = true := by
  intro past
  rw [isEnPassant, Bool.and_eq_true] at past
  rw [Square.ranksTo_of_pawnStrikes past.2] at two
  revert two
  cases board.turn <;> decide

namespace Proper

theorem landing_eq (proper : board.Proper move) {kind : Kind}
    (found : board.piece move.source = some ⟨board.turn, kind⟩) :
    board.landing move = some ⟨board.turn, (move.promotion.map (·.kind)).getD kind⟩ :=
  landing_of_foreign found proper.foreign

/-- No piece but an enemy pawn is lifted by a pawn's move. -/
private theorem piece_of_pawn (consistent : board.Consistent)
    (found : board.piece move.source = some ⟨board.turn, .pawn⟩)
    (notPasser : piece ≠ ⟨board.turn.other, .pawn⟩) (square : Square) :
    (board.placementAfter move).piece square = some piece ↔
      (board.landed move).piece square = some piece := by
  rw [placementAfter_of_pawn found]
  split
  · next passes =>
    obtain ⟨passer, apart⟩ := consistent.passed passes
    rw [Placement.piece_put]
    split
    · next lifted =>
      rw [← lifted, piece_landed_eq_some_iff, if_neg apart, passer]
      simp [notPasser.symm]
    · rfl
  · rfl

/-- No piece but a rook is moved beside the king by castling. -/
private theorem piece_of_castling (proper : board.Proper move) (consistent : board.Consistent) {wing : Wing}
    (castles : board.castling? move = some wing) (right : board.rights.has board.turn wing = true)
    (notRook : piece.kind ≠ .rook) (square : Square) :
    (board.placementAfter move).piece square = some piece ↔
      (board.landed move).piece square = some piece := by
  obtain ⟨_, _, target⟩ := castling?_eq_some castles
  have other (colour : Colour) : some (Piece.mk colour .rook) ≠ some piece := by
    rintro ⟨⟩
    exact notRook rfl
  have apart {file : Fin 8} (differs : wing.kingTarget ≠ file) :
      move.target ≠ ⟨file, board.turn.homeRank⟩ := by
    rw [target]
    exact fun same => differs (congrArg Square.file same)
  rw [placementAfter_of_castling castles, Placement.piece_put, Placement.piece_put]
  split
  · next entered =>
    have beside : move.target ≠ ⟨wing.rookTarget, board.turn.homeRank⟩ :=
      apart (by cases wing <;> decide)
    rw [← entered, piece_landed_eq_some_iff, if_neg beside, proper.crossing wing castles]
    simp [other]
  · split
    · next left =>
      have far : move.target ≠ board.turn.rookHome wing := apart (by cases wing <;> decide)
      rw [← left, piece_landed_eq_some_iff, if_neg far, consistent.rooks _ wing right]
      simp [other]
    · rfl

/-- Rooks and enemy pawns aside, after a proper move stands what stands when the piece has landed. -/
theorem piece_placementAfter (proper : board.Proper move) (consistent : board.Consistent)
    (notRook : piece.kind ≠ .rook) (notPasser : piece ≠ ⟨board.turn.other, .pawn⟩) (square : Square) :
    (board.placementAfter move).piece square = some piece ↔
      (board.landed move).piece square = some piece := by
  cases proper.way with
  | piece other found _ notPawn _ _ _ uncastled =>
    rw [placementAfter_of_piece found notPawn uncastled]
  | pawn found => exact piece_of_pawn consistent found notPasser square
  | passing found => exact piece_of_pawn consistent found notPasser square
  | castling wing castles right _ => exact proper.piece_of_castling consistent castles right notRook square

end Proper

end Placement

namespace Proper

variable {colour : Colour} {king : Square}

/-- No proper move takes a king: it would have been in check while the other side was to move. -/
theorem target_ne_king (proper : board.Proper move) (orderly : board.Orderly)
    (has : board.placement.HasKing colour king) : move.target ≠ king := by
  rintro rfl
  have found : board.piece move.target = some ⟨colour, .king⟩ := (has _).mpr rfl
  rcases colour.eq_or_eq_other board.turn with rfl | rfl
  · apply proper.foreign
    rw [Placement.colourAt, ← Board.piece, found, Option.map_some]
  · obtain ⟨kind, mover⟩ := proper.way.exists_mover
    have occupied : board.piece move.target ≠ none := by
      rw [found]
      exact Option.some_ne_none _
    have spared := orderly.not_attacks_king has mover
    rw [proper.strikes occupied] at spared
    cases spared

/-- What lands as a king has moved as a king: no pawn promotes to one. -/
theorem landing_eq_king_iff (proper : board.Proper move) :
    board.landing move = some ⟨colour, .king⟩ ↔ board.piece move.source = some ⟨colour, .king⟩ := by
  obtain ⟨kind, mover⟩ := proper.way.exists_mover
  rw [proper.landing_eq mover, mover]
  by_cases king : kind = .king
  · subst king
    have plain : move.promotion = none := proper.way.promotion_eq_none fun pawn => by
      cases mover.symm.trans pawn
    rw [plain]
    rfl
  · refine iff_of_false ?_ (by simp [king])
    cases move.promotion with
    | none => simp [king]
    | some promotion => cases promotion <;> simp [Promotion.kind]

/-- A king after the move has moved to where it stands or stood there before. -/
theorem king_placementAfter_iff (proper : board.Proper move) (consistent : board.Consistent)
    (square : Square) : (board.placementAfter move).piece square = some ⟨colour, .king⟩ ↔
      if move.target = square then board.piece move.source = some ⟨colour, .king⟩
      else move.source ≠ square ∧ board.piece square = some ⟨colour, .king⟩ := by
  rw [proper.piece_placementAfter consistent (by simp) (by simp), piece_landed_eq_some_iff,
    proper.landing_eq_king_iff]

/-- A king that does not move stays where it is. -/
theorem hasKing_of_stays (proper : board.Proper move) (orderly : board.Orderly)
    (has : board.placement.HasKing colour king) (stays : move.source ≠ king) :
    (board.placementAfter move).HasKing colour king := by
  intro square
  rw [proper.king_placementAfter_iff orderly.consistent]
  split
  · next landed =>
    exact iff_of_false (mt (has _).mp stays) (landed ▸ proper.target_ne_king orderly has)
  · rw [← has square]
    refine and_iff_right_of_imp fun found => ?_
    rwa [(has square).mp found]

/-- A king that moves stands on the target. -/
theorem hasKing_of_moves (proper : board.Proper move) (consistent : board.Consistent)
    (has : board.placement.HasKing colour move.source) :
    (board.placementAfter move).HasKing colour move.target := by
  intro square
  rw [proper.king_placementAfter_iff consistent]
  split
  · next landed => exact iff_of_true ((has _).mpr rfl) landed.symm
  · next apart =>
    refine iff_of_false ?_ (Ne.symm apart)
    rintro ⟨stays, found⟩
    exact stays ((has square).mp found).symm

theorem hasKing_play (proper : board.Proper move) (orderly : board.Orderly) (colour : Colour) :
    ∃ king, (board.placementAfter move).HasKing colour king := by
  obtain ⟨king, has⟩ := orderly.king colour
  by_cases moves : move.source = king
  · exact ⟨_, proper.hasKing_of_moves orderly.consistent (moves ▸ has)⟩
  · exact ⟨king, proper.hasKing_of_stays orderly has moves⟩

/-- A recorded pawn has just gone two squares, so that no other pawn was lifted, and the enemy pawns
that stood beside its target still do. -/
theorem beside_play (proper : board.Proper move) {square : Square}
    (recorded : board.enPassantAfter move = some square) :
    pawnBeside (board.placementAfter move) board.turn.other square = true := by
  obtain ⟨kind, mover⟩ := proper.way.exists_mover
  simp only [enPassantAfter, record, movesPawn_of_found mover, Option.ite_none_right_eq_some,
    Bool.and_eq_true, beq_iff_eq, Option.some.injEq] at recorded
  obtain ⟨⟨rfl, two⟩, beside, rfl⟩ := recorded
  obtain ⟨other, rank, file, found⟩ := Placement.pawnBeside_iff.mp beside
  have notTarget : move.target ≠ other := by
    rintro rfl
    simp [Square.filesTo] at file
  have notSource : move.source ≠ other := Placement.ne_of_enemy mover found
  refine Placement.pawnBeside_iff.mpr ⟨other, rank, file, ?_⟩
  rw [placementAfter_of_pawn mover, if_neg (not_isEnPassant_of_leap two), piece_landed,
    if_neg notTarget, if_neg notSource]
  exact found

end Proper

/-- A proper move keeps a board orderly. -/
theorem Orderly.play (orderly : board.Orderly) (proper : board.Proper move)
    (safe : (board.placementAfter move).inCheck board.turn = false) : (board.play move).Orderly where
  consistent := orderly.consistent.play proper.way
  king := proper.hasKing_play orderly
  spared := by
    rwa [← Colour.other_other board.turn] at safe
  home := by
    intro colour wing left
    have left : (board.rightsAfter move).has colour wing = true := left
    simp only [rightsAfter, CastlingRights.has_filter, Bool.and_eq_true, bne_iff_ne] at left
    obtain ⟨right, ⟨stays, _⟩, _⟩ := left
    -- A right that is left belongs to a king that stands at home and has not moved.
    obtain ⟨king, has⟩ := orderly.king colour
    obtain rfl := (has _).mp (orderly.home colour wing right)
    exact (proper.hasKing_of_stays orderly has stays _).mpr rfl
  beside _ recorded := proper.beside_play recorded

end Board

end ChessArbiter
