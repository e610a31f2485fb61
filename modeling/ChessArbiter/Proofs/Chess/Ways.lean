import ChessArbiter.Chess.Legality

/-! # The ways to move

A move that is allowed is one of four: a piece other than a pawn goes to a square that is not held by
its own side, a pawn goes ahead or captures, a king castles, or a pawn captures in passing. `Way` keeps
of each what the laws about boards need; it says nothing about checks.
-/

namespace ChessArbiter

theorem Colour.ne_other (colour : Colour) : colour ≠ colour.other := by
  cases colour <;> decide

theorem Colour.eq_or_eq_other (colour side : Colour) : colour = side ∨ colour = side.other := by
  cases colour <;> cases side <;> decide

theorem Piece.own_ne_enemy (side : Colour) (own enemy : Kind) :
    (⟨side, own⟩ : Piece) ≠ ⟨side.other, enemy⟩ :=
  fun same => side.ne_other (congrArg Piece.colour same)

theorem Placement.ne_of_enemy {placement : Placement} {side : Colour} {own enemy : Kind}
    {source target : Square} (friend : placement.piece source = some ⟨side, own⟩)
    (foe : placement.piece target = some ⟨side.other, enemy⟩) : source ≠ target := by
  rintro rfl
  exact Piece.own_ne_enemy _ _ _ (Option.some.inj (friend.symm.trans foe))

namespace Square

theorem nodup_all : all.Nodup := by decide +kernel

theorem ne_of_knightApart {source target : Square} (apart : source.knightApart target = true) :
    source ≠ target := by
  rintro rfl
  simp [knightApart, filesTo, ranksTo] at apart

theorem ranksTo_of_pawnStrikes {colour : Colour} {source target : Square}
    (strikes : pawnStrikes colour source target = true) :
    source.ranksTo target = colour.forward := by
  simp only [pawnStrikes, Bool.and_eq_true, beq_iff_eq] at strikes
  exact strikes.1

end Square

theorem Kind.ne_of_sweeps {kind : Kind} {source target : Square}
    (sweeps : kind.sweeps source target = true) : source ≠ target := by
  rintro rfl
  cases kind <;> simp [Kind.sweeps, Square.onDiagonal, Square.onLine] at sweeps

theorem Placement.ne_of_attacks {placement : Placement} {source target : Square} {piece : Piece}
    (found : placement.piece source = some piece) (notPawn : piece.kind ≠ .pawn)
    (attacks : placement.attacks source target = true) : source ≠ target := by
  simp only [Placement.attacks, found] at attacks
  split at attacks
  · next pawn => exact absurd pawn notPawn
  · exact Square.ne_of_knightApart attacks
  · simp only [Square.adjoins, Bool.and_eq_true, bne_iff_ne] at attacks
    exact attacks.1.1
  · exact Kind.ne_of_sweeps (Bool.and_eq_true_iff.mp attacks).1

namespace Board

theorem castlingWing?_eq_some {colour : Colour} {move : Move} {wing : Wing}
    (castles : castlingWing? colour move = some wing) :
    move.source = colour.kingHome ∧ move.target = ⟨wing.kingTarget, colour.homeRank⟩ := by
  unfold castlingWing? at castles
  split at castles
  · next home =>
    have same := List.find?_some castles
    exact ⟨home, eq_of_beq same⟩
  · cases castles

theorem castling?_eq_some {board : Board} {move : Move} {wing : Wing}
    (castles : board.castling? move = some wing) :
    board.piece move.source = some ⟨board.turn, .king⟩ ∧
      move.source = board.turn.kingHome ∧ move.target = ⟨wing.kingTarget, board.turn.homeRank⟩ := by
  unfold castling? at castles
  split at castles
  · next king => exact ⟨king, castlingWing?_eq_some castles⟩
  · cases castles

/-- How a move moves. -/
inductive Way (board : Board) (move : Move) : Prop
  | piece (piece : Piece) (found : board.piece move.source = some piece)
      (own : piece.colour = board.turn) (notPawn : piece.kind ≠ .pawn)
      (foreign : board.placement.colourAt move.target ≠ some board.turn)
      (plain : move.promotion = none) (moved : move.source ≠ move.target)
      (uncastled : board.castling? move = none)
  | pawn (found : board.piece move.source = some ⟨board.turn, .pawn⟩)
      (foreign : board.placement.colourAt move.target ≠ some board.turn)
      (ahead : move.source.ranksTo move.target = board.turn.forward ∨
        (move.source.rank = board.turn.pawnRank ∧
          move.source.ranksTo move.target = 2 * board.turn.forward))
      (promotes : move.promotion.isSome = (move.target.rank == board.turn.other.homeRank))
  | castling (wing : Wing) (castles : board.castling? move = some wing)
      (right : board.rights.has board.turn wing = true) (plain : move.promotion = none)
  | passing (found : board.piece move.source = some ⟨board.turn, .pawn⟩)
      (recorded : board.enPassant = some ⟨move.target.file, move.source.rank⟩)
      (strikes : Square.pawnStrikes board.turn move.source move.target = true)
      (plain : move.promotion = none)

variable {board : Board} {move : Move}

/-- A king that goes to a square beside it does not castle. -/
theorem castling?_of_adjoins (adjoins : move.source.adjoins move.target = true) :
    board.castling? move = none := by
  cases castles : board.castling? move with
  | none => rfl
  | some wing =>
    obtain ⟨_, home, target⟩ := castling?_eq_some castles
    have apart : board.turn.kingHome.adjoins ⟨wing.kingTarget, board.turn.homeRank⟩ = false := by
      cases board.turn <;> cases wing <;> decide
    rw [home, target, apart] at adjoins
    cases adjoins

/-- Only a king castles. -/
theorem castling?_of_piece {piece : Piece} (found : board.piece move.source = some piece)
    (notKing : piece.kind ≠ .king) : board.castling? move = none := by
  cases castles : board.castling? move with
  | none => rfl
  | some wing =>
    obtain ⟨king, _⟩ := castling?_eq_some castles
    cases found.symm.trans king
    exact absurd rfl notKing

private theorem way_of_advances (found : board.piece move.source = some ⟨board.turn, .pawn⟩)
    (foreign : board.placement.colourAt move.target ≠ some board.turn)
    (moves : board.pawnMoves move = true) : board.Way move := by
  simp only [pawnMoves, Bool.and_eq_true, Bool.or_eq_true, beq_iff_eq] at moves
  obtain ⟨ahead, promotes⟩ := moves
  refine .pawn found foreign ?_ promotes
  rcases ahead with advances | ⟨strikes, _⟩
  · simp only [Board.advances, Bool.and_eq_true, Bool.or_eq_true, beq_iff_eq] at advances
    obtain ⟨_, one | ⟨⟨home, two⟩, _⟩⟩ := advances
    · exact .inl one
    · exact .inr ⟨home, two⟩
  · exact .inl (Square.ranksTo_of_pawnStrikes strikes)

/-- A piece other than a pawn reaches the squares that it strikes at and that its own side does not
hold. -/
theorem reaches_iff {piece : Piece} (found : board.piece move.source = some piece)
    (notPawn : piece.kind ≠ .pawn) : board.reaches move = true ↔
      (piece.colour = board.turn ∧ board.placement.colourAt move.target ≠ some board.turn) ∧
        move.promotion = none ∧ board.placement.attacks move.source move.target = true := by
  simp only [Board.reaches, found, Bool.and_eq_true, beq_iff_eq, bne_iff_ne, Option.isNone_iff_eq_none]

/-- Whatever reaches a square is a piece or a pawn on its way. -/
theorem way_of_reaches (reaches : board.reaches move = true) : board.Way move := by
  unfold Board.reaches at reaches
  split at reaches
  · contradiction
  · next piece found =>
    simp only [Bool.and_eq_true, beq_iff_eq, bne_iff_ne] at reaches
    obtain ⟨⟨own, foreign⟩, reaches⟩ := reaches
    split at reaches
    · next pawn =>
      have isPawn : piece = ⟨board.turn, .pawn⟩ := by rw [← own, ← pawn]
      exact way_of_advances (isPawn ▸ found) foreign reaches
    · next notPawn =>
      simp only [Bool.and_eq_true, Option.isNone_iff_eq_none] at reaches
      obtain ⟨plain, attacks⟩ := reaches
      refine .piece piece found own notPawn foreign plain
        (Placement.ne_of_attacks found notPawn attacks) ?_
      by_cases king : piece.kind = .king
      · have found : board.placement.piece move.source = some piece := found
        simp only [Placement.attacks, found, king] at attacks
        exact castling?_of_adjoins attacks
      · exact castling?_of_piece found king

theorem way_of_castles (castles : board.castles move = true) : board.Way move := by
  simp only [Board.castles, Bool.and_eq_true, Option.any_eq_true, Option.isNone_iff_eq_none] at castles
  obtain ⟨plain, wing, castling, ⟨right, _⟩, _⟩ := castles
  exact .castling wing castling right plain

theorem way_of_passes (passes : board.passes move = true) : board.Way move := by
  simp only [Board.passes, isEnPassant, Bool.and_eq_true, beq_iff_eq,
    Option.isNone_iff_eq_none] at passes
  obtain ⟨⟨found, plain⟩, recorded, strikes⟩ := passes
  exact .passing found recorded strikes plain

/-- A move that is allowed is one of the four ways to move, whatever is known of checks. -/
theorem way_of_allows {close : List Square} (allowed : board.allows close move = true) :
    board.Way move := by
  simp only [allows, allowsPlain, allowsPassing, Bool.or_eq_true, Bool.and_eq_true] at allowed
  rcases allowed with ⟨reaches | ⟨castles, _⟩, _⟩ | ⟨⟨passes, _⟩, _⟩
  · exact way_of_reaches reaches
  · exact way_of_castles castles
  · exact way_of_passes passes

end Board

end ChessArbiter
