import Mathlib.Algebra.BigOperators.Group.List.Basic
import Mathlib.Algebra.GroupWithZero.Nat
import ChessArbiter.Proofs.Chess.Consistent

/-! # What cannot be taken back

A capture removes a piece and a pawn only goes ahead. The reserve of a placement counts what is left of
both: one for each piece, and one more for each rank that a pawn still has before it. No move adds to
it, and a capture or a pawn move uses some of it up; therefore no placement from before such a move
occurs again.
-/

namespace ChessArbiter

/-- The ranks that a pawn of the colour has before it. -/
def Colour.ranksLeft (colour : Colour) (square : Square) : Nat :=
  match colour with
  | .white => 7 - square.rank.val
  | .black => square.rank.val

/-- What a piece on a square adds to the reserve. -/
def Piece.reserve (piece : Piece) (square : Square) : Nat :=
  match piece.kind with
  | .pawn => 1 + piece.colour.ranksLeft square
  | _ => 1

namespace Placement

/-- What a square adds to the reserve. -/
def reserveAt (placement : Placement) (square : Square) : Nat :=
  (placement.piece square).elim 0 (·.reserve square)

/-- What is left of captures and pawn moves. -/
def reserve (placement : Placement) : Nat :=
  (Square.all.map placement.reserveAt).sum

end Placement

section Reserve

variable {piece : Piece} {source target square : Square} {colour : Colour} {placement : Placement}
  {content : Option Piece}

theorem Piece.reserve_of_notPawn (notPawn : piece.kind ≠ .pawn) : piece.reserve square = 1 := by
  unfold Piece.reserve
  split
  · next pawn => exact absurd pawn notPawn
  · rfl

theorem Piece.reserve_pawn (colour : Colour) (square : Square) :
    (Piece.mk colour .pawn).reserve square = 1 + colour.ranksLeft square := rfl

theorem Piece.reserve_pos (piece : Piece) (square : Square) : 1 ≤ piece.reserve square := by
  unfold Piece.reserve
  split <;> omega

theorem Colour.ranksLeft_le (colour : Colour) (square : Square) : colour.ranksLeft square ≤ 7 := by
  cases colour <;> simp only [Colour.ranksLeft] <;> omega

theorem Piece.reserve_le (piece : Piece) (square : Square) :
    piece.reserve square ≤ 1 + piece.colour.ranksLeft square := by
  unfold Piece.reserve
  split <;> omega

/-- A pawn that goes ahead has fewer ranks before it. -/
theorem Colour.ranksLeft_lt (ahead : source.ranksTo target = colour.forward ∨
    source.ranksTo target = 2 * colour.forward) :
    colour.ranksLeft target < colour.ranksLeft source := by
  unfold Square.ranksTo at ahead
  cases colour <;> simp only [Colour.forward, Colour.ranksLeft] at ahead ⊢ <;> omega

namespace Placement

theorem reserveAt_put (placement : Placement) (square query : Square) (content : Option Piece) :
    (placement.put square content).reserveAt query =
      if square = query then content.elim 0 (·.reserve query) else placement.reserveAt query := by
  rw [reserveAt, piece_put]
  split <;> rfl

theorem reserveAt_of_found (found : placement.piece square = some piece) :
    placement.reserveAt square = piece.reserve square := by
  rw [reserveAt, found, Option.elim_some]

theorem reserveAt_pos (occupied : (placement.piece square).isSome) :
    1 ≤ placement.reserveAt square := by
  obtain ⟨piece, found⟩ := Option.isSome_iff_exists.mp occupied
  rw [reserveAt_of_found found]
  exact piece.reserve_pos square

/-- Overwriting a square exchanges what it adds to the reserve. -/
theorem reserve_put (placement : Placement) (square : Square) (content : Option Piece) :
    (placement.put square content).reserve + placement.reserveAt square =
      placement.reserve + content.elim 0 (·.reserve square) := by
  have others : (Square.all.erase square).map (placement.put square content).reserveAt =
      (Square.all.erase square).map placement.reserveAt := by
    apply List.map_congr_left
    intro other member
    have differs : other ≠ square := (Square.nodup_all.mem_erase_iff.mp member).1
    rw [reserveAt_put, if_neg differs.symm]
  rw [reserve, reserve, ← List.sum_map_erase _ (Square.mem_all square),
    ← List.sum_map_erase placement.reserveAt (Square.mem_all square), others, reserveAt_put, if_pos rfl]
  omega

theorem reserve_lift_le (placement : Placement) (square : Square) :
    (placement.put square none).reserve ≤ placement.reserve := by
  have exchanged := placement.reserve_put square none
  rw [Option.elim_none] at exchanged
  omega

end Placement

end Reserve

namespace Board

variable {board : Board} {move : Move} {piece : Piece}

/-- Landing takes away what stood on source and target, and adds what lands. -/
theorem reserve_landed (board : Board) (moved : move.source ≠ move.target) :
    (board.landed move).reserve + board.placement.reserveAt move.source +
        board.placement.reserveAt move.target =
      board.placement.reserve + (board.landing move).elim 0 (·.reserve move.target) := by
  have left := board.placement.reserve_put move.source none
  have landed := (board.placement.put move.source none).reserve_put move.target (board.landing move)
  rw [Placement.reserveAt_put, if_neg moved] at landed
  rw [Option.elim_none] at left
  rw [Board.landed]
  omega

/-- A piece other than a pawn counts the same wherever it lands. -/
private theorem reserve_landed_of_single (found : board.piece move.source = some piece)
    (notPawn : piece.kind ≠ .pawn) (plain : move.promotion = none)
    (moved : move.source ≠ move.target) :
    (board.landed move).reserve + board.placement.reserveAt move.target =
      board.placement.reserve := by
  have exchanged := board.reserve_landed moved
  have left : board.placement.reserveAt move.source = 1 := by
    rw [Placement.reserveAt_of_found found, Piece.reserve_of_notPawn notPawn]
  have added : (board.landing move).elim 0 (·.reserve move.target) = 1 := by
    rw [landing, found, plain, Option.map_some, Option.elim_some]
    exact Piece.reserve_of_notPawn notPawn
  omega

/-- A capture takes something from the target. -/
private theorem captured_le (still : board.movesPawn move = false) :
    (if board.irreversible move then 1 else 0) ≤ board.placement.reserveAt move.target := by
  rw [irreversible, still, Bool.false_or]
  split
  · next occupied => exact Placement.reserveAt_pos occupied
  · exact Nat.zero_le _

private theorem reserve_piece (found : board.piece move.source = some piece)
    (notPawn : piece.kind ≠ .pawn) (plain : move.promotion = none)
    (moved : move.source ≠ move.target) (uncastled : board.castling? move = none) :
    (board.placementAfter move).reserve + (if board.irreversible move then 1 else 0) ≤
      board.placement.reserve := by
  have kept := reserve_landed_of_single found notPawn plain moved
  have captured := captured_le (movesPawn_of_notPawn found notPawn)
  rw [placementAfter_of_piece found notPawn uncastled]
  omega

/-- The rook that castles is counted before and after. -/
private theorem reserve_castling (consistent : board.Consistent) {wing : Wing}
    (castles : board.castling? move = some wing)
    (right : board.rights.has board.turn wing = true) (plain : move.promotion = none) :
    (board.placementAfter move).reserve + (if board.irreversible move then 1 else 0) ≤
      board.placement.reserve := by
  obtain ⟨king, home, arrives⟩ := castling?_eq_some castles
  have moved : move.source ≠ move.target := by
    rw [home, arrives]
    cases board.turn <;> cases wing <;> decide
  have kept := reserve_landed_of_single king nofun plain moved
  have captured := captured_le (movesPawn_of_notPawn king nofun)
  have rook : (board.landed move).piece (board.turn.rookHome wing) = some ⟨board.turn, .rook⟩ := by
    rw [piece_landed, if_neg, if_neg, consistent.rooks _ _ right]
    · rw [home]
      cases board.turn <;> cases wing <;> decide
    · rw [arrives]
      cases board.turn <;> cases wing <;> decide
  have lifted := (board.landed move).reserve_put (board.turn.rookHome wing) none
  have crossed := ((board.landed move).put (board.turn.rookHome wing) none).reserve_put
    ⟨wing.rookTarget, board.turn.homeRank⟩ (some ⟨board.turn, .rook⟩)
  have single (square : Square) : (Piece.mk board.turn .rook).reserve square = 1 := rfl
  rw [Placement.reserveAt_of_found rook, single, Option.elim_none] at lifted
  rw [Option.elim_some, single] at crossed
  rw [placementAfter_of_castling castles]
  omega

/-- A pawn that lands counts no more than one on that square, promoted or not. -/
private theorem landing_le (found : board.piece move.source = some ⟨board.turn, .pawn⟩)
    (foreign : board.placement.colourAt move.target ≠ some board.turn) :
    (board.landing move).elim 0 (·.reserve move.target) ≤
      1 + board.turn.ranksLeft move.target := by
  rw [landing_of_foreign found foreign]
  exact Piece.reserve_le _ _

private theorem reserve_pawn (found : board.piece move.source = some ⟨board.turn, .pawn⟩)
    (foreign : board.placement.colourAt move.target ≠ some board.turn)
    (ahead : move.source.ranksTo move.target = board.turn.forward ∨
      move.source.ranksTo move.target = 2 * board.turn.forward) :
    (board.placementAfter move).reserve < board.placement.reserve := by
  have fewer := Colour.ranksLeft_lt ahead
  have moved : move.source ≠ move.target := by
    intro same
    rw [same] at fewer
    exact Nat.lt_irrefl _ fewer
  have exchanged := board.reserve_landed moved
  have added := landing_le found foreign
  have lower : (board.placementAfter move).reserve ≤ (board.landed move).reserve := by
    rw [placementAfter_of_pawn found]
    split
    · exact (board.landed move).reserve_lift_le _
    · exact Nat.le_refl _
  rw [Placement.reserveAt_of_found found, Piece.reserve_pawn] at exchanged
  omega

/-- The pawn that is captured in passing is neither where the capture begins nor where it ends. -/
private theorem ne_of_passing {colour : Colour}
    (strikes : Square.pawnStrikes colour move.source move.target = true) :
    move.source ≠ ⟨move.target.file, move.source.rank⟩ ∧
      move.target ≠ ⟨move.target.file, move.source.rank⟩ := by
  simp only [Square.pawnStrikes, Square.filesTo, Square.ranksTo, Bool.and_eq_true, beq_iff_eq] at strikes
  obtain ⟨ranks, files⟩ := strikes
  constructor
  · intro same
    rw [← congrArg Square.file same] at files
    omega
  · intro same
    rw [congrArg Square.rank same] at ranks
    cases colour <;> simp only [Colour.forward] at ranks <;> omega

/-- A capture in passing may turn the pawn into one of the other side, which then has more ranks before
it. The pawn beside it that is captured makes up for them. -/
private theorem reserve_passing (consistent : board.Consistent)
    (found : board.piece move.source = some ⟨board.turn, .pawn⟩)
    (recorded : board.enPassant = some ⟨move.target.file, move.source.rank⟩)
    (strikes : Square.pawnStrikes board.turn move.source move.target = true) :
    (board.placementAfter move).reserve < board.placement.reserve := by
  obtain ⟨_, passed⟩ := consistent.passer _ recorded
  have passes : board.isEnPassant move = true := by
    rw [isEnPassant, recorded, strikes, beq_self_eq_true, Bool.true_and]
  obtain ⟨notSource, notTarget⟩ := ne_of_passing strikes
  have there : (board.landed move).piece ⟨move.target.file, move.source.rank⟩ =
      some ⟨board.turn.other, .pawn⟩ := by
    rw [piece_landed, if_neg notTarget, if_neg notSource, passed]
  have moved : move.source ≠ move.target := by
    intro same
    exact notTarget (by rw [← same])
  have exchanged := board.reserve_landed moved
  have lifted := (board.landed move).reserve_put ⟨move.target.file, move.source.rank⟩ none
  have added : (board.landing move).elim 0 (·.reserve move.target) ≤ 8 := by
    cases board.landing move with
    | none => exact Nat.zero_le _
    | some piece =>
      have most := piece.reserve_le move.target
      have seven := piece.colour.ranksLeft_le move.target
      rw [Option.elim_some]
      omega
  have nine : board.turn.ranksLeft move.source +
      board.turn.other.ranksLeft ⟨move.target.file, move.source.rank⟩ = 7 := by
    cases board.turn <;> simp only [Colour.other, Colour.ranksLeft] <;> omega
  rw [Placement.reserveAt_of_found found, Piece.reserve_pawn] at exchanged
  rw [Placement.reserveAt_of_found there, Piece.reserve_pawn, Option.elim_none] at lifted
  rw [placementAfter_of_pawn found, if_pos passes]
  omega

/-- No move adds to the reserve, and one that cannot be taken back uses some of it up. -/
theorem reserve_play (consistent : board.Consistent) (way : board.Way move) :
    (board.play move).placement.reserve + (if board.irreversible move then 1 else 0) ≤
      board.placement.reserve := by
  have spent : (if board.irreversible move then 1 else 0) ≤ 1 := by split <;> omega
  have fewer {after : Nat} (less : after < board.placement.reserve) :
      after + (if board.irreversible move then 1 else 0) ≤ board.placement.reserve := by omega
  cases way with
  | piece piece found _ notPawn _ plain moved uncastled =>
    exact reserve_piece found notPawn plain moved uncastled
  | pawn found foreign ahead _ =>
    exact fewer (reserve_pawn found foreign (ahead.imp_right And.right))
  | castling wing castles right plain => exact reserve_castling consistent castles right plain
  | passing found recorded strikes _ => exact fewer (reserve_passing consistent found recorded strikes)

end Board

end ChessArbiter
