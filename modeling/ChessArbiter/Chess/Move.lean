import ChessArbiter.Chess.Board

/-! # Moves

There are three ways to move: a piece reaches the target in its own way, a king castles, or a pawn
captures in passing. What a move does to the board is the same for all of them, and whether it leaves
the king in check is not asked here.
-/

namespace ChessArbiter

/-- The kinds of piece into which a pawn promotes. -/
inductive Promotion where
  | queen
  | rook
  | bishop
  | knight
deriving DecidableEq

namespace Promotion

def all : List Promotion :=
  [.queen, .rook, .bishop, .knight]

theorem mem_all (promotion : Promotion) : promotion ∈ all := by
  cases promotion <;> decide

def kind : Promotion → Kind
  | .queen => .queen
  | .rook => .rook
  | .bishop => .bishop
  | .knight => .knight

def letter : Promotion → Char
  | .queen => 'q'
  | .rook => 'r'
  | .bishop => 'b'
  | .knight => 'n'

end Promotion

structure Move where
  source : Square
  target : Square
  promotion : Option Promotion
deriving DecidableEq

/-- All moves that begin on a square, possible or not. -/
def Move.allFrom (source : Square) : List Move :=
  Square.all.flatMap fun target =>
    (none :: Promotion.all.map some).map fun promotion => ⟨source, target, promotion⟩

theorem Move.mem_allFrom {move : Move} {source : Square} :
    move ∈ Move.allFrom source ↔ move.source = source := by
  simp only [allFrom, List.mem_flatMap, List.mem_map]
  constructor
  · rintro ⟨target, _, promotion, _, rfl⟩
    rfl
  · rintro rfl
    obtain ⟨source, target, promotion⟩ := move
    refine ⟨target, Square.mem_all target, promotion, ?_, rfl⟩
    cases promotion with
    | none => simp
    | some promotion => simp [Promotion.mem_all]

namespace Board

/-- What stands on a square. -/
def piece (board : Board) (square : Square) : Option Piece :=
  board.placement.piece square

/-- A pawn's move ahead, by one square or from its home rank by two, onto empty squares. -/
def advances (board : Board) (move : Move) : Bool :=
  move.source.file == move.target.file &&
    (board.piece move.target).isNone &&
    (move.source.ranksTo move.target == board.turn.forward ||
      (move.source.rank == board.turn.pawnRank &&
        move.source.ranksTo move.target == 2 * board.turn.forward &&
        board.placement.clear move.source move.target))

/-- A pawn's move ahead, or its capture of what stands on the target. It promotes exactly when it
reaches the last rank. -/
def pawnMoves (board : Board) (move : Move) : Bool :=
  (board.advances move ||
    (Square.pawnStrikes board.turn move.source move.target &&
      board.placement.colourAt move.target == some board.turn.other)) &&
  move.promotion.isSome == (move.target.rank == board.turn.other.homeRank)

/-- The piece on the source is of the side to move, moves that way, and does not land on its own side.
Castling and capturing in passing are apart. -/
def reaches (board : Board) (move : Move) : Bool :=
  match board.piece move.source with
  | none => false
  | some piece =>
    piece.colour == board.turn && board.placement.colourAt move.target != some board.turn &&
      match piece.kind with
      | .pawn => board.pawnMoves move
      | _ => move.promotion.isNone && board.placement.attacks move.source move.target

/-- The recorded pawn stands beside the source, and a pawn that strikes at the target passes it. -/
def isEnPassant (board : Board) (move : Move) : Bool :=
  board.enPassant == some ⟨move.target.file, move.source.rank⟩ &&
    Square.pawnStrikes board.turn move.source move.target

/-- A pawn of the side to move captures the recorded pawn in passing, whatever stands on the
target. -/
def passes (board : Board) (move : Move) : Bool :=
  board.piece move.source == some ⟨board.turn, .pawn⟩ && move.promotion.isNone &&
    board.isEnPassant move

/-- The wing on which a king's move castles, where it is such a move from the king's home square. -/
def castlingWing? (colour : Colour) (move : Move) : Option Wing :=
  if move.source = colour.kingHome then
    [Wing.king, .queen].find? fun wing => move.target == ⟨wing.kingTarget, colour.homeRank⟩
  else none

/-- The piece on the source is a king that castles. -/
def castling? (board : Board) (move : Move) : Option Wing :=
  if board.piece move.source = some ⟨board.turn, .king⟩ then castlingWing? board.turn move else none

/-- Castling: the right is there, nothing stands between king and rook, and the square over which the
king passes is not attacked. -/
def castles (board : Board) (move : Move) : Bool :=
  move.promotion.isNone && (board.castling? move).any fun wing =>
    board.rights.has board.turn wing &&
      board.placement.clear move.source (board.turn.rookHome wing) &&
      !board.placement.attackedBy board.turn.other ⟨wing.rookTarget, board.turn.homeRank⟩

/-- The piece on the source is a pawn. -/
def movesPawn (board : Board) (move : Move) : Bool :=
  (board.piece move.source).any (·.kind == .pawn)

/-- What lands on the target: the piece on the source, promoted where it promotes. One that lands on a
piece of its own side, as only a capture in passing can, goes over to the other side. -/
def landing (board : Board) (move : Move) : Option Piece :=
  (board.piece move.source).map fun piece =>
    { colour :=
        if board.placement.colourAt move.target = some piece.colour then piece.colour.other
        else piece.colour
      kind := (move.promotion.map (·.kind)).getD piece.kind }

/-- The placement when the piece has left its square and landed, and nothing else has changed. -/
def landed (board : Board) (move : Move) : Placement :=
  (board.placement.put move.source none).put move.target (board.landing move)

/-- The placement after a move: the piece has landed; a pawn captured in passing is lifted; a castling
rook crosses over. -/
def placementAfter (board : Board) (move : Move) : Placement :=
  let lifted :=
    if board.movesPawn move && board.isEnPassant move then
      (board.landed move).put ⟨move.target.file, move.source.rank⟩ none
    else board.landed move
  match board.castling? move with
  | none => lifted
  | some wing =>
    (lifted.put (board.turn.rookHome wing) none).put ⟨wing.rookTarget, board.turn.homeRank⟩
      (some ⟨board.turn, .rook⟩)

/-- The rights after a move: those whose king and rook have not left home and not been captured. -/
def rightsAfter (board : Board) (move : Move) : CastlingRights :=
  board.rights.filter fun colour wing =>
    move.source != colour.kingHome && move.source != colour.rookHome wing &&
      move.target != colour.rookHome wing

/-- The pawn that may be captured in passing after a move: one that has moved two squares and has an
enemy pawn beside it. -/
def enPassantAfter (board : Board) (move : Move) : Option Square :=
  if board.movesPawn move && (move.source.ranksTo move.target).natAbs == 2 then
    record board.placement board.turn.other move.target
  else none

/-- The board after a move. -/
def play (board : Board) (move : Move) : Board :=
  { placement := board.placementAfter move
    turn := board.turn.other
    rights := board.rightsAfter move
    enPassant := board.enPassantAfter move }

theorem colourAt_of_reaches {board : Board} {move : Move} (reaches : board.reaches move = true) :
    board.placement.colourAt move.source = some board.turn := by
  unfold Board.reaches at reaches
  split at reaches
  · contradiction
  · next piece found =>
    simp only [Bool.and_eq_true, beq_iff_eq] at reaches
    rw [Placement.colourAt, ← Board.piece, found, Option.map_some, reaches.1.1]

theorem colourAt_of_passes {board : Board} {move : Move} (passes : board.passes move = true) :
    board.placement.colourAt move.source = some board.turn := by
  simp only [Board.passes, Bool.and_eq_true, beq_iff_eq] at passes
  rw [Placement.colourAt, ← Board.piece, passes.1.1, Option.map_some]

theorem colourAt_of_castles {board : Board} {move : Move} (castles : board.castles move = true) :
    board.placement.colourAt move.source = some board.turn := by
  simp only [Board.castles, Bool.and_eq_true, Option.any_eq_true] at castles
  obtain ⟨_, wing, found, _⟩ := castles
  simp only [Board.castling?] at found
  split at found
  · next king => rw [Placement.colourAt, ← Board.piece, king, Option.map_some]
  · contradiction

end Board

end ChessArbiter
