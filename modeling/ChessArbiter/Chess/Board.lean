import ChessArbiter.Chess.Square

/-! # Boards

A placement says what stands on each square. A board adds what else decides the moves that are
possible: the side to move, the castling rights, and the pawn that may be captured in passing, which
is recorded only where an enemy pawn stands beside it. Two boards are equal exactly when all of this
is, which is the sense in which a position repeats.
-/

namespace ChessArbiter

inductive Kind where
  | pawn
  | knight
  | bishop
  | rook
  | queen
  | king
deriving DecidableEq

/-- A piece of the kind moves any distance along a line or a diagonal, and the two squares lie on one
of those. -/
def Kind.sweeps : Kind → Square → Square → Bool
  | .bishop, source, target => source.onDiagonal target
  | .rook, source, target => source.onLine target
  | .queen, source, target => source.onDiagonal target || source.onLine target
  | _, _, _ => false

structure Piece where
  colour : Colour
  kind : Kind
deriving DecidableEq

/-- What stands on each square, in the order of `Square.index`. -/
structure Placement where
  cells : Vector (Option Piece) 64
deriving DecidableEq

namespace Placement

def empty : Placement :=
  ⟨Vector.replicate 64 none⟩

/-- What stands on a square. -/
def piece (placement : Placement) (square : Square) : Option Piece :=
  placement.cells[square.index]

/-- The placement with one square overwritten. -/
def put (placement : Placement) (square : Square) (content : Option Piece) : Placement :=
  ⟨placement.cells.set square.index content⟩

theorem piece_put (placement : Placement) (square query : Square) (content : Option Piece) :
    (placement.put square content).piece query =
      if square = query then content else placement.piece query := by
  simp only [put, piece, Fin.getElem_fin, Vector.getElem_set]
  by_cases same : square = query
  · rw [if_pos same, if_pos (congrArg (fun square => square.index.val) same)]
  · rw [if_neg same, if_neg fun equal => same (Square.index_inj (Fin.eq_of_val_eq equal))]

/-- The colour of what stands on a square. -/
def colourAt (placement : Placement) (square : Square) : Option Colour :=
  (placement.piece square).map (·.colour)

/-- Nothing stands between two squares of a common line or diagonal. -/
def clear (placement : Placement) (source target : Square) : Bool :=
  (source.between target).all fun square => (placement.piece square).isNone

/-- What stands on the first square strikes at the second. -/
def attacks (placement : Placement) (source target : Square) : Bool :=
  match placement.piece source with
  | none => false
  | some piece =>
    match piece.kind with
    | .pawn => Square.pawnStrikes piece.colour source target
    | .knight => source.knightApart target
    | .king => source.adjoins target
    | kind => kind.sweeps source target && placement.clear source target

/-- Some piece of the colour strikes at the square. -/
def attackedBy (placement : Placement) (colour : Colour) (target : Square) : Bool :=
  Square.all.any fun source =>
    placement.colourAt source == some colour && placement.attacks source target

/-- A king of the colour is attacked. -/
def inCheck (placement : Placement) (colour : Colour) : Bool :=
  Square.all.any fun square =>
    placement.piece square == some ⟨colour, .king⟩ && placement.attackedBy colour.other square

/-- The squares on which exactly this piece stands. -/
def squaresOf (placement : Placement) (piece : Piece) : List Square :=
  Square.all.filter fun square => placement.piece square == some piece

/-- All pieces with their squares. -/
def pieces (placement : Placement) : List (Square × Piece) :=
  Square.all.filterMap fun square => (placement.piece square).map fun piece => (square, piece)

end Placement

/-- The castlings that neither the king nor the rook has forgone by moving. -/
structure CastlingRights where
  whiteKing : Bool
  whiteQueen : Bool
  blackKing : Bool
  blackQueen : Bool
deriving DecidableEq

namespace CastlingRights

def has (rights : CastlingRights) : Colour → Wing → Bool
  | .white, .king => rights.whiteKing
  | .white, .queen => rights.whiteQueen
  | .black, .king => rights.blackKing
  | .black, .queen => rights.blackQueen

/-- The rights that the given test leaves. -/
def filter (rights : CastlingRights) (keeps : Colour → Wing → Bool) : CastlingRights :=
  { whiteKing := rights.whiteKing && keeps .white .king
    whiteQueen := rights.whiteQueen && keeps .white .queen
    blackKing := rights.blackKing && keeps .black .king
    blackQueen := rights.blackQueen && keeps .black .queen }

theorem has_filter (rights : CastlingRights) (keeps : Colour → Wing → Bool) (colour : Colour)
    (wing : Wing) :
    (rights.filter keeps).has colour wing = (rights.has colour wing && keeps colour wing) := by
  cases colour <;> cases wing <;> rfl

end CastlingRights

structure Board where
  placement : Placement
  turn : Colour
  rights : CastlingRights
  /-- The square of the pawn that has just moved two squares and may be captured in passing. -/
  enPassant : Option Square
deriving DecidableEq

namespace Board

/-- A pawn of the colour stands beside the square on the same rank. -/
def pawnBeside (placement : Placement) (colour : Colour) (square : Square) : Bool :=
  Square.all.any fun other =>
    other.rank == square.rank && (square.filesTo other).natAbs == 1 &&
      placement.piece other == some ⟨colour, .pawn⟩

/-- The pawn on a square, recorded only if a pawn of the given colour stands beside it. -/
def record (placement : Placement) (capturer : Colour) (square : Square) : Option Square :=
  if pawnBeside placement capturer square then some square else none

/-- Nothing on the board contradicts the rules: each side has one king, the kings do not touch, the
side that has moved is not in check, castling rights have their king and rook at home, and the
recorded pawn is an enemy pawn. -/
def isSound (board : Board) : Bool :=
  (board.placement.squaresOf ⟨.white, .king⟩).length == 1 &&
  (board.placement.squaresOf ⟨.black, .king⟩).length == 1 &&
  board.enPassant.all (fun square =>
    board.placement.piece square == some ⟨board.turn.other, .pawn⟩) &&
  !board.placement.inCheck board.turn.other &&
  [Colour.white, .black].all (fun colour => [Wing.king, .queen].all fun wing =>
    !board.rights.has colour wing ||
      (board.placement.piece (colour.rookHome wing) == some ⟨colour, .rook⟩ &&
        board.placement.piece colour.kingHome == some ⟨colour, .king⟩)) &&
  (board.placement.squaresOf ⟨.white, .king⟩).all fun white =>
    (board.placement.squaresOf ⟨.black, .king⟩).all fun black => !white.adjoins black

end Board

end ChessArbiter
