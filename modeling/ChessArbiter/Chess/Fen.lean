import ChessArbiter.Text.Blank
import ChessArbiter.Text.Numeral
import ChessArbiter.Chess.Error
import ChessArbiter.Chess.Board

/-! # Boards in Forsyth–Edwards notation

Writing gives four fields: the placement rank by rank from the eighth, the side to move, the castling
rights, and the square of the pawn that may be captured in passing, which is where the pawn stands
and not the square behind it.

Reading cuts the text at single spaces and looks at the first four fields. Ranks need not be
complete: a cursor moves over the board, wrapping around within its rank and from the first rank to
the eighth. In the castling field only the four letters count. Of the last field only the file
counts, and only where a pawn of the side to move stands beside the enemy pawn it points to.
-/

namespace ChessArbiter

namespace Kind

/-- The small letter of a kind of piece. -/
def letter : Kind → Char
  | .pawn => 'p'
  | .knight => 'n'
  | .bishop => 'b'
  | .rook => 'r'
  | .queen => 'q'
  | .king => 'k'

def all : List Kind :=
  [.pawn, .knight, .bishop, .rook, .queen, .king]

end Kind

namespace Piece

/-- The letter of a piece, a capital for a white one. -/
def letter : Piece → Char
  | ⟨.white, kind⟩ => kind.letter.toUpper
  | ⟨.black, kind⟩ => kind.letter

def ofLetter? (letter : Char) : Option Piece :=
  (Kind.all.flatMap fun kind => [Piece.mk .white kind, .mk .black kind]).find?
    fun piece => piece.letter == letter

end Piece

namespace Placement

/-- A count of empty squares as a digit, nothing for none. -/
def writeGap (gap : Nat) : List Char :=
  if gap = 0 then [] else Text.digits gap

/-- One rank: the letters of its pieces, and between them the counts of empty squares. -/
def writeRank : Nat → List (Option Piece) → List Char
  | gap, [] => writeGap gap
  | gap, none :: rest => writeRank (gap + 1) rest
  | gap, some piece :: rest => writeGap gap ++ piece.letter :: writeRank 0 rest

/-- What stands on the squares of a rank, from the first file. -/
def rank (placement : Placement) (rank : Fin 8) : List (Option Piece) :=
  (List.finRange 8).map fun file => placement.piece ⟨file, rank⟩

/-- The ranks from the eighth to the first with slashes between them. -/
def write (placement : Placement) : List Char :=
  ['/'].intercalate ((List.finRange 8).reverse.map fun rank => writeRank 0 (placement.rank rank))

/-- The number of files that a digit from 1 to 8 passes over. -/
def skip? (c : Char) : Option Nat :=
  if '1' ≤ c ∧ c ≤ '8' then some (c.toNat - '0'.toNat) else none

/-- One character of a placement: where the cursor goes and what it leaves behind. -/
def readChar (placement : Placement) (cursor : Square) (c : Char) : Option (Placement × Square) :=
  if c = '/' then some (placement, cursor.nextRank)
  else
    match skip? c with
    | some files => some (placement, cursor.ahead files)
    | none =>
      (Piece.ofLetter? c).map fun piece => (placement.put cursor (some piece), cursor.ahead 1)

/-- The placement that the rest of a field completes. -/
def readFrom (placement : Placement) (cursor : Square) : List Char → Option Placement
  | [] => some placement
  | c :: rest =>
    match readChar placement cursor c with
    | some (placement, cursor) => readFrom placement cursor rest
    | none => none

def read? (field : List Char) : Option Placement :=
  readFrom .empty .upperLeft field

end Placement

namespace Colour

def letter : Colour → Char
  | .white => 'w'
  | .black => 'b'

/-- A colour's letter of either case, and nothing else. -/
def read? : List Char → Option Colour
  | [c] => if c == 'w' || c == 'W' then some .white
    else if c == 'b' || c == 'B' then some .black
    else none
  | _ => none

end Colour

namespace CastlingRights

/-- The letters of the rights that are left, or a dash. -/
def write (rights : CastlingRights) : List Char :=
  let letters :=
    (if rights.whiteKing then ['K'] else []) ++ (if rights.whiteQueen then ['Q'] else []) ++
      (if rights.blackKing then ['k'] else []) ++ (if rights.blackQueen then ['q'] else [])
  if letters.isEmpty then ['-'] else letters

def read (field : List Char) : CastlingRights :=
  ⟨field.contains 'K', field.contains 'Q', field.contains 'k', field.contains 'q'⟩

end CastlingRights

namespace Board

/-- The four fields of a board with single spaces between them. -/
def write (board : Board) : List Char :=
  board.placement.write ++ ' ' :: board.turn.letter :: ' ' :: board.rights.write ++
    ' ' :: (board.enPassant.map (·.name)).getD ['-']

/-- The pawn that an en-passant field points to: its file is given, its rank is the one on which an
enemy pawn lands after two squares. -/
def readEnPassant (placement : Placement) (turn : Colour) (field : List Char) : Option Square :=
  (Square.ofName? field).bind fun square =>
    record placement turn ⟨square.file, turn.other.doubleRank⟩

/-- The board that four fields describe, whether or not it is sound. -/
def ofFields? (placement turn rights enPassant : List Char) : Option Board := do
  let placement ← Placement.read? placement
  let turn ← Colour.read? turn
  return {
    placement := placement
    turn := turn
    rights := .read rights
    enPassant := readEnPassant placement turn enPassant }

/-- The sound board that the first four fields of a text describe. -/
def read? (text : List Char) : Except FenError Board :=
  let board? := match Text.fields text with
    | placement :: turn :: rights :: enPassant :: _ => ofFields? placement turn rights enPassant
    | _ => none
  match board? with
  | some board => if board.isSound then .ok board else .error .unsound
  | none => .error (.malformed (String.ofList text))

end Board

end ChessArbiter
