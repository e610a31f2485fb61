import ChessArbiter.Chess.Board

/-! # Checks

A king is in check when a piece of the other side strikes at it. The pieces that give check are of two
sorts. Bishops, rooks and queens strike from afar, so that their checks come and go with what stands
between. Knights and pawns strike from near, whatever else stands on the board.
-/

namespace ChessArbiter

namespace Placement

/-- The bishops, rooks and queens that strike at a king of the colour when the blockers stand between
them and not the placement's own pieces. -/
def lineCheckers (placement blockers : Placement) (colour : Colour) : List Square :=
  Square.all.filter fun source =>
    (placement.piece source).any fun piece =>
      piece.colour == colour.other &&
        (placement.squaresOf ⟨colour, .king⟩).any fun king =>
          piece.kind.sweeps source king && blockers.clear source king

/-- The knights and pawns that strike at a king of the colour. -/
def closeCheckers (placement : Placement) (colour : Colour) : List Square :=
  Square.all.filter fun source =>
    [Kind.knight, .pawn].any (fun kind => placement.piece source == some ⟨colour.other, kind⟩) &&
      (placement.squaresOf ⟨colour, .king⟩).any (placement.attacks source)

end Placement

end ChessArbiter
