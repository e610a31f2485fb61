import ChessArbiter.Chess.Check
import ChessArbiter.Chess.Move

/-! # Legal moves

`Board.legal` is the rule of chess: a move is possible, and afterwards its king is not attacked.

The arbiter allows a move by the checks that it knows of. Checks along lines it finds on the board. A
knight or a pawn is known to give check from the move with which it does so until the next move; these
are the close checkers, which belong to a game and not to a board. A king goes where nothing attacks
it. Any other piece leaves no line open to its king and captures the close checkers. A capture in
passing is judged by the lines alone, so that it may leave the king attacked by a knight or a pawn.

`Board.moves` lists the moves that are allowed; `mem_moves` says that it misses none. A pawn that
captures both a piece on the target and the recorded pawn has its move listed twice, once for each way
of capturing.
-/

namespace ChessArbiter

namespace Board

/-- A move by the rules of chess: the piece reaches the target, castles while it is not in check, or
captures in passing onto an empty square, and afterwards its king is not attacked. -/
def legal (board : Board) (move : Move) : Bool :=
  (board.reaches move ||
    (board.castles move && !board.placement.inCheck board.turn) ||
    (board.passes move && (board.piece move.target).isNone)) &&
  !(board.placementAfter move).inCheck board.turn

/-- The pieces that are known to give check. -/
def checkers (board : Board) (close : List Square) : List Square :=
  board.placement.lineCheckers board.placement board.turn ++ close

/-- A knight or a pawn of the side to move that has landed on a square strikes from there at a king of
the other side. -/
def strikesClose (board : Board) (kind : Kind) (landed : Square) : Bool :=
  (board.placement.squaresOf ⟨board.turn.other, .king⟩).any fun king =>
    match kind with
    | .knight => landed.knightApart king
    | .pawn => Square.pawnStrikes board.turn landed king
    | _ => false

/-- The close checker after a move, which can only be the piece that has moved. -/
def closeAfter (board : Board) (move : Move) : List Square :=
  if (board.landing move).any fun piece => board.strikesClose piece.kind move.target then
    [move.target]
  else []

/-- The king is not known to be attacked after the move. Where it moves itself, nothing attacks it;
where another piece moves, no line is open to it and the close checkers are captured. -/
def isSafe (board : Board) (close : List Square) (move : Move) : Bool :=
  if board.piece move.source = some ⟨board.turn, .king⟩ then
    !(board.placementAfter move).inCheck board.turn
  else
    ((board.landed move).lineCheckers (board.landed move) board.turn).isEmpty &&
      close.all (· == move.target)

/-- A move that is allowed and not a capture in passing. -/
def allowsPlain (board : Board) (close : List Square) (move : Move) : Bool :=
  (board.reaches move || (board.castles move && (board.checkers close).isEmpty)) &&
    board.isSafe close move

/-- What blocks the lines after a capture in passing. The pawn on the target does where the target was
empty; where it was not, nothing blocks there any more. -/
def blockersAfterPassing (board : Board) (move : Move) : Placement :=
  let left :=
    (board.placement.put move.source none).put ⟨move.target.file, move.source.rank⟩ none
  left.put move.target
    (if (board.piece move.target).isSome then none else board.piece move.source)

/-- A capture in passing that is allowed. -/
def allowsPassing (board : Board) (close : List Square) (move : Move) : Bool :=
  board.passes move && decide ((board.checkers close).length ≤ 1) &&
    (board.placement.lineCheckers (board.blockersAfterPassing move) board.turn).isEmpty

/-- A move that the arbiter allows. -/
def allows (board : Board) (close : List Square) (move : Move) : Bool :=
  board.allowsPlain close move || board.allowsPassing close move

/-- All moves that begin on a piece of the side to move, possible or not. -/
def candidates (board : Board) : List Move :=
  Square.all.flatMap fun source =>
    if board.placement.colourAt source = some board.turn then Move.allFrom source else []

/-- The moves that the arbiter allows. -/
def moves (board : Board) (close : List Square) : List Move :=
  board.candidates.filter (board.allowsPlain close) ++
    board.candidates.filter (board.allowsPassing close)

theorem mem_candidates {board : Board} {move : Move} :
    move ∈ board.candidates ↔ board.placement.colourAt move.source = some board.turn := by
  simp only [candidates, List.mem_flatMap]
  constructor
  · rintro ⟨source, _, member⟩
    split at member
    · next own => rwa [Move.mem_allFrom.mp member]
    · contradiction
  · intro own
    exact ⟨move.source, Square.mem_all _, by rw [if_pos own]; exact Move.mem_allFrom.mpr rfl⟩

theorem mem_moves {board : Board} {close : List Square} {move : Move} :
    move ∈ board.moves close ↔ board.allows close move = true := by
  simp only [moves, allows, List.mem_append, List.mem_filter, mem_candidates, Bool.or_eq_true]
  constructor
  · rintro (⟨_, plain⟩ | ⟨_, passing⟩)
    · exact .inl plain
    · exact .inr passing
  · rintro (plain | passing)
    · refine .inl ⟨?_, plain⟩
      simp only [allowsPlain, Bool.and_eq_true, Bool.or_eq_true] at plain
      obtain ⟨reaches | ⟨castles, _⟩, _⟩ := plain
      · exact colourAt_of_reaches reaches
      · exact colourAt_of_castles castles
    · refine .inr ⟨?_, passing⟩
      simp only [allowsPassing, Bool.and_eq_true] at passing
      exact colourAt_of_passes passing.1.1

end Board

end ChessArbiter
