import ChessArbiter.Proofs.Chess.Replay
import ChessArbiter.Proofs.Chess.Reserve

/-! # How long a game can last

A capture or a pawn move uses up some of the reserve, and in between a game lasts for at most a hundred
moves, since the half-move clock then ends it. So a hundred moves for each unit of the reserve, less
what the clock already shows, bound what is left of a game (`Position.movesLeft`). Each move lowers this
number. The first move from a FEN is the exception: its clock may show a hundred or more before it.
-/

namespace ChessArbiter

namespace Placement

/-- Each piece counts one in the reserve, and a pawn has at most seven ranks before it. -/
theorem reserve_le (placement : Placement) :
    placement.reserve ≤ 7 * placement.countKind .pawn + placement.pieces.length := by
  unfold reserve countKind pieces
  induction Square.all with
  | nil => simp
  | cons square rest ih =>
    rw [List.map_cons, List.sum_cons, List.filterMap_cons, reserveAt]
    cases placement.piece square with
    | none =>
      rw [Option.elim_none, Option.map_none]
      dsimp only
      omega
    | some piece =>
      have most := piece.reserve_le square
      have seven := piece.colour.ranksLeft_le square
      rw [Option.elim_some, Option.map_some]
      dsimp only
      rw [List.length_cons, List.countP_cons]
      by_cases pawn : piece.kind = .pawn
      · rw [pawn, beq_self_eq_true, if_pos rfl]
        omega
      · have single : piece.reserve square = 1 := Piece.reserve_of_notPawn pawn
        omega

end Placement

namespace Position

variable {opening position : Position} {boards : List Board} {move : Move} {request : MoveRequest}

/-- The number of moves that a game can go on for at most, once one move has been made. -/
def movesLeft (position : Position) : Nat :=
  if position.outcome.isSome then 0
  else 100 * position.board.placement.reserve + (100 - position.halfmoveClock)

theorem movesLeft_le (position : Position) :
    position.movesLeft ≤ 100 * (position.board.placement.reserve + 1) := by
  unfold movesLeft
  split <;> omega

/-- A position to which a move has led and that has no outcome has a move, and its half-move clock is
below a hundred. -/
theorem of_undecided_play (undecided : (position.play move).outcome = none) :
    (position.play move).moves ≠ [] ∧ (position.play move).halfmoveClock < 100 := by
  have judged : (position.play move).board.outcome _ (position.play move).halfmoveClock _ = none :=
    undecided
  unfold Board.outcome at judged
  split at judged
  · cases judged
  · next possible =>
    refine ⟨fun stuck => possible (List.isEmpty_iff.mpr stuck), ?_⟩
    split at judged
    · cases judged
    · split at judged
      · cases judged
      · next running => exact Nat.lt_of_not_le running

/-- A move costs one of the moves that are left, and even where the half-move clock has run out no more
than a hundred for each unit of the reserve are left after it. -/
theorem movesLeft_play (consistent : position.board.Consistent) (way : position.board.Way move)
    (undecided : position.outcome = none) :
    (position.play move).movesLeft + 1 ≤ 100 * (position.board.placement.reserve + 1) ∧
      (position.halfmoveClock < 100 → (position.play move).movesLeft + 1 ≤ position.movesLeft) := by
  have spent := Board.reserve_play consistent way
  have before : position.movesLeft =
      100 * position.board.placement.reserve + (100 - position.halfmoveClock) := by
    rw [movesLeft, undecided]
    rfl
  by_cases decided : (position.play move).outcome.isSome = true
  · have none : (position.play move).movesLeft = 0 := if_pos decided
    omega
  · have after : (position.play move).movesLeft =
        100 * (position.play move).board.placement.reserve +
          (100 - (position.play move).halfmoveClock) := if_neg decided
    have clock : (position.play move).halfmoveClock =
        if position.board.irreversible move then 0 else position.halfmoveClock + 1 := rfl
    have board : (position.play move).board = position.board.play move := rfl
    rw [board] at after
    cases irreversible : position.board.irreversible move with
    | true =>
      rw [irreversible, if_pos rfl] at clock spent
      omega
    | false =>
      rw [irreversible, if_neg Bool.false_ne_true] at clock spent
      omega

namespace Game

/-- After a move a game is over, or its half-move clock is below a hundred and it can go on. -/
theorem of_undecided (game : Game opening boards position) (moved : 1 < boards.length)
    (undecided : position.outcome = none) : position.moves ≠ [] ∧ position.halfmoveClock < 100 := by
  cases game with
  | start => exact (Nat.lt_irrefl _ moved).elim
  | move _ accepted =>
    obtain ⟨move, _, played⟩ := exists_of_accepts accepted
    rw [played] at undecided ⊢
    exact of_undecided_play undecided

/-- The moves made and the moves left are no more than a hundred for each unit of the reserve at the
beginning, and another hundred. -/
theorem length_le (opens : opening.Opening) (game : Game opening boards position) :
    boards.length + position.movesLeft ≤ 100 * (opening.board.placement.reserve + 1) + 1 := by
  induction game with
  | start =>
    have left := opening.movesLeft_le
    rw [List.length_singleton]
    omega
  | @move boards position request game accepted ih =>
    obtain ⟨move, allowed, played⟩ := exists_of_accepts accepted
    have undecided : position.outcome = none := by
      rw [accepts, Bool.and_eq_true] at accepted
      exact Option.isNone_iff_eq_none.mp accepted.1
    have consistent := game.consistent opens _ game.board_mem
    obtain ⟨first, later⟩ := movesLeft_play consistent (Board.way_of_allows allowed) undecided
    rw [played, List.length_append, List.length_singleton]
    cases game with
    | start =>
      rw [List.length_singleton]
      omega
    | move earlier before =>
      have begun := List.length_pos_of_mem earlier.board_mem
      have moved := (earlier.move before).of_undecided (by
        rw [List.length_append, List.length_singleton]
        omega) undecided
      have cost := later moved.2
      omega

end Game

/-- From a position at which a game can begin, a sequence of accepted moves has at most a hundred moves
for each piece, seven hundred for each pawn, and a hundred more; none goes on forever. Once a move has
been made, there is a move to be accepted exactly as long as the game has no outcome. -/
theorem Opening.game_ends (opens : opening.Opening) :
    (∀ requests position, opening.follow? requests = some position →
      requests.length ≤ 100 * (7 * opening.board.placement.countKind .pawn +
        opening.board.placement.pieces.length + 1) ∧
      (requests ≠ [] →
        ((∀ request, position.accepts request = false) ↔ position.outcome ≠ none))) ∧
    ∀ requests : Nat → MoveRequest, ∃ n, opening.follow? ((List.range n).map requests) = none := by
  have bounded (requests : List MoveRequest) (position : Position)
      (followed : opening.follow? requests = some position) :
      requests.length ≤ 100 * (7 * opening.board.placement.countKind .pawn +
        opening.board.placement.pieces.length + 1) := by
    obtain ⟨boards, game, counted⟩ := Game.of_follow? followed
    have most := game.length_le opens
    have reserve := opening.board.placement.reserve_le
    omega
  refine ⟨fun requests position followed => ⟨bounded requests position followed, ?_⟩, ?_⟩
  · intro moved
    refine ⟨fun stuck undecided => ?_, not_accepts_of_outcome⟩
    obtain ⟨boards, game, counted⟩ := Game.of_follow? followed
    have begun := List.length_pos_iff.mpr moved
    have possible := (game.of_undecided (by omega) undecided).1
    obtain ⟨request, accepted⟩ := exists_accepted undecided possible
    rw [stuck request] at accepted
    cases accepted
  · intro requests
    refine ⟨100 * (7 * opening.board.placement.countKind .pawn +
      opening.board.placement.pieces.length + 1) + 1, ?_⟩
    apply Option.eq_none_iff_forall_ne_some.mpr
    intro position followed
    have most := bounded _ position followed
    rw [List.length_map, List.length_range] at most
    omega

/-- With one pawn left between two kings a game has at most eleven hundred moves. Here it has one, which
stalemates. -/
theorem Opening.game_ends_of_stalemate :
    ∃ opening position, ofFen? "8/8/8/8/8/6k1/5p2/5K2 b - - 0 1" = .ok opening ∧
      opening.follow? [⟨"g3", "f3", none⟩] = some position ∧
      (∀ requests last, opening.follow? requests = some last → requests.length ≤ 1100) ∧
      position.outcome = some .stalemate ∧ ∀ request, position.accepts request = false := by
  obtain ⟨opening, read, material, judged⟩ : ∃ opening,
      ofFen? "8/8/8/8/8/6k1/5p2/5K2 b - - 0 1" = .ok opening ∧
      7 * opening.board.placement.countKind .pawn + opening.board.placement.pieces.length = 10 ∧
      (opening.follow? [⟨"g3", "f3", none⟩]).map (·.outcome) = some (some .stalemate) :=
    ⟨_, rfl, by decide +kernel, by decide +kernel⟩
  obtain ⟨position, followed, stalemate⟩ := Option.map_eq_some_iff.mp judged
  obtain ⟨ends, -⟩ := Opening.game_ends (.inr ⟨_, read⟩)
  refine ⟨opening, position, read, followed, ?_, stalemate, ?_⟩
  · intro requests last went
    have most := (ends requests last went).1
    rw [material] at most
    exact most
  · refine ((ends _ position followed).2 (List.cons_ne_nil _ _)).mpr ?_
    rw [stalemate]
    exact Option.some_ne_none _

end Position

end ChessArbiter
