import ChessArbiter.Proofs.Chess.Game
import ChessArbiter.Proofs.Chess.Reserve

/-! # Repetition

A position remembers the boards since the last capture or pawn move and forgets those before. It misses
no repetition by that: the reserve of a forgotten board is larger than that of every board to come, so
that none of them repeats it.
-/

namespace ChessArbiter

namespace Board

variable {board earlier : Board} {move : Move} {close : List Square} {halfmoveClock : Nat}
  {repetitions : List Board}

/-- The same pieces on the same squares, the same side to move, the same rights, and a pawn that may be
captured in passing on the same file. -/
def repeats (board earlier : Board) : Bool :=
  board.placement == earlier.placement && board.turn == earlier.turn &&
    board.rights == earlier.rights &&
    board.enPassant.map (·.file) == earlier.enPassant.map (·.file)

/-- The side to move tells on which rank the recorded pawn stands. -/
theorem Consistent.enPassant_eq (consistent : board.Consistent) :
    board.enPassant =
      (board.enPassant.map (·.file)).map fun file => ⟨file, board.turn.other.doubleRank⟩ := by
  cases recorded : board.enPassant with
  | none => rfl
  | some square =>
    obtain ⟨rank, _⟩ := consistent.passer square recorded
    rw [Option.map_some, Option.map_some, ← rank]

theorem repeats_iff (consistent : board.Consistent) (before : earlier.Consistent) :
    board.repeats earlier = true ↔ board = earlier := by
  constructor
  · intro same
    simp only [repeats, Bool.and_eq_true, beq_iff_eq] at same
    obtain ⟨⟨⟨placement, turn⟩, rights⟩, file⟩ := same
    have passer : board.enPassant = earlier.enPassant := by
      rw [consistent.enPassant_eq, before.enPassant_eq, file, turn]
    cases board
    cases earlier
    simp_all only
  · rintro rfl
    simp only [repeats, beq_self_eq_true, Bool.and_self]

/-- A board with less in reserve repeats none with more. -/
theorem not_repeats_of_reserve (less : board.placement.reserve < earlier.placement.reserve) :
    board.repeats earlier = false := by
  apply Bool.eq_false_iff.mpr
  intro same
  simp only [repeats, Bool.and_eq_true, beq_iff_eq] at same
  rw [same.1.1.1] at less
  exact Nat.lt_irrefl _ less

theorem outcome_eq_threefold_iff :
    board.outcome close halfmoveClock repetitions = some .threefoldRepetition ↔
      board.moves close ≠ [] ∧ board.placement.insufficientMaterial = false ∧ halfmoveClock < 100 ∧
        3 ≤ repetitions.count board := by
  unfold outcome
  split
  · next stuck =>
    refine iff_of_false ?_ fun judged => judged.1 (List.isEmpty_iff.mp stuck)
    split <;> nofun
  · next moves =>
    have moves : board.moves close ≠ [] := fun stuck => moves (List.isEmpty_iff.mpr stuck)
    split
    · next insufficient => simp [insufficient]
    · next sufficient =>
      split
      · next expired =>
        refine iff_of_false nofun fun judged => ?_
        omega
      · next running =>
        have clock : halfmoveClock < 100 := Nat.lt_of_not_le running
        split
        · next repeated => simp [moves, sufficient, clock, repeated]
        · next rare => simp [rare]

end Board

namespace Position

variable {opening position : Position} {boards : List Board} {move : Move}

/-- The boards of a game end with those that the position remembers. None of them has less in reserve
than the present one, and those that are forgotten have more. -/
structure Remembers (boards : List Board) (position : Position) : Prop where
  least : ∀ board ∈ boards, position.board.placement.reserve ≤ board.placement.reserve
  forgotten : ∃ forgotten, boards = forgotten ++ position.repetitions ∧
    ∀ board ∈ forgotten, position.board.placement.reserve < board.placement.reserve

namespace Remembers

theorem play (remembers : Remembers boards position) (consistent : position.board.Consistent)
    (way : position.board.Way move) :
    Remembers (boards ++ [(position.play move).board]) (position.play move) := by
  have spent := Board.reserve_play consistent way
  have fewer : (position.play move).board.placement.reserve ≤ position.board.placement.reserve :=
    Nat.le_of_add_right_le spent
  constructor
  · intro board member
    rcases List.mem_append.mp member with before | now
    · exact Nat.le_trans fewer (remembers.least board before)
    · exact Nat.le_of_eq (by rw [List.mem_singleton.mp now])
  · cases irreversible : position.board.irreversible move with
    | true =>
      rw [irreversible, if_pos rfl] at spent
      refine ⟨boards, ?_, fun board before => ?_⟩
      · simp only [Position.play, irreversible, if_true, List.nil_append]
      · exact Nat.lt_of_lt_of_le spent (remembers.least board before)
    | false =>
      obtain ⟨forgotten, split, more⟩ := remembers.forgotten
      refine ⟨forgotten, ?_, fun board before => ?_⟩
      · simp only [Position.play, irreversible, Bool.false_eq_true, if_false, split,
          List.append_assoc]
      · exact Nat.lt_of_le_of_lt fewer (more board before)

/-- The present board occurs as often among the boards that are remembered as in the whole game. -/
theorem countP_repeats (remembers : Remembers boards position)
    (consistent : ∀ board ∈ boards, board.Consistent) (present : position.board.Consistent) :
    boards.countP position.board.repeats = position.repetitions.count position.board := by
  obtain ⟨forgotten, split, more⟩ := remembers.forgotten
  have none : forgotten.countP position.board.repeats = 0 := by
    apply List.countP_eq_zero.mpr
    intro board before
    rw [Board.not_repeats_of_reserve (more board before)]
    exact Bool.false_ne_true
  rw [split, List.countP_append, none, Nat.zero_add, List.count]
  apply List.countP_congr
  intro board member
  have known : board.Consistent :=
    consistent board (split ▸ List.mem_append_right forgotten member)
  rw [Board.repeats_iff present known, beq_iff_eq, eq_comm]

end Remembers

/-- A game forgets only boards that cannot recur. -/
theorem Game.remembers (opens : opening.Opening) (game : Game opening boards position) :
    Remembers boards position := by
  induction game with
  | start =>
    obtain ⟨board, _, _, rfl, _⟩ := opens.eq_ofBoard
    refine ⟨fun other member => ?_, [], rfl, nofun⟩
    exact Nat.le_of_eq (by rw [List.mem_singleton.mp member])
  | move game accepted ih =>
    obtain ⟨move, allowed, played⟩ := exists_of_accepts accepted
    rw [played]
    exact ih.play (game.consistent opens _ game.board_mem) (Board.way_of_allows allowed)

/-- A game that has just come to a position has the outcome of threefold repetition exactly if its side
to move has a move, neither material nor clock has ended it, and the position has occurred three times
in the whole game. -/
theorem Game.repetition_iff (opens : opening.Opening)
    (game : Game opening boards position) :
    position.outcome = some .threefoldRepetition ↔
      position.moves ≠ [] ∧ position.board.placement.insufficientMaterial = false ∧
        position.halfmoveClock < 100 ∧ 3 ≤ boards.countP position.board.repeats := by
  have counted := (game.remembers opens).countP_repeats (game.consistent opens)
    (game.consistent opens _ game.board_mem)
  rw [counted]
  cases game with
  | start =>
    obtain ⟨board, _, _, rfl, _⟩ := opens.eq_ofBoard
    have once : [board].count board ≤ 1 := List.count_le_length
    refine iff_of_false nofun fun ⟨_, _, _, repeated⟩ => ?_
    have repeated : 3 ≤ [board].count board := repeated
    omega
  | move _ accepted =>
    obtain ⟨move, _, played⟩ := exists_of_accepts accepted
    rw [played]
    exact Board.outcome_eq_threefold_iff

/-- Both sides bring a knight out and home again, twice: the opening board has occurred three times. -/
theorem Game.repetition_of_knights :
    ∃ boards position, Game .start boards position ∧
      position.outcome = some .threefoldRepetition ∧ 3 ≤ boards.countP position.board.repeats := by
  have game : Game .start _ _ := .start
  have game := @Game.move _ _ _ ⟨"g1", "f3", none⟩ game (by decide +kernel)
  have game := @Game.move _ _ _ ⟨"g8", "f6", none⟩ game (by decide +kernel)
  have game := @Game.move _ _ _ ⟨"f3", "g1", none⟩ game (by decide +kernel)
  have game := @Game.move _ _ _ ⟨"f6", "g8", none⟩ game (by decide +kernel)
  have game := @Game.move _ _ _ ⟨"g1", "f3", none⟩ game (by decide +kernel)
  have game := @Game.move _ _ _ ⟨"g8", "f6", none⟩ game (by decide +kernel)
  have game := @Game.move _ _ _ ⟨"f3", "g1", none⟩ game (by decide +kernel)
  have game := @Game.move _ _ _ ⟨"f6", "g8", none⟩ game (by decide +kernel)
  have judged := Game.repetition_iff (.inl rfl) game
  have drawn := judged.mpr (by decide +kernel)
  exact ⟨_, _, game, drawn, (judged.mp drawn).2.2.2⟩

end Position

end ChessArbiter
