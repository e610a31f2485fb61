import ChessArbiter.Proofs.Chess.Consistent

/-! # Games

A game begins at the usual position or at one that a FEN describes, and goes on with moves that are
accepted. Its record holds the boards from the first to the present one; all of them are consistent.
-/

namespace ChessArbiter

namespace Board

variable {board : Board} {text : List Char}

/-- A pawn that was read is on the rank on which a pawn lands after two squares, beside a pawn that may
capture it in passing. -/
theorem recorded_of_readEnPassant {placement : Placement} {turn : Colour} {field : List Char}
    {square : Square} (read : readEnPassant placement turn field = some square) :
    square.rank = turn.other.doubleRank ∧ pawnBeside placement turn square = true := by
  simp only [readEnPassant, Option.bind_eq_some_iff, record] at read
  obtain ⟨named, _, recorded⟩ := read
  split at recorded
  · next beside =>
    rw [← Option.some.inj recorded]
    exact ⟨rfl, beside⟩
  · cases recorded

/-- A board that was read is sound, and its recorded pawn was read as one. -/
theorem exists_of_read? (read : Board.read? text = .ok board) : board.isSound = true ∧
    ∃ field, board.enPassant = readEnPassant board.placement board.turn field := by
  unfold Board.read? at read
  dsimp only at read
  split at read
  · next found described =>
    split at read
    · next sound =>
      obtain rfl := Except.ok.inj read
      split at described
      · simp only [ofFields?, Option.bind_eq_bind, Option.bind_eq_some_iff] at described
        obtain ⟨placement, _, turn, _, made⟩ := described
        obtain rfl := Option.some.inj made
        exact ⟨sound, _, rfl⟩
      · cases described
    · cases read
  · cases read

theorem consistent_of_read? (read : Board.read? text = .ok board) : board.Consistent := by
  obtain ⟨sound, field, enPassant⟩ := exists_of_read? read
  refine .of_isSound sound fun square recorded => ?_
  exact (recorded_of_readEnPassant (enPassant ▸ recorded)).1

theorem consistent_start : Board.start.Consistent :=
  .of_isSound (by decide +kernel) nofun

end Board

namespace Position

variable {opening position : Position} {boards : List Board} {request : MoveRequest}

/-- The positions at which a game can begin. -/
def Opening (position : Position) : Prop :=
  position = .start ∨ ∃ fen, ofFen? fen = .ok position

theorem exists_of_ofFen? {fen : String} (read : ofFen? fen = .ok position) : ∃ board,
    Board.read? fen.toList = .ok board ∧
      position = ofBoard board (counter fen.toList 4 0) (counter fen.toList 5 1) := by
  unfold ofFen? at read
  split at read
  · next board found => exact ⟨board, found, (Except.ok.inj read).symm⟩
  · cases read

theorem Opening.eq_ofBoard (opens : opening.Opening) :
    ∃ board halfmoveClock fullmoveNumber,
      opening = ofBoard board halfmoveClock fullmoveNumber ∧ board.Consistent := by
  rcases opens with rfl | ⟨fen, read⟩
  · exact ⟨_, _, _, rfl, Board.consistent_start⟩
  · obtain ⟨board, found, rfl⟩ := exists_of_ofFen? read
    exact ⟨board, _, _, rfl, Board.consistent_of_read? found⟩

/-- A request that is accepted names a move that is allowed. -/
theorem exists_move?_of_accepts (accepted : position.accepts request = true) :
    ∃ move, request.move? = .ok move ∧
      position.board.allows position.closeCheckers move = true := by
  rw [accepts, Bool.and_eq_true] at accepted
  obtain ⟨_, accepted⟩ := accepted
  split at accepted
  · next move named => exact ⟨move, named, accepted⟩
  · cases accepted

/-- A request plays the move that it names. -/
theorem apply_of_move? {move : Move} (named : request.move? = .ok move) :
    position.apply request = position.play move := by
  rw [apply, named]

/-- What is accepted is a move that is allowed, and it is played. -/
theorem exists_of_accepts (accepted : position.accepts request = true) :
    ∃ move, position.board.allows position.closeCheckers move = true ∧
      position.apply request = position.play move := by
  obtain ⟨move, named, allowed⟩ := exists_move?_of_accepts accepted
  exact ⟨move, allowed, apply_of_move? named⟩

/-- The boards of a game so far, and the position that it has come to. -/
inductive Game (opening : Position) : List Board → Position → Prop
  | start : Game opening [opening.board] opening
  | move {boards : List Board} {position : Position} {request : MoveRequest}
      (game : Game opening boards position) (accepted : position.accepts request = true) :
      Game opening (boards ++ [(position.apply request).board]) (position.apply request)

namespace Game

/-- The present board is recorded too. -/
theorem board_mem (game : Game opening boards position) : position.board ∈ boards := by
  cases game with
  | start => exact List.mem_singleton_self _
  | move _ _ => exact List.mem_append_right _ (List.mem_singleton_self _)

/-- No game leaves the consistent boards. -/
theorem consistent (opens : opening.Opening) (game : Game opening boards position) :
    ∀ board ∈ boards, board.Consistent := by
  induction game with
  | start =>
    obtain ⟨board, _, _, rfl, consistent⟩ := opens.eq_ofBoard
    intro other member
    rw [List.mem_singleton.mp member]
    exact consistent
  | move game accepted ih =>
    obtain ⟨move, allowed, played⟩ := exists_of_accepts accepted
    have next := (ih _ game.board_mem).play (Board.way_of_allows allowed)
    intro other member
    rcases List.mem_append.mp member with before | now
    · exact ih other before
    · rw [List.mem_singleton.mp now, played]
      exact next

end Game

end Position

end ChessArbiter
