import ChessArbiter.Proofs.Chess.Length
import ChessArbiter.Proofs.Chess.Proper
import ChessArbiter.Proofs.Concat

/-! # What a position counts

A ply is a move of a game together with the board on which it is made. The number of the full move goes up
with each ply of Black. The half-move clock and the remembered boards go back to the last ply that is a
pawn's move or a capture, or to the opening where there is none (`Position.Counts`). A capture is judged by
the boards before and after it: an enemy piece is no longer where it stood. To look at the target alone is
enough, since a pawn captured in passing is captured by a pawn, and castling captures nothing.
-/

namespace ChessArbiter

namespace Board

variable {board : Board} {move : Move} {close : List Square} {square : Square} {kind : Kind}

/-- The piece that moves is a pawn. -/
def IsPawnMove (board : Board) (move : Move) : Prop :=
  ∃ colour, board.piece move.source = some ⟨colour, .pawn⟩

/-- A piece of the side that does not move is no longer where it stood. -/
def IsCapture (board : Board) (move : Move) : Prop :=
  ∃ square, board.placement.colourAt square = some board.turn.other ∧
    (board.play move).piece square ≠ board.piece square

theorem colourAt_eq_some_iff {colour : Colour} : board.placement.colourAt square = some colour ↔
    ∃ kind, board.piece square = some ⟨colour, kind⟩ := by
  rw [Placement.colourAt, ← Board.piece, Option.map_eq_some_iff]
  constructor
  · rintro ⟨⟨_, kind⟩, found, rfl⟩
    exact ⟨kind, found⟩
  · rintro ⟨kind, found⟩
    exact ⟨_, found, rfl⟩

theorem movesPawn_iff : board.movesPawn move = true ↔ board.IsPawnMove move := by
  rw [movesPawn, Option.any_eq_true, IsPawnMove]
  constructor
  · rintro ⟨⟨colour, kind⟩, found, pawn⟩
    obtain rfl : kind = .pawn := eq_of_beq pawn
    exact ⟨colour, found⟩
  · rintro ⟨colour, found⟩
    exact ⟨_, found, rfl⟩

instance : Decidable (board.IsPawnMove move) :=
  decidable_of_iff _ movesPawn_iff

instance : Decidable (board.IsCapture move) :=
  decidable_of_iff (∃ square ∈ Square.all, board.placement.colourAt square = some board.turn.other ∧
      (board.play move).piece square ≠ board.piece square)
    (by simp only [Square.mem_all, true_and, IsCapture])

namespace Proper

/-- Enemy pieces off the target stay where they are when a piece other than a pawn moves. -/
theorem enemy_stays (proper : board.Proper move) (consistent : board.Consistent)
    (still : board.movesPawn move = false) (stood : board.piece square = some ⟨board.turn.other, kind⟩)
    (apart : move.target ≠ square) :
    (board.play move).piece square = some ⟨board.turn.other, kind⟩ := by
  obtain ⟨mover, found⟩ := proper.way.exists_mover
  have stays : (board.landed move).piece square = some ⟨board.turn.other, kind⟩ := by
    rw [piece_landed, if_neg apart, if_neg (Placement.ne_of_enemy found stood)]
    exact stood
  change (board.placementAfter move).piece square = _
  cases proper.way with
  | piece other here _ notPawn _ _ _ uncastled =>
    rw [placementAfter_of_piece here notPawn uncastled]
    exact stays
  | pawn here => cases still.symm.trans (movesPawn_of_found here)
  | passing here => cases still.symm.trans (movesPawn_of_found here)
  | castling wing castles right _ =>
    have rook := consistent.rooks _ _ right
    have notHome : board.turn.rookHome wing ≠ square := Placement.ne_of_enemy rook stood
    have notCrossed : (⟨wing.rookTarget, board.turn.homeRank⟩ : Square) ≠ square := by
      rintro rfl
      cases stood.symm.trans (proper.crossing wing castles)
    rw [placementAfter_of_castling castles, Placement.piece_put, if_neg notCrossed,
      Placement.piece_put, if_neg notHome]
    exact stays

/-- What moves and is no pawn stands on the target afterwards. -/
theorem mover_arrives (proper : board.Proper move) (consistent : board.Consistent)
    (still : board.movesPawn move = false) :
    ∃ kind, (board.play move).piece move.target = some ⟨board.turn, kind⟩ := by
  change ∃ kind, (board.placementAfter move).piece move.target = some ⟨board.turn, kind⟩
  obtain ⟨mover, found⟩ := proper.way.exists_mover
  cases proper.way with
  | piece other here _ notPawn _ _ _ uncastled =>
    rw [placementAfter_of_piece here notPawn uncastled, piece_landed, if_pos rfl,
      proper.landing_eq found]
    exact ⟨_, rfl⟩
  | pawn here => cases still.symm.trans (movesPawn_of_found here)
  | passing here => cases still.symm.trans (movesPawn_of_found here)
  | castling wing castles _ _ =>
    exact ⟨.king, (proper.king_placementAfter_iff consistent _).mpr
      (if_pos rfl ▸ (castling?_eq_some castles).1)⟩

/-- A piece other than a pawn captures exactly what stands on the target. -/
theorem isCapture_iff (proper : board.Proper move) (consistent : board.Consistent)
    (still : board.movesPawn move = false) :
    board.IsCapture move ↔ (board.piece move.target).isSome = true := by
  constructor
  · rintro ⟨square, enemy, gone⟩
    obtain ⟨kind, stood⟩ := colourAt_eq_some_iff.mp enemy
    by_contra empty
    refine gone ((proper.enemy_stays consistent still stood ?_).trans stood.symm)
    rintro rfl
    exact empty (stood ▸ rfl)
  · intro occupied
    obtain ⟨⟨colour, kind⟩, stood⟩ := Option.isSome_iff_exists.mp occupied
    have here := colourAt_eq_some_iff.mpr ⟨kind, stood⟩
    have enemy : colour = board.turn.other :=
      (colour.eq_or_eq_other board.turn).resolve_left fun own => proper.foreign (own ▸ here)
    subst enemy
    obtain ⟨mover, arrives⟩ := proper.mover_arrives consistent still
    refine ⟨move.target, here, ?_⟩
    rw [arrives, stood]
    exact fun same => Piece.own_ne_enemy _ _ _ (Option.some.inj same)

end Proper

/-- What the arbiter takes for irreversible is a pawn's move or a capture. -/
theorem irreversible_iff (consistent : board.Consistent) (allowed : board.allows close move = true) :
    board.irreversible move = true ↔ board.IsPawnMove move ∨ board.IsCapture move := by
  rw [irreversible, Bool.or_eq_true, movesPawn_iff]
  cases pawn : board.movesPawn move with
  | true => exact iff_of_true (.inl (movesPawn_iff.mp pawn)) (.inl (movesPawn_iff.mp pawn))
  | false =>
    have proper : board.Proper move := by
      simp only [allows, allowsPassing, passes, Bool.or_eq_true, Bool.and_eq_true, beq_iff_eq] at allowed
      rcases allowed with plain | ⟨⟨⟨⟨found, _⟩, _⟩, _⟩, _⟩
      · exact proper_of_allowsPlain plain
      · cases pawn.symm.trans (movesPawn_of_found found)
    rw [proper.isCapture_iff consistent pawn]

end Board

/-- A move of a game, and the board on which it is made. -/
structure Ply where
  board : Board
  move : Move

namespace Ply

/-- The board to which a ply leads. -/
def next (ply : Ply) : Board :=
  ply.board.play ply.move

/-- A pawn's move or a capture. -/
def Resets (ply : Ply) : Prop :=
  ply.board.IsPawnMove ply.move ∨ ply.board.IsCapture ply.move

instance (ply : Ply) : Decidable ply.Resets :=
  inferInstanceAs (Decidable (_ ∨ _))

end Ply

namespace Position

variable {opening position : Position} {requests : List MoveRequest} {request : MoveRequest}
  {made : List Ply} {move : Move}

/-- The plies that requests make from a position. -/
def plies (position : Position) : List MoveRequest → List Ply
  | [] => []
  | request :: rest =>
    match request.move? with
    | .ok move => ⟨position.board, move⟩ :: (position.play move).plies rest
    | .error _ => position.plies rest

theorem plies_cons (named : request.move? = .ok move) : position.plies (request :: requests) =
    ⟨position.board, move⟩ :: (position.play move).plies requests := by
  rw [plies, named]

/-- The first of the requests that are followed names a move, and the others are followed from there. -/
theorem exists_of_follow?_cons (followed : opening.follow? (request :: requests) = some position) :
    ∃ move, request.move? = .ok move ∧ (opening.play move).follow? requests = some position := by
  rw [follow?, Option.ite_none_right_eq_some] at followed
  obtain ⟨accepted, followed⟩ := followed
  obtain ⟨move, named, _⟩ := exists_move?_of_accepts accepted
  exact ⟨move, named, apply_of_move? named ▸ followed⟩

/-- One more request makes one more ply where the others have come to. -/
theorem plies_concat (followed : opening.follow? requests = some position)
    (named : request.move? = .ok move) :
    opening.plies (requests ++ [request]) = opening.plies requests ++ [⟨position.board, move⟩] := by
  induction requests generalizing opening with
  | nil =>
    obtain rfl := Option.some.inj followed
    exact plies_cons named
  | cons first rest ih =>
    obtain ⟨_, namedFirst, followed⟩ := exists_of_follow?_cons followed
    rw [List.cons_append, plies_cons namedFirst, plies_cons namedFirst, ih followed, List.cons_append]

/-- Requests that are followed make a ply each. -/
theorem length_plies (followed : opening.follow? requests = some position) :
    (opening.plies requests).length = requests.length := by
  induction requests generalizing opening with
  | nil => rfl
  | cons first rest ih =>
    obtain ⟨_, named, followed⟩ := exists_of_follow?_cons followed
    rw [plies_cons named, List.length_cons, List.length_cons, ih followed]

/-- What a position counts, by the plies that have led to it. -/
structure Counts (opening : Position) (made : List Ply) (position : Position) : Prop where
  /-- The number of the full move has gone up with each ply of Black. -/
  fullmove : position.fullmoveNumber =
    opening.fullmoveNumber + made.countP fun ply => ply.board.turn == .black
  /-- Where no ply was a pawn's move or a capture, everything since the opening counts. -/
  quiet : (∀ ply ∈ made, ¬ ply.Resets) →
    position.halfmoveClock = opening.halfmoveClock + made.length ∧
      position.repetitions = opening.board :: made.map (·.next)
  /-- Behind the last pawn's move or capture each ply counts, and the boards from the one to which that has
  led are remembered. -/
  reset : ∀ before ply after, made = before ++ ply :: after → ply.Resets →
    (∀ later ∈ after, ¬ later.Resets) →
      position.halfmoveClock = after.length ∧ position.repetitions = (ply :: after).map (·.next)
  present : position.repetitions.getLast? = some position.board

namespace Counts

/-- A game that has not begun has counted what its opening counts. -/
theorem start (opens : opening.Opening) : Counts opening [] opening := by
  obtain ⟨board, halfmoveClock, fullmoveNumber, rfl, _⟩ := opens.eq_ofBoard
  exact ⟨rfl, fun _ => ⟨rfl, rfl⟩, by simp, rfl⟩

/-- One more ply is counted. -/
theorem play (counts : Counts opening made position)
    (judged : position.board.irreversible move = true ↔ (Ply.mk position.board move).Resets) :
    Counts opening (made ++ [⟨position.board, move⟩]) (position.play move) := by
  have goesOn (plain : ¬ (Ply.mk position.board move).Resets) :
      (position.play move).halfmoveClock = position.halfmoveClock + 1 ∧
        (position.play move).repetitions = position.repetitions ++ [position.board.play move] := by
    have reversible : position.board.irreversible move = false :=
      Bool.eq_false_iff.mpr fun irreversible => plain (judged.mp irreversible)
    simp only [Position.play, reversible, Bool.false_eq_true, if_false, and_self]
  refine ⟨?_, fun none => ?_, fun before ply after split resets none => ?_, ?_⟩
  · rw [List.countP_append, List.countP_singleton, ← Nat.add_assoc, ← counts.fullmove]
    simp only [Position.play, beq_iff_eq]
    split <;> rfl
  · rw [List.forall_mem_append, List.forall_mem_singleton] at none
    obtain ⟨clock, boards⟩ := goesOn none.2
    obtain ⟨clockBefore, boardsBefore⟩ := counts.quiet none.1
    rw [clock, boards, clockBefore, boardsBefore, List.length_append, List.map_append]
    exact ⟨rfl, rfl⟩
  · rcases cut_concat split.symm with ⟨-, rfl, rfl⟩ | ⟨earlier, rfl, splitBefore⟩
    · -- the ply itself starts the count anew
      simp only [Position.play, judged.mpr resets, if_true]
      exact ⟨rfl, rfl⟩
    · rw [List.forall_mem_append, List.forall_mem_singleton] at none
      obtain ⟨clock, boards⟩ := goesOn none.2
      obtain ⟨clockBefore, boardsBefore⟩ := counts.reset before ply earlier splitBefore.symm resets none.1
      rw [clock, boards, clockBefore, boardsBefore, List.length_append, ← List.cons_append,
        List.map_append]
      exact ⟨rfl, rfl⟩
  · exact List.getLast?_concat

end Counts

/-- Whatever moves a game goes through, its position has counted them. -/
theorem Opening.counts (opens : opening.Opening) (followed : opening.follow? requests = some position) :
    Counts opening (opening.plies requests) position := by
  induction requests using List.reverseRecOn generalizing position with
  | nil =>
    obtain rfl := Option.some.inj followed
    exact .start opens
  | append_singleton requests request ih =>
    obtain ⟨before, earlier, accepted, rfl⟩ := follow?_concat_eq_some.mp followed
    obtain ⟨boards, game, _⟩ := Game.of_follow? earlier
    have consistent := game.consistent opens _ game.board_mem
    obtain ⟨move, named, allowed⟩ := exists_move?_of_accepts accepted
    rw [plies_concat earlier named, apply_of_move? named]
    exact (ih earlier).play (Board.irreversible_iff consistent allowed)

/-- After any accepted moves from a position at which a game can begin, the number of the full move is that
of the opening and one more for each move of Black. As long as no move was a pawn's or a capture, the
half-move clock is that of the opening and one more for each move, and all boards are remembered; else the
clock is the number of moves behind the last such move, and the boards from the one to which it has led
are. The present board is always the last of them. Once a move has been made, the clock is below a hundred
unless the game is over. -/
theorem Opening.counters_of_plies (opens : opening.Opening)
    (followed : opening.follow? requests = some position) :
    (opening.plies requests).length = requests.length ∧
      Counts opening (opening.plies requests) position ∧
      (requests ≠ [] → position.outcome = none → position.halfmoveClock < 100) := by
  refine ⟨length_plies followed, opens.counts followed, fun moved undecided => ?_⟩
  obtain ⟨boards, game, counted⟩ := Game.of_follow? followed
  have begun := List.length_pos_iff.mpr moved
  exact (game.of_undecided (by omega) undecided).2

/-- A pawn goes two squares and is captured in passing; White castles, and the black king moves. The clock
counts the last two moves, and three boards are remembered. -/
theorem Opening.counters_of_plies_of_passing :
    ∃ opening requests position, ofFen? "4k3/8/8/8/3p4/8/4P3/4K2R w K - 7 30" = .ok opening ∧
      opening.follow? requests = some position ∧
      (opening.plies requests).map (fun ply => decide ply.Resets) = [true, true, false, false] ∧
      opening.halfmoveClock = 7 ∧ opening.fullmoveNumber = 30 ∧ position.halfmoveClock = 2 ∧
      position.fullmoveNumber = 32 ∧ position.repetitions.length = 3 := by
  obtain ⟨opening, requests, read, clock, number, kinds, black, possible⟩ : ∃ opening requests,
      ofFen? "4k3/8/8/8/3p4/8/4P3/4K2R w K - 7 30" = .ok opening ∧
      opening.halfmoveClock = 7 ∧ opening.fullmoveNumber = 30 ∧
      (opening.plies requests).map (fun ply => decide ply.Resets) = [true, true, false, false] ∧
      (opening.plies requests).countP (fun ply => ply.board.turn == .black) = 2 ∧
      (opening.follow? requests).isSome :=
    ⟨_, [⟨"e2", "e4", none⟩, ⟨"d4", "e3", none⟩, ⟨"e1", "g1", none⟩, ⟨"e8", "d7", none⟩],
      rfl, by decide +kernel, by decide +kernel, by decide +kernel, by decide +kernel,
      by decide +kernel⟩
  obtain ⟨position, followed⟩ := Option.isSome_iff_exists.mp possible
  obtain ⟨-, counts, -⟩ := Opening.counters_of_plies (.inr ⟨_, read⟩) followed
  obtain ⟨first, rest, split, -, later⟩ := List.map_eq_cons_iff.mp kinds
  obtain ⟨second, after, rfl, resets, later⟩ := List.map_eq_cons_iff.mp later
  have plain : ∀ ply ∈ after, ¬ ply.Resets := by
    intro ply member resets
    have judged : true ∈ after.map fun ply => decide ply.Resets :=
      List.mem_map.mpr ⟨ply, member, decide_eq_true resets⟩
    rw [later] at judged
    simp at judged
  have two : after.length = 2 := by simpa using congrArg List.length later
  obtain ⟨halfmove, boards⟩ :=
    counts.reset [first] second after split (of_decide_eq_true resets) plain
  have fullmove := counts.fullmove
  rw [black, number] at fullmove
  refine ⟨opening, requests, position, read, followed, kinds, clock, number, halfmove.trans two,
    fullmove, ?_⟩
  rw [boards, List.length_map, List.length_cons, two]

end Position

end ChessArbiter
