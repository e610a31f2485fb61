import ChessArbiter.Proofs.Chess.Checks
import ChessArbiter.Proofs.Chess.PlacementText
import ChessArbiter.Proofs.Chess.Replay
import ChessArbiter.Proofs.Text.Spelling

/-! # Positions and their FENs

The four fields of an orderly board are read as this board again, and the two counters behind them as
the counters, if they are below `2 ^ 32`. A position that was read is determined by these. One that a
game has come to is so but for its record of boards and its outcome; its close checkers are the knights
and pawns that give check, since the game has left the board orderly.
-/

namespace ChessArbiter

open Text

theorem Colour.read?_letter (colour : Colour) : Colour.read? [colour.letter] = some colour := by
  cases colour <;> decide

theorem Colour.solid_letter (colour : Colour) : Solid [colour.letter] := by
  cases colour <;> exact .of_all (List.cons_ne_nil _ _) (by decide)

theorem CastlingRights.read_write (rights : CastlingRights) : read rights.write = rights := by
  obtain ⟨whiteKing, whiteQueen, blackKing, blackQueen⟩ := rights
  cases whiteKing <;> cases whiteQueen <;> cases blackKing <;> cases blackQueen <;> decide

theorem CastlingRights.solid_write (rights : CastlingRights) : Solid rights.write := by
  obtain ⟨whiteKing, whiteQueen, blackKing, blackQueen⟩ := rights
  cases whiteKing <;> cases whiteQueen <;> cases blackKing <;> cases blackQueen <;>
    exact .of_all (by decide) (by decide)

theorem Square.solid_name (square : Square) : Solid square.name := by
  have unbroken : ∀ file rank : Fin 8, (name ⟨file, rank⟩).all (!isBlank ·) = true := by
    decide +kernel
  exact .of_all (List.cons_ne_nil _ _) (unbroken square.file square.rank)

namespace Board

variable {board : Board}

/-- The name of the recorded pawn's square, or a dash. -/
def passerText (board : Board) : List Char :=
  (board.enPassant.map (·.name)).getD ['-']

theorem solid_passerText (board : Board) : Solid board.passerText := by
  unfold passerText
  cases board.enPassant with
  | none => exact .of_all (List.cons_ne_nil _ _) (by decide)
  | some square => exact square.solid_name

theorem write_append (board : Board) (rest : List Char) : board.write ++ ' ' :: rest =
    board.placement.write ++ ' ' :: ([board.turn.letter] ++ ' ' :: (board.rights.write ++
      ' ' :: (board.passerText ++ ' ' :: rest))) := by
  simp [write, passerText]

/-- The recorded pawn is read again where a pawn stands beside it. -/
theorem readEnPassant_passerText (orderly : board.Orderly) :
    readEnPassant board.placement board.turn board.passerText = board.enPassant := by
  unfold passerText
  cases recorded : board.enPassant with
  | none => rfl
  | some square =>
    have place : (⟨square.file, board.turn.other.doubleRank⟩ : Square) = square := by
      rw [← (orderly.consistent.passer square recorded).1]
    rw [Option.map_some, Option.getD_some, readEnPassant, Square.ofName?_name, Option.bind_some, place,
      record, if_pos (orderly.beside square recorded)]

/-- An orderly board is read from its text, whatever follows that. -/
theorem read?_write (orderly : board.Orderly) (rest : List Char) :
    read? (board.write ++ ' ' :: rest) = .ok board := by
  have described : ofFields? board.placement.write [board.turn.letter] board.rights.write
      board.passerText = some board := by
    simp only [ofFields?, Placement.read?_write, Colour.read?_letter, CastlingRights.read_write,
      readEnPassant_passerText orderly, Option.bind_eq_bind, Option.bind_some]
    rfl
  rw [write_append, read?, board.placement.solid_write.fields_append,
    board.turn.solid_letter.fields_append, board.rights.solid_write.fields_append,
    board.solid_passerText.fields_append]
  dsimp only
  rw [described]
  exact if_pos orderly.isSound

end Board

namespace Position

variable {opening position : Position}

theorem toList_fen (position : Position) : position.fen.toList = position.board.write ++
    ' ' :: (digits position.halfmoveClock ++ ' ' :: digits position.fullmoveNumber) := by
  simp [fen]

theorem words_fen (position : Position) : words position.fen.toList =
    [position.board.placement.write, [position.board.turn.letter], position.board.rights.write,
      position.board.passerText, digits position.halfmoveClock, digits position.fullmoveNumber] := by
  rw [toList_fen, Board.write_append, position.board.placement.solid_write.words_append,
    position.board.turn.solid_letter.words_append, position.board.rights.solid_write.words_append,
    position.board.solid_passerText.words_append, (solid_digits _).words_append,
    (solid_digits _).words_eq]

/-- The counters can be written in a FEN that is read. -/
structure Countable (position : Position) : Prop where
  halfmoveClock : position.halfmoveClock < UInt32.size
  fullmoveNumber : position.fullmoveNumber < UInt32.size

theorem counter_of_digits {text : List Char} {field default n : Nat}
    (written : (words text)[field]? = some (digits n)) (small : n < UInt32.size) :
    counter text field default = n := by
  rw [counter, written, Option.bind_some, natural32?_digits small, Option.getD_some]

theorem counter_lt (text : List Char) (field : Nat) {default : Nat} (small : default < UInt32.size) :
    counter text field default < UInt32.size := by
  unfold counter
  cases ((words text)[field]?).bind natural32? with
  | none => exact small
  | some n => exact n.toNat_lt

/-- The FEN of a position on an orderly board is read as the position that begins on this board. -/
theorem ofFen?_fen (orderly : position.board.Orderly) :
    ofFen? position.fen = .ok (ofBoard position.board (counter position.fen.toList 4 0)
      (counter position.fen.toList 5 1)) := by
  have read := Board.read?_write orderly
    (digits position.halfmoveClock ++ ' ' :: digits position.fullmoveNumber)
  rw [← toList_fen] at read
  rw [ofFen?, read]

namespace Countable

theorem counters (countable : position.Countable) :
    counter position.fen.toList 4 0 = position.halfmoveClock ∧
      counter position.fen.toList 5 1 = position.fullmoveNumber := by
  refine ⟨counter_of_digits ?_ countable.halfmoveClock, counter_of_digits ?_ countable.fullmoveNumber⟩
  · rw [words_fen]
    rfl
  · rw [words_fen]
    rfl

theorem ofFen?_fen (countable : position.Countable) (orderly : position.board.Orderly) :
    ofFen? position.fen =
      .ok (ofBoard position.board position.halfmoveClock position.fullmoveNumber) := by
  rw [Position.ofFen?_fen orderly, countable.counters.1, countable.counters.2]

end Countable

/-- A game in which captures in passing are legal by the rules of chess. Of all other moves that are
accepted this need not be asked. -/
inductive LawfulGame (opening : Position) : Position → Prop
  | start : LawfulGame opening opening
  | move {position : Position} {request : MoveRequest} {move : Move}
      (game : LawfulGame opening position) (named : request.move? = .ok move)
      (accepted : position.accepts request = true)
      (lawful : position.board.passes move = true → position.board.legal move = true) :
      LawfulGame opening (position.apply request)

/-- The board is orderly, and the close checkers are those that stand on it. -/
structure Settled (position : Position) : Prop where
  orderly : position.board.Orderly
  known : position.closeCheckers = position.board.placement.closeCheckers position.board.turn

theorem Opening.settled (opens : opening.Opening) : opening.Settled := by
  rcases opens with rfl | ⟨fen, read⟩
  · exact ⟨Board.orderly_start, rfl⟩
  · obtain ⟨board, found, rfl⟩ := exists_of_ofFen? read
    exact ⟨Board.orderly_of_read? found, rfl⟩

theorem Settled.play {move : Move} (settled : position.Settled)
    (allowed : position.board.allows position.closeCheckers move = true)
    (lawful : position.board.passes move = true → position.board.legal move = true) :
    (position.play move).Settled := by
  obtain ⟨proper, safe⟩ := settled.orderly.proper_of_allows settled.known allowed lawful
  exact ⟨settled.orderly.play proper safe, proper.closeAfter_eq settled.orderly⟩

theorem LawfulGame.settled (opens : opening.Opening) (game : LawfulGame opening position) :
    position.Settled := by
  induction game with
  | start => exact opens.settled
  | @move position request move _ named accepted lawful ih =>
    have played : position.apply request = position.play move := by rw [apply, named]
    rw [accepts, named, Bool.and_eq_true] at accepted
    rw [played]
    exact ih.play accepted.2 lawful

/-- The FEN of every position that was read is read as the same position. The FEN of every position to
which a lawful game has come is read as one with the same board and the same moves; its counters and its
FEN are the same too, as long as the counters have not left the range of those in a FEN. -/
theorem fen_round_trip :
    (∀ text position, ofFen? text = .ok position → ofFen? position.fen = .ok position) ∧
    ∀ opening position, opening.Opening → LawfulGame opening position →
      ∃ again, ofFen? position.fen = .ok again ∧ again.board = position.board ∧
        again.moves = position.moves ∧
        (position.Countable → again.halfmoveClock = position.halfmoveClock ∧
          again.fullmoveNumber = position.fullmoveNumber ∧ again.fen = position.fen) := by
  refine ⟨?_, ?_⟩
  · intro text position read
    obtain ⟨board, found, rfl⟩ := exists_of_ofFen? read
    have countable : (ofBoard board (counter text.toList 4 0) (counter text.toList 5 1)).Countable :=
      ⟨counter_lt _ _ (by decide), counter_lt _ _ (by decide)⟩
    exact countable.ofFen?_fen (Board.orderly_of_read? found)
  · intro opening position opens game
    obtain ⟨orderly, known⟩ := game.settled opens
    refine ⟨_, ofFen?_fen orderly, rfl, ?_, fun countable => ?_⟩
    · rw [moves, moves, known]
      rfl
    · rw [countable.counters.1, countable.counters.2]
      exact ⟨rfl, rfl, rfl⟩

/-- White's pawn goes two squares, which its FEN says, and is captured in passing. White may still
castle. -/
theorem fen_round_trip_of_passing :
    ∃ opening recorded last, ofFen? "4k3/8/8/8/1p6/8/P7/R3K3 w Q - 3 7" = .ok opening ∧
      ofFen? opening.fen = .ok opening ∧ LawfulGame opening recorded ∧
      recorded.fen = "4k3/8/8/8/Pp6/8/8/R3K3 b Q a4 0 7" ∧ LawfulGame opening last ∧
      last.fen = "4k3/8/8/8/8/p7/8/R3K3 w Q - 0 8" ∧
      (∃ again, ofFen? recorded.fen = .ok again ∧ again.board = recorded.board) ∧
      ∃ again, ofFen? last.fen = .ok again ∧ again.moves = last.moves ∧ again.fen = last.fen := by
  let leap : MoveRequest := ⟨"a2", "a4", none⟩
  let capture : MoveRequest := ⟨"b4", "a3", none⟩
  let leapMove : Move := ⟨⟨0, 1⟩, ⟨0, 3⟩, none⟩
  let captureMove : Move := ⟨⟨1, 3⟩, ⟨0, 2⟩, none⟩
  have leapNamed : leap.move? = .ok leapMove := by decide +kernel
  have captureNamed : capture.move? = .ok captureMove := by decide +kernel
  obtain ⟨opening, read, leaps, plain, recordedText, captures, legal, lastText, countable⟩ : ∃ opening,
      ofFen? "4k3/8/8/8/1p6/8/P7/R3K3 w Q - 3 7" = .ok opening ∧ opening.accepts leap = true ∧
      opening.board.passes leapMove = false ∧
      (opening.apply leap).fen = "4k3/8/8/8/Pp6/8/8/R3K3 b Q a4 0 7" ∧
      (opening.apply leap).accepts capture = true ∧
      (opening.apply leap).board.legal captureMove = true ∧
      ((opening.apply leap).apply capture).fen = "4k3/8/8/8/8/p7/8/R3K3 w Q - 0 8" ∧
      ((opening.apply leap).apply capture).Countable :=
    ⟨_, rfl, by decide +kernel, by decide +kernel, by decide +kernel, by decide +kernel,
      by decide +kernel, by decide +kernel, by decide +kernel, by decide +kernel⟩
  have opens : opening.Opening := .inr ⟨_, read⟩
  have recorded : LawfulGame opening (opening.apply leap) :=
    LawfulGame.start.move leapNamed leaps fun passes =>
      (Bool.false_ne_true (plain.symm.trans passes)).elim
  have last : LawfulGame opening ((opening.apply leap).apply capture) :=
    recorded.move captureNamed captures fun _ => legal
  obtain ⟨same, games⟩ := fen_round_trip
  obtain ⟨first, firstRead, board, -⟩ := games _ _ opens recorded
  obtain ⟨second, secondRead, -, moves, counted⟩ := games _ _ opens last
  exact ⟨opening, _, _, read, same _ _ read, recorded, recordedText, last, lastText,
    ⟨first, firstRead, board⟩, second, secondRead, moves, (counted countable).2.2⟩

end Position

end ChessArbiter
