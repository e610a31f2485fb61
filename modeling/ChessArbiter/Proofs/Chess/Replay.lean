import Mathlib.Data.List.Induction
import ChessArbiter.Proofs.Chess.Game
import ChessArbiter.Proofs.Text.Blank

/-! # Replaying moves

`Position.follow?` plays requested moves from a position as long as each of them is accepted in its
turn; `Position.replay?` reads the requests from texts first. What they come to from an opening is a
game, with one board more than there are moves. Every move that is allowed can be requested, and a
request that was read from a text is read from its own text again.
-/

namespace ChessArbiter

theorem Square.ofName?_name (square : Square) : Square.ofName? square.name = some square := by
  have named : ∀ file rank : Fin 8, ofName? (name ⟨file, rank⟩) = some ⟨file, rank⟩ := by decide +kernel
  exact named square.file square.rank

namespace MoveRequest

/-- The request that names a move. -/
def ofMove (move : Move) : MoveRequest :=
  { source := String.ofList move.source.name
    target := String.ofList move.target.name
    promotion := move.promotion.map fun promotion => String.ofList [promotion.letter] }

theorem promotionOfText?_letter (promotion : Promotion) :
    promotionOfText? (String.ofList [promotion.letter]) = some promotion := by
  cases promotion <;> decide +kernel

theorem move?_ofMove (move : Move) : (ofMove move).move? = .ok move := by
  obtain ⟨source, target, promotion⟩ := move
  simp only [MoveRequest.move?, ofMove, String.toList_ofList, Square.ofName?_name]
  cases promotion with
  | none => rfl
  | some promotion =>
    simp only [MoveRequest.promotion?, Option.map_some, promotionOfText?_letter]
    rfl

/-- What is read from a text has the text without the blanks around it. -/
theorem text_of_ofText? {text : String} {request : MoveRequest} (read : ofText? text = .ok request) :
    request.text = String.ofList (Text.trimList text.toList) := by
  unfold ofText? at read
  dsimp only at read
  split at read
  · cases read
    generalize Text.trimList text.toList = trimmed
    have whole : trimmed.take 2 ++ (trimmed.drop 2).take 2 ++ trimmed.drop 4 = trimmed := by
      have later : trimmed.drop 4 = (trimmed.drop 2).drop 2 := by rw [List.drop_drop]
      rw [List.append_assoc, later, List.take_append_drop, List.take_append_drop]
    rw [MoveRequest.text, ← String.toList_inj]
    simp only [String.toList_append, String.toList_ofList]
    by_cases short : (trimmed.drop 4).isEmpty = true
    · rw [List.isEmpty_iff.mp short] at whole
      rw [if_pos short]
      exact whole
    · rw [if_neg short, Option.getD_some, String.toList_ofList]
      exact whole
  · cases read

/-- What was read from a text is read again from its own text. -/
theorem ofText?_text {text : String} {request : MoveRequest} (read : ofText? text = .ok request) :
    ofText? request.text = .ok request := by
  have again : ofText? (String.ofList (Text.trimList text.toList)) = ofText? text := by
    unfold ofText?
    rw [String.toList_ofList, Text.trimList_trimList]
  rw [text_of_ofText? read, again, read]

end MoveRequest

namespace Position

variable {opening position next : Position} {requests : List MoveRequest} {request : MoveRequest}

/-- The position after requested moves, where each is accepted in its turn. -/
def follow? (position : Position) : List MoveRequest → Option Position
  | [] => some position
  | request :: rest =>
    if position.accepts request then (position.apply request).follow? rest else none

theorem follow?_append (position : Position) (first second : List MoveRequest) :
    position.follow? (first ++ second) = (position.follow? first).bind (·.follow? second) := by
  induction first generalizing position with
  | nil => rfl
  | cons request rest ih =>
    simp only [List.cons_append, follow?, ih]
    split <;> rfl

/-- One more move is followed if it is accepted where the others have come to. -/
theorem follow?_concat_eq_some :
    opening.follow? (requests ++ [request]) = some next ↔
      ∃ position, opening.follow? requests = some position ∧ position.accepts request = true ∧
        position.apply request = next := by
  simp only [follow?_append, Option.bind_eq_some_iff, follow?, Option.ite_none_right_eq_some,
    Option.some.injEq]

/-- The position after the moves that texts name, where each names one that is accepted in its turn. -/
def replay? (position : Position) (texts : List String) : Option Position :=
  (texts.mapM fun text => (MoveRequest.ofText? text).toOption).bind position.follow?

/-- An accepted move is replayed from its text after those that have come to its position. -/
theorem replay?_concat {texts : List String} (replayed : opening.replay? texts = some position)
    (written : ∃ text, MoveRequest.ofText? text = .ok request)
    (accepted : position.accepts request = true) :
    opening.replay? (texts ++ [request.text]) = some (position.apply request) := by
  obtain ⟨text, read⟩ := written
  have again : (MoveRequest.ofText? request.text).toOption = some request := by
    rw [MoveRequest.ofText?_text read]
    rfl
  obtain ⟨requests, parsed, followed⟩ := Option.bind_eq_some_iff.mp replayed
  have parsedAll : (texts ++ [request.text]).mapM (fun text => (MoveRequest.ofText? text).toOption) =
      some (requests ++ [request]) := by
    rw [List.mapM_append, parsed]
    simp [again]
  rw [replay?, parsedAll, Option.bind_some]
  exact follow?_concat_eq_some.mpr ⟨position, followed, accepted, rfl⟩

/-- Moves that are followed from an opening make a game. -/
theorem Game.of_follow? (followed : opening.follow? requests = some position) :
    ∃ boards, Game opening boards position ∧ boards.length = requests.length + 1 := by
  induction requests using List.reverseRecOn generalizing position with
  | nil =>
    cases followed
    exact ⟨_, .start, rfl⟩
  | append_singleton requests request ih =>
    obtain ⟨before, earlier, accepted, rfl⟩ := follow?_concat_eq_some.mp followed
    obtain ⟨boards, game, counted⟩ := ih earlier
    refine ⟨_, game.move accepted, ?_⟩
    rw [List.length_append, counted, List.length_append]
    rfl

/-- Where a move is allowed and the game is not over, a request is accepted. -/
theorem exists_accepted (undecided : position.outcome = none) (possible : position.moves ≠ []) :
    ∃ request, position.accepts request = true := by
  obtain ⟨move, member⟩ := List.exists_mem_of_ne_nil _ possible
  refine ⟨.ofMove move, ?_⟩
  rw [accepts, undecided, MoveRequest.move?_ofMove]
  exact Board.mem_moves.mp member

/-- Nothing is accepted once the game is over. -/
theorem not_accepts_of_outcome (decided : position.outcome ≠ none) (request : MoveRequest) :
    position.accepts request = false := by
  rw [accepts, Option.isNone_eq_false_iff.mpr (Option.isSome_iff_ne_none.mpr decided), Bool.false_and]

end Position

end ChessArbiter
