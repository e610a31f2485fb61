import ChessArbiter.Proofs.Chess.Replay

/-! # Requests that read back

A request names squares by the first two characters of its parts, whatever follows them; its text has all
of it. So the text of a request that names a move is read back as that move exactly if the request is
`Plain`: both squares are written with two characters, but for blanks that end the text. What was read
from a text is plain.
-/

namespace ChessArbiter

/-- A character that is neither blank nor beyond ASCII. -/
structure Visible (c : Char) : Prop where
  inked : 0x20 < c.toNat
  ascii : c.toNat < 0x7F

theorem Visible.unblank {c : Char} (visible : Visible c) : Text.isBlank c = false := by
  obtain ⟨inked, ascii⟩ := visible
  simp only [Text.isBlank, Bool.or_eq_false_iff, Bool.and_eq_false_iff, decide_eq_false_iff_not,
    beq_eq_false_iff_ne]
  omega

/-- The text of a square: two visible characters that name it, whatever follows them. -/
structure Square.Spells (square : Square) (chars : List Char) (letter digit : Char)
    (rest : List Char) : Prop where
  written : chars = letter :: digit :: rest
  letter_visible : Visible letter
  digit_visible : Visible digit
  read : ∀ other, ofName? (letter :: digit :: other) = some square

theorem Square.exists_spells {square : Square} {chars : List Char}
    (read : ofName? chars = some square) :
    ∃ letter digit rest, square.Spells chars letter digit rest := by
  match chars, read with
  | letter :: digit :: rest, read =>
    have bounds := read
    simp only [ofName?, Option.ite_none_right_eq_some] at bounds
    obtain ⟨⟨⟨fromA, toH⟩, from1, to8⟩, -⟩ := bounds
    have letters : 97 ≤ letter.toNat ∧ letter.toNat ≤ 104 := ⟨fromA, toH⟩
    have digits : 49 ≤ digit.toNat ∧ digit.toNat ≤ 56 := ⟨from1, to8⟩
    exact ⟨letter, digit, rest, rfl, ⟨by omega, by omega⟩, ⟨by omega, by omega⟩, fun _ => read⟩

namespace MoveRequest

variable {request read : MoveRequest} {move : Move} {text : String}

/-- A piece to promote to is named by one visible character. -/
theorem exists_of_promotionOfText? {promotion : Promotion}
    (named : promotionOfText? text = some promotion) :
    ∃ letter, text = String.ofList [letter] ∧ Visible letter := by
  have lower := List.find?_some named
  simp only [Text.lowerAscii, beq_iff_eq, List.map_eq_singleton_iff] at lower
  obtain ⟨letter, written, small⟩ := lower
  refine ⟨letter, by rw [← written, String.ofList_toList], ?_⟩
  unfold Char.toLower at small
  split at small
  · next capital =>
    have range : 65 ≤ letter.toNat ∧ letter.toNat ≤ 90 := capital
    exact ⟨by omega, by omega⟩
  · subst small
    cases promotion <;> exact ⟨by decide, by decide⟩

/-- A request names a move by naming its squares and, where it asks for one, the piece. -/
theorem move?_eq_ok_iff : request.move? = .ok move ↔
    Square.ofName? request.source.toList = some move.source ∧
      Square.ofName? request.target.toList = some move.target ∧
      request.promotion? = .ok move.promotion := by
  obtain ⟨source, target, promotion⟩ := move
  unfold MoveRequest.move?
  cases Square.ofName? request.source.toList with
  | none => simp
  | some source' =>
    cases Square.ofName? request.target.toList with
    | none => simp
    | some target' =>
      cases asked : request.promotion? with
      | error error => simp [Bind.bind, Except.bind]
      | ok promotion' => simp [Bind.bind, Except.bind, pure, Except.pure]

/-- A request promotes exactly if it asks for a piece. -/
theorem promotion_of_promotion? {promotion : Option Promotion}
    (asked : request.promotion? = .ok promotion) :
    request.promotion = none ∧ promotion = none ∨
      ∃ text piece, request.promotion = some text ∧ promotion = some piece ∧
        promotionOfText? text = some piece := by
  unfold MoveRequest.promotion? at asked
  split at asked
  · next none =>
    cases asked
    exact .inl ⟨none, rfl⟩
  · next text some =>
    split at asked
    · next piece named =>
      cases asked
      exact .inr ⟨text, piece, some, rfl, named⟩
    · cases asked

/-- Both squares are written with two characters, but for blanks that end the text. -/
def Plain (request : MoveRequest) : Prop :=
  request.source.toList.length = 2 ∧
    (if request.promotion.isNone then Text.trimList request.target.toList
      else request.target.toList).length = 2

instance (request : MoveRequest) : Decidable request.Plain :=
  inferInstanceAs (Decidable (_ ∧ _))

/-- The request into which four or five characters are cut. -/
inductive Cut : MoveRequest → List Char → Prop
  | four {a b c d : Char} : Cut ⟨String.ofList [a, b], String.ofList [c, d], none⟩ [a, b, c, d]
  | five {a b c d e : Char} :
      Cut ⟨String.ofList [a, b], String.ofList [c, d], some (String.ofList [e])⟩ [a, b, c, d, e]

/-- What is read from a text is what it is cut into without the blanks around it, if that is ASCII. -/
theorem ofText?_eq_ok_iff : ofText? text = .ok request ↔
    Cut request (Text.trimList text.toList) ∧ ∀ c ∈ Text.trimList text.toList, c.toNat < 128 := by
  unfold ofText?
  dsimp only
  generalize Text.trimList text.toList = trimmed
  have all : trimmed.all (·.toNat < 128) = true ↔ ∀ c ∈ trimmed, c.toNat < 128 := by
    simp only [List.all_eq_true, decide_eq_true_eq]
  constructor
  · intro read
    split at read
    · next fits =>
      obtain ⟨ascii, length⟩ := fits
      obtain rfl := Except.ok.inj read
      refine ⟨?_, all.mp ascii⟩
      rcases length with four | five
      · match trimmed, four with
        | [_, _, _, _], _ => exact .four
      · match trimmed, five with
        | [_, _, _, _, _], _ => exact .five
    · cases read
  · rintro ⟨cut, ascii⟩
    cases cut with
    | four => exact if_pos ⟨all.mpr ascii, .inl rfl⟩
    | five => exact if_pos ⟨all.mpr ascii, .inr rfl⟩

section Reading

variable {a b c d e : Char}

/-- What is read has four or five characters but for blanks around them, and a fifth one asks for a
piece. -/
theorem length_of_ofText? (read : ofText? text = .ok request) :
    (Text.trimList text.toList).length = if request.promotion.isNone then 4 else 5 := by
  have cut := (ofText?_eq_ok_iff.mp read).1
  generalize Text.trimList text.toList = trimmed at cut
  cases cut with
  | four => rfl
  | five => rfl

private theorem ofText?_four (trimmed : Text.trimList text.toList = [a, b, c, d])
    (visible : ∀ character ∈ [a, b, c, d], Visible character) :
    ofText? text = .ok ⟨String.ofList [a, b], String.ofList [c, d], none⟩ := by
  rw [ofText?_eq_ok_iff, trimmed]
  exact ⟨.four, fun character member => (visible character member).ascii.trans (by decide)⟩

private theorem ofText?_five (trimmed : Text.trimList text.toList = [a, b, c, d, e])
    (visible : ∀ character ∈ [a, b, c, d, e], Visible character) :
    ofText? text =
      .ok ⟨String.ofList [a, b], String.ofList [c, d], some (String.ofList [e])⟩ := by
  rw [ofText?_eq_ok_iff, trimmed]
  exact ⟨.five, fun character member => (visible character member).ascii.trans (by decide)⟩

end Reading

/-- The text of a request without the blanks around it, where its squares are spelled. -/
private theorem trimList_text {source target : Square} {a b c d : Char} {behind after : List Char}
    (spellsSource : source.Spells request.source.toList a b behind)
    (spellsTarget : target.Spells request.target.toList c d after) :
    Text.trimList request.text.toList =
      a :: ((b :: behind ++ [c]) ++
        d :: (after ++ (request.promotion.getD "").toList).rdropWhile Text.isBlank) := by
  have written : request.text.toList =
      a :: ((b :: behind ++ [c]) ++ d :: (after ++ (request.promotion.getD "").toList)) := by
    simp only [MoveRequest.text, String.toList_append, spellsSource.written, spellsTarget.written,
      List.cons_append, List.append_assoc, List.nil_append]
  rw [written]
  exact Text.trimList_append_cons _ _ spellsSource.letter_visible.unblank
    spellsTarget.digit_visible.unblank

/-- A request that asks for no piece is read back if nothing but blanks follows its squares. -/
private theorem reads_back_iff_of_none {a b c d : Char} {behind after : List Char}
    (spellsSource : move.source.Spells request.source.toList a b behind)
    (spellsTarget : move.target.Spells request.target.toList c d after)
    (unasked : request.promotion = none) (unpromoted : move.promotion = none) :
    (∃ read, ofText? request.text = .ok read ∧ read.move? = .ok move) ↔ request.Plain := by
  have trimmed := trimList_text spellsSource spellsTarget
  have target : Text.trimList request.target.toList = c :: d :: after.rdropWhile Text.isBlank := by
    rw [spellsTarget.written]
    exact Text.trimList_append_cons [] after spellsTarget.letter_visible.unblank
      spellsTarget.digit_visible.unblank
  rw [unasked, Option.getD_none, String.toList_empty, List.append_nil] at trimmed
  rw [Plain, unasked, Option.isNone_none, if_pos rfl, target, spellsSource.written]
  generalize after.rdropWhile Text.isBlank = kept at trimmed
  constructor
  · rintro ⟨read, parsed, same⟩
    have unread : read.promotion = none := by
      rcases promotion_of_promotion? (move?_eq_ok_iff.mp same).2.2 with
        ⟨unread, -⟩ | ⟨_, _, -, promoted, -⟩
      · exact unread
      · cases unpromoted.symm.trans promoted
    have length := length_of_ofText? parsed
    rw [trimmed, unread, Option.isNone_none, if_pos rfl] at length
    simp only [List.length_cons, List.length_append, List.length_nil] at length ⊢
    omega
  · rintro ⟨short, shortTarget⟩
    obtain rfl : behind = [] := List.length_eq_zero_iff.mp (by simpa using short)
    obtain rfl : kept = [] := List.length_eq_zero_iff.mp (by simpa using shortTarget)
    have parsed := ofText?_four trimmed (by
      simp only [List.mem_cons, List.not_mem_nil, or_false, forall_eq_or_imp, forall_eq]
      exact ⟨spellsSource.letter_visible, spellsSource.digit_visible, spellsTarget.letter_visible,
        spellsTarget.digit_visible⟩)
    refine ⟨_, parsed, move?_eq_ok_iff.mpr ⟨?_, ?_, ?_⟩⟩
    · rw [String.toList_ofList]
      exact spellsSource.read []
    · rw [String.toList_ofList]
      exact spellsTarget.read []
    · exact congrArg Except.ok unpromoted.symm

/-- A request that asks for a piece is read back if nothing at all follows its squares. -/
private theorem reads_back_iff_of_some {a b c d letter : Char} {behind after : List Char}
    {piece : Promotion} (spellsSource : move.source.Spells request.source.toList a b behind)
    (spellsTarget : move.target.Spells request.target.toList c d after) (visible : Visible letter)
    (asked : request.promotion = some (String.ofList [letter]))
    (named : promotionOfText? (String.ofList [letter]) = some piece)
    (promoted : move.promotion = some piece) :
    (∃ read, ofText? request.text = .ok read ∧ read.move? = .ok move) ↔ request.Plain := by
  have trimmed := trimList_text spellsSource spellsTarget
  have inked : ¬ Text.isBlank letter = true := Bool.eq_false_iff.mp visible.unblank
  rw [asked, Option.getD_some, String.toList_ofList,
    List.rdropWhile_concat_neg Text.isBlank after letter inked] at trimmed
  rw [Plain, asked, Option.isNone_some, if_neg Bool.false_ne_true, spellsTarget.written,
    spellsSource.written]
  constructor
  · rintro ⟨read, parsed, -⟩
    have length := length_of_ofText? parsed
    rw [trimmed] at length
    simp only [List.length_cons, List.length_append, List.length_nil] at length ⊢
    split at length <;> omega
  · rintro ⟨short, shortTarget⟩
    obtain rfl : behind = [] := List.length_eq_zero_iff.mp (by simpa using short)
    obtain rfl : after = [] := List.length_eq_zero_iff.mp (by simpa using shortTarget)
    have parsed := ofText?_five trimmed (by
      simp only [List.mem_cons, List.not_mem_nil, or_false, forall_eq_or_imp, forall_eq]
      exact ⟨spellsSource.letter_visible, spellsSource.digit_visible, spellsTarget.letter_visible,
        spellsTarget.digit_visible, visible⟩)
    refine ⟨_, parsed, move?_eq_ok_iff.mpr ⟨?_, ?_, ?_⟩⟩
    · rw [String.toList_ofList]
      exact spellsSource.read []
    · rw [String.toList_ofList]
      exact spellsTarget.read []
    · simp only [MoveRequest.promotion?, named, promoted]

/-- The text of a request that names a move is read back as that move exactly if it is plain. -/
theorem reads_back_iff (named : request.move? = .ok move) :
    (∃ read, ofText? request.text = .ok read ∧ read.move? = .ok move) ↔ request.Plain := by
  obtain ⟨source, target, promotion⟩ := move?_eq_ok_iff.mp named
  obtain ⟨a, b, behind, spellsSource⟩ := Square.exists_spells source
  obtain ⟨c, d, after, spellsTarget⟩ := Square.exists_spells target
  rcases promotion_of_promotion? promotion with
    ⟨unasked, unpromoted⟩ | ⟨letters, piece, asked, promoted, namedPiece⟩
  · exact reads_back_iff_of_none spellsSource spellsTarget unasked unpromoted
  · obtain ⟨letter, rfl, visible⟩ := exists_of_promotionOfText? namedPiece
    exact reads_back_iff_of_some spellsSource spellsTarget visible asked namedPiece promoted

/-- A request that was read from a text is plain where it names a move. -/
theorem plain_of_ofText? (read : ofText? text = .ok request) (named : request.move? = .ok move) :
    request.Plain :=
  (reads_back_iff named).mp ⟨request, ofText?_text read, named⟩

end MoveRequest

end ChessArbiter
