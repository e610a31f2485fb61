import ChessArbiter.Proofs.Chess.RoundTrip

/-! # Where the counters of a FEN stand

The board of a FEN is read from the first four of its fields, which single spaces separate. Its counters
are the fifth and the sixth of its words, which blanks of any kind separate. No word goes beyond a field,
and the first two fields are words, so these are the third and the fourth word of the fields that follow.
They are the fifth and the sixth field if the third and the fourth hold two words together, as in every
FEN that is written here. Where they hold fewer or more, an empty field or one with a tab in it, there are
numbers that are not read as the counters although they stand in the fifth and the sixth field.
-/

namespace ChessArbiter

open Text

/-- The fields of a FEN: the four that describe the board, and those that follow. -/
structure FenFields where
  placement : List Char
  turn : List Char
  rights : List Char
  passer : List Char
  rest : List (List Char)

namespace FenFields

def list (cut : FenFields) : List (List Char) :=
  cut.placement :: cut.turn :: cut.rights :: cut.passer :: cut.rest

/-- The text that has these fields. -/
def text (cut : FenFields) : List Char :=
  [' '].intercalate cut.list

/-- The board that the first four fields describe, whether or not it is sound. -/
def board? (cut : FenFields) : Option Board :=
  Board.ofFields? cut.placement cut.turn cut.rights cut.passer

/-- The same fields as far as they describe the board, with two numbers behind them. -/
def counting (cut : FenFields) (halfmoveClock fullmoveNumber : Nat) : FenFields :=
  { cut with rest := [digits halfmoveClock, digits fullmoveNumber] }

/-- The words between the side to move and what follows the fields of the board. -/
def middle (cut : FenFields) : List (List Char) :=
  words cut.rights ++ words cut.passer

/-- The castling rights and the pawn that may be captured in passing are two words together. -/
def Aligned (cut : FenFields) : Prop :=
  cut.middle.length = 2

instance (cut : FenFields) : Decidable cut.Aligned :=
  inferInstanceAs (Decidable (_ = _))

end FenFields

/-- The number that stands in a field, the default where there is no field or no numeral below `2 ^ 32`
in it. -/
def countOf (field? : Option (List Char)) (default : Nat) : Nat :=
  ((field?.bind natural32?).map (·.toNat)).getD default

theorem countOf_digits {n : Nat} (default : Nat) (small : n < UInt32.size) :
    countOf (some (digits n)) default = n := by
  rw [countOf, Option.bind_some, natural32?_digits small, Option.getD_some]

/-- What is read as a side to move is one letter. -/
theorem Colour.solid_of_read? {field : List Char} {turn : Colour} (read : Colour.read? field = some turn) :
    Solid field := by
  unfold Colour.read? at read
  split at read
  · next c =>
    have letter : c = 'w' ∨ c = 'W' ∨ c = 'b' ∨ c = 'B' := by grind
    rcases letter with rfl | rfl | rfl | rfl <;> exact .of_all (by decide) (by decide)
  · cases read

namespace Board

variable {board : Board} {text : List Char}

/-- A board is read if the first four fields describe it and it is sound. -/
theorem read?_eq_ok_iff : Board.read? text = .ok board ↔
    ∃ cut : FenFields, fields text = cut.list ∧ cut.board? = some board ∧ board.isSound = true := by
  unfold Board.read?
  constructor
  · intro read
    dsimp only at read
    split at read
    · next found described =>
      split at described
      · next placement turn rights passer rest cut =>
        split at read
        · next sound =>
          obtain rfl := Except.ok.inj read
          exact ⟨⟨placement, turn, rights, passer, rest⟩, cut, described, sound⟩
        · cases read
      · cases described
    · cases read
  · rintro ⟨⟨placement, turn, rights, passer, rest⟩, cut, described, sound⟩
    rw [cut]
    dsimp only [FenFields.list, FenFields.board?] at described ⊢
    rw [described]
    exact if_pos sound

end Board

namespace FenFields

variable {cut : FenFields} {board : Board} {text : List Char}

theorem solid_turn (described : cut.board? = some board) : Solid cut.turn := by
  simp only [board?, Board.ofFields?, Option.bind_eq_bind, Option.bind_eq_some_iff] at described
  obtain ⟨_, _, _, turn, _⟩ := described
  exact Colour.solid_of_read? turn

/-- Kings stand on a sound board, so that its placement is not empty. -/
theorem solid_placement (described : cut.board? = some board) (sound : board.isSound = true) :
    Solid cut.placement := by
  simp only [board?, Board.ofFields?, Option.bind_eq_bind, Option.bind_eq_some_iff] at described
  obtain ⟨placement, read, turn, _, made⟩ := described
  obtain rfl := Option.some.inj made
  refine ⟨?_, Placement.unbroken_of_readFrom read⟩
  intro empty
  rw [empty] at read
  obtain rfl := Option.some.inj read
  simp only [Board.isSound, Bool.and_eq_true, beq_iff_eq] at sound
  obtain ⟨⟨⟨⟨⟨white, _⟩, _⟩, _⟩, _⟩, _⟩ := sound
  obtain ⟨king, has⟩ := Placement.exists_hasKing white
  have stands := (has king).mpr rfl
  rw [Placement.piece_empty] at stands
  cases stands

/-- The words of a text are those of its fields. -/
theorem words_eq (fields_eq : fields text = cut.list) (placement : Solid cut.placement)
    (turn : Solid cut.turn) :
    words text = cut.placement :: cut.turn :: (cut.middle ++ cut.rest.flatMap words) := by
  rw [words_eq_flatMap_fields, fields_eq, list, List.flatMap_cons, List.flatMap_cons,
    List.flatMap_cons, List.flatMap_cons, placement.words_eq, turn.words_eq, middle,
    List.append_assoc]
  rfl

/-- The fields of a text stay what they are with other numbers behind them. -/
theorem fields_counting (fields_eq : fields text = cut.list) (halfmoveClock fullmoveNumber : Nat) :
    fields (cut.counting halfmoveClock fullmoveNumber).text =
      (cut.counting halfmoveClock fullmoveNumber).list := by
  apply List.splitOn_intercalate
  · have unspaced : ∀ field ∈ cut.list, ' ' ∉ field := fun _ member =>
      unspaced_of_mem_fields (fields_eq ▸ member)
    have number (n : Nat) : ' ' ∉ digits n := fun member => by
      cases isDigit_of_mem_digits ' ' member
    simp only [list, List.forall_mem_cons] at unspaced
    simp only [counting, list, List.forall_mem_cons]
    exact ⟨unspaced.1, unspaced.2.1, unspaced.2.2.1, unspaced.2.2.2.1, number _, number _,
      List.forall_mem_nil _⟩
  · exact List.cons_ne_nil _ _

/-- Two words stand in front of what follows the fields of the board. -/
theorem Aligned.getElem?_append (aligned : cut.Aligned) (behind : List (List Char)) :
    (cut.middle ++ behind)[2]? = behind[0]? ∧ (cut.middle ++ behind)[3]? = behind[1]? := by
  have two : cut.middle.length = 2 := aligned
  rw [List.getElem?_append_right (by omega), List.getElem?_append_right (by omega), two]
  exact ⟨rfl, rfl⟩

/-- Where not two words stand in front of them, the second of two numbers is not looked at. -/
theorem getElem?_append_of_not_aligned (unaligned : ¬ cut.Aligned) (first second other : List Char) :
    (cut.middle ++ [first, second])[3]? = (cut.middle ++ [first, other])[3]? := by
  have notTwo : cut.middle.length ≠ 2 := unaligned
  by_cases within : 3 < cut.middle.length
  · rw [List.getElem?_append_left within, List.getElem?_append_left within]
  · rw [List.getElem?_append_right (by omega), List.getElem?_append_right (by omega)]
    obtain three | one | none : 3 - cut.middle.length = 0 ∨ 3 - cut.middle.length = 2 ∨
        3 - cut.middle.length = 3 := by omega
    · rw [three]; rfl
    · rw [one]; rfl
    · rw [none]; rfl

end FenFields

/-- Fields that are words by themselves are the first words of all fields together. -/
theorem getElem?_flatMap_words {rest : List (List Char)} (solid : ∀ field ∈ rest.take 2, Solid field) :
    (rest.flatMap words)[0]? = rest[0]? ∧ (rest.flatMap words)[1]? = rest[1]? := by
  match rest, solid with
  | [], _ => exact ⟨rfl, rfl⟩
  | [first], solid =>
    rw [List.flatMap_singleton, (solid first List.mem_cons_self).words_eq]
    exact ⟨rfl, rfl⟩
  | first :: second :: rest, solid =>
    have solidFirst : Solid first := solid first List.mem_cons_self
    have solidSecond : Solid second := solid second (List.mem_cons_of_mem _ List.mem_cons_self)
    rw [List.flatMap_cons, List.flatMap_cons, solidFirst.words_eq, solidSecond.words_eq]
    exact ⟨rfl, rfl⟩

namespace Position

variable {fen : String} {position : Position} {cut : FenFields} {board : Board} {text : List Char}

/-- The position that a text describes, by the words behind its first two fields. -/
theorem ofFen?_of_fields (fields_eq : fields fen.toList = cut.list)
    (described : cut.board? = some board) (sound : board.isSound = true) :
    ofFen? fen = .ok (ofBoard board (countOf (cut.middle ++ cut.rest.flatMap words)[2]? 0)
      (countOf (cut.middle ++ cut.rest.flatMap words)[3]? 1)) := by
  have placement := FenFields.solid_placement described sound
  have turn := FenFields.solid_turn described
  have read := Board.read?_eq_ok_iff.mpr ⟨cut, fields_eq, described, sound⟩
  rw [ofFen?, read]
  dsimp only
  rw [counter, counter, FenFields.words_eq fields_eq placement turn]
  rfl

/-- The position that the first four fields of a text describe with two numbers behind them. -/
theorem ofFen?_counting (fields_eq : fields text = cut.list) (described : cut.board? = some board)
    (sound : board.isSound = true) (halfmoveClock fullmoveNumber : Nat) :
    ofFen? (String.ofList (cut.counting halfmoveClock fullmoveNumber).text) =
      .ok (ofBoard board
        (countOf (cut.middle ++ [digits halfmoveClock, digits fullmoveNumber])[2]? 0)
        (countOf (cut.middle ++ [digits halfmoveClock, digits fullmoveNumber])[3]? 1)) := by
  have fields_again : fields (String.ofList (cut.counting halfmoveClock fullmoveNumber).text).toList =
      (cut.counting halfmoveClock fullmoveNumber).list := by
    rw [String.toList_ofList]
    exact FenFields.fields_counting fields_eq halfmoveClock fullmoveNumber
  have numbers : (cut.counting halfmoveClock fullmoveNumber).rest.flatMap words =
      [digits halfmoveClock, digits fullmoveNumber] := by
    rw [FenFields.counting, List.flatMap_cons, List.flatMap_singleton, (solid_digits _).words_eq,
      (solid_digits _).words_eq]
    rfl
  rw [ofFen?_of_fields fields_again described sound, numbers]
  rfl

/-- All numbers in the fifth and the sixth field are read as the counters exactly if the third and the
fourth field hold two words together. -/
theorem aligned_iff (fields_eq : fields text = cut.list) (described : cut.board? = some board)
    (sound : board.isSound = true) :
    cut.Aligned ↔ ∀ halfmoveClock fullmoveNumber, halfmoveClock < UInt32.size →
      fullmoveNumber < UInt32.size → ∃ other,
        ofFen? (String.ofList (cut.counting halfmoveClock fullmoveNumber).text) = .ok other ∧
          other.halfmoveClock = halfmoveClock ∧ other.fullmoveNumber = fullmoveNumber := by
  constructor
  · intro aligned halfmoveClock fullmoveNumber small smallToo
    obtain ⟨fifth, sixth⟩ :=
      aligned.getElem?_append [digits halfmoveClock, digits fullmoveNumber]
    refine ⟨_, ofFen?_counting fields_eq described sound halfmoveClock fullmoveNumber, ?_, ?_⟩
    · exact (congrArg (countOf · 0) fifth).trans (countOf_digits 0 small)
    · exact (congrArg (countOf · 1) sixth).trans (countOf_digits 1 smallToo)
  · intro read
    by_contra unaligned
    -- the number of the move is the same for the two numbers that are written, so one is misread
    obtain ⟨zero, readZero, -, isZero⟩ := read 0 0 (by decide) (by decide)
    obtain ⟨one, readOne, -, isOne⟩ := read 0 1 (by decide) (by decide)
    rw [ofFen?_counting fields_eq described sound] at readZero readOne
    rw [← Except.ok.inj readZero] at isZero
    rw [← Except.ok.inj readOne,
      FenFields.getElem?_append_of_not_aligned unaligned _ _ (digits 0)] at isOne
    exact absurd (isZero.symm.trans isOne) (by decide)

/-- The board of a FEN is read from its first four fields, and its counters are the third and the fourth
word behind the first two, 0 and 1 where these are missing or no numerals. They are what stands in the
fifth and the sixth field if the third and the fourth hold two words together, and the fifth and the
sixth are words as far as there are such. This condition cannot be dropped: for all numbers in the fifth
and the sixth field to be read as the counters, the third and the fourth have to hold two words. -/
theorem counters_of_fields (read : ofFen? fen = .ok position) :
    ∃ cut : FenFields, fields fen.toList = cut.list ∧ cut.board? = some position.board ∧
      position.halfmoveClock = countOf (cut.middle ++ cut.rest.flatMap words)[2]? 0 ∧
      position.fullmoveNumber = countOf (cut.middle ++ cut.rest.flatMap words)[3]? 1 ∧
      (cut.Aligned → (∀ field ∈ cut.rest.take 2, Solid field) →
        position.halfmoveClock = countOf cut.rest[0]? 0 ∧
          position.fullmoveNumber = countOf cut.rest[1]? 1) ∧
      (cut.Aligned ↔ ∀ halfmoveClock fullmoveNumber, halfmoveClock < UInt32.size →
        fullmoveNumber < UInt32.size → ∃ other,
          ofFen? (String.ofList (cut.counting halfmoveClock fullmoveNumber).text) = .ok other ∧
            other.halfmoveClock = halfmoveClock ∧ other.fullmoveNumber = fullmoveNumber) := by
  obtain ⟨board, found, made⟩ := exists_of_ofFen? read
  obtain ⟨cut, fields_eq, described, sound⟩ := Board.read?_eq_ok_iff.mp found
  obtain rfl := Except.ok.inj (read.symm.trans (ofFen?_of_fields fields_eq described sound))
  refine ⟨cut, fields_eq, described, rfl, rfl, ?_, aligned_iff fields_eq described sound⟩
  intro aligned solid
  obtain ⟨third, fourth⟩ := aligned.getElem?_append (cut.rest.flatMap words)
  obtain ⟨first, second⟩ := getElem?_flatMap_words solid
  exact ⟨congrArg (countOf · 0) (third.trans first), congrArg (countOf · 1) (fourth.trans second)⟩

/-- No castling rights are written, and a tab stands where there could be a pawn: still two words. -/
theorem counters_of_fields_of_tab :
    ∃ position cut, ofFen? "4k3/8/8/8/8/8/8/4K3 w  -\t- 3 7" = .ok position ∧
      fields "4k3/8/8/8/8/8/8/4K3 w  -\t- 3 7".toList = FenFields.list cut ∧
      cut.rest = [['3'], ['7']] ∧ cut.Aligned ∧ position.halfmoveClock = 3 ∧
      position.fullmoveNumber = 7 := by
  obtain ⟨position, read⟩ :
      ∃ position, ofFen? "4k3/8/8/8/8/8/8/4K3 w  -\t- 3 7" = .ok position := ⟨_, rfl⟩
  have cutAt : fields "4k3/8/8/8/8/8/8/4K3 w  -\t- 3 7".toList =
      ["4k3/8/8/8/8/8/8/4K3".toList, ['w'], [], "-\t-".toList, ['3'], ['7']] := by decide +kernel
  obtain ⟨⟨placement, turn, rights, passer, rest⟩, fields_eq, -, -, -, tidy, -⟩ :=
    counters_of_fields read
  have known := cutAt.symm.trans fields_eq
  simp only [FenFields.list, List.cons.injEq] at known
  obtain ⟨rfl, rfl, rfl, rfl, rfl⟩ := known
  have aligned : FenFields.Aligned ⟨"4k3/8/8/8/8/8/8/4K3".toList, ['w'], [], "-\t-".toList,
      [['3'], ['7']]⟩ := by decide +kernel
  obtain ⟨halfmoveClock, fullmoveNumber⟩ := tidy aligned (by
    simp only [List.take_succ_cons, List.take_zero, List.forall_mem_cons]
    exact ⟨.of_all (by decide) (by decide), .of_all (by decide) (by decide), List.forall_mem_nil _⟩)
  exact ⟨position, _, read, fields_eq, rfl, aligned, halfmoveClock, fullmoveNumber⟩

/-- An empty field for the castling rights shifts the counters: the number of the move is read as the
half-move clock. -/
theorem shifted_counters :
    ∃ position cut, ofFen? "4k3/8/8/8/8/8/8/4K3 w  - 3 7" = .ok position ∧
      fields "4k3/8/8/8/8/8/8/4K3 w  - 3 7".toList = FenFields.list cut ∧
      countOf cut.rest[0]? 0 = 3 ∧ countOf cut.rest[1]? 1 = 7 ∧ position.halfmoveClock = 7 ∧
      position.fullmoveNumber = 1 :=
  ⟨_, ⟨"4k3/8/8/8/8/8/8/4K3".toList, ['w'], [], ['-'], [['3'], ['7']]⟩, rfl, by decide +kernel,
    by decide +kernel, by decide +kernel, by decide +kernel, by decide +kernel⟩

end Position

end ChessArbiter
