import ChessArbiter.Proofs.Chess.Notation
import ChessArbiter.Proofs.Text.Spelling

/-! # The grammar of moves

A move is written as a file, a rank, a file and a rank, and for a promotion the letter of the piece, small
or capital (`Move.Spelling`). A text names a move exactly if it is a spelling of it but for the blanks
around it. Reading cuts the text without asking for more than its length and that it is ASCII
(`MoveRequest.ofText?_eq_ok_iff`), so that more texts than these are read as requests; what was read has
the text that it was read from, and is read from it again.
-/

namespace ChessArbiter

/-- The two characters that name a square, a letter from `a` to `h` for its file and a digit from `1` to
`8` for its rank. -/
structure Square.Named (square : Square) (file rank : Char) : Prop where
  file_eq : "abcdefgh".toList[square.file.val]? = some file
  rank_eq : "12345678".toList[square.rank.val]? = some rank

/-- The letters that name a piece to promote to. -/
def Promotion.letters : Promotion → List Char
  | .queen => ['q', 'Q']
  | .rook => ['r', 'R']
  | .bishop => ['b', 'B']
  | .knight => ['n', 'N']

/-- How a move is written. -/
inductive Move.Spelling (move : Move) : List Char → Prop
  | plain {a b c d : Char} (source : move.source.Named a b) (target : move.target.Named c d)
      (unpromoted : move.promotion = none) : Spelling move [a, b, c, d]
  | promoting {a b c d e : Char} {promotion : Promotion} (source : move.source.Named a b)
      (target : move.target.Named c d) (promotes : move.promotion = some promotion)
      (letter : e ∈ promotion.letters) : Spelling move [a, b, c, d, e]

namespace Square

variable {square : Square} {a b : Char} {rest : List Char}

theorem named_iff : square.Named a b ↔ a = square.fileLetter ∧ b = square.rankDigit := by
  have letters : ∀ file rank : Fin 8,
      "abcdefgh".toList[file.val]? = some (fileLetter ⟨file, rank⟩) ∧
      "12345678".toList[rank.val]? = some (rankDigit ⟨file, rank⟩) := by decide +kernel
  obtain ⟨file, rank⟩ := letters square.file square.rank
  constructor
  · rintro ⟨fileToo, rankToo⟩
    exact ⟨Option.some.inj (fileToo.symm.trans file), Option.some.inj (rankToo.symm.trans rank)⟩
  · rintro ⟨rfl, rfl⟩
    exact ⟨file, rank⟩

/-- One of eight characters in a row, by its distance from the first. -/
private theorem eq_ofNat_of_range {c : Char} {first : Nat} (low : first ≤ c.toNat)
    (high : c.toNat < first + 8) : c = Char.ofNat (first + (Fin.ofNat 8 (c.toNat - first)).val) := by
  have place : first + (c.toNat - first) % 8 = c.toNat := by omega
  rw [Fin.val_ofNat, place, Char.ofNat_toNat]

/-- A text begins with the name of the square that is read from it. -/
theorem ofName?_eq_some_iff : ofName? (a :: b :: rest) = some square ↔ square.Named a b := by
  rw [named_iff]
  constructor
  · intro read
    simp only [ofName?, Option.ite_none_right_eq_some] at read
    obtain ⟨⟨⟨fromA, toH⟩, from1, to8⟩, made⟩ := read
    obtain rfl := Option.some.inj made
    exact ⟨eq_ofNat_of_range fromA (Nat.lt_succ_of_le toH),
      eq_ofNat_of_range from1 (Nat.lt_succ_of_le to8)⟩
  · rintro ⟨rfl, rfl⟩
    exact ofName?_name square

/-- The characters of a name are visible. -/
theorem Named.visible (named : square.Named a b) : Visible a ∧ Visible b := by
  have read : ofName? [a, b] = some square := ofName?_eq_some_iff.mpr named
  obtain ⟨letter, digit, rest, spells⟩ := exists_spells read
  cases spells.written
  exact ⟨spells.letter_visible, spells.digit_visible⟩

end Square

theorem Promotion.visible_of_mem_letters {promotion : Promotion} {letter : Char}
    (member : letter ∈ promotion.letters) : Visible letter := by
  have each : ∀ letter ∈ promotion.letters, 0x20 < letter.toNat ∧ letter.toNat < 0x7F := by
    cases promotion <;> simp [Promotion.letters]
  exact ⟨(each letter member).1, (each letter member).2⟩

theorem Move.Spelling.visible {move : Move} {chars : List Char} (spelling : move.Spelling chars) :
    ∀ c ∈ chars, Visible c := by
  cases spelling with
  | plain source target _ =>
    simp only [List.forall_mem_cons]
    exact ⟨source.visible.1, source.visible.2, target.visible.1, target.visible.2,
      List.forall_mem_nil _⟩
  | promoting source target _ letter =>
    simp only [List.forall_mem_cons]
    exact ⟨source.visible.1, source.visible.2, target.visible.1, target.visible.2,
      Promotion.visible_of_mem_letters letter, List.forall_mem_nil _⟩

namespace MoveRequest

variable {request : MoveRequest} {move : Move} {promotion : Promotion} {text : String} {e : Char}

/-- A piece is named by its letter of either case. -/
theorem promotionOfText?_eq_some_iff :
    promotionOfText? (String.ofList [e]) = some promotion ↔ e ∈ promotion.letters := by
  have lower : promotionOfText? (String.ofList [e]) = some promotion ↔ e.toLower = promotion.letter := by
    rw [promotionOfText?, String.toList_ofList, Text.lowerAscii, List.map_singleton]
    constructor
    · intro found
      have same := List.find?_some found
      exact List.singleton_inj.mp (beq_iff_eq.mp same)
    · intro same
      rw [same]
      cases promotion <;> rfl
  rw [lower]
  cases promotion <;>
    simp only [Promotion.letters, Promotion.letter, List.mem_cons, List.not_mem_nil, or_false] <;>
    exact toLower_eq_iff (by decide) (by decide)

/-- A request names a move exactly if the characters that were cut into it are a spelling of the move. -/
theorem Cut.move?_eq_ok_iff {chars : List Char} (cut : Cut request chars) :
    request.move? = .ok move ↔ move.Spelling chars := by
  rw [MoveRequest.move?_eq_ok_iff]
  cases cut with
  | four =>
    rw [String.toList_ofList, String.toList_ofList, Square.ofName?_eq_some_iff,
      Square.ofName?_eq_some_iff]
    constructor
    · rintro ⟨source, target, promoted⟩
      exact .plain source target (Except.ok.inj promoted).symm
    · rintro (⟨source, target, unpromoted⟩ | _)
      exact ⟨source, target, congrArg Except.ok unpromoted.symm⟩
  | five =>
    rw [String.toList_ofList, String.toList_ofList, Square.ofName?_eq_some_iff,
      Square.ofName?_eq_some_iff]
    constructor
    · rintro ⟨source, target, promoted⟩
      rcases promotion_of_promotion? promoted with ⟨absent, _⟩ | ⟨_, piece, ⟨⟩, promotes, found⟩
      · cases absent
      · exact .promoting source target promotes (promotionOfText?_eq_some_iff.mp found)
    · rintro (_ | ⟨source, target, promotes, letter⟩)
      refine ⟨source, target, ?_⟩
      have found := promotionOfText?_eq_some_iff.mpr letter
      simp only [MoveRequest.promotion?, found, promotes]

/-- A spelling has four or five characters. -/
theorem exists_cut_of_spelling {chars : List Char} (spelling : move.Spelling chars) :
    ∃ request, Cut request chars := by
  cases spelling with
  | plain => exact ⟨_, .four⟩
  | promoting => exact ⟨_, .five⟩

/-- A text names a move exactly if it is a spelling of it but for the blanks around it. -/
theorem exists_move?_iff :
    (∃ request, ofText? text = .ok request ∧ request.move? = .ok move) ↔
      move.Spelling (Text.trimList text.toList) := by
  constructor
  · rintro ⟨request, read, named⟩
    exact (ofText?_eq_ok_iff.mp read).1.move?_eq_ok_iff.mp named
  · intro spelling
    have ascii : ∀ c ∈ Text.trimList text.toList, c.toNat < 128 := fun c member =>
      (spelling.visible c member).ascii.trans (by decide)
    obtain ⟨request, cut⟩ := exists_cut_of_spelling spelling
    exact ⟨request, ofText?_eq_ok_iff.mpr ⟨cut, ascii⟩, cut.move?_eq_ok_iff.mpr spelling⟩

/-- A text is read and then understood as a move exactly if, without the blanks around it, it is a file, a
rank, a file and a rank, and for a promotion the letter of the piece; and it is understood as the move
that these name. Whatever is read, understood or not, has the text without the blanks around it, and is
read from its own text again. -/
theorem reads_spellings :
    (∀ (text : String) (move : Move),
      (∃ request, ofText? text = .ok request ∧ request.move? = .ok move) ↔
        move.Spelling (Text.trimList text.toList)) ∧
    ∀ (text : String) (request : MoveRequest), ofText? text = .ok request →
      request.text = Text.trim text ∧ ofText? request.text = .ok request :=
  ⟨fun _ _ => exists_move?_iff, fun _ _ read => ⟨text_of_ofText? read, ofText?_text read⟩⟩

/-- A promotion with a capital between a tab and a space that does not break, and four letters that are
read but name no square. -/
theorem reads_spellings_of_capital :
    (∃ request, ofText? "\ta7a8Q\u00a0" = .ok request ∧
      request.move? = .ok ⟨⟨0, 6⟩, ⟨0, 7⟩, some .queen⟩ ∧ request.text = "a7a8Q" ∧
      ofText? request.text = .ok request) ∧
    ∃ request, ofText? " zzzz\n" = .ok request ∧ request.move? = .error .sourceSquare ∧
      request.text = "zzzz" ∧ ofText? request.text = .ok request := by
  obtain ⟨spellings, back⟩ := reads_spellings
  have chars : Text.trimList "\ta7a8Q\u00a0".toList = ['a', '7', 'a', '8', 'Q'] := by decide +kernel
  have spelling : (⟨⟨0, 6⟩, ⟨0, 7⟩, some .queen⟩ : Move).Spelling ['a', '7', 'a', '8', 'Q'] :=
    .promoting ⟨by decide +kernel, by decide +kernel⟩ ⟨by decide +kernel, by decide +kernel⟩ rfl
      (by decide)
  obtain ⟨request, read, named⟩ := (spellings _ _).mpr (chars.symm ▸ spelling)
  obtain ⟨letters, unread⟩ : ∃ request, ofText? " zzzz\n" = .ok request := ⟨_, rfl⟩
  have trimmed : Text.trim "\ta7a8Q\u00a0" = "a7a8Q" := by decide +kernel
  have trimmedToo : Text.trim " zzzz\n" = "zzzz" := by decide +kernel
  have unnamed : letters.move? = .error .sourceSquare := by
    cases unread
    decide +kernel
  obtain ⟨text, again⟩ := back _ _ read
  obtain ⟨textToo, againToo⟩ := back _ _ unread
  exact ⟨⟨request, read, named, text.trans trimmed, again⟩,
    ⟨letters, unread, unnamed, textToo.trans trimmedToo, againToo⟩⟩

end MoveRequest

end ChessArbiter
