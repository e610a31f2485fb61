import Mathlib.Data.List.Chain
import ChessArbiter.Chess.Fen
import ChessArbiter.Proofs.Text.Blank

/-! # Placements and their texts

A placement is read again from its own text. Ranks are followed square by square: `Placement.copy` lays
the pieces of one placement on squares of another, and reading the text of a rank from its first square
copies that rank (`readFrom_writeRank`). The induction over the ranks carries what has been copied so
far; what is left is still empty.
-/

namespace ChessArbiter

open Text

namespace Square

theorem ahead_zero (square : Square) : square.ahead 0 = square := by
  obtain ⟨file, rank⟩ := square
  simp [ahead]

theorem ahead_ahead (square : Square) (first second : Nat) :
    (square.ahead first).ahead second = square.ahead (first + second) := by
  simp only [ahead, mk.injEq, and_true]
  apply Fin.ext
  simp [Fin.val_add]
  omega

/-- So many squares of a rank, one after the other. -/
def run (square : Square) : Nat → List Square
  | 0 => []
  | count + 1 => square :: (square.ahead 1).run count

theorem run_rank (rank : Fin 8) :
    (⟨0, rank⟩ : Square).run 8 = (List.finRange 8).map fun file => ⟨file, rank⟩ := rfl

end Square

theorem Piece.ofLetter?_letter (piece : Piece) : ofLetter? piece.letter = some piece := by
  obtain ⟨colour, kind⟩ := piece
  cases colour <;> cases kind <;> decide

theorem Piece.letter_of_ofLetter? {letter : Char} {piece : Piece} (named : ofLetter? letter = some piece) :
    letter = piece.letter := by
  unfold ofLetter? at named
  have same := List.find?_some named
  exact (eq_of_beq same).symm

namespace Placement

variable {placement other : Placement} {cursor square : Square}

theorem ext_piece (same : ∀ square, placement.piece square = other.piece square) :
    placement = other := by
  obtain ⟨cells⟩ := placement
  obtain ⟨others⟩ := other
  congr 1
  apply Vector.ext
  intro index small
  have place : index / 8 * 8 + index % 8 = index := by omega
  have here := same ⟨⟨index % 8, by omega⟩, ⟨index / 8, by omega⟩⟩
  simpa only [piece, Square.index, Fin.getElem_fin, place] using here

theorem piece_empty (square : Square) : empty.piece square = none := by
  simp [empty, piece]

/-! ## Laying pieces on squares -/

/-- The placement with the piece of another on a square, where that has one. -/
def lay (source : Placement) (placement : Placement) (square : Square) : Placement :=
  match source.piece square with
  | none => placement
  | some piece => placement.put square (some piece)

/-- The placement with the pieces of another on the given squares. -/
def copy (source placement : Placement) (squares : List Square) : Placement :=
  squares.foldl source.lay placement

theorem piece_lay (source placement : Placement) (square query : Square) :
    (source.lay placement square).piece query =
      if square = query then (source.piece query).or (placement.piece query)
      else placement.piece query := by
  unfold lay
  split
  · next bare =>
    split
    · next same => rw [← same, bare, Option.none_or]
    · rfl
  · next piece found =>
    rw [piece_put]
    split
    · next same => rw [← same, found, Option.some_or]
    · rfl

theorem piece_copy (source placement : Placement) (squares : List Square) (query : Square) :
    (source.copy placement squares).piece query =
      if query ∈ squares then (source.piece query).or (placement.piece query)
      else placement.piece query := by
  induction squares generalizing placement with
  | nil => rfl
  | cons square rest ih =>
    rw [copy, List.foldl_cons, ← copy, ih, piece_lay]
    by_cases same : square = query
    · subst same
      cases source.piece square <;> simp
    · simp [same, Ne.symm same]

/-! ## Reading a rank -/

theorem readChar_letter (placement : Placement) (cursor : Square) (piece : Piece) :
    readChar placement cursor piece.letter =
      some (placement.put cursor (some piece), cursor.ahead 1) := by
  have plain : piece.letter ≠ '/' ∧ skip? piece.letter = none := by
    obtain ⟨colour, kind⟩ := piece
    cases colour <;> cases kind <;> decide
  rw [readChar, if_neg plain.1, plain.2, Piece.ofLetter?_letter]
  rfl

theorem readFrom_writeGap {gap : Nat} (small : gap ≤ 8) (placement : Placement) (cursor : Square)
    (rest : List Char) :
    readFrom placement cursor (writeGap gap ++ rest) = readFrom placement (cursor.ahead gap) rest := by
  have digit : ∀ gap : Fin 9, gap.val ≠ 0 → digits gap = [Nat.digitChar gap] ∧
      Nat.digitChar gap ≠ '/' ∧ skip? (Nat.digitChar gap) = some gap.val := by decide +kernel
  rw [writeGap]
  split
  · next none => rw [none, Square.ahead_zero, List.nil_append]
  · next some =>
    obtain ⟨written, notSlash, skips⟩ := digit ⟨gap, by omega⟩ some
    dsimp only at written notSlash skips
    rw [written, List.singleton_append, readFrom, readChar, if_neg notSlash, skips]

/-- From the text of squares, behind a gap, the pieces on them are read. -/
theorem readFrom_writeRank (source : Placement) (count gap : Nat) (small : gap + count ≤ 8)
    (placement : Placement) (cursor : Square) (rest : List Char) :
    readFrom placement cursor
        (writeRank gap (((cursor.ahead gap).run count).map source.piece) ++ rest) =
      readFrom (source.copy placement ((cursor.ahead gap).run count)) (cursor.ahead (gap + count))
        rest := by
  induction count generalizing gap placement cursor with
  | zero => exact readFrom_writeGap small placement cursor rest
  | succ count ih =>
    -- An empty square widens the gap; a piece is read behind the gap, and the next gap begins.
    have next : (cursor.ahead gap).ahead 1 = cursor.ahead (gap + 1) := Square.ahead_ahead ..
    have last : gap + (count + 1) = gap + 1 + count := by omega
    rw [Square.run, List.map_cons, copy, List.foldl_cons, ← copy, next, last]
    cases found : source.piece (cursor.ahead gap) with
    | none =>
      have bare : source.lay placement (cursor.ahead gap) = placement := by rw [lay, found]
      rw [writeRank, bare]
      exact ih (gap + 1) (by omega) placement cursor
    | some piece =>
      have laid : source.lay placement (cursor.ahead gap) =
          placement.put (cursor.ahead gap) (some piece) := by rw [lay, found]
      have later := ih 0 (by omega) (placement.put (cursor.ahead gap) (some piece))
        (cursor.ahead (gap + 1))
      rw [Square.ahead_zero, Nat.zero_add, Square.ahead_ahead] at later
      rw [writeRank, List.append_assoc, List.cons_append, readFrom_writeGap (by omega), readFrom,
        readChar_letter, laid, next]
      exact later

/-! ## Reading the ranks -/

theorem rank_eq_run (source : Placement) (rank : Fin 8) :
    source.rank rank = ((⟨0, rank⟩ : Square).run 8).map source.piece := rfl

theorem mem_run_rank {rank : Fin 8} : square ∈ (⟨0, rank⟩ : Square).run 8 ↔ square.rank = rank := by
  rw [Square.run_rank, List.mem_map]
  constructor
  · rintro ⟨file, _, rfl⟩
    rfl
  · rintro rfl
    exact ⟨square.file, List.mem_finRange _, rfl⟩

/-- From the text of a rank, the pieces on it are read, and the cursor is where it was. -/
theorem readFrom_rank (source placement : Placement) (rank : Fin 8) (rest : List Char) :
    readFrom placement ⟨0, rank⟩ (writeRank 0 (source.rank rank) ++ rest) =
      readFrom (source.copy placement ((⟨0, rank⟩ : Square).run 8)) ⟨0, rank⟩ rest := by
  have around : (⟨0, rank⟩ : Square).ahead (0 + 8) = ⟨0, rank⟩ := rfl
  have read := readFrom_writeRank source 8 0 (by decide) placement ⟨0, rank⟩ rest
  rwa [Square.ahead_zero, ← rank_eq_run, around] at read

/-- The ranks of a placement have been read but for those that are left. -/
structure AllBut (source placement : Placement) (ranks : List (Fin 8)) : Prop where
  left : ∀ square, square.rank ∈ ranks → placement.piece square = none
  read : ∀ square, square.rank ∉ ranks → placement.piece square = source.piece square

/-- After one more rank has been read, the ranks that are left are one fewer. -/
theorem AllBut.copy_rank {source : Placement} {rank : Fin 8} {rest : List (Fin 8)}
    (before : AllBut source placement (rank :: rest)) (new : rank ∉ rest) :
    AllBut source (source.copy placement ((⟨0, rank⟩ : Square).run 8)) rest := by
  constructor
  · intro square later
    have notHere : square.rank ≠ rank := fun same => new (same ▸ later)
    rw [piece_copy, if_neg (mt mem_run_rank.mp notHere)]
    exact before.left square (List.mem_cons_of_mem _ later)
  · intro square earlier
    rw [piece_copy]
    by_cases here : square.rank = rank
    · rw [if_pos (mem_run_rank.mpr here), before.left square (here ▸ List.mem_cons_self), Option.or_none]
    · rw [if_neg (mt mem_run_rank.mp here)]
      exact before.read square (List.not_mem_cons_of_ne_of_not_mem here earlier)

/-- Where all ranks but those that are left have been read, the text of these completes the placement. -/
theorem AllBut.readFrom_ranks {source : Placement} {rank : Fin 8} {rest : List (Fin 8)}
    (before : AllBut source placement (rank :: rest)) (distinct : (rank :: rest).Nodup)
    (descends : (rank :: rest).IsChain (fun a b => b = a - 1)) :
    readFrom placement ⟨0, rank⟩
        (['/'].intercalate ((rank :: rest).map fun rank => writeRank 0 (source.rank rank))) =
      some source := by
  induction rest generalizing rank placement with
  | nil =>
    have after := before.copy_rank List.not_mem_nil
    have complete : source.copy placement ((⟨0, rank⟩ : Square).run 8) = source :=
      ext_piece fun square => after.read square List.not_mem_nil
    have read := readFrom_rank source placement rank []
    rw [List.append_nil, complete] at read
    rw [List.map_singleton, List.intercalate_singleton]
    exact read
  | cons next rest ih =>
    obtain ⟨new, distinct⟩ := List.nodup_cons.mp distinct
    obtain ⟨below, descends⟩ := List.isChain_cons_cons.mp descends
    have down : (⟨0, rank⟩ : Square).nextRank = ⟨0, next⟩ := by rw [Square.nextRank, below]
    rw [List.map_cons, List.map_cons, List.intercalate_cons_cons, List.append_assoc,
      readFrom_rank, List.singleton_append, readFrom, readChar, if_pos rfl, down]
    exact ih (before.copy_rank new) distinct descends

theorem descending_ranks : (List.finRange 8).reverse = [7, 6, 5, 4, 3, 2, 1, 0] := by decide

/-- A placement is read again from its text. -/
theorem read?_write (placement : Placement) : read? placement.write = some placement := by
  have unread : AllBut placement .empty [7, 6, 5, 4, 3, 2, 1, 0] := by
    refine ⟨fun square _ => piece_empty square, fun square read => ?_⟩
    rw [← descending_ranks] at read
    exact (read (List.mem_reverse.mpr (List.mem_finRange square.rank))).elim
  rw [read?, write, descending_ranks]
  exact unread.readFrom_ranks (by decide) (by decide)

theorem write_ne_nil (placement : Placement) : placement.write ≠ [] := by
  rw [write, descending_ranks, List.map_cons, List.map_cons, List.intercalate_cons_cons]
  simp

theorem isBlank_of_readChar {c : Char} {next : Placement × Square}
    (stepped : readChar placement cursor c = some next) : isBlank c = false := by
  unfold readChar at stepped
  split at stepped
  · next slash =>
    rw [slash]
    decide
  · split at stepped
    · next files skips =>
      unfold skip? at skips
      split at skips
      · next range =>
        apply isBlank_of_isDigit
        simp only [Char.isDigit, Char.le_def, UInt32.le_iff_toNat_le, Bool.and_eq_true,
          decide_eq_true_eq, ge_iff_le] at range ⊢
        exact ⟨Nat.le_trans (by decide) range.1, Nat.le_trans range.2 (by decide)⟩
      · cases skips
    · obtain ⟨⟨colour, kind⟩, named, _⟩ := Option.map_eq_some_iff.mp stepped
      rw [Piece.letter_of_ofLetter? named]
      cases colour <;> cases kind <;> decide

/-- What is read as a placement holds no blanks. -/
theorem unbroken_of_readFrom {text : List Char} (read : readFrom placement cursor text = some other) :
    ∀ c ∈ text, isBlank c = false := by
  induction text generalizing placement cursor with
  | nil => exact List.forall_mem_nil _
  | cons c rest ih =>
    rw [readFrom] at read
    split at read
    · next stepped => exact List.forall_mem_cons.mpr ⟨isBlank_of_readChar stepped, ih read⟩
    · cases read

theorem solid_write (placement : Placement) : Solid placement.write :=
  ⟨placement.write_ne_nil, unbroken_of_readFrom placement.read?_write⟩

end Placement

end ChessArbiter
