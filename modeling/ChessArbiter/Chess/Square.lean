/-! # Squares of the board

Files and ranks are numbered from zero: `a1` is the square `(0, 0)`. What a piece's way of moving
asks of two squares is stated here as a relation between them, without regard to what stands there.
-/

namespace ChessArbiter

inductive Colour where
  | white
  | black
deriving DecidableEq

def Colour.other : Colour → Colour
  | .white => .black
  | .black => .white

@[simp] theorem Colour.other_other (colour : Colour) : colour.other.other = colour := by
  cases colour <;> rfl

structure Square where
  file : Fin 8
  rank : Fin 8
deriving DecidableEq

namespace Square

/-- The sixty-four squares, rank by rank from `a1`. -/
def all : List Square :=
  (List.finRange 8).flatMap fun rank => (List.finRange 8).map fun file => ⟨file, rank⟩

theorem mem_all (square : Square) : square ∈ all := by
  simp only [all, List.mem_flatMap, List.mem_map, List.mem_finRange, true_and]
  exact ⟨square.rank, square.file, rfl⟩

/-- The place of a square among all squares. -/
def index (square : Square) : Fin 64 :=
  ⟨square.rank.val * 8 + square.file.val, by omega⟩

theorem index_inj {a b : Square} (same : a.index = b.index) : a = b := by
  obtain ⟨⟨fileA, _⟩, ⟨rankA, _⟩⟩ := a
  obtain ⟨⟨fileB, _⟩, ⟨rankB, _⟩⟩ := b
  simp only [index, Fin.mk.injEq] at same
  simp only [mk.injEq, Fin.mk.injEq]
  omega

/-- The square so many files to the right and ranks up, where the board has one. -/
def offset? (square : Square) (files ranks : Int) : Option Square :=
  let file := square.file.val + files
  let rank := square.rank.val + ranks
  if inside : (0 ≤ file ∧ file < 8) ∧ 0 ≤ rank ∧ rank < 8 then
    some ⟨⟨file.toNat, by omega⟩, ⟨rank.toNat, by omega⟩⟩
  else none

/-- The files from one square to another, counted to the right. -/
def filesTo (source target : Square) : Int :=
  (target.file.val : Int) - source.file.val

/-- The ranks from one square to another, counted upward. -/
def ranksTo (source target : Square) : Int :=
  (target.rank.val : Int) - source.rank.val

/-- Two squares on a common diagonal. -/
def onDiagonal (source target : Square) : Bool :=
  source != target && (source.filesTo target).natAbs == (source.ranksTo target).natAbs

/-- Two squares on a common file or rank. -/
def onLine (source target : Square) : Bool :=
  source != target && (source.file == target.file || source.rank == target.rank)

/-- Two squares that touch. -/
def adjoins (source target : Square) : Bool :=
  source != target && (source.filesTo target).natAbs ≤ 1 && (source.ranksTo target).natAbs ≤ 1

/-- Two squares a knight's move apart. -/
def knightApart (source target : Square) : Bool :=
  let files := (source.filesTo target).natAbs
  let ranks := (source.ranksTo target).natAbs
  (files == 1 && ranks == 2) || (files == 2 && ranks == 1)

/-- The squares strictly between two squares of a common line or diagonal. -/
def between (source target : Square) : List Square :=
  let files := source.filesTo target
  let ranks := source.ranksTo target
  (List.range (max files.natAbs ranks.natAbs - 1)).filterMap fun step =>
    source.offset? (files.sign * Int.ofNat (step + 1)) (ranks.sign * Int.ofNat (step + 1))

/-- The square in the upper left corner, `a8`. -/
def upperLeft : Square :=
  ⟨0, 7⟩

/-- The square so many files to the right, wrapping around within the rank. -/
def ahead (square : Square) (files : Nat) : Square :=
  ⟨square.file + Fin.ofNat 8 files, square.rank⟩

/-- The first square of the rank below, or of the eighth below the first. -/
def nextRank (square : Square) : Square :=
  ⟨0, square.rank - 1⟩

/-- Whether a square is one of the dark ones, as `a1` is. -/
def isDark (square : Square) : Bool :=
  (square.file.val + square.rank.val) % 2 == 0

def fileLetter (square : Square) : Char :=
  Char.ofNat ('a'.toNat + square.file.val)

def rankDigit (square : Square) : Char :=
  Char.ofNat ('1'.toNat + square.rank.val)

/-- The name of a square: the letter of its file and the number of its rank. -/
def name (square : Square) : List Char :=
  [square.fileLetter, square.rankDigit]

/-- The square whose name a text begins with; what follows the name is ignored. -/
def ofName? : List Char → Option Square
  | letter :: digit :: _ =>
    if ('a' ≤ letter ∧ letter ≤ 'h') ∧ '1' ≤ digit ∧ digit ≤ '8' then
      some ⟨Fin.ofNat 8 (letter.toNat - 'a'.toNat), Fin.ofNat 8 (digit.toNat - '1'.toNat)⟩
    else none
  | _ => none

end Square

namespace Colour

/-- The direction in which pawns of a colour move. -/
def forward : Colour → Int
  | .white => 1
  | .black => -1

/-- The rank on which the pieces of a colour begin. -/
def homeRank : Colour → Fin 8
  | .white => 0
  | .black => 7

/-- The rank on which the pawns of a colour begin. -/
def pawnRank : Colour → Fin 8
  | .white => 1
  | .black => 6

/-- The rank on which a pawn of a colour lands when it moves two squares at once. -/
def doubleRank : Colour → Fin 8
  | .white => 3
  | .black => 4

end Colour

/-- The two sides of the board on which a king may castle. -/
inductive Wing where
  | king
  | queen
deriving DecidableEq

namespace Wing

/-- The file from which the rook castles. -/
def rookFile : Wing → Fin 8
  | .king => 7
  | .queen => 0

/-- The file on which the king lands. -/
def kingTarget : Wing → Fin 8
  | .king => 6
  | .queen => 2

/-- The file on which the rook lands, and over which the king passes. -/
def rookTarget : Wing → Fin 8
  | .king => 5
  | .queen => 3

end Wing

/-- The square of a colour's king before it moves. -/
def Colour.kingHome (colour : Colour) : Square :=
  ⟨4, colour.homeRank⟩

/-- The square of a colour's rook before it moves. -/
def Colour.rookHome (colour : Colour) (wing : Wing) : Square :=
  ⟨wing.rookFile, colour.homeRank⟩

/-- A pawn of the colour on the first square strikes at the second. -/
def Square.pawnStrikes (colour : Colour) (source target : Square) : Bool :=
  source.ranksTo target == colour.forward && (source.filesTo target).natAbs == 1

end ChessArbiter
