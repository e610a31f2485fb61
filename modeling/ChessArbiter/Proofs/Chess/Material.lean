import Mathlib.Data.List.Nodup
import Mathlib.Data.List.Perm.Subperm
import ChessArbiter.Proofs.Chess.Orderly

/-! # Boards without mating material

A bare placement holds kings, bishops and knights only, and either three pieces at most or, besides the
kings, only bishops that stand on squares of one shade. These are the placements of insufficient
material.

A bishop strikes at squares of its own shade and a knight at squares of the other, so that one that
checks a king guards none of the squares that share an edge with the king's. No other piece guards all
of these, but for a knight two squares off along the diagonal of a king in a corner.
-/

namespace ChessArbiter

namespace Square

/-- The squares that share an edge with a square. -/
def beside (square : Square) : List Square :=
  [(1, 0), (-1, 0), (0, 1), (0, -1)].filterMap fun (files, ranks) => square.offset? files ranks

/-- Whether a king is in a corner, and a knight two squares away from it along the diagonal. -/
def cornered (king knight : Square) : Bool :=
  king.beside.length == 2 && king.onDiagonal knight && (king.filesTo knight).natAbs == 2

variable {king target other : Square}

theorem ne_of_adjoins (touches : king.adjoins target = true) : target ≠ king := by
  simp only [adjoins, Bool.and_eq_true, bne_iff_ne] at touches
  exact touches.1.1.symm

theorem isDark_of_onDiagonal (diagonal : other.onDiagonal target = true) :
    target.isDark = other.isDark := by
  simp only [onDiagonal, filesTo, ranksTo, Bool.and_eq_true, beq_iff_eq] at diagonal
  rw [Bool.eq_iff_iff, isDark, isDark, beq_iff_eq, beq_iff_eq]
  omega

theorem isDark_of_knightApart (apart : other.knightApart target = true) :
    target.isDark = !other.isDark := by
  simp only [knightApart, filesTo, ranksTo, Bool.or_eq_true, Bool.and_eq_true, beq_iff_eq] at apart
  rw [Bool.eq_iff_iff, isDark, isDark, Bool.not_eq_true', beq_iff_eq, beq_eq_false_iff_ne]
  omega

theorem adjoins_of_mem_beside (member : target ∈ king.beside) :
    king.adjoins target = true ∧ target.isDark = !king.isDark := by
  have checked : (all.all fun king => king.beside.all fun target =>
      king.adjoins target && target.isDark == !king.isDark) = true := by decide +kernel
  have checked := List.all_eq_true.mp (List.all_eq_true.mp checked king (mem_all king)) target member
  rwa [Bool.and_eq_true, beq_iff_eq] at checked

/-- What a check of all pairs of squares says of one pair. -/
private theorem of_all_pairs {holds : Square → Square → Bool}
    (checked : (all.all fun first => all.all fun second => holds first second) = true)
    (first second : Square) : holds first second = true :=
  List.all_eq_true.mp (List.all_eq_true.mp checked first (mem_all first)) second (mem_all second)

private theorem exists_beside {guards apart : Square → Square → Bool}
    (checked : (all.all fun king => all.all fun other =>
      apart king other || king.beside.any fun target => !guards other target) = true)
    (near : apart king other = false) : ∃ target ∈ king.beside, guards other target = false := by
  have checked := of_all_pairs checked king other
  rw [near, Bool.false_or, List.any_eq_true] at checked
  obtain ⟨target, member, free⟩ := checked
  exact ⟨target, member, (Bool.not_eq_true' _).mp free⟩

theorem exists_beside_ne (king other : Square) : ∃ target ∈ king.beside, target ≠ other := by
  obtain ⟨target, member, apart⟩ := @exists_beside king other (· == ·) (fun _ _ => false)
    (by decide +kernel) rfl
  exact ⟨target, member, (beq_eq_false_iff_ne.mp apart).symm⟩

theorem exists_beside_of_bishop (king bishop : Square) :
    ∃ target ∈ king.beside, bishop.onDiagonal target = false :=
  @exists_beside king bishop onDiagonal (fun _ _ => false) (by decide +kernel) rfl

theorem exists_beside_of_king {enemy : Square} (differ : king ≠ enemy)
    (apart : king.adjoins enemy = false) : ∃ target ∈ king.beside, enemy.adjoins target = false :=
  @exists_beside king enemy adjoins (fun king enemy => king == enemy || king.adjoins enemy)
    (by decide +kernel) (by rw [apart, Bool.or_false, beq_eq_false_iff_ne]; exact differ)

/-- A knight guards all squares beside a king only where it corners the king. -/
theorem exists_beside_of_knight (king knight : Square) :
    (∃ target ∈ king.beside, knight.knightApart target = false) ∨ king.cornered knight = true := by
  cases trapped : king.cornered knight with
  | false => exact .inl (@exists_beside king knight knightApart cornered (by decide +kernel) trapped)
  | true => exact .inr rfl

/-- The knight leaves the square between itself and the king unguarded. What strikes at a king in a corner
strikes at that square only from farther along the diagonal, where the knight stands between. -/
theorem exists_of_cornered {knight : Square} (trapped : king.cornered knight = true) (other : Square) :
    ∃ target, king.adjoins target = true ∧ knight.knightApart target = false ∧
      (other.knightApart king = true → other.knightApart target = false) ∧
      (other.onDiagonal king = true →
        other = target ∨ other = knight ∨ knight ∈ other.between king) := by
  have checked : (all.all fun king => all.all fun knight => !king.cornered knight ||
      (king.between knight).any fun target =>
        king.adjoins target && !knight.knightApart target && all.all fun other =>
          (!other.knightApart king || !other.knightApart target) &&
            (!other.onDiagonal king || other == target || other == knight ||
              (other.between king).contains knight)) = true := by decide +kernel
  have checked := of_all_pairs checked king knight
  simp only [trapped, Bool.not_true, Bool.false_or, List.any_eq_true, Bool.and_eq_true,
    Bool.or_eq_true, Bool.not_eq_true', beq_iff_eq, List.contains_iff_mem, List.all_eq_true] at checked
  obtain ⟨target, -, ⟨beside, unguarded⟩, others⟩ := checked
  obtain ⟨near, along⟩ := others other (mem_all other)
  refine ⟨target, beside, unguarded, fun struck => ?_, fun diagonal => ?_⟩
  · exact near.resolve_left (by simp [struck])
  · simpa [diagonal, or_assoc] using along

end Square

/-- What a knight, a king or a piece that moves along lines would strike at on an empty board. -/
def Kind.aims : Kind → Square → Square → Bool
  | .knight, source, target => source.knightApart target
  | .king, source, target => source.adjoins target
  | kind, source, target => kind.sweeps source target

namespace Kind

variable {kind : Kind} {source king target other : Square}

/-- A bishop or a knight aims at squares of one shade. -/
theorem isDark_of_aims (light : kind = .bishop ∨ kind = .knight)
    (first : kind.aims source king = true) (second : kind.aims source target = true) :
    target.isDark = king.isDark := by
  rcases light with rfl | rfl
  · rw [Square.isDark_of_onDiagonal first, Square.isDark_of_onDiagonal second]
  · rw [Square.isDark_of_knightApart first, Square.isDark_of_knightApart second]

/-- A bishop or a knight that checks a king guards no square that shares an edge with the king's. -/
theorem not_aims_beside (light : kind = .bishop ∨ kind = .knight)
    (check : kind.aims source king = true) (member : target ∈ king.beside) :
    kind.aims source target = false := by
  rw [Bool.eq_false_iff]
  intro guards
  have same := isDark_of_aims light check guards
  rw [(Square.adjoins_of_mem_beside member).2] at same
  simp at same

/-- A king, a bishop or a knight leaves some square beside a king unguarded, or is a knight that has
cornered the king. -/
theorem exists_beside_not_aims (minor : kind = .king ∨ kind = .bishop ∨ kind = .knight)
    (differ : king ≠ other) (apart : kind = .king → king.adjoins other = false) :
    (∃ target ∈ king.beside, kind.aims other target = false) ∨
      kind = .knight ∧ king.cornered other = true := by
  rcases minor with rfl | rfl | rfl
  · exact .inl (Square.exists_beside_of_king differ (apart rfl))
  · exact .inl (Square.exists_beside_of_bishop king other)
  · exact (Square.exists_beside_of_knight king other).imp_right (⟨rfl, ·⟩)

end Kind

namespace Placement

variable {placement : Placement} {source target square : Square} {piece : Piece}

theorem aims_of_attacks (found : placement.piece source = some piece) (notPawn : piece.kind ≠ .pawn)
    (attacks : placement.attacks source target = true) : piece.kind.aims source target = true := by
  simp only [Placement.attacks, found] at attacks
  obtain ⟨colour, kind⟩ := piece
  cases kind with
  | pawn => exact absurd rfl notPawn
  | knight => exact attacks
  | king => exact attacks
  | _ => exact (Bool.and_eq_true_iff.mp attacks).1

theorem mem_pieces {entry : Square × Piece} :
    entry ∈ placement.pieces ↔ placement.piece entry.1 = some entry.2 := by
  obtain ⟨square, piece⟩ := entry
  simp only [pieces, List.mem_filterMap, Square.mem_all, true_and, Option.map_eq_some_iff,
    Prod.mk.injEq]
  constructor
  · rintro ⟨_, _, found, rfl, rfl⟩
    exact found
  · intro found
    exact ⟨square, piece, found, rfl, rfl⟩

theorem countKind_eq_zero_iff {kind : Kind} : placement.countKind kind = 0 ↔
    ∀ square piece, placement.piece square = some piece → piece.kind ≠ kind := by
  simp only [countKind, List.countP_eq_zero, Prod.forall, mem_pieces, beq_iff_eq, ne_eq]

theorem mem_bishopSquares : square ∈ placement.bishopSquares ↔
    ∃ piece, placement.piece square = some piece ∧ piece.kind = .bishop := by
  simp only [bishopSquares, List.mem_map, List.mem_filter, mem_pieces, beq_iff_eq, Prod.exists,
    exists_and_right, exists_eq_right]

/-- The squares on which pieces stand. -/
def occupied (placement : Placement) : List Square :=
  Square.all.filter fun square => (placement.piece square).isSome

theorem mem_occupied : square ∈ placement.occupied ↔ placement.piece square ≠ none := by
  simp only [occupied, List.mem_filter, Square.mem_all, true_and, Option.isSome_iff_ne_none]

theorem nodup_occupied (placement : Placement) : placement.occupied.Nodup :=
  Square.nodup_all.filter _

theorem length_pieces (placement : Placement) :
    placement.pieces.length = placement.occupied.length := by
  simp only [pieces, occupied, List.length_filterMap_eq_countP, Option.isSome_map,
    List.countP_eq_length_filter]

/-- Where three pieces are left at most, any two of them leave room for one third only. -/
theorem exists_third {first second : Square} (few : placement.occupied.length ≤ 3)
    (stands : placement.piece first ≠ none) (standsToo : placement.piece second ≠ none)
    (differ : second ≠ first) : ∃ third piece, placement.piece third = some piece ∧ third ≠ first ∧
      ∀ square, placement.piece square ≠ none →
        square = first ∨ square = second ∨ square = third := by
  by_cases another : ∃ third, placement.piece third ≠ none ∧ third ≠ first ∧ third ≠ second
  · obtain ⟨third, standsThere, notFirst, notSecond⟩ := another
    obtain ⟨piece, found⟩ := Option.ne_none_iff_exists'.mp standsThere
    refine ⟨third, piece, found, notFirst, fun square occupied => ?_⟩
    by_contra others
    push Not at others
    have distinct : [square, third, second, first].Nodup := by
      simp [others, notFirst, notSecond, differ]
    have present : [square, third, second, first] ⊆ placement.occupied := by
      simp only [List.cons_subset, List.nil_subset, and_true, mem_occupied]
      exact ⟨occupied, standsThere, standsToo, stands⟩
    have four := (List.subperm_of_subset distinct present).length_le
    simp only [List.length_cons, List.length_nil] at four
    omega
  · push Not at another
    obtain ⟨piece, found⟩ := Option.ne_none_iff_exists'.mp standsToo
    refine ⟨second, piece, found, differ, fun square occupied => ?_⟩
    by_cases same : square = first
    · exact .inl same
    · exact .inr (.inl (another square occupied same))

/-- Nothing but kings, bishops and knights is left, and either three pieces at most or, besides the kings,
only bishops on squares of one shade. -/
structure Bare (placement : Placement) : Prop where
  minor : ∀ square piece, placement.piece square = some piece →
    piece.kind = .king ∨ piece.kind = .bishop ∨ piece.kind = .knight
  weak : placement.occupied.length ≤ 3 ∨ ∃ dark, ∀ square piece,
    placement.piece square = some piece → piece.kind ≠ .king →
      piece.kind = .bishop ∧ square.isDark = dark

theorem Bare.notPawn (bare : placement.Bare) (found : placement.piece square = some piece) :
    piece.kind ≠ .pawn := by
  intro pawn
  have minor := bare.minor square piece found
  simp [pawn] at minor

theorem heavy_eq_zero_iff :
    placement.countKind .pawn + placement.countKind .rook + placement.countKind .queen = 0 ↔
      ∀ square piece, placement.piece square = some piece →
        piece.kind = .king ∨ piece.kind = .bishop ∨ piece.kind = .knight := by
  simp only [Nat.add_eq_zero_iff, countKind_eq_zero_iff]
  constructor
  · rintro ⟨⟨noPawn, noRook⟩, noQueen⟩ square ⟨colour, kind⟩ found
    cases kind with
    | pawn => exact absurd rfl (noPawn _ _ found)
    | rook => exact absurd rfl (noRook _ _ found)
    | queen => exact absurd rfl (noQueen _ _ found)
    | _ => simp
  · intro minor
    refine ⟨⟨?_, ?_⟩, ?_⟩
    all_goals
      intro square piece found
      rcases minor square piece found with kind | kind | kind <;> simp [kind]

theorem bishops_of_one_shade_iff :
    (placement.bishopSquares.all (·.isDark) = true ∨ placement.bishopSquares.all (!·.isDark) = true) ↔
      ∃ dark, ∀ square piece, placement.piece square = some piece → piece.kind = .bishop →
        square.isDark = dark := by
  simp only [List.all_eq_true, mem_bishopSquares, Bool.not_eq_true',
    forall_exists_index, and_imp, Bool.exists_bool]
  exact or_comm

theorem insufficientMaterial_iff : placement.insufficientMaterial = true ↔ placement.Bare := by
  simp only [insufficientMaterial, Bool.and_eq_true, Bool.or_eq_true, beq_iff_eq, decide_eq_true_eq,
    heavy_eq_zero_iff, length_pieces, countKind_eq_zero_iff, bishops_of_one_shade_iff]
  constructor
  · rintro ⟨minor, weak⟩
    refine ⟨minor, weak.imp_right ?_⟩
    rintro ⟨noKnight, dark, shade⟩
    refine ⟨dark, fun square piece found notKing => ?_⟩
    have bishop := ((minor square piece found).resolve_left notKing).resolve_right
      (noKnight square piece found)
    exact ⟨bishop, shade square piece found bishop⟩
  · rintro ⟨minor, weak⟩
    refine ⟨minor, weak.imp_right ?_⟩
    rintro ⟨dark, bishops⟩
    refine ⟨fun square piece found knight => ?_, dark, fun square piece found bishop => ?_⟩
    · have bishop := (bishops square piece found (by simp [knight])).1
      cases knight.symm.trans bishop
    · exact (bishops square piece found (by simp [bishop])).2

end Placement

end ChessArbiter
