import ChessArbiter.Proofs.Chess.Proper

/-! # What is known of checks

The close checkers are handed on from move to move and not looked for. On an orderly board that loses
nothing: any other knight or pawn than the one that has moved would have given check before. And where
they are known, every move that is allowed is proper and leaves its king unattacked, captures in passing
aside, which are judged by the lines alone.
-/

namespace ChessArbiter

namespace Board

variable {board : Board} {move : Move} {close : List Square}

namespace Proper

variable {king source : Square}

/-- Own pieces other than rooks stand after a proper move where they have landed or have stayed. -/
theorem own_placementAfter (proper : board.Proper move) (consistent : board.Consistent) {kind : Kind}
    (notRook : kind ≠ .rook) (square : Square) :
    (board.placementAfter move).piece square = some ⟨board.turn, kind⟩ ↔
      if move.target = square then board.landing move = some ⟨board.turn, kind⟩
      else move.source ≠ square ∧ board.piece square = some ⟨board.turn, kind⟩ := by
  rw [proper.piece_placementAfter consistent notRook (Piece.own_ne_enemy _ _ _),
    piece_landed_eq_some_iff]

/-- A piece that strikes from near at the enemy king after a proper move is the one that has moved: any
other would have done so before. -/
private theorem target_eq_of_attacks (proper : board.Proper move) (orderly : board.Orderly)
    (has : board.placement.HasKing board.turn.other king) (kind : Kind) (notRook : kind ≠ .rook)
    (near : kind.sweeps source king = false)
    (found : (board.placementAfter move).piece source = some ⟨board.turn, kind⟩)
    (strikes : (board.placementAfter move).attacks source king = true) : move.target = source := by
  by_contra apart
  have stood := (proper.own_placementAfter orderly.consistent notRook source).mp found
  rw [if_neg apart] at stood
  rw [Placement.attacks_congr found stood.2 near, orderly.not_attacks_king has stood.2] at strikes
  cases strikes

/-- The close checkers after a proper move, as they are computed from the move and as they stand. -/
theorem mem_closeCheckers (proper : board.Proper move) (orderly : board.Orderly) :
    source ∈ (board.placementAfter move).closeCheckers board.turn.other ↔
      (board.landing move).any (fun piece => board.strikesClose piece.kind move.target) = true ∧
        source = move.target := by
  obtain ⟨king, has⟩ := orderly.king board.turn.other
  obtain ⟨kind, mover⟩ := proper.way.exists_mover
  have stays : move.source ≠ king := Placement.ne_of_enemy mover ((has king).mpr rfl)
  have hasAfter := proper.hasKing_of_stays orderly has stays
  have landing := proper.landing_eq mover
  generalize (move.promotion.map (·.kind)).getD kind = landed at landing
  -- On both sides the piece on the target counts only as a knight or as a pawn.
  have onTarget (close : Kind) (notRook : close ≠ .rook) :
      (board.placementAfter move).piece move.target = some ⟨board.turn, close⟩ ↔ landed = close := by
    rw [proper.own_placementAfter orderly.consistent notRook, if_pos rfl, landing]
    simp
  have knight := onTarget Kind.knight (by decide)
  have pawn := onTarget Kind.pawn (by decide)
  have strikes : board.strikesClose landed move.target = true ↔
      (landed = .knight ∨ landed = .pawn) ∧
        (board.placementAfter move).attacks move.target king = true := by
    rw [strikesClose, has.squaresOf, List.any_cons, List.any_nil, Bool.or_false]
    cases landed with
    | knight => simp [Placement.attacks, knight.mpr rfl]
    | pawn => simp [Placement.attacks, pawn.mpr rfl]
    | _ => simp
  rw [hasAfter.mem_closeCheckers, Colour.other_other, landing, Option.any_some, strikes]
  constructor
  · rintro ⟨close, struck⟩
    obtain rfl : move.target = source := by
      rcases close with found | found
      · exact proper.target_eq_of_attacks orderly has .knight (by decide) rfl found struck
      · exact proper.target_eq_of_attacks orderly has .pawn (by decide) rfl found struck
    rw [knight, pawn] at close
    exact ⟨⟨close, struck⟩, rfl⟩
  · rintro ⟨⟨close, struck⟩, rfl⟩
    rw [knight, pawn]
    exact ⟨close, struck⟩

/-- What is known of close checks after a proper move is what stands on the board. -/
theorem closeAfter_eq (proper : board.Proper move) (orderly : board.Orderly) :
    board.closeAfter move = (board.placementAfter move).closeCheckers board.turn.other := by
  have distinct : ((board.placementAfter move).closeCheckers board.turn.other).Nodup :=
    Square.nodup_all.filter _
  rw [closeAfter]
  split
  · next strikes =>
    symm
    rw [← List.perm_singleton, List.perm_ext_iff_of_nodup distinct (List.nodup_singleton _)]
    intro source
    rw [proper.mem_closeCheckers orderly, List.mem_singleton]
    exact and_iff_right strikes
  · next misses =>
    symm
    rw [List.eq_nil_iff_forall_not_mem]
    intro source member
    exact misses ((proper.mem_closeCheckers orderly).mp member).1

end Proper

/-- A move of another piece than the king, after which no line is open to the king and the close checkers
are captured, leaves the king unattacked. -/
theorem Proper.unchecked (proper : board.Proper move) (orderly : board.Orderly)
    (moved : board.placementAfter move = board.landed move)
    (notKing : board.piece move.source ≠ some ⟨board.turn, .king⟩)
    (shut : ((board.landed move).lineCheckers (board.landed move) board.turn).isEmpty = true)
    (captured : (board.placement.closeCheckers board.turn).all (· == move.target) = true) :
    (board.placementAfter move).inCheck board.turn = false := by
  obtain ⟨king, has⟩ := orderly.king board.turn
  obtain ⟨enemy, hasEnemy⟩ := orderly.king board.turn.other
  obtain ⟨mover, found⟩ := proper.way.exists_mover
  have hasAfter := proper.hasKing_of_stays orderly has (mt (has _).mpr notKing)
  rw [moved] at hasAfter ⊢
  rw [Bool.eq_false_iff, ne_eq, hasAfter.inCheck_iff]
  rintro ⟨source, attacker, strikes⟩
  obtain ⟨⟨colour, kind⟩, stands, rfl⟩ := Option.map_eq_some_iff.mp attacker
  -- Whatever strikes at the king after the move has stood where it stands before: from afar it strikes
  -- along an open line, from near it was a close checker or a king that touches the other.
  have stood := (piece_landed_eq_some_iff board move source).mp stands
  split at stood
  · rw [proper.landing_eq found] at stood
    exact Piece.own_ne_enemy _ _ _ (Option.some.inj stood)
  · next apart =>
    obtain ⟨_, stood⟩ := stood
    cases sweeps : kind.sweeps source king with
    | true =>
      have line := (hasAfter.mem_lineCheckers stands).mpr
        ⟨rfl, sweeps, (Placement.attacks_of_sweeps stands sweeps) ▸ strikes⟩
      rw [List.isEmpty_iff.mp shut] at line
      cases line
    | false =>
      have struck : board.placement.attacks source king = true :=
        (Placement.attacks_congr stood stands sweeps).trans strikes
      have notClose : source ∉ board.placement.closeCheckers board.turn := fun close =>
        apart (eq_of_beq (List.all_eq_true.mp captured source close)).symm
      rw [has.mem_closeCheckers] at notClose
      cases kind with
      | pawn => exact notClose ⟨.inr stood, struck⟩
      | knight => exact notClose ⟨.inl stood, struck⟩
      | king =>
        have touches : source.adjoins king = true := (Placement.attacks_king stood).symm.trans struck
        obtain rfl := (hasEnemy source).mp stood
        rw [Square.adjoins_comm, orderly.apart has hasEnemy] at touches
        cases touches
      | _ => simp [Placement.attacks, stands, sweeps] at strikes

/-- Where a pawn goes past the recorded pawn it does not promote, so that it captures in passing. -/
theorem Way.passes (way : board.Way move) (consistent : board.Consistent)
    (found : board.piece move.source = some ⟨board.turn, .pawn⟩)
    (past : board.isEnPassant move = true) : board.passes move = true := by
  have plain : move.promotion = none := by
    apply way.promotion_eq_none
    intro _ last
    have past := past
    simp only [isEnPassant, Bool.and_eq_true, beq_iff_eq] at past
    obtain ⟨recorded, strikes⟩ := past
    have level : move.source.rank = board.turn.other.doubleRank := (consistent.passer _ recorded).1
    have ahead := Square.ranksTo_of_pawnStrikes strikes
    rw [Square.ranksTo, level, last] at ahead
    revert ahead
    cases board.turn <;> decide
  rw [Board.passes, found, plain, past]
  simp

/-- A plain move of another piece than the king moves this piece alone. -/
theorem Way.placementAfter_eq_landed (way : board.Way move) (consistent : board.Consistent)
    (notPassing : board.passes move = false)
    (notKing : board.piece move.source ≠ some ⟨board.turn, .king⟩) :
    board.placementAfter move = board.landed move := by
  obtain ⟨kind, found⟩ := way.exists_mover
  by_cases pawn : kind = .pawn
  · subst pawn
    have past : ¬ board.isEnPassant move = true := fun past =>
      Bool.false_ne_true (notPassing.symm.trans (way.passes consistent found past))
    rw [placementAfter_of_pawn found, if_neg past]
  · exact placementAfter_of_piece found pawn (if_neg notKing)

/-- On an orderly board whose close checks are known, what is allowed is proper and leaves the king of the
side to move unattacked, if captures in passing do. -/
theorem Orderly.proper_of_allows (orderly : board.Orderly)
    (known : close = board.placement.closeCheckers board.turn)
    (allowed : board.allows close move = true)
    (lawful : board.passes move = true → board.legal move = true) :
    board.Proper move ∧ (board.placementAfter move).inCheck board.turn = false := by
  have way := way_of_allows allowed
  cases passes : board.passes move with
  | true =>
    have rule := lawful passes
    simp only [legal, Bool.and_eq_true, Bool.or_eq_true, Bool.not_eq_true',
      Option.isNone_iff_eq_none] at rule
    obtain ⟨(reaches | ⟨castles, _⟩) | passing, unchecked⟩ := rule
    · exact ⟨way.proper (.inl reaches), unchecked⟩
    · exact ⟨way.proper (.inr (.inl castles)), unchecked⟩
    · exact ⟨way.proper (.inr (.inr passing)), unchecked⟩
  | false =>
    simp only [allows, allowsPassing, passes, Bool.false_and, Bool.or_false] at allowed
    have proper := proper_of_allowsPlain allowed
    have safe := (Bool.and_eq_true_iff.mp allowed).2
    refine ⟨proper, ?_⟩
    unfold isSafe at safe
    split at safe
    · exact (Bool.not_eq_true' _).mp safe
    · next notKing =>
      rw [Bool.and_eq_true, known] at safe
      have moved := way.placementAfter_eq_landed orderly.consistent passes notKing
      exact proper.unchecked orderly moved notKing safe.1 safe.2

end Board

end ChessArbiter
