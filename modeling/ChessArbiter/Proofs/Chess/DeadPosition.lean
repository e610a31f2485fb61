import ChessArbiter.Proofs.Chess.Kings
import ChessArbiter.Proofs.Chess.Material

/-! # Dead positions

Where the material is insufficient nobody is ever mated. A bare board with its kings apart stays one with
every legal move, since a piece that moves takes its shade along and pieces only become fewer. On such a
board a king in check has a legal move: what checks it guards no square that shares an edge with the
king's, and if a third piece guards all of these it is a knight that has cornered the king, which then
goes towards the knight.
-/

namespace ChessArbiter

/-- Beside a king there is a square that the other king, if there is one, does not touch. -/
theorem Placement.KingsApart.exists_beside {placement : Placement} {colour : Colour} {king : Square}
    (kings : placement.KingsApart) (found : placement.piece king = some ⟨colour, .king⟩) :
    ∃ target ∈ king.beside, ∀ enemy,
      placement.piece enemy = some ⟨colour.other, .king⟩ → enemy.adjoins target = false := by
  by_cases stands : ∃ enemy, placement.piece enemy = some ⟨colour.other, .king⟩
  · obtain ⟨enemy, foe⟩ := stands
    obtain ⟨target, member, apart⟩ :=
      Square.exists_beside_of_king (ne_of_enemy found foe) (kings.apart _ _ _ found foe)
    refine ⟨target, member, fun other again => ?_⟩
    rwa [kings.single _ _ _ foe again]
  · obtain ⟨target, member, _⟩ := Square.exists_beside_ne king king
    exact ⟨target, member, fun enemy foe => (stands ⟨enemy, foe⟩).elim⟩

namespace Board

variable {board start after : Board} {move : Move} {king target : Square}

/-- The side to move is in check and has no legal move. -/
def Checkmated (board : Board) : Prop :=
  board.placement.inCheck board.turn = true ∧ ∀ move, board.legal move = false

/-- The boards to which legal moves lead from a board. -/
inductive Line (start : Board) : Board → Prop
  | start : Line start start
  | move {board : Board} {move : Move} (line : Line start board) (legal : board.legal move = true) :
      Line start (board.play move)

/-- A bare board with its kings apart. -/
structure Dead (board : Board) : Prop where
  consistent : board.Consistent
  kings : board.placement.KingsApart
  bare : board.placement.Bare

namespace Dead

/-- Nobody castles on a bare board, and there are no pawns: what moves reaches its target. -/
theorem reaches_of_legal (dead : board.Dead) (legal : board.legal move = true) :
    board.reaches move = true := by
  simp only [Board.legal, Bool.and_eq_true, Bool.or_eq_true] at legal
  obtain ⟨(reaches | ⟨castles, _⟩) | ⟨passes, _⟩, _⟩ := legal
  · exact reaches
  · simp only [Board.castles, Bool.and_eq_true, Option.any_eq_true] at castles
    obtain ⟨_, wing, _, ⟨right, _⟩, _⟩ := castles
    have rook := dead.bare.minor _ _ (dead.consistent.rooks _ wing right)
    simp at rook
  · simp only [Board.passes, Bool.and_eq_true, beq_iff_eq] at passes
    exact absurd rfl (dead.bare.notPawn passes.1.1)

/-- A legal move on a bare board is a king, a bishop or a knight that moves alone. -/
theorem exists_mover (dead : board.Dead) (reaches : board.reaches move = true) :
    ∃ kind, board.piece move.source = some ⟨board.turn, kind⟩ ∧
      board.landing move = some ⟨board.turn, kind⟩ ∧
      board.placement.attacks move.source move.target = true ∧
      board.placementAfter move = board.landed move := by
  obtain ⟨kind, found⟩ := (way_of_reaches reaches).exists_mover
  have notPawn := dead.bare.notPawn found
  obtain ⟨⟨_, foreign⟩, plain, attacks⟩ := (reaches_iff found notPawn).mp reaches
  refine ⟨kind, found, ?_, attacks, ?_⟩
  · rw [landing_of_foreign found foreign, plain]
    rfl
  · exact placementAfter_of_piece found notPawn (strikes_of_reaches reaches).2.2

end Dead

section Landed

variable {kind : Kind}

/-- No move adds to the pieces. -/
theorem length_occupied_landed (found : board.piece move.source ≠ none) :
    (board.landed move).occupied.length ≤ board.placement.occupied.length := by
  have origin : (board.landed move).occupied ⊆
      move.target :: board.placement.occupied.erase move.source := by
    intro square stands
    obtain ⟨piece, stands⟩ := Option.ne_none_iff_exists'.mp (Placement.mem_occupied.mp stands)
    rw [piece_landed_eq_some_iff] at stands
    split at stands
    · next landed => exact List.mem_cons.mpr (.inl landed.symm)
    · have stood := Placement.mem_occupied.mpr (Option.ne_none_iff_exists'.mpr ⟨piece, stands.2⟩)
      exact List.mem_cons_of_mem _ ((List.mem_erase_of_ne (Ne.symm stands.1)).mpr stood)
  have fewer := (List.subperm_of_subset (board.landed move).nodup_occupied origin).length_le
  have stood := Placement.mem_occupied.mpr found
  rw [List.length_cons, List.length_erase_of_mem stood] at fewer
  have positive := List.length_pos_of_mem stood
  omega

/-- A bare placement stays bare when one of its pieces moves alone. -/
theorem bare_landed (bare : board.placement.Bare)
    (found : board.piece move.source = some ⟨board.turn, kind⟩)
    (landing : board.landing move = some ⟨board.turn, kind⟩)
    (attacks : board.placement.attacks move.source move.target = true) :
    (board.landed move).Bare := by
  refine ⟨fun square piece stands => ?_, bare.weak.imp (fun few => ?_) ?_⟩
  · rw [piece_landed_eq_some_iff, landing] at stands
    split at stands
    · exact Option.some.inj stands ▸ bare.minor _ _ found
    · exact bare.minor square piece stands.2
  · exact (length_occupied_landed (by simp [found])).trans few
  · rintro ⟨dark, bishops⟩
    refine ⟨dark, fun square piece stands notKing => ?_⟩
    rw [piece_landed_eq_some_iff, landing] at stands
    split at stands
    · next landed =>
      obtain rfl := Option.some.inj stands
      obtain ⟨rfl, shade⟩ := bishops _ _ found notKing
      have diagonal : move.source.onDiagonal move.target = true :=
        Placement.aims_of_attacks found (by simp) attacks
      exact ⟨rfl, by rw [← landed, Square.isDark_of_onDiagonal diagonal, shade]⟩
    · exact bishops square piece stands.2 notKing

end Landed

namespace Dead

theorem play (dead : board.Dead) (legal : board.legal move = true) : (board.play move).Dead := by
  have reaches := dead.reaches_of_legal legal
  have way := way_of_reaches reaches
  have safe : (board.placementAfter move).inCheck board.turn = false := by
    simp only [Board.legal, Bool.and_eq_true, Bool.not_eq_true'] at legal
    exact legal.2
  obtain ⟨kind, found, landing, attacks, moved⟩ := dead.exists_mover reaches
  refine ⟨dead.consistent.play way,
    (way.proper (.inl reaches)).kingsApart dead.consistent dead.kings safe, ?_⟩
  show (board.placementAfter move).Bare
  rw [moved]
  exact bare_landed dead.bare found landing attacks

theorem of_line (dead : start.Dead) (line : Line start after) : after.Dead := by
  induction line with
  | start => exact dead
  | move _ legal ih => exact ih.play legal

/-- A king that goes to a square beside it, where nothing that is left aims at, moves legally. -/
theorem legal_of_unaimed (dead : board.Dead) (has : board.placement.HasKing board.turn king)
    (beside : king.adjoins target = true)
    (foreign : board.placement.colourAt target ≠ some board.turn)
    (unaimed : ∀ source kind, board.piece source = some ⟨board.turn.other, kind⟩ → source ≠ target →
      kind.aims source target = false) : board.legal ⟨king, target, none⟩ = true := by
  have found : board.piece king = some ⟨board.turn, .king⟩ := (has king).mpr rfl
  have attacks : board.placement.attacks king target = true :=
    (Placement.attacks_king found).trans beside
  have goes := @reaches_iff board ⟨king, target, none⟩ _ found (by simp)
  have reaches := goes.mpr ⟨⟨rfl, foreign⟩, rfl, attacks⟩
  obtain ⟨kind, mover, landing, _, moved⟩ := dead.exists_mover reaches
  have hasAfter := ((way_of_reaches reaches).proper (.inl reaches)).hasKing_of_moves dead.consistent has
  have safe : (board.placementAfter ⟨king, target, none⟩).inCheck board.turn = false := by
    rw [Bool.eq_false_iff, ne_eq, hasAfter.inCheck_iff]
    rintro ⟨source, attacker, strikes⟩
    obtain ⟨⟨colour, attacking⟩, stands, rfl⟩ := Option.map_eq_some_iff.mp attacker
    rw [moved] at stands strikes
    have stood := (piece_landed_eq_some_iff board _ source).mp stands
    rw [landing] at stood
    split at stood
    · exact Piece.own_ne_enemy _ _ _ (Option.some.inj stood)
    · next apart =>
      have notPawn := dead.bare.notPawn stood.2
      have aims := Placement.aims_of_attacks stands notPawn strikes
      rw [unaimed source attacking stood.2 (Ne.symm apart)] at aims
      cases aims
  rw [Board.legal, reaches, safe]
  rfl

/-- What checks a king of a dead board is a bishop or a knight. -/
theorem exists_checker (dead : board.Dead) (has : board.placement.HasKing board.turn king)
    (check : board.placement.inCheck board.turn = true) : ∃ checker kind,
      board.piece checker = some ⟨board.turn.other, kind⟩ ∧ (kind = .bishop ∨ kind = .knight) ∧
        board.placement.attacks checker king = true ∧ kind.aims checker king = true := by
  obtain ⟨checker, attacker, strikes⟩ := has.inCheck_iff.mp check
  obtain ⟨⟨colour, kind⟩, stands, rfl⟩ := Option.map_eq_some_iff.mp attacker
  have aims := Placement.aims_of_attacks stands (dead.bare.notPawn stands) strikes
  refine ⟨checker, kind, stands, (dead.bare.minor _ _ stands).resolve_left ?_, strikes, aims⟩
  rintro rfl
  rw [Placement.attacks_king stands, Square.adjoins_comm,
    dead.kings.apart _ _ _ ((has king).mpr rfl) stands] at strikes
  cases strikes

/-- With bishops of one shade only, a king in check goes to the other shade. -/
theorem escapes_bishops (dead : board.Dead) (has : board.placement.HasKing board.turn king)
    {checker : Square} {kind : Kind} (checks : board.piece checker = some ⟨board.turn.other, kind⟩)
    (light : kind = .bishop ∨ kind = .knight) (aims : kind.aims checker king = true) {dark : Bool}
    (bishops : ∀ square piece, board.piece square = some piece → piece.kind ≠ .king →
      piece.kind = .bishop ∧ square.isDark = dark) : ∃ move, board.legal move = true := by
  have found : board.piece king = some ⟨board.turn, .king⟩ := (has king).mpr rfl
  have notKing : kind ≠ .king := by rcases light with rfl | rfl <;> decide
  obtain ⟨rfl, shade⟩ := bishops _ _ checks notKing
  have kingShade : king.isDark = dark := (Square.isDark_of_onDiagonal aims).trans shade
  obtain ⟨target, member, farther⟩ := dead.kings.exists_beside found
  obtain ⟨beside, targetShade⟩ := Square.adjoins_of_mem_beside member
  have otherShade : target.isDark ≠ dark := by simp [targetShade, kingShade]
  refine ⟨_, dead.legal_of_unaimed has beside (fun own => ?_) fun source other stands _ => ?_⟩
  · obtain ⟨⟨_, other⟩, stands, rfl⟩ := Option.map_eq_some_iff.mp own
    by_cases isKing : other = .king
    · exact Square.ne_of_adjoins beside ((has target).mp (isKing ▸ stands))
    · exact otherShade (bishops _ _ stands isKing).2
  · by_cases isKing : other = .king
    · subst isKing
      exact farther source stands
    · obtain ⟨rfl, sourceShade⟩ := bishops _ _ stands isKing
      rw [Bool.eq_false_iff]
      exact fun guards => otherShade ((Square.isDark_of_onDiagonal guards).trans sourceShade)

/-- Of three pieces the checker and the third are the only ones that could hold the target or guard it. -/
private theorem legal_of_three (dead : board.Dead) (has : board.placement.HasKing board.turn king)
    {checker third : Square} {kind : Kind} {piece : Piece}
    (checks : board.piece checker = some ⟨board.turn.other, kind⟩)
    (stands : board.piece third = some piece)
    (only : ∀ square, board.piece square ≠ none → square = king ∨ square = checker ∨ square = third)
    (beside : king.adjoins target = true) (notOwn : piece.colour = board.turn → target ≠ third)
    (byChecker : checker ≠ target → kind.aims checker target = false)
    (byThird : piece.colour = board.turn.other → piece.kind.aims third target = false) :
    board.legal ⟨king, target, none⟩ = true := by
  have found : board.piece king = some ⟨board.turn, .king⟩ := (has king).mpr rfl
  refine dead.legal_of_unaimed has beside (fun own => ?_) fun source attacking foe apart => ?_
  · obtain ⟨occupant, occupied, colour⟩ := Option.map_eq_some_iff.mp own
    rcases only target (Option.ne_none_iff_exists'.mpr ⟨_, occupied⟩) with rfl | rfl | rfl
    · exact Square.ne_of_adjoins beside rfl
    · rw [← Option.some.inj (checks.symm.trans occupied)] at colour
      exact board.turn.ne_other colour.symm
    · rw [← Option.some.inj (stands.symm.trans occupied)] at colour
      exact notOwn colour rfl
  · rcases only source (Option.ne_none_iff_exists'.mpr ⟨_, foe⟩) with rfl | rfl | rfl
    · exact absurd rfl (Placement.ne_of_enemy found foe)
    · obtain ⟨rfl⟩ := Option.some.inj (checks.symm.trans foe)
      exact byChecker apart
    · obtain rfl := Option.some.inj (stands.symm.trans foe)
      exact byThird rfl

/-- Where three pieces are left at most, the third is the king's own and holds one square only, or it
leaves a square beside the king unguarded, or it is a knight that no piece aims past at the king. -/
theorem escapes_three (dead : board.Dead) (has : board.placement.HasKing board.turn king)
    {checker : Square} {kind : Kind} (checks : board.piece checker = some ⟨board.turn.other, kind⟩)
    (light : kind = .bishop ∨ kind = .knight)
    (strikes : board.placement.attacks checker king = true) (aims : kind.aims checker king = true)
    (few : board.placement.occupied.length ≤ 3) : ∃ move, board.legal move = true := by
  have found : board.piece king = some ⟨board.turn, .king⟩ := (has king).mpr rfl
  have differ : checker ≠ king := (Placement.ne_of_enemy found checks).symm
  obtain ⟨third, piece, stands, notKing, only⟩ := Placement.exists_third few
    (Option.ne_none_iff_exists'.mpr ⟨_, found⟩) (Option.ne_none_iff_exists'.mpr ⟨_, checks⟩) differ
  rcases piece.colour.eq_or_eq_other board.turn with own | foe
  · obtain ⟨target, member, free⟩ := Square.exists_beside_ne king third
    exact ⟨_, dead.legal_of_three has checks stands only (Square.adjoins_of_mem_beside member).1
      (fun _ => free) (fun _ => Kind.not_aims_beside light aims member)
      fun foe => (board.turn.ne_other (own.symm.trans foe)).elim⟩
  have notOwn (target : Square) (own : piece.colour = board.turn) : target ≠ third :=
    (board.turn.ne_other (own.symm.trans foe)).elim
  have apart (isKing : piece.kind = .king) : king.adjoins third = false :=
    dead.kings.apart _ _ _ found (isKing ▸ foe ▸ stands)
  rcases Kind.exists_beside_not_aims (dead.bare.minor _ _ stands) notKing.symm apart with
    ⟨target, member, free⟩ | ⟨knight, trapped⟩
  · exact ⟨_, dead.legal_of_three has checks stands only (Square.adjoins_of_mem_beside member).1
      (notOwn target) (fun _ => Kind.not_aims_beside light aims member) fun _ => free⟩
  · obtain ⟨target, beside, unguarded, near, along⟩ := Square.exists_of_cornered trapped checker
    refine ⟨_, dead.legal_of_three has checks stands only beside (notOwn target)
      (fun differs => ?_) fun _ => knight ▸ unguarded⟩
    rcases light with rfl | rfl
    · rcases along aims with same | rfl | between
      · exact absurd same differs
      · rw [← Option.some.inj (checks.symm.trans stands)] at knight
        cases knight
      · have clear : board.placement.clear checker king = true :=
          (Placement.attacks_of_sweeps checks aims).symm.trans strikes
        have empty : (board.placement.piece third).isNone = true :=
          List.all_eq_true.mp clear third between
        rw [stands] at empty
        cases empty
    · exact near aims

/-- On a dead board nobody is mated. -/
theorem not_checkmated (dead : board.Dead) : ¬ board.Checkmated := by
  rintro ⟨check, stuck⟩
  obtain ⟨king, found, _⟩ : ∃ king, board.placement.piece king = some ⟨board.turn, .king⟩ ∧
      board.placement.attackedBy board.turn.other king = true := by
    simpa [Placement.inCheck, Square.mem_all] using check
  have has := dead.kings.hasKing found
  obtain ⟨checker, kind, checks, light, strikes, aims⟩ := dead.exists_checker has check
  have escapes : ∃ move, board.legal move = true := by
    rcases dead.bare.weak with few | ⟨dark, bishops⟩
    · exact dead.escapes_three has checks light strikes aims few
    · exact dead.escapes_bishops has checks light aims bishops
  obtain ⟨move, legal⟩ := escapes
  rw [stuck move] at legal
  cases legal

end Dead

theorem insufficient_of_outcome {close : List Square} {halfmoveClock : Nat} {repetitions : List Board}
    (drawn : board.outcome close halfmoveClock repetitions = some .insufficientMaterial) :
    board.placement.insufficientMaterial = true := by
  unfold outcome at drawn
  split at drawn
  · split at drawn <;> cases drawn
  · split at drawn
    · assumption
    · split at drawn
      · cases drawn
      · split at drawn <;> cases drawn

/-- No pawn is recorded where there are no pawns. -/
theorem dead_of_isSound (sound : board.isSound = true)
    (insufficient : board.placement.insufficientMaterial = true) : board.Dead := by
  have bare := Placement.insufficientMaterial_iff.mp insufficient
  have unrecorded (square : Square) (recorded : board.enPassant = some square) : False := by
    simp only [isSound, Bool.and_eq_true, recorded, Option.all_some, beq_iff_eq] at sound
    obtain ⟨⟨⟨⟨_, passer⟩, _⟩, _⟩, _⟩ := sound
    exact bare.notPawn passer rfl
  have orderly := Orderly.of_isSound sound fun square recorded => (unrecorded square recorded).elim
  exact ⟨orderly.consistent, orderly.kingsApart, bare⟩

end Board

namespace Position

variable {opening position : Position} {boards : List Board}

theorem Game.insufficient (opens : opening.Opening) (game : Game opening boards position)
    (drawn : position.outcome = some .insufficientMaterial) :
    position.board.placement.insufficientMaterial = true := by
  cases game with
  | start =>
    obtain ⟨_, _, _, rfl, _⟩ := opens.eq_ofBoard
    cases drawn
  | move game accepted =>
    obtain ⟨move, _, played⟩ := exists_of_accepts accepted
    rw [played] at drawn ⊢
    exact Board.insufficient_of_outcome drawn

/-- Whatever legal moves lead to from a sound board whose material is insufficient, the material stays
insufficient and nobody is mated. The same is true of every board on which a game is drawn for
insufficient material, sound or not. -/
theorem insufficientMaterial_dead :
    (∀ board : Board, board.isSound = true → board.placement.insufficientMaterial = true →
      ∀ after, Board.Line board after →
        after.placement.insufficientMaterial = true ∧ ¬ after.Checkmated) ∧
    ∀ opening boards position, opening.Opening → Game opening boards position →
      position.outcome = some .insufficientMaterial → ∀ after, Board.Line position.board after →
        after.placement.insufficientMaterial = true ∧ ¬ after.Checkmated := by
  constructor
  · intro board sound insufficient after line
    have dead := (Board.dead_of_isSound sound insufficient).of_line line
    exact ⟨Placement.insufficientMaterial_iff.mpr dead.bare, dead.not_checkmated⟩
  · intro opening boards position opens game drawn after line
    have dead : position.board.Dead := ⟨game.consistent opens _ game.board_mem, game.kingsApart opens,
      Placement.insufficientMaterial_iff.mp (game.insufficient opens drawn)⟩
    have dead := dead.of_line line
    exact ⟨Placement.insufficientMaterial_iff.mpr dead.bare, dead.not_checkmated⟩

/-- White's king is in check from a bishop and takes the last pawn: the game is drawn for insufficient
material, and no line of legal moves leads to a mate. -/
theorem insufficientMaterial_dead_of_last_pawn :
    ∃ opening board after, ofFen? "8/8/8/8/8/2b5/p7/K1k5 w - - 0 1" = .ok opening ∧
      opening.accepts ⟨"a1", "a2", none⟩ = true ∧
      (opening.apply ⟨"a1", "a2", none⟩).outcome = some .insufficientMaterial ∧
      (∀ last, Board.Line (opening.apply ⟨"a1", "a2", none⟩).board last → ¬ last.Checkmated) ∧
      Board.read? "8/8/8/8/8/2b5/8/K1k5 w - - 0 1".toList = .ok board ∧
      board.placement.inCheck .white = true ∧ Board.Line board after ∧
      after.placement.insufficientMaterial = true ∧ ¬ after.Checkmated := by
  obtain ⟨sound, games⟩ := insufficientMaterial_dead
  obtain ⟨opening, read, accepted, drawn⟩ : ∃ opening,
      ofFen? "8/8/8/8/8/2b5/p7/K1k5 w - - 0 1" = .ok opening ∧
      opening.accepts ⟨"a1", "a2", none⟩ = true ∧
      (opening.apply ⟨"a1", "a2", none⟩).outcome = some .insufficientMaterial :=
    ⟨_, rfl, by decide +kernel, by decide +kernel⟩
  obtain ⟨board, readToo, isSound, insufficient, check, legal⟩ : ∃ board,
      Board.read? "8/8/8/8/8/2b5/8/K1k5 w - - 0 1".toList = .ok board ∧ board.isSound = true ∧
      board.placement.insufficientMaterial = true ∧ board.placement.inCheck .white = true ∧
      board.legal ⟨⟨0, 0⟩, ⟨0, 1⟩, none⟩ = true :=
    ⟨_, rfl, by decide +kernel, by decide +kernel, by decide +kernel, by decide +kernel⟩
  have game := Game.start.move accepted
  have line : Board.Line board _ := Board.Line.start.move legal
  obtain ⟨stays, alive⟩ := sound _ isSound insufficient _ line
  exact ⟨opening, board, _, read, accepted, drawn,
    fun last reached => (games _ _ _ (.inr ⟨_, read⟩) game drawn last reached).2, readToo, check, line,
    stays, alive⟩

end Position

end ChessArbiter
