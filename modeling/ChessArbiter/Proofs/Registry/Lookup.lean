import ChessArbiter.Proofs.Lookup
import ChessArbiter.Registry.Challenges

/-! # Looking things up after a write

What a registry shows after a match has been stored, its players seated, its clock set, or the match
closed. A key that the write is not about shows what it showed before.
-/

namespace ChessArbiter

namespace Match

variable {α : Type}

theorem mem_participants {chessMatch : Match α} {key : ClientKey} :
    key ∈ chessMatch.participants ↔ key = chessMatch.white ∨ key = chessMatch.black := by
  simp only [participants, List.mem_cons, List.not_mem_nil, or_false]

/-- Whatever is drawn, the two clients are the participants. -/
theorem participants_startDrawn [Scalar α] (id : MatchId) (first second : ClientKey) (draw : Bool)
    (control : TimeControl) (now : Instant) :
    (startDrawn id first second draw control now : Match α).participants.Perm [first, second] := by
  cases draw with
  | true => exact .rfl
  | false => exact .swap first second []

theorem sameIdentity_iff {a b : Match α} : a.sameIdentity b = true ↔
    a.white = b.white ∧ a.black = b.black ∧ a.timeControl = b.timeControl := by
  simp only [sameIdentity, Bool.and_eq_true, beq_iff_eq, and_assoc]

theorem sameIdentity_refl (chessMatch : Match α) : chessMatch.sameIdentity chessMatch = true :=
  sameIdentity_iff.mpr ⟨rfl, rfl, rfl⟩

theorem sameIdentity_symm {a b : Match α} (same : a.sameIdentity b = true) :
    b.sameIdentity a = true := by
  obtain ⟨white, black, control⟩ := sameIdentity_iff.mp same
  exact sameIdentity_iff.mpr ⟨white.symm, black.symm, control.symm⟩

theorem sameIdentity_trans {a b c : Match α} (first : a.sameIdentity b = true)
    (second : b.sameIdentity c = true) : a.sameIdentity c = true := by
  obtain ⟨white, black, control⟩ := sameIdentity_iff.mp first
  obtain ⟨white', black', control'⟩ := sameIdentity_iff.mp second
  exact sameIdentity_iff.mpr ⟨white.trans white', black.trans black', control.trans control'⟩

theorem participants_of_sameIdentity {a b : Match α} (same : a.sameIdentity b = true) :
    b.participants = a.participants := by
  obtain ⟨white, black, _⟩ := sameIdentity_iff.mp same
  simp only [participants, white, black]

end Match

namespace Registry

variable {α : Type}

theorem match?_empty (id : MatchId) : (empty : Registry α).match? id = none := by
  simp only [match?, empty, Std.ExtTreeMap.getElem?_empty]

theorem match?_of_eq {registry after : Registry α} (active : after.active = registry.active)
    (id : MatchId) : after.match? id = registry.match? id := by
  rw [match?, match?, active]

theorem match?_of_insert {registry after : Registry α} {key : MatchId} {chessMatch : Match α}
    (active : after.active = registry.active.insert key chessMatch) (id : MatchId) :
    after.match? id = if key = id then some chessMatch else registry.match? id := by
  rw [match?, match?, active, lookup_insert]

theorem match?_of_erase {registry after : Registry α} {key : MatchId}
    (active : after.active = registry.active.erase key) (id : MatchId) :
    after.match? id = if key = id then none else registry.match? id := by
  rw [match?, match?, active, lookup_erase]

/-- Vacating takes away the seats of the given clients, but only those in the given match. -/
private theorem getElem?_vacated (id : MatchId) (keys : List ClientKey)
    (seats : Std.ExtTreeMap ClientKey MatchId) (key : ClientKey) :
    (keys.foldl (fun seats key => if seats[key]? = some id then seats.erase key else seats)
        seats)[key]? =
      if key ∈ keys ∧ seats[key]? = some id then none else seats[key]? := by
  induction keys generalizing seats with
  | nil => simp only [List.foldl_nil, List.not_mem_nil, false_and, if_false]
  | cons first rest ih =>
    rw [List.foldl_cons, ih]
    by_cases seated : seats[first]? = some id
    · by_cases same : key = first
      · subst same
        simp [seated]
      · simp [seated, lookup_erase, same, Ne.symm same]
    · by_cases same : key = first
      · subst same
        simp [seated]
      · simp [seated, same]

theorem seats_vacate (registry : Registry α) (chessMatch : Match α) (key : ClientKey) :
    (registry.vacate chessMatch)[key]? =
      if key ∈ chessMatch.participants ∧ registry.seats[key]? = some chessMatch.id then none
      else registry.seats[key]? :=
  getElem?_vacated chessMatch.id chessMatch.participants registry.seats key

/-- Seating gives a seat to the players among the given clients, in place of any that they had. -/
private theorem getElem?_seated (roles : ClientKey → Role) (id : MatchId) (keys : List ClientKey)
    (seats : Std.ExtTreeMap ClientKey MatchId) (key : ClientKey) :
    (keys.foldl (fun seats key => if roles key = .bot then seats else seats.insert key id)
        seats)[key]? =
      if key ∈ keys ∧ roles key = .player then some id else seats[key]? := by
  induction keys generalizing seats with
  | nil => simp only [List.foldl_nil, List.not_mem_nil, false_and, if_false]
  | cons first rest ih =>
    rw [List.foldl_cons, ih]
    cases role : roles first with
    | bot =>
      by_cases same : key = first
      · subst same
        simp [role]
      · simp [same]
    | player =>
      by_cases same : key = first
      · subst same
        simp [role]
      · simp [same, lookup_insert, Ne.symm same]

theorem seats_seat [Scalar α] (registry : Registry α) (roles : ClientKey → Role)
    (chessMatch : Match α) (key : ClientKey) :
    (registry.seat roles chessMatch).seats[key]? =
      if key ∈ chessMatch.participants ∧ roles key = .player then some chessMatch.id
      else registry.seats[key]? :=
  getElem?_seated roles chessMatch.id chessMatch.participants registry.seats key

/-- A client that may enter a match is a bot or has no seat. -/
theorem canStart_iff (registry : Registry α) (key : ClientKey) (role : Role) :
    registry.canStart key role = true ↔ role = .player → registry.seats[key]? = none := by
  cases role with
  | bot => simp [canStart]
  | player =>
    simp only [canStart, Bool.or_eq_true, Bool.not_eq_true', contains_eq_false_iff,
      beq_iff_eq, reduceCtorEq, false_or, forall_const]

/-- Two clients may play a match if they are different and the players among them have no seat. -/
theorem canSeat_iff (registry : Registry α) (roles : ClientKey → Role) (chessMatch : Match α) :
    registry.canSeat roles chessMatch = true ↔ chessMatch.white ≠ chessMatch.black ∧
      ∀ key ∈ chessMatch.participants, roles key = .player → registry.seats[key]? = none := by
  simp only [canSeat, Bool.and_eq_true, bne_iff_ne, canStart_iff, Match.mem_participants,
    forall_eq_or_imp, forall_eq, and_assoc]

end Registry

end ChessArbiter
