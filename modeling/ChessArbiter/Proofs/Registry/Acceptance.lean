import ChessArbiter.Proofs.Registry.ChallengeLifecycle

/-! # Accepting a challenge

A match is entered on two paths: it is added, or it comes of a challenge that is accepted. The second
looks whether the clients are free while the challenge is still open, and closes it before it enters the
match. Closing a challenge touches neither the seats nor the matches nor the clocks; therefore both paths
admit the same matches, and accepting leaves what revoking the challenge and adding its match would.
-/

namespace ChessArbiter

variable {α : Type}

namespace Registry

/-- Whether a match may be entered is a matter of the seats alone. -/
theorem canSeat_of_seats {registry other : Registry α} (seats : other.seats = registry.seats)
    (roles : ClientKey → Role) (chessMatch : Match α) :
    other.canSeat roles chessMatch = registry.canSeat roles chessMatch := by
  simp only [canSeat, canStart, seats]

variable [Scalar α] {registry : Registry α} {roles : ClientKey → Role} {chessMatch : Match α}
  {now : Instant}

theorem add_of_free (free : registry.canSeat roles chessMatch = true) :
    registry.add roles chessMatch now = registry.register roles chessMatch now := by
  rw [add, if_pos free]

theorem add_of_busy (busy : registry.canSeat roles chessMatch = false) :
    registry.add roles chessMatch now = .refused registry .participantUnavailable
      [.matchCreationFailed chessMatch RegistryError.participantUnavailable.message] := by
  rw [add, if_neg (Bool.eq_false_iff.mp busy)]

variable {challenger challenged : ClientKey} {challenge : Challenge} {id : MatchId} {draw : Bool}

/-- An open challenge stays open where one of its clients is busy, and the challenger is told. -/
theorem accept_of_busy (opened : registry.challenge? challenger challenged = some challenge)
    (busy : registry.canSeat roles (.ofChallenge id challenge draw now) = false) :
    registry.accept roles challenged challenger id draw now =
      .refused registry .participantUnavailable
        [.challengeRequestFailed challenge RegistryError.participantUnavailable.message] := by
  simp only [accept, opened, busy, Bool.false_eq_true, if_false]

end Registry

namespace Match

variable [Scalar α] {challenge : Challenge} {id : MatchId} {draw : Bool} {now : Instant}

/-- A challenger that asks for white alone plays white. -/
theorem ofChallenge_of_white (white : challenge.asksWhite = true)
    (notBlack : challenge.asksBlack = false) :
    (ofChallenge id challenge draw now : Match α) =
      .start id challenge.challenger challenge.challenged challenge.timeControl now := by
  simp only [ofChallenge, Challenge.requested, white, notBlack]

/-- A challenger that asks for black alone plays black. -/
theorem ofChallenge_of_black (black : challenge.asksBlack = true)
    (notWhite : challenge.asksWhite = false) :
    (ofChallenge id challenge draw now : Match α) =
      .start id challenge.challenged challenge.challenger challenge.timeControl now := by
  simp only [ofChallenge, Challenge.requested, black, notWhite]

/-- Where a challenger asks for neither colour or for both, the colours are drawn. -/
theorem ofChallenge_of_open (undecided : challenge.asksWhite = challenge.asksBlack) :
    (ofChallenge id challenge draw now : Match α) =
      .startDrawn id challenge.challenger challenge.challenged draw challenge.timeControl now := by
  have requested : challenge.requested = none := by
    rw [Challenge.requested, undecided]
    cases challenge.asksBlack <;> rfl
  rw [ofChallenge, requested]

end Match

variable [Scalar α]

/-- In every history, an open challenge can be accepted exactly if its match could be added. Then
accepting it leaves the registry, and orders of the timer, what revoking it and adding its match would;
it is told that the challenge was accepted, and then that the match began, and the challenge is open no
more. Otherwise the challenge stays open. The match has the time control of the challenge, and the
colours for which the challenger asks alone; where it asks for neither or for both they are drawn. -/
theorem History.accept_eq_revoke_add {rule : Registry α → Call α → Prop} {minimum : α}
    {events : List (Event α)} {registry : Registry α}
    (history : History rule minimum events registry) {challenger challenged : ClientKey}
    {challenge : Challenge}
    (opened : registry.challenge? challenger challenged = some challenge)
    (roles : ClientKey → Role) (id : MatchId) (draw : Bool) (now : Instant) :
    let chessMatch : Match α := .ofChallenge id challenge draw now
    let accepted := registry.accept roles challenged challenger id draw now
    let revoked := registry.revoke challenger challenged
    let added := revoked.registry.add roles chessMatch now
    (accepted.answer = .ok () ↔ (registry.add roles chessMatch now).answer = .ok ()) ∧
      (accepted.answer = .ok () → revoked.answer = .ok () ∧ added.answer = .ok () ∧
        accepted.registry = added.registry ∧ accepted.alarms = revoked.alarms ++ added.alarms ∧
        accepted.notices = [.challengeAccepted challenge, .matchCreated chessMatch] ∧
        accepted.registry.challenge? challenger challenged = none) ∧
      (accepted.answer ≠ .ok () → accepted.answer = .error .participantUnavailable ∧
        accepted.registry = registry ∧
        accepted.registry.challenge? challenger challenged = some challenge) ∧
      (challenge.asksWhite = true → challenge.asksBlack = false →
        chessMatch = .start id challenger challenged challenge.timeControl now) ∧
      (challenge.asksBlack = true → challenge.asksWhite = false →
        chessMatch = .start id challenged challenger challenge.timeControl now) ∧
      (challenge.asksWhite = challenge.asksBlack → chessMatch =
        if draw then .start id challenger challenged challenge.timeControl now
        else .start id challenged challenger challenge.timeControl now) := by
  intro chessMatch accepted revoked added
  obtain ⟨⟨rfl, rfl⟩, -⟩ := history.attributed _ _ _ opened
  rw [← and_assoc, ← and_assoc]
  refine ⟨?_, Match.ofChallenge_of_white, Match.ofChallenge_of_black, Match.ofChallenge_of_open⟩
  cases free : registry.canSeat roles chessMatch with
  | true =>
    have revoking : revoked = ⟨.ok (), registry.closeChallenge challenge.challenger
        challenge.challenged, [.challengeRevoked challenge], []⟩ :=
      Registry.resolve_of_open opened .revoked
    have seats : revoked.registry.seats = registry.seats := by
      rw [revoking]
      exact (registry.closeChallenge_frame _ _).2.1
    have accepting : accepted = _ := Registry.accept_of_free opened free
    have adding : added = revoked.registry.register roles chessMatch now :=
      Registry.add_of_free ((Registry.canSeat_of_seats seats roles chessMatch).trans free)
    rw [accepting, adding, revoking, Registry.add_of_free free]
    have closed : (registry.closeChallenge challenge.challenger challenge.challenged).challenge?
        challenge.challenger challenge.challenged = none :=
      (registry.challenge?_closeChallenge _ _ _ _).trans (if_pos ⟨rfl, rfl⟩)
    exact ⟨⟨iff_of_true rfl rfl, fun _ => ⟨rfl, rfl, rfl, rfl, rfl, closed⟩⟩,
      fun failure => absurd rfl failure⟩
  | false =>
    have refused : accepted = _ := Registry.accept_of_busy opened free
    rw [refused, Registry.add_of_busy free]
    exact ⟨⟨iff_of_false nofun nofun, nofun⟩, fun _ => ⟨rfl, rfl, opened⟩⟩

/-- Ada asks Bob for both colours at once and has challenged Cid too. The draw gives her black, and Bob
accepts; Cid, who plays already, cannot accept. -/
theorem accept_eq_revoke_add_of_drawn :
    ∃ (events : List (Event Rat)) (registry : Registry Rat) (first second : Challenge),
      History (fun _ _ => True) 0 events registry ∧
      registry.challenge? "ada" "bob" = some first ∧
      registry.challenge? "ada" "cid" = some second ∧
      let players : ClientKey → Role := fun _ => .player
      let later : Instant := .ofMillis 1000
      let chessMatch : Match Rat := .start ⟨2⟩ "bob" "ada" .rapid later
      let accepted := registry.accept players "bob" "ada" ⟨2⟩ false later
      let failed := registry.accept players "cid" "ada" ⟨2⟩ false later
      accepted.registry =
          ((registry.revoke "ada" "bob").registry.add players chessMatch later).registry ∧
        accepted.notices = [.challengeAccepted first, .matchCreated chessMatch] ∧
        accepted.registry.challenge? "ada" "bob" = none ∧
        failed.answer = .error .participantUnavailable ∧
        failed.registry.challenge? "ada" "cid" = some second := by
  let first : Challenge := ⟨"ada", "bob", true, true, .rapid⟩
  let second : Challenge := ⟨"ada", "cid", false, true, .blitz⟩
  let call (operation : Operation Rat) : Call Rat := ⟨operation, fun _ => .player, .ofMillis 0⟩
  have history : History (fun _ _ => True) (0 : Rat) [] .empty := .start
  have history := history.call (call (.add (.start ⟨1⟩ "dan" "cid" .blitz (.ofMillis 0)))) trivial
  have history := history.call (call (.challenge first)) trivial
  have history := history.call (call (.challenge second)) trivial
  let players : ClientKey → Role := fun _ => .player
  let later : Instant := .ofMillis 1000
  obtain ⟨events, registry, history, opened, other, free, busy⟩ : ∃ events registry,
      History (fun _ _ => True) (0 : Rat) events registry ∧
      registry.challenge? "ada" "bob" = some first ∧
      registry.challenge? "ada" "cid" = some second ∧
      registry.canSeat players (.ofChallenge ⟨2⟩ first false later) = true ∧
      registry.canSeat players (.ofChallenge ⟨2⟩ second false later) = false :=
    ⟨_, _, history, by decide +kernel, by decide +kernel, by decide +kernel, by decide +kernel⟩
  obtain ⟨-, whenFree, -, -, -, drawn⟩ :=
    history.accept_eq_revoke_add opened players ⟨2⟩ false later
  obtain ⟨-, -, whenBusy, -⟩ :=
    history.accept_eq_revoke_add other players ⟨2⟩ false later
  have accepted := congrArg Step.answer (Registry.accept_of_free opened free)
  have failed := congrArg Step.answer (Registry.accept_of_busy other busy)
  obtain ⟨-, -, leaves, -, tells, closed⟩ := whenFree accepted
  obtain ⟨refused, -, standing⟩ := whenBusy (failed ▸ nofun)
  rw [drawn rfl] at leaves tells
  exact ⟨events, registry, first, second, history, opened, other, leaves, tells, closed, refused,
    standing⟩

end ChessArbiter
