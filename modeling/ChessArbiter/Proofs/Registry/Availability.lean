import ChessArbiter.Proofs.Registry.Seats

/-! # Who may enter a match

Whether a client may enter a match is judged by the seats, and these go by the role that it had when it
entered the match that it plays. A player is turned away exactly while it plays a match that it entered
as a player. A bot that becomes a player while it plays has no seat: it may still enter one match, in
which it then sits.
-/

namespace ChessArbiter

variable {α : Type}

/-- The client plays the stored match of this identity. -/
def Registry.Plays (registry : Registry α) (key : ClientKey) (id : MatchId) : Prop :=
  ∃ stored, registry.match? id = some stored ∧ key ∈ stored.participants

theorem PlaysAsPlayer.plays {history : List (Event α)} {registry : Registry α} {key : ClientKey}
    {id : MatchId} (player : PlaysAsPlayer history registry key id) : registry.Plays key id := by
  obtain ⟨stored, found, plays, _⟩ := player
  exact ⟨stored, found, plays⟩

variable [Scalar α] {minimum : α}

/-- A match is entered only for two clients that may both enter one. -/
theorem Registry.canSeat_of_created {registry : Registry α} {call : Call α} {chessMatch : Match α}
    (keyed : registry.Keyed)
    (told : (.created, chessMatch) ∈ (registry.perform minimum call).stages) :
    registry.canSeat call.roles chessMatch = true := by
  have effect : Effect minimum registry call (registry.perform minimum call) := effect_perform keyed
  cases effect with
  | idle _ _ _ stages _ =>
    rw [stages] at told
    cases told
  | enter entered free _ _ _ stages _ =>
    rw [stages] at told
    cases List.mem_singleton.mp told
    exact free
  | write _ _ _ _ _ _ _ _ _ stages _ =>
    rw [stages] at told
    cases List.mem_singleton.mp told
  | close _ _ _ _ _ _ _ _ stages _ =>
    rw [stages] at told
    cases List.mem_singleton.mp told

namespace Run

variable {history : List (Event α)} {registry : Registry α}

/-- A client has a seat as long as it plays a match that it entered as a player. -/
theorem unseated_iff (run : Run minimum history registry) (key : ClientKey) :
    registry.seats[key]? = none ↔ ∀ id, ¬ PlaysAsPlayer history registry key id := by
  simp only [← run.seats_iff, Option.eq_none_iff_forall_ne_some, ne_eq]

/-- In every run a player may enter a match exactly if it plays none that it entered as a player. So it is
judged by the matches that it plays exactly if it plays none, or one that it entered as a player; and no
match is entered for a player that plays one that it entered as a player. -/
theorem available_iff (run : Run minimum history registry) :
    (∀ key, registry.canStart key .player = true ↔
      ∀ id, ¬ PlaysAsPlayer history registry key id) ∧
      (∀ key, (registry.canStart key .player = true ↔ ∀ id, ¬ registry.Plays key id) ↔
        ((∃ id, registry.Plays key id) → ∃ id, PlaysAsPlayer history registry key id)) ∧
      ∀ (call : Call α) (chessMatch : Match α),
        (.created, chessMatch) ∈ (registry.perform minimum call).stages →
          chessMatch.white ≠ chessMatch.black ∧ ∀ key ∈ chessMatch.participants,
            call.roles key = .player → ∀ id, ¬ PlaysAsPlayer history registry key id := by
  have available (key : ClientKey) : registry.canStart key .player = true ↔
      ∀ id, ¬ PlaysAsPlayer history registry key id := by
    rw [registry.canStart_iff, ← run.unseated_iff]
    exact forall_prop_of_true rfl
  refine ⟨available, ?_, ?_⟩
  · intro key
    rw [available key]
    constructor
    · rintro judged ⟨id, plays⟩
      by_contra unseated
      exact judged.mp (not_exists.mp unseated) id plays
    · intro entered
      constructor
      · intro unseated id plays
        obtain ⟨other, player⟩ := entered ⟨id, plays⟩
        exact unseated other player
      · intro idle id player
        exact idle id player.plays
  · intro call chessMatch told
    obtain ⟨differ, free⟩ :=
      (registry.canSeat_iff _ _).mp (Registry.canSeat_of_created run.keyed told)
    refine ⟨differ, ?_⟩
    intro key plays player
    exact (run.unseated_iff key).mp (free key plays player)

end Run

/-- A player and a bot play one match. As players the first may not enter another one, the second may. -/
theorem available_iff_of_former_bot :
    ∃ (history : List (Event Rat)) (registry : Registry Rat), Run 0 history registry ∧
      registry.Plays "ada" ⟨1⟩ ∧ registry.Plays "eve" ⟨1⟩ ∧
      registry.canStart "ada" .player = false ∧ registry.canStart "eve" .player = true ∧
      (∀ id, ¬ PlaysAsPlayer history registry "eve" id) ∧
      ∃ id, PlaysAsPlayer history registry "ada" id := by
  let call : Call Rat :=
    ⟨.add (.start ⟨1⟩ "eve" "ada" .blitz (.ofMillis 0)),
      fun key => if key = "eve" then .bot else .player, .ofMillis 0⟩
  have run : Run (0 : Rat) [] .empty := .start
  have run := run.call call (by decide)
  obtain ⟨available, judged, -⟩ := run.available_iff
  have plays (key : ClientKey) (sits : key = "ada" ∨ key = "eve") :
      (Registry.perform 0 .empty call).registry.Plays key ⟨1⟩ :=
    ⟨_, rfl, Match.mem_participants.mpr sits.symm⟩
  have turnedAway : (Registry.perform 0 .empty call).registry.canStart "ada" .player = false := by
    decide +kernel
  have free : (Registry.perform 0 .empty call).registry.canStart "eve" .player = true := by
    decide +kernel
  refine ⟨_, _, run, plays "ada" (.inl rfl), plays "eve" (.inr rfl), turnedAway, free,
    (available "eve").mp free, (judged "ada").mp ?_ ⟨⟨1⟩, plays "ada" (.inl rfl)⟩⟩
  simp only [turnedAway, Bool.false_eq_true, false_iff, not_forall, not_not]
  exact ⟨⟨1⟩, plays "ada" (.inl rfl)⟩

/-- A bot that has become a player while it plays may enter a second match, and then plays two. -/
theorem available_while_playing :
    ∃ (history : List (Event Rat)) (registry : Registry Rat) (call : Call Rat),
      Run 0 history registry ∧ registry.Plays "eve" ⟨1⟩ ∧ call.roles "eve" = .player ∧
      registry.canStart "eve" (call.roles "eve") = true ∧
      Fresh history (registry.event 0 call) ∧ (registry.perform 0 call).answer = .ok () ∧
      (registry.perform 0 call).registry.Plays "eve" ⟨1⟩ ∧
      (registry.perform 0 call).registry.Plays "eve" ⟨2⟩ := by
  let add (number : Nat) (opponent : ClientKey) : Operation Rat :=
    .add (.start ⟨number⟩ "eve" opponent .blitz (.ofMillis 0))
  let first : Call Rat :=
    ⟨add 1 "ada", fun key => if key = "eve" then .bot else .player, .ofMillis 0⟩
  let second : Call Rat := ⟨add 2 "bob", fun _ => .player, .ofMillis 0⟩
  have run : Run (0 : Rat) [] .empty := .start
  have run := run.call first (by decide)
  exact ⟨_, _, second, run, ⟨_, rfl, by decide⟩, rfl, by decide +kernel, by decide +kernel,
    by decide +kernel, ⟨_, rfl, by decide⟩, ⟨_, rfl, by decide⟩⟩

end ChessArbiter
