import ChessArbiter.Proofs.Registry.Lifecycle

/-! # Seats and matches

A player has a seat exactly as long as it plays a stored match that was entered while it was a player.
Whether a client is a player is asked when a match is entered and never again: a role that changes
afterwards neither takes a seat nor gives one. Bots are given no seats, so they may play any number of
matches.
-/

namespace ChessArbiter

variable {α : Type} [Scalar α] {minimum : α} {history : List (Event α)} {registry : Registry α}

/-- The client plays the stored match of this identity, which was entered while it was a player. -/
def PlaysAsPlayer (history : List (Event α)) (registry : Registry α) (key : ClientKey)
    (id : MatchId) : Prop :=
  ∃ stored, registry.match? id = some stored ∧ key ∈ stored.participants ∧
    PlayerAtEntry history id key

namespace Run

/-- A stored match has been entered. -/
theorem mem_entered_of_found (run : Run minimum history registry) {id : MatchId}
    {stored : Match α} (found : registry.match? id = some stored) :
    ∃ chessMatch ∈ entered history, chessMatch.id = id := by
  have course := run.course id
  rw [found] at course
  obtain ⟨last, isLast, _⟩ := course.exists_getLast?
  have told := List.ne_nil_of_mem (List.mem_of_getLast? isLast)
  obtain ⟨operation, chessMatch, member, same⟩ := course.exists_created told
  exact ⟨chessMatch, mem_entered_of_milestone member rfl, same⟩

end Run

section Step

variable {call : Call α}

/-- Entering a match makes its players players of it and changes nothing for the other matches. -/
private theorem playsAsPlayer_of_enter (run : Run minimum history registry) {chessMatch : Match α}
    (active : (registry.perform minimum call).registry.active =
      registry.active.insert chessMatch.id chessMatch)
    (told : (registry.perform minimum call).stages = [(.created, chessMatch)])
    (fresh : Fresh history (registry.event minimum call)) (key : ClientKey) (id : MatchId) :
    PlaysAsPlayer (history ++ [registry.event minimum call])
        (registry.perform minimum call).registry key id ↔
      (id = chessMatch.id ∧ key ∈ chessMatch.participants ∧ call.roles key = .player) ∨
        PlaysAsPlayer history registry key id := by
  have enters : (registry.event minimum call).entered = [chessMatch] :=
    Event.entered_of_created told
  have isNew := fresh.ne_of_created told
  unfold PlaysAsPlayer
  simp only [Registry.match?_of_insert active, playerAtEntry_concat, enters, List.mem_singleton,
    exists_eq_left]
  by_cases same : chessMatch.id = id
  · subst same
    have absent : registry.match? chessMatch.id = none := by
      by_contra present
      obtain ⟨stored, found⟩ := Option.ne_none_iff_exists'.mp present
      obtain ⟨earlier, member, same⟩ := run.mem_entered_of_found found
      exact isNew earlier member same
    have unplayed : ¬ PlayerAtEntry history chessMatch.id key := by
      intro player
      obtain ⟨earlier, member, same⟩ := mem_entered_of_playerAtEntry player
      exact isNew earlier member same
    simp only [if_true, Option.some.injEq, exists_eq_left', unplayed, false_or, true_and, absent,
      reduceCtorEq, false_and, exists_false, or_false]
    rfl
  · simp only [same, if_false, false_and, or_false, Ne.symm same, false_or]

/-- A write changes neither who plays a match nor who was a player when it was entered. -/
private theorem playsAsPlayer_of_write {stored draft : Match α}
    (found : registry.match? stored.id = some stored) (asked : call.rewrite? minimum stored = some draft)
    (active : (registry.perform minimum call).registry.active =
      registry.active.insert stored.id (draft.following stored))
    (told : (registry.perform minimum call).stages = [(.updated, draft.following stored)])
    (key : ClientKey) (id : MatchId) :
    PlaysAsPlayer (history ++ [registry.event minimum call])
        (registry.perform minimum call).registry key id ↔ PlaysAsPlayer history registry key id := by
  have enters : (registry.event minimum call).entered = [] :=
    Event.entered_of_later told (by decide)
  have participants : (draft.following stored).participants = stored.participants :=
    Match.participants_of_sameIdentity (Call.rewrite?_identity asked).2
  unfold PlaysAsPlayer
  simp only [Registry.match?_of_insert active, playerAtEntry_concat_of_nil enters]
  by_cases same : stored.id = id
  · subst same
    simp only [if_true, Option.some.injEq, exists_eq_left', found, participants]
  · simp only [same, if_false]

/-- Nobody plays a match that has been closed; nothing changes for the others. -/
private theorem playsAsPlayer_of_close {stored last : Match α}
    (active : (registry.perform minimum call).registry.active = registry.active.erase stored.id)
    (told : (registry.perform minimum call).stages = [(.ended, last)])
    (key : ClientKey) (id : MatchId) :
    PlaysAsPlayer (history ++ [registry.event minimum call])
        (registry.perform minimum call).registry key id ↔
      stored.id ≠ id ∧ PlaysAsPlayer history registry key id := by
  have enters : (registry.event minimum call).entered = [] :=
    Event.entered_of_later told (by decide)
  unfold PlaysAsPlayer
  simp only [Registry.match?_of_erase active, playerAtEntry_concat_of_nil enters]
  by_cases same : stored.id = id
  · simp [same]
  · simp [same]

end Step

/-- In every run the seats are those of the players in stored matches. -/
theorem Run.seats_iff (run : Run minimum history registry) (key : ClientKey) (id : MatchId) :
    registry.seats[key]? = some id ↔ PlaysAsPlayer history registry key id := by
  induction run generalizing key id with
  | start => simp [Registry.empty, PlaysAsPlayer, PlayerAtEntry]
  | @call history registry run call fresh ih =>
    cases run.effect call with
    | idle active seats _ silent _ =>
      unfold PlaysAsPlayer
      rw [seats, ih, Registry.match?_of_eq active,
        playerAtEntry_concat_of_nil (Event.entered_of_nil silent)]
      rfl
    | enter chessMatch free active seats _ told _ =>
      rw [playsAsPlayer_of_enter run active told fresh, seats, Registry.seats_seat, ← ih]
      by_cases player : key ∈ chessMatch.participants ∧ call.roles key = .player
      · have unseated := ((registry.canSeat_iff _ _).mp free).2 key player.1 player.2
        simp [player, unseated, eq_comm]
      · simp [player]
    | write stored draft found asked _ active seats _ _ told _ =>
      rw [playsAsPlayer_of_write found asked active told, seats, ih]
    | close stored last found _ active seats _ _ told _ =>
      rw [playsAsPlayer_of_close active told, seats, Registry.seats_vacate, ← ih]
      by_cases seated : registry.seats[key]? = some stored.id
      · obtain ⟨other, foundOther, plays, _⟩ := (ih key stored.id).mp seated
        cases found.symm.trans foundOther
        simp [seated, plays]
      · have elsewhere : registry.seats[key]? = some id → stored.id ≠ id := by
          rintro here rfl
          exact seated here
        simpa [seated] using elsewhere

/-- In every run a client sits in a match exactly if that match is stored, the client plays it, and the
client was a player when the match was entered. So nobody is a player in two stored matches, the
match in which a client sits is the one that is found for it, and a match whose end has been told
seats nobody. -/
theorem Run.seated_iff_player (run : Run minimum history registry) :
    (∀ key id, registry.seats[key]? = some id ↔
      ∃ stored, registry.match? id = some stored ∧ (key = stored.white ∨ key = stored.black) ∧
        PlayerAtEntry history id key) ∧
      (∀ key a b, PlaysAsPlayer history registry key a → PlaysAsPlayer history registry key b →
        a = b) ∧
      (∀ key stored, registry.matchOf? key = some stored ↔
        registry.match? stored.id = some stored ∧ (key = stored.white ∨ key = stored.black) ∧
          PlayerAtEntry history stored.id key) ∧
      ∀ id, ∀ milestone ∈ milestonesOf id history, milestone.stage = .ended →
        ∀ key : ClientKey, registry.seats[key]? ≠ some id := by
  refine ⟨?_, ?_, ?_, ?_⟩
  · intro key id
    rw [run.seats_iff]
    simp only [PlaysAsPlayer, Match.mem_participants]
  · intro key a b first second
    have seatedFirst := (run.seats_iff key a).mpr first
    have seatedSecond := (run.seats_iff key b).mpr second
    exact Option.some.inj (seatedFirst.symm.trans seatedSecond)
  · intro key stored
    simp only [Registry.matchOf?, Option.bind_eq_some_iff, run.seats_iff, ← Match.mem_participants]
    constructor
    · rintro ⟨id, ⟨other, foundOther, plays, player⟩, found⟩
      cases foundOther.symm.trans found
      obtain rfl := run.keyed id stored found
      exact ⟨found, plays, player⟩
    · rintro ⟨found, plays, player⟩
      exact ⟨stored.id, ⟨stored, found, plays, player⟩, found⟩
  · intro id milestone member ended key seated
    obtain ⟨stored, found, _⟩ := (run.seats_iff key id).mp seated
    rw [(run.course id).absent_of_ended member ended] at found
    cases found

/-- A client that enters a second match as a bot keeps the seat that it has as a player, also when the
second match is taken out. -/
theorem seated_iff_player_of_former_player :
    ∃ (history : List (Event Rat)) (registry : Registry Rat), Run 0 history registry ∧
      (milestonesOf ⟨2⟩ history).map (·.stage) = [.created, .ended] ∧
      registry.seats["ada"]? = some ⟨1⟩ ∧ PlaysAsPlayer history registry "ada" ⟨1⟩ ∧
      registry.seats["cid"]? ≠ some ⟨2⟩ := by
  let beginning : Instant := .ofMillis 0
  have begun : Run (0 : Rat) [] .empty := .start
  have first := begun.call
    ⟨.add (.start ⟨1⟩ "ada" "bob" .blitz beginning), fun _ => .player, beginning⟩ (by decide)
  have second := first.call
    ⟨.add (.start ⟨2⟩ "ada" "cid" .blitz beginning),
      fun key => if key = "ada" then .bot else .player, beginning⟩
    (by decide)
  have removed := second.call ⟨.remove ⟨2⟩, fun _ => .player, beginning⟩ (by decide)
  have seats := removed.seated_iff_player
  obtain ⟨stored, found, plays, player⟩ := (seats.1 "ada" ⟨1⟩).mp (by decide +kernel)
  exact ⟨_, _, removed, by decide +kernel, by decide +kernel,
    ⟨stored, found, Match.mem_participants.mpr plays, player⟩, by decide +kernel⟩

end ChessArbiter
