import ChessArbiter.Proofs.Match.Turn
import ChessArbiter.Proofs.Registry.Lifecycle

/-! # Clocks that run and clocks that were superseded

Every stored match has one clock, which carries the stored generation. A clock that was superseded or
cancelled may still ring: it then carries an older generation than the stored one, or its match is
stored no more, and has no effect either way. This rests on one fact about all clocks that were ever
set: for the same match each carries a higher generation than those before it.
-/

namespace ChessArbiter

variable {α : Type} [Scalar α]

/-- The clock that is set for a match. -/
def Match.clock (chessMatch : Match α) (now : Instant) : MatchClock α :=
  ⟨chessMatch.generation, now, chessMatch.untilTimeout now⟩

/-- The side to move has nothing left on its clock when it has run out of time. -/
theorem Match.time_afterTimeout (chessMatch : Match α) :
    chessMatch.afterTimeout.time chessMatch.turn = Scalar.ofInt 0 :=
  chessMatch.flagged_afterTimeout.spent

/-- A step whose only order is to set the clock of a match sets that clock. -/
theorem Step.clocks_of_clockAlarm {β : Type} {step : Step α β} {chessMatch : Match α} {now : Instant}
    (alarms : step.alarms = [Registry.clockAlarm chessMatch now]) :
    step.clocks now = [(chessMatch.id, chessMatch.clock now)] := by
  rw [Step.clocks, alarms]
  rfl

/-- A clock runs for every stored match and for no other, and carries the stored generation. -/
def Registry.Clocked (registry : Registry α) : Prop :=
  ∀ id, registry.clocks[id]?.map (·.generation) = (registry.match? id).map (·.generation)

omit [Scalar α] in
theorem Registry.clocked_empty : (empty : Registry α).Clocked := by
  intro id
  rw [match?_empty]
  simp only [empty, Std.ExtTreeMap.getElem?_empty, Option.map_none]

namespace Registry.Clocked

variable {registry : Registry α} {id : MatchId}

omit [Scalar α] in
/-- The clock of a stored match runs. -/
theorem exists_running (clocked : registry.Clocked) {stored : Match α}
    (found : registry.match? id = some stored) :
    ∃ clock, registry.clocks[id]? = some clock ∧ clock.generation = stored.generation := by
  have current := clocked id
  rw [found] at current
  exact Option.map_eq_some_iff.mp current

omit [Scalar α] in
/-- The match of a clock that runs is stored. -/
theorem exists_stored (clocked : registry.Clocked) {clock : MatchClock α}
    (runs : registry.clocks[id]? = some clock) :
    ∃ stored, registry.match? id = some stored ∧ stored.generation = clock.generation := by
  have current := clocked id
  rw [runs] at current
  exact Option.map_eq_some_iff.mp current.symm

omit [Scalar α] in
theorem of_eq {after : Registry α} (clocked : registry.Clocked) (active : after.active = registry.active)
    (clocks : after.clocks = registry.clocks) : after.Clocked := by
  intro id
  rw [match?_of_eq active, clocks]
  exact clocked id

/-- A match is stored and its clock is set. -/
theorem of_setClock {after : Registry α} {chessMatch : Match α} {now : Instant}
    (clocked : registry.Clocked)
    (active : after.active = registry.active.insert chessMatch.id chessMatch)
    (clocks : after.clocks = (registry.setClock chessMatch now).clocks) : after.Clocked := by
  intro id
  have clock := (congrArg (·[id]?) clocks).trans (lookup_insert _ chessMatch.id id _)
  rw [match?_of_insert active, clock]
  split
  · rfl
  · exact clocked id

omit [Scalar α] in
/-- A match is taken out together with its clock. -/
theorem of_erase {after : Registry α} {closed : MatchId} (clocked : registry.Clocked)
    (active : after.active = registry.active.erase closed)
    (clocks : after.clocks = registry.clocks.erase closed) : after.Clocked := by
  intro id
  have clock := (congrArg (·[id]?) clocks).trans (lookup_erase _ closed id)
  rw [match?_of_erase active, clock]
  split
  · rfl
  · exact clocked id

end Registry.Clocked

/-- A call leaves a clock to every stored match and to no other. -/
theorem Effect.clocked {minimum : α} {registry : Registry α} {call : Call α}
    {step : Step α (Except RegistryError Unit)} (effect : Effect minimum registry call step)
    (clocked : registry.Clocked) : step.registry.Clocked := by
  cases effect with
  | idle active _ clocks => exact clocked.of_eq active clocks
  | enter chessMatch _ active _ clocks => exact clocked.of_setClock active clocks
  | write stored draft _ asked _ active _ _ clocks =>
    have id : (draft.following stored).id = stored.id := (Call.rewrite?_identity asked).1
    rw [← id] at active
    exact clocked.of_setClock active clocks
  | close stored _ _ _ active _ _ clocks => exact clocked.of_erase active clocks

/-- A clock that a call sets is that of a match which the call leaves stored. -/
theorem Effect.exists_of_mem_clocks {minimum : α} {registry : Registry α} {call : Call α}
    {step : Step α (Except RegistryError Unit)} (effect : Effect minimum registry call step)
    {id : MatchId} {clock : MatchClock α} (sets : (id, clock) ∈ step.clocks call.now) :
    ∃ stored, step.registry.match? id = some stored ∧ clock = stored.clock call.now := by
  cases effect with
  | idle _ _ _ _ alarms =>
    rw [Step.clocks, alarms] at sets
    cases sets
  | enter chessMatch _ active _ _ _ alarms =>
    rw [Step.clocks_of_clockAlarm alarms] at sets
    cases List.mem_singleton.mp sets
    exact ⟨chessMatch, (Registry.match?_of_insert active _).trans (if_pos rfl), rfl⟩
  | write stored draft _ asked _ active _ _ _ _ alarms =>
    have same : (draft.following stored).id = stored.id := (Call.rewrite?_identity asked).1
    rw [← same] at active
    rw [Step.clocks_of_clockAlarm alarms] at sets
    cases List.mem_singleton.mp sets
    exact ⟨draft.following stored, (Registry.match?_of_insert active _).trans (if_pos rfl), rfl⟩
  | close _ _ _ _ _ _ _ _ _ silent =>
    rw [silent] at sets
    cases sets

/-- How the clocks that were ever set relate to the matches that are stored and to the clocks that
run. -/
structure Clockwork (history : List (Event α)) (registry : Registry α) : Prop where
  clocked : registry.Clocked
  running : ∀ id clock, registry.clocks[id]? = some clock → (id, clock) ∈ clocksSet history
  known : ∀ id clock, (id, clock) ∈ clocksSet history →
    ∃ chessMatch ∈ entered history, chessMatch.id = id
  bounded : ∀ id clock, (id, clock) ∈ clocksSet history →
    ∀ stored, registry.match? id = some stored → clock.generation ≤ stored.generation
  ordered : (clocksSet history).Pairwise fun a b => a.1 = b.1 → a.2.generation < b.2.generation

namespace Clockwork

variable {history : List (Event α)} {registry : Registry α}

omit [Scalar α] in
/-- A clock of the stored generation is the one that runs. -/
theorem running_of_generation (clockwork : Clockwork history registry) {id : MatchId}
    {clock : MatchClock α} {stored : Match α} (wasSet : (id, clock) ∈ clocksSet history)
    (found : registry.match? id = some stored) (same : stored.generation = clock.generation) :
    registry.clocks[id]? = some clock := by
  obtain ⟨other, runs, generation⟩ := clockwork.clocked.exists_running found
  by_cases equal : (id, other) = (id, clock)
  · cases equal
    exact runs
  · -- Two clocks of one match have different generations, whichever of them was set first.
    have distinct : (clocksSet history).Pairwise fun a b =>
        a.1 = b.1 → a.2.generation ≠ b.2.generation :=
      clockwork.ordered.imp fun lower same => (lower same).ne
    have symmetric : Std.Symm fun a b : MatchId × MatchClock α =>
        a.1 = b.1 → a.2.generation ≠ b.2.generation :=
      ⟨fun a b differ same => (differ same.symm).symm⟩
    have differ := distinct.forall (clockwork.running id other runs) wasSet equal rfl
    exact (differ (generation.trans same)).elim

omit [Scalar α] in
/-- An event that sets no clock, and after which each match is stored as before with its clock or is
stored no more. -/
theorem of_silent (clockwork : Clockwork history registry) (event : Event α)
    (clocked : event.step.registry.Clocked) (silent : event.clocks = [])
    (kept : ∀ id, event.step.registry.match? id = registry.match? id ∧
        event.step.registry.clocks[id]? = registry.clocks[id]? ∨
      event.step.registry.match? id = none ∧ event.step.registry.clocks[id]? = none) :
    Clockwork (history ++ [event]) event.step.registry := by
  have unchanged : clocksSet (history ++ [event]) = clocksSet history := by
    rw [clocksSet_concat, silent, List.append_nil]
  refine ⟨clocked, ?_, ?_, ?_, ?_⟩
  · intro id clock runs
    rcases kept id with ⟨_, sameClock⟩ | ⟨_, noClock⟩
    · exact unchanged ▸ clockwork.running id clock (sameClock ▸ runs)
    · cases noClock.symm.trans runs
  · intro id clock wasSet
    obtain ⟨chessMatch, member, same⟩ := clockwork.known id clock (unchanged ▸ wasSet)
    exact ⟨chessMatch, entered_concat history event ▸ List.mem_append_left _ member, same⟩
  · intro id clock wasSet stored found
    rcases kept id with ⟨sameMatch, _⟩ | ⟨noMatch, _⟩
    · exact clockwork.bounded id clock (unchanged ▸ wasSet) stored (sameMatch ▸ found)
    · cases noMatch.symm.trans found
  · rw [unchanged]
    exact clockwork.ordered

/-- An event that stores a match and sets its clock, where every clock set for it before has a lower
generation. -/
theorem of_clockAlarm (clockwork : Clockwork history registry) (event : Event α) {chessMatch : Match α}
    (clocked : event.step.registry.Clocked)
    (active : event.step.registry.active = registry.active.insert chessMatch.id chessMatch)
    (clocks : event.step.registry.clocks = (registry.setClock chessMatch event.call.now).clocks)
    (alarms : event.step.alarms = [Registry.clockAlarm chessMatch event.call.now])
    (known : ∃ other ∈ entered (history ++ [event]), other.id = chessMatch.id)
    (newer : ∀ clock, (chessMatch.id, clock) ∈ clocksSet history →
      clock.generation < chessMatch.generation) :
    Clockwork (history ++ [event]) event.step.registry := by
  have grown : clocksSet (history ++ [event]) =
      clocksSet history ++ [(chessMatch.id, chessMatch.clock event.call.now)] := by
    rw [clocksSet_concat, Event.clocks, Step.clocks_of_clockAlarm alarms]
  have runs (id : MatchId) : event.step.registry.clocks[id]? =
      if chessMatch.id = id then some (chessMatch.clock event.call.now) else registry.clocks[id]? := by
    rw [clocks]
    exact lookup_insert _ _ _ _
  refine ⟨clocked, ?_, ?_, ?_, ?_⟩
  · intro id clock now
    rw [grown, List.mem_append, List.mem_singleton]
    rw [runs] at now
    split at now
    · next same =>
      cases now
      exact .inr (congrArg (·, _) same.symm)
    · exact .inl (clockwork.running id clock now)
  · intro id clock wasSet
    rw [grown, List.mem_append, List.mem_singleton] at wasSet
    rcases wasSet with earlier | latest
    · obtain ⟨other, member, same⟩ := clockwork.known id clock earlier
      exact ⟨other, entered_concat history event ▸ List.mem_append_left _ member, same⟩
    · cases latest
      exact known
  · intro id clock wasSet stored found
    rw [grown, List.mem_append, List.mem_singleton] at wasSet
    rw [Registry.match?_of_insert active] at found
    rcases wasSet with earlier | latest
    · split at found
      · next same =>
        cases found
        subst same
        exact (newer clock earlier).le
      · exact clockwork.bounded id clock earlier stored found
    · cases latest
      rw [if_pos rfl] at found
      cases found
      exact le_rfl
  · rw [grown, List.pairwise_append]
    refine ⟨clockwork.ordered, List.pairwise_singleton _ _, ?_⟩
    rintro ⟨id, clock⟩ earlier latest member same
    cases List.mem_singleton.mp member
    cases same
    exact newer clock earlier

end Clockwork

namespace Run

variable {minimum : α} {history : List (Event α)} {registry : Registry α}

theorem clockwork (run : Run minimum history registry) : Clockwork history registry := by
  induction run with
  | start =>
    refine ⟨Registry.clocked_empty, ?_, ?_, ?_, List.Pairwise.nil⟩
    · intro id clock runs
      simp [Registry.empty] at runs
    · intro id clock wasSet
      cases wasSet
    · intro id clock wasSet
      cases wasSet
  | @call history registry run call fresh ih =>
    have clocked := (run.effect call).clocked ih.clocked
    cases run.effect call with
    | idle active _ clocks _ alarms =>
      refine ih.of_silent (registry.event minimum call) clocked ?_ ?_
      · rw [Event.clocks, Step.clocks, Registry.event, alarms]
        rfl
      · intro id
        exact .inl ⟨Registry.match?_of_eq active id, congrArg (·[id]?) clocks⟩
    | enter chessMatch _ active _ clocks told alarms =>
      have isNew := fresh.ne_of_created told
      refine ih.of_clockAlarm (registry.event minimum call) clocked active clocks alarms ?_ ?_
      · refine ⟨chessMatch, ?_, rfl⟩
        rw [entered_concat, Event.entered_of_created told]
        exact List.mem_append_right _ (List.mem_singleton_self _)
      · intro clock wasSet
        obtain ⟨earlier, member, same⟩ := ih.known _ clock wasSet
        exact (isNew earlier member same).elim
    | write stored draft found asked _ active _ _ clocks _ alarms =>
      have id : (draft.following stored).id = stored.id := (Call.rewrite?_identity asked).1
      rw [← id] at active
      refine ih.of_clockAlarm (registry.event minimum call) clocked active clocks alarms ?_ ?_
      · obtain ⟨clock, runs, _⟩ := ih.clocked.exists_running found
        obtain ⟨other, member, same⟩ := ih.known _ clock (ih.running _ clock runs)
        rw [entered_concat]
        exact ⟨other, List.mem_append_left _ member, same.trans id.symm⟩
      · intro clock wasSet
        rw [id] at wasSet
        exact Nat.lt_succ_of_le (ih.bounded _ clock wasSet stored found)
    | close stored last found _ active _ _ clocks _ silent =>
      refine ih.of_silent (registry.event minimum call) clocked silent ?_
      intro id
      have afterMatch := Registry.match?_of_erase active id
      have afterClock := (congrArg (·[id]?) clocks).trans (lookup_erase _ stored.id id)
      by_cases same : stored.id = id
      · rw [if_pos same] at afterMatch afterClock
        exact .inr ⟨afterMatch, afterClock⟩
      · rw [if_neg same] at afterMatch afterClock
        exact .inl ⟨afterMatch, afterClock⟩

/-- A match whose end was told is not stored and has no clock, and no clock of it has an effect. -/
theorem powerless_of_ended (run : Run minimum history registry) {id : MatchId}
    {milestone : Milestone α} (member : milestone ∈ milestonesOf id history)
    (ended : milestone.stage = .ended) :
    registry.match? id = none ∧ registry.clocks[id]? = none ∧
      ∀ generation now, registry.expire id generation now = .still registry := by
  have absent := (run.course id).absent_of_ended member ended
  refine ⟨absent, ?_, ?_⟩
  · have current := run.clockwork.clocked id
    rw [absent] at current
    exact Option.map_eq_none_iff.mp current
  · intro generation now
    apply Registry.expire_of_stale
    intro stored found
    cases absent.symm.trans found

end Run

/-- The step ends a stored match on time: the side to move has nothing left and loses. This is told
once, and the match is closed. -/
structure Step.EndsOnTime (step : Step α Unit) (registry : Registry α) (stored final : Match α) :
    Prop where
  written : final = stored.afterTimeout.following stored
  spent : final.time stored.turn = Scalar.ofInt 0
  lost : final.result = .win stored.turn.other .timeout
  told : step.notices = [.matchEnded final]
  closed : step.registry = registry.close final

/-- A clock that rings and ends its match tells its end and nothing else. -/
theorem Registry.stages_of_expire {minimum : α} {registry : Registry α} (call : Call α) {id : MatchId}
    {generation : Nat} {final : Match α} (operation : call.operation = .expire id generation)
    (told : (registry.expire id generation call.now).notices = [.matchEnded final]) :
    (registry.event minimum call).step.stages = [(.ended, final)] := by
  simp only [event, perform, operation]
  exact congrArg (List.filterMap Notice.stage?) told

theorem Registry.endsOnTime {registry : Registry α} {stored : Match α} (now : Instant)
    (found : registry.match? stored.id = some stored) :
    (registry.expire stored.id stored.generation now).EndsOnTime registry stored
      (stored.afterTimeout.following stored) := by
  rw [expire_of_current now found]
  exact ⟨rfl, stored.time_afterTimeout, rfl, rfl, rfl⟩

/-- In every run, one clock runs for each stored match and for no other, and carries the stored
generation. Of the clocks that were ever set, one that does not run changes nothing and tells nothing
when it rings. One that runs ends its match when it rings; in every run that goes on from there the
match is not stored, it has no clock, and no clock of it has an effect. -/
theorem Run.clock_rings {minimum : α} {history : List (Event α)} {registry : Registry α}
    (run : Run minimum history registry) :
    (∀ id, registry.clocks[id]?.map (·.generation) = (registry.match? id).map (·.generation)) ∧
      (∀ id clock, registry.clocks[id]? = some clock → (id, clock) ∈ clocksSet history) ∧
      ∀ id clock, (id, clock) ∈ clocksSet history → ∀ now,
        (registry.clocks[id]? ≠ some clock →
          registry.expire id clock.generation now = .still registry) ∧
        (registry.clocks[id]? = some clock → ∃ stored final, registry.match? id = some stored ∧
          (registry.expire id clock.generation now).EndsOnTime registry stored final ∧
          ∀ roles, let event := registry.event minimum ⟨.expire id clock.generation, roles, now⟩
            Run minimum (history ++ [event]) event.step.registry ∧
              ∀ later after, Run minimum (history ++ event :: later) after →
                after.match? id = none ∧ after.clocks[id]? = none ∧
                  ∀ generation now, after.expire id generation now = .still after) := by
  refine ⟨run.clockwork.clocked, run.clockwork.running, ?_⟩
  intro id clock wasSet now
  constructor
  · intro superseded
    apply Registry.expire_of_stale
    intro stored found same
    exact superseded (run.clockwork.running_of_generation wasSet found same)
  · intro runs
    obtain ⟨stored, found, same⟩ := run.clockwork.clocked.exists_stored runs
    obtain rfl := run.keyed id stored found
    have ends := Registry.endsOnTime now found
    rw [same] at ends
    refine ⟨stored, _, found, ends, ?_⟩
    intro roles event
    have stages : event.step.stages = [(.ended, _)] :=
      Registry.stages_of_expire ⟨.expire stored.id clock.generation, roles, now⟩ rfl ends.told
    refine ⟨run.call _ (.of_later stages (by decide)), ?_⟩
    intro later after continued
    have happened : event ∈ history ++ event :: later :=
      List.mem_append_right _ List.mem_cons_self
    have told := mem_milestonesOf happened stages
    rw [Match.following_id, Match.afterTimeout_id] at told
    exact continued.powerless_of_ended told rfl

/-- A match that is entered and written once has had two clocks. The first has no effect when it
rings, the second ends the match. -/
theorem clock_rings_of_superseded :
    ∃ (history : List (Event Rat)) (registry : Registry Rat) (first second : MatchClock Rat),
      Run 0 history registry ∧ clocksSet history = [(⟨1⟩, first), (⟨1⟩, second)] ∧
      registry.clocks[(⟨1⟩ : MatchId)]? = some second ∧ ∀ now,
        registry.expire ⟨1⟩ first.generation now = .still registry ∧
        ∃ stored final,
          (registry.expire ⟨1⟩ second.generation now).EndsOnTime registry stored final := by
  let beginning : Instant := .ofMillis 0
  let call (operation : Operation Rat) : Call Rat := ⟨operation, fun _ => .player, beginning⟩
  let chessMatch : Match Rat := .start ⟨1⟩ "ada" "bob" .blitz beginning
  let first := chessMatch.clock beginning
  let second := (chessMatch.following chessMatch).clock beginning
  obtain ⟨history, registry, run, clocks, runs⟩ : ∃ history registry, Run (0 : Rat) history registry ∧
      clocksSet history = [(⟨1⟩, first), (⟨1⟩, second)] ∧
      registry.clocks[(⟨1⟩ : MatchId)]? = some second := by
    have begun : Run (0 : Rat) [] .empty := .start
    have entered := begun.call (call (.add chessMatch)) (by decide)
    have written := entered.call (call (.set chessMatch)) (by decide)
    exact ⟨_, _, written, rfl, rfl⟩
  refine ⟨history, registry, first, second, run, clocks, runs, ?_⟩
  obtain ⟨_, running, rings⟩ := run.clock_rings
  intro now
  have superseded : registry.clocks[(⟨1⟩ : MatchId)]? ≠ some first := by
    rw [runs]
    intro same
    exact absurd (congrArg (Option.map (·.generation)) same) (by decide)
  have wasSet : ((⟨1⟩ : MatchId), first) ∈ clocksSet history := clocks ▸ List.mem_cons_self
  obtain ⟨stored, final, _, ends, _⟩ := (rings ⟨1⟩ second (running ⟨1⟩ second runs) now).2 runs
  exact ⟨(rings ⟨1⟩ first wasSet now).1 superseded, stored, final, ends⟩

end ChessArbiter
