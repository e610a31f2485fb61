import ChessArbiter.Registry.Challenges

/-! # Runs of the registry

A run is a sequence of calls on the registry, each at a time of its own and with a role for every
client that holds while it is made; both may differ from call to call in any way. The history of a
run records each call with what it did. No identity is given to two matches.

The clocks of a run are all that were ever set, also those that were superseded or cancelled. The
milestones of a run are the stages of its matches that were told, each with the operation behind it;
a match that is refused has none.
-/

namespace ChessArbiter

/-- What can be asked of the registry, by a client or by a clock that rings. -/
inductive Operation (α : Type) where
  | challenge (challenge : Challenge)
  | accept (challenged challenger : ClientKey) (id : MatchId) (draw : Bool)
  | decline (challenged challenger : ClientKey)
  | revoke (challenger challenged : ClientKey)
  | add (chessMatch : Match α)
  | move (id : MatchId) (request : MoveRequest)
  | set (chessMatch : Match α)
  | remove (id : MatchId)
  | resign (id : MatchId) (key : ClientKey)
  | expire (id : MatchId) (generation : Nat)

/-- An operation, the role of each client when it is performed, and the time. -/
structure Call (α : Type) where
  operation : Operation α
  roles : ClientKey → Role
  now : Instant

/-- The stages of a match that are told to its participants. -/
inductive Stage where
  | created
  | updated
  | ended
deriving DecidableEq

/-- The stage of which a notice tells, and the match as it shows it. -/
def Notice.stage? {α : Type} : Notice α → Option (Stage × Match α)
  | .matchCreated chessMatch => some (.created, chessMatch)
  | .matchUpdated chessMatch => some (.updated, chessMatch)
  | .matchEnded chessMatch => some (.ended, chessMatch)
  | _ => none

/-- The clock that an order to the timer sets at a time. -/
def Alarm.clock? {α : Type} (now : Instant) : Alarm α → Option (MatchId × MatchClock α)
  | .set id generation wait => some (id, ⟨generation, now, wait⟩)
  | .cancel _ => none
  | .release _ => none

/-- The match that an order to the timer is about. -/
def Alarm.id {α : Type} : Alarm α → MatchId
  | .set id _ _ => id
  | .cancel id => id
  | .release id => id

namespace Step

variable {α β : Type}

def stages (step : Step α β) : List (Stage × Match α) :=
  step.notices.filterMap Notice.stage?

/-- The clocks that a step sets. -/
def clocks (step : Step α β) (now : Instant) : List (MatchId × MatchClock α) :=
  step.alarms.filterMap (Alarm.clock? now)

end Step

/-- A call and what it did. -/
structure Event (α : Type) where
  call : Call α
  step : Step α (Except RegistryError Unit)

/-- A stage of a match, with the operation that brought it about. -/
structure Milestone (α : Type) where
  operation : Operation α
  stage : Stage
  chessMatch : Match α

namespace Event

variable {α : Type}

def milestones (event : Event α) : List (Milestone α) :=
  event.step.stages.map fun (stage, chessMatch) => ⟨event.call.operation, stage, chessMatch⟩

/-- The clocks that an event sets. -/
def clocks (event : Event α) : List (MatchId × MatchClock α) :=
  event.step.clocks event.call.now

/-- The matches that an event enters. -/
def entered (event : Event α) : List (Match α) :=
  (event.step.stages.filter (·.1 = .created)).map (·.2)

end Event

section History

variable {α : Type}

/-- All matches that were ever entered. -/
def entered (history : List (Event α)) : List (Match α) :=
  history.flatMap Event.entered

/-- The matches that were entered under an identity, in the order in which they were. -/
def entriesOf (id : MatchId) (history : List (Event α)) : List (Match α) :=
  (entered history).filter (·.id = id)

/-- All clocks that were ever set, in the order in which they were. -/
def clocksSet (history : List (Event α)) : List (MatchId × MatchClock α) :=
  history.flatMap Event.clocks

/-- The milestones of one match, in the order in which they were told. -/
def milestonesOf (id : MatchId) (history : List (Event α)) : List (Milestone α) :=
  (history.flatMap Event.milestones).filter (·.chessMatch.id = id)

/-- The client was a player when the match of this identity was entered. -/
def PlayerAtEntry (history : List (Event α)) (id : MatchId) (key : ClientKey) : Prop :=
  ∃ event ∈ history, (∃ chessMatch ∈ event.entered, chessMatch.id = id) ∧
    event.call.roles key = .player

/-- No match that the event enters has the identity of one that was entered before. -/
def Fresh (history : List (Event α)) (event : Event α) : Prop :=
  ∀ chessMatch ∈ event.entered, ∀ earlier ∈ entered history, chessMatch.id ≠ earlier.id

instance (history : List (Event α)) (event : Event α) : Decidable (Fresh history event) :=
  inferInstanceAs (Decidable (∀ _ ∈ _, ∀ _ ∈ _, _))

theorem entered_concat (history : List (Event α)) (event : Event α) :
    entered (history ++ [event]) = entered history ++ event.entered := by
  simp only [entered, List.flatMap_append, List.flatMap_singleton]

/-- The matches that an event enters are those of whose entry it tells. -/
theorem Event.mem_entered {event : Event α} {chessMatch : Match α} :
    chessMatch ∈ event.entered ↔ (.created, chessMatch) ∈ event.step.stages := by
  simp [Event.entered]

theorem Event.entered_of_created {event : Event α} {chessMatch : Match α}
    (told : event.step.stages = [(.created, chessMatch)]) : event.entered = [chessMatch] := by
  rw [Event.entered, told]
  rfl

theorem entriesOf_concat_of_other {id : MatchId} {history : List (Event α)} {event : Event α}
    (other : ∀ chessMatch ∈ event.entered, chessMatch.id ≠ id) :
    entriesOf id (history ++ [event]) = entriesOf id history := by
  have none : event.entered.filter (·.id = id) = [] := by
    simpa only [List.filter_eq_nil_iff, decide_eq_true_eq] using other
  rw [entriesOf, entered_concat, List.filter_append, none, List.append_nil]
  rfl

theorem entriesOf_concat_of_created {id : MatchId} {history : List (Event α)} {event : Event α}
    {chessMatch : Match α} (own : chessMatch.id = id)
    (told : event.step.stages = [(.created, chessMatch)]) :
    entriesOf id (history ++ [event]) = entriesOf id history ++ [chessMatch] := by
  have kept : [chessMatch].filter (·.id = id) = [chessMatch] :=
    List.filter_cons_of_pos (decide_eq_true own)
  rw [entriesOf, entered_concat, Event.entered_of_created told, List.filter_append, kept]
  rfl

/-- A match whose entry is told is not one that was entered before. -/
theorem Fresh.ne_of_created {history : List (Event α)} {event : Event α} {chessMatch : Match α}
    (fresh : Fresh history event) (told : event.step.stages = [(.created, chessMatch)]) :
    ∀ earlier ∈ entered history, earlier.id ≠ chessMatch.id := by
  intro earlier member same
  have enters : chessMatch ∈ event.entered := by
    rw [Event.entered_of_created told]
    exact List.mem_singleton_self _
  exact fresh chessMatch enters earlier member same.symm

/-- An event that tells of a later stage enters nothing. -/
theorem Event.entered_of_later {event : Event α} {stage : Stage} {chessMatch : Match α}
    (told : event.step.stages = [(stage, chessMatch)]) (later : stage ≠ .created) :
    event.entered = [] := by
  rw [Event.entered, told]
  simp [later]

/-- An event that tells of a later stage is possible after any history. -/
theorem Fresh.of_later {history : List (Event α)} {event : Event α} {stage : Stage}
    {chessMatch : Match α} (told : event.step.stages = [(stage, chessMatch)])
    (later : stage ≠ .created) : Fresh history event := by
  intro chessMatch enters
  rw [Event.entered_of_later told later] at enters
  cases enters

theorem Event.entered_of_nil {event : Event α} (silent : event.step.stages = []) :
    event.entered = [] := by
  rw [Event.entered, silent]
  rfl

theorem clocksSet_append (history later : List (Event α)) :
    clocksSet (history ++ later) = clocksSet history ++ clocksSet later :=
  List.flatMap_append

theorem clocksSet_concat (history : List (Event α)) (event : Event α) :
    clocksSet (history ++ [event]) = clocksSet history ++ event.clocks := by
  rw [clocksSet_append, clocksSet, clocksSet, List.flatMap_singleton]

theorem playerAtEntry_concat_of_nil {history : List (Event α)} {event : Event α} {id : MatchId}
    {key : ClientKey} (none : event.entered = []) :
    PlayerAtEntry (history ++ [event]) id key ↔ PlayerAtEntry history id key := by
  simp [PlayerAtEntry, or_and_right, exists_or, none]

theorem playerAtEntry_concat {history : List (Event α)} {event : Event α} {id : MatchId}
    {key : ClientKey} : PlayerAtEntry (history ++ [event]) id key ↔
      PlayerAtEntry history id key ∨
        ((∃ chessMatch ∈ event.entered, chessMatch.id = id) ∧ event.call.roles key = .player) := by
  simp only [PlayerAtEntry, List.mem_append, List.mem_singleton, or_and_right, exists_or,
    exists_eq_left]

theorem mem_entered_of_playerAtEntry {history : List (Event α)} {id : MatchId} {key : ClientKey}
    (player : PlayerAtEntry history id key) : ∃ chessMatch ∈ entered history, chessMatch.id = id := by
  obtain ⟨event, member, ⟨chessMatch, enters, same⟩, _⟩ := player
  exact ⟨chessMatch, List.mem_flatMap.mpr ⟨event, member, enters⟩, same⟩

/-- The matches entered are those whose entry was told. -/
theorem mem_entered_of_milestone {id : MatchId} {history : List (Event α)}
    {milestone : Milestone α} (member : milestone ∈ milestonesOf id history)
    (created : milestone.stage = .created) : milestone.chessMatch ∈ entered history := by
  obtain ⟨event, happened, told⟩ := List.mem_flatMap.mp (List.mem_filter.mp member).1
  obtain ⟨⟨stage, chessMatch⟩, shown, rfl⟩ := List.mem_map.mp told
  obtain rfl : stage = .created := created
  exact List.mem_flatMap.mpr ⟨event, happened, Event.mem_entered.mpr shown⟩

/-- Whatever is told of a match is a milestone of it. -/
theorem mem_milestonesOf_of_told {history : List (Event α)} {event : Event α} {stage : Stage}
    {chessMatch : Match α} (happened : event ∈ history)
    (told : (stage, chessMatch) ∈ event.step.stages) :
    ⟨event.call.operation, stage, chessMatch⟩ ∈ milestonesOf chessMatch.id history := by
  refine List.mem_filter.mpr ⟨List.mem_flatMap.mpr ⟨event, happened, ?_⟩, decide_eq_true rfl⟩
  exact List.mem_map.mpr ⟨(stage, chessMatch), told, rfl⟩

/-- A stage that an event tells is a milestone of its match. -/
theorem mem_milestonesOf {history : List (Event α)} {event : Event α} {stage : Stage}
    {chessMatch : Match α} (happened : event ∈ history)
    (told : event.step.stages = [(stage, chessMatch)]) :
    ⟨event.call.operation, stage, chessMatch⟩ ∈ milestonesOf chessMatch.id history :=
  mem_milestonesOf_of_told happened (told ▸ List.mem_singleton_self _)

theorem milestonesOf_append (id : MatchId) (history later : List (Event α)) :
    milestonesOf id (history ++ later) = milestonesOf id history ++ milestonesOf id later := by
  rw [milestonesOf, List.flatMap_append, List.filter_append]
  rfl

private theorem milestonesOf_concat (id : MatchId) (history : List (Event α)) (event : Event α) :
    milestonesOf id (history ++ [event]) =
      milestonesOf id history ++ event.milestones.filter (·.chessMatch.id = id) := by
  rw [milestonesOf_append, milestonesOf, milestonesOf, List.flatMap_singleton]

theorem milestonesOf_concat_of_nil (id : MatchId) (history : List (Event α)) {event : Event α}
    (silent : event.step.stages = []) : milestonesOf id (history ++ [event]) = milestonesOf id history := by
  rw [milestonesOf_concat, Event.milestones, silent]
  exact List.append_nil _

/-- A stage that is told is a milestone of its own match and of no other. -/
theorem milestonesOf_concat_of_singleton (id : MatchId) (history : List (Event α))
    {event : Event α} {stage : Stage} {chessMatch : Match α}
    (told : event.step.stages = [(stage, chessMatch)]) :
    milestonesOf id (history ++ [event]) = milestonesOf id history ++
      if chessMatch.id = id then [⟨event.call.operation, stage, chessMatch⟩] else [] := by
  rw [milestonesOf_concat, Event.milestones, told]
  by_cases same : chessMatch.id = id <;> simp [same]

end History

variable {α : Type} [Scalar α]

/-- The step of a call. A move costs at least the given minimum. -/
def Registry.perform (minimum : α) (registry : Registry α) (call : Call α) :
    Step α (Except RegistryError Unit) :=
  match call.operation with
  | .challenge challenge => registry.challenge call.roles challenge
  | .accept challenged challenger id draw =>
    registry.accept call.roles challenged challenger id draw call.now
  | .decline challenged challenger => registry.decline challenged challenger
  | .revoke challenger challenged => registry.revoke challenger challenged
  | .add chessMatch => registry.add call.roles chessMatch call.now
  | .move id request => registry.move minimum id request call.now
  | .set chessMatch => (registry.set chessMatch call.now).done
  | .remove id => registry.remove id
  | .resign id key => registry.resign id key call.now
  | .expire id generation => { registry.expire id generation call.now with answer := .ok () }

/-- The event of a call. -/
def Registry.event (minimum : α) (registry : Registry α) (call : Call α) : Event α :=
  ⟨call, registry.perform minimum call⟩

/-- A run from the empty registry: its history, and the registry that it leaves. -/
inductive Run (minimum : α) : List (Event α) → Registry α → Prop
  | start : Run minimum [] .empty
  | call {history : List (Event α)} {registry : Registry α} (run : Run minimum history registry)
      (call : Call α) (fresh : Fresh history (registry.event minimum call)) :
      Run minimum (history ++ [registry.event minimum call]) (registry.perform minimum call).registry

end ChessArbiter
