import ChessArbiter.Proofs.Registry.Lookup
import ChessArbiter.Proofs.Registry.Run

/-! # What a call can do to the matches

A call either leaves all matches alone, or enters one match, or writes over one stored match, or
closes one. `Effect` says for each of these what becomes of the matches, the seats and the clocks,
which stages are told and which clocks are set; everything about runs is derived from it and not from
the operations. What a call writes depends on the stored match alone (`Call.rewrite?`).
-/

namespace ChessArbiter

variable {α : Type}

/-- The step that changes nothing, tells nothing and asks nothing of the timer. -/
def Step.still (registry : Registry α) : Step α Unit :=
  { answer := (), registry := registry, notices := [], alarms := [] }

namespace Match

/-- The match with the generation that follows the one of the match it is written over. -/
def following (chessMatch stored : Match α) : Match α :=
  { chessMatch with generation := stored.generation + 1 }

@[simp] theorem following_id (chessMatch stored : Match α) :
    (chessMatch.following stored).id = chessMatch.id := rfl

@[simp] theorem following_isTerminal (chessMatch stored : Match α) :
    (chessMatch.following stored).isTerminal = chessMatch.isTerminal := rfl

theorem afterResignation_sameIdentity (chessMatch : Match α) (colour : Colour) :
    chessMatch.sameIdentity (chessMatch.afterResignation colour) = true :=
  chessMatch.sameIdentity_refl

variable [Scalar α]

@[simp] theorem withTime_id (chessMatch : Match α) (colour : Colour) (seconds : α) :
    (chessMatch.withTime colour seconds).id = chessMatch.id := by
  cases colour <;> rfl

theorem withTime_sameIdentity (chessMatch : Match α) (colour : Colour) (seconds : α) :
    chessMatch.sameIdentity (chessMatch.withTime colour seconds) = true := by
  cases colour <;> exact chessMatch.sameIdentity_refl

@[simp] theorem afterMove_id (chessMatch : Match α) (minimum : α) (request : MoveRequest)
    (now : Instant) : (chessMatch.afterMove minimum request now).id = chessMatch.id := by
  unfold afterMove
  extract_lets mover zero left result charged played
  split
  · exact withTime_id _ _ _
  · exact (withTime_id _ _ _).trans (withTime_id _ _ _)

theorem afterMove_sameIdentity (chessMatch : Match α) (minimum : α) (request : MoveRequest)
    (now : Instant) : chessMatch.sameIdentity (chessMatch.afterMove minimum request now) = true := by
  unfold afterMove
  extract_lets mover zero left result charged played
  have paid : chessMatch.sameIdentity played = true := chessMatch.withTime_sameIdentity mover left
  split
  · exact paid
  · exact sameIdentity_trans paid (played.withTime_sameIdentity mover _)

@[simp] theorem afterTimeout_id (chessMatch : Match α) :
    chessMatch.afterTimeout.id = chessMatch.id := chessMatch.withTime_id _ _

theorem afterTimeout_sameIdentity (chessMatch : Match α) :
    chessMatch.sameIdentity chessMatch.afterTimeout = true :=
  chessMatch.withTime_sameIdentity _ _

end Match

variable [Scalar α]

/-- What a call makes of a stored match, where the match is the one that it is about and the call is
one that writes it. -/
def Call.rewrite? (minimum : α) (call : Call α) (stored : Match α) : Option (Match α) :=
  match call.operation with
  | .move id request =>
    if id = stored.id ∧ stored.position.accepts request then
      some (stored.afterMove minimum request call.now)
    else none
  | .set chessMatch =>
    if chessMatch.id = stored.id ∧ stored.sameIdentity chessMatch then some chessMatch else none
  | .resign id key =>
    if id = stored.id then (stored.colourOf? key).map stored.afterResignation else none
  | .expire id generation =>
    if id = stored.id ∧ stored.generation = generation then some stored.afterTimeout else none
  | _ => none

/-- A match is never rewritten as another one. -/
theorem Call.rewrite?_identity {minimum : α} {call : Call α} {stored draft : Match α}
    (asked : call.rewrite? minimum stored = some draft) :
    draft.id = stored.id ∧ stored.sameIdentity draft = true := by
  cases operation : call.operation with
  | move id request =>
    simp only [rewrite?, operation, Option.ite_none_right_eq_some, Option.some.injEq] at asked
    obtain ⟨_, rfl⟩ := asked
    exact ⟨stored.afterMove_id _ _ _, stored.afterMove_sameIdentity _ _ _⟩
  | set chessMatch =>
    simp only [rewrite?, operation, Option.ite_none_right_eq_some, Option.some.injEq] at asked
    obtain ⟨⟨same, identity⟩, rfl⟩ := asked
    exact ⟨same, identity⟩
  | resign id key =>
    simp only [rewrite?, operation, Option.ite_none_right_eq_some, Option.map_eq_some_iff] at asked
    obtain ⟨_, colour, _, rfl⟩ := asked
    exact ⟨rfl, stored.afterResignation_sameIdentity colour⟩
  | expire id generation =>
    simp only [rewrite?, operation, Option.ite_none_right_eq_some, Option.some.injEq] at asked
    obtain ⟨_, rfl⟩ := asked
    exact ⟨stored.afterTimeout_id, stored.afterTimeout_sameIdentity⟩
  | _ => simp only [rewrite?, operation, reduceCtorEq] at asked

/-- Taking a match out writes nothing. -/
theorem Call.rewrite?_not_remove {minimum : α} {call : Call α} {stored draft : Match α}
    (asked : call.rewrite? minimum stored = some draft) (id : MatchId) :
    call.operation ≠ .remove id := by
  intro operation
  simp only [rewrite?, operation, reduceCtorEq] at asked

/-- How a stored match comes to its end, and what is told then: a write that is over, or the match as
it stands when it is taken out. -/
inductive Ending (minimum : α) (call : Call α) (stored : Match α) : Match α → Prop
  | written {draft : Match α} (asked : call.rewrite? minimum stored = some draft)
      (finished : draft.isTerminal = true) : Ending minimum call stored (draft.following stored)
  | removed (asked : call.operation = .remove stored.id) : Ending minimum call stored stored

/-- The match that is told at the end is the one that was stored. -/
theorem Ending.identity {minimum : α} {call : Call α} {stored last : Match α}
    (ending : Ending minimum call stored last) :
    last.id = stored.id ∧ stored.sameIdentity last = true := by
  cases ending with
  | written asked _ =>
    obtain ⟨id, same⟩ := Call.rewrite?_identity asked
    exact ⟨id, same⟩
  | removed _ => exact ⟨rfl, stored.sameIdentity_refl⟩

/-- The ways in which a call can change the matches of a registry. -/
inductive Effect (minimum : α) (registry : Registry α) (call : Call α)
    (step : Step α (Except RegistryError Unit)) : Prop
  | idle (active : step.registry.active = registry.active)
      (seats : step.registry.seats = registry.seats)
      (clocks : step.registry.clocks = registry.clocks)
      (stages : step.stages = []) (alarms : step.alarms = [])
  | enter (chessMatch : Match α) (free : registry.canSeat call.roles chessMatch = true)
      (active : step.registry.active = registry.active.insert chessMatch.id chessMatch)
      (seats : step.registry.seats = (registry.seat call.roles chessMatch).seats)
      (clocks : step.registry.clocks = (registry.setClock chessMatch call.now).clocks)
      (stages : step.stages = [(.created, chessMatch)])
      (alarms : step.alarms = [Registry.clockAlarm chessMatch call.now])
  | write (stored draft : Match α) (found : registry.match? stored.id = some stored)
      (asked : call.rewrite? minimum stored = some draft) (continues : draft.isTerminal = false)
      (active : step.registry.active = registry.active.insert stored.id (draft.following stored))
      (seats : step.registry.seats = registry.seats)
      (challenges : step.registry.challenges = registry.challenges)
      (clocks : step.registry.clocks = (registry.setClock (draft.following stored) call.now).clocks)
      (stages : step.stages = [(.updated, draft.following stored)])
      (alarms : step.alarms = [Registry.clockAlarm (draft.following stored) call.now])
  | close (stored last : Match α) (found : registry.match? stored.id = some stored)
      (ending : Ending minimum call stored last)
      (active : step.registry.active = registry.active.erase stored.id)
      (seats : step.registry.seats = registry.vacate stored)
      (challenges : step.registry.challenges = registry.challenges)
      (clocks : step.registry.clocks = registry.clocks.erase stored.id)
      (stages : step.stages = [(.ended, last)]) (silent : step.clocks call.now = [])
      (own : ∀ alarm ∈ step.alarms, alarm.id = stored.id)

namespace Registry

/-- Every match is stored under its own identity. -/
def Keyed (registry : Registry α) : Prop :=
  ∀ id stored, registry.match? id = some stored → stored.id = id

section Write

variable {registry : Registry α} {stored draft : Match α} {now : Instant}

theorem set_of_continues (found : registry.match? draft.id = some stored)
    (same : stored.sameIdentity draft = true) (continues : draft.isTerminal = false) :
    registry.set draft now =
      { answer := .ok (draft.following stored)
        registry :=
          { registry with active := registry.active.insert draft.id (draft.following stored) }.setClock
            (draft.following stored) now
        notices := [.matchUpdated (draft.following stored)]
        alarms := [clockAlarm (draft.following stored) now] } := by
  have goesOn : ({ draft with generation := stored.generation + 1 } : Match α).isTerminal = false :=
    continues
  simp only [set, found, same, if_true, goesOn, Bool.false_eq_true, if_false]
  rfl

theorem set_of_over (found : registry.match? draft.id = some stored)
    (same : stored.sameIdentity draft = true) (finished : draft.isTerminal = true) :
    registry.set draft now =
      { answer := .ok (draft.following stored)
        registry := registry.close (draft.following stored)
        notices := [.matchEnded (draft.following stored)]
        alarms := registry.cancelClock draft.id } := by
  have isOver : ({ draft with generation := stored.generation + 1 } : Match α).isTerminal = true :=
    finished
  simp only [set, found, same, if_true, isOver]
  rfl

theorem set_of_absent (absent : registry.match? draft.id = none) :
    registry.set draft now = .refused registry .matchNotFound [] := by
  simp only [set, absent]

theorem set_of_mismatch (found : registry.match? draft.id = some stored)
    (differs : stored.sameIdentity draft = false) :
    registry.set draft now = .refused registry .immutableFieldChanged [] := by
  simp only [set, found, differs, Bool.false_eq_true, if_false]

/-- A write succeeds only over a stored match of the same identity, and answers what it wrote. -/
theorem exists_of_set_ok {written : Match α} (success : (registry.set draft now).answer = .ok written) :
    ∃ stored, registry.match? draft.id = some stored ∧ stored.sameIdentity draft = true ∧
      written = draft.following stored := by
  cases found : registry.match? draft.id with
  | none =>
    rw [set_of_absent found] at success
    cases success
  | some stored =>
    cases same : stored.sameIdentity draft with
    | false =>
      rw [set_of_mismatch found same] at success
      cases success
    | true =>
      refine ⟨stored, rfl, same, ?_⟩
      cases terminal : draft.isTerminal with
      | false =>
        rw [set_of_continues found same terminal] at success
        exact (Except.ok.inj success).symm
      | true =>
        rw [set_of_over found same terminal] at success
        exact (Except.ok.inj success).symm

/-- A move succeeds only in a stored match whose position accepts it. -/
theorem exists_of_move_ok {minimum : α} {id : MatchId} {request : MoveRequest}
    (success : (registry.move minimum id request now).answer = .ok ()) :
    ∃ stored, registry.match? id = some stored ∧ stored.position.accepts request = true ∧
      registry.move minimum id request now =
        (registry.set (stored.afterMove minimum request now) now).done := by
  unfold move at success ⊢
  split at success
  · cases success
  · next stored found =>
    split at success
    · next allowed => exact ⟨stored, found, allowed, if_pos allowed⟩
    · cases success

/-- A resignation succeeds only for a participant of a stored match. -/
theorem exists_of_resign_ok {id : MatchId} {key : ClientKey}
    (success : (registry.resign id key now).answer = .ok ()) :
    ∃ stored colour, registry.match? id = some stored ∧ stored.colourOf? key = some colour ∧
      registry.resign id key now = (registry.set (stored.afterResignation colour) now).done := by
  unfold resign at success ⊢
  split at success
  · cases success
  · next stored found =>
    split at success
    · cases success
    · next colour plays => exact ⟨stored, colour, found, plays, rfl⟩

end Write

/-- The clock of the stored generation ends the match on time. -/
theorem expire_of_current {registry : Registry α} {stored : Match α} (now : Instant)
    (found : registry.match? stored.id = some stored) :
    registry.expire stored.id stored.generation now =
      { answer := ()
        registry := registry.close (stored.afterTimeout.following stored)
        notices := [.matchEnded (stored.afterTimeout.following stored)]
        alarms := [.release stored.id] } := by
  have foundLoser : ({ registry with clocks := registry.clocks.erase stored.id } : Registry α).match?
      stored.afterTimeout.id = some stored := by rw [Match.afterTimeout_id]; exact found
  have noClock : (registry.clocks.erase stored.id).contains stored.id = false := by
    rw [contains_eq_false_iff, lookup_erase, if_pos rfl]
  unfold expire
  simp only [found, if_true, set_of_over foundLoser stored.afterTimeout_sameIdentity rfl,
    Match.afterTimeout_id, cancelClock, noClock, close, Match.following_id, erase_erase_self,
    Bool.false_eq_true, if_false]
  rfl

/-- A clock of another generation than the stored one has no effect. -/
theorem expire_of_stale {registry : Registry α} {id : MatchId} {generation : Nat} (now : Instant)
    (stale : ∀ stored, registry.match? id = some stored → stored.generation ≠ generation) :
    registry.expire id generation now = .still registry := by
  unfold expire
  split
  · rfl
  · next stored found =>
    rw [if_neg (stale stored found)]
    rfl

omit [Scalar α] in
theorem clocks_cancelClock (registry : Registry α) (id : MatchId) (now : Instant) :
    (registry.cancelClock id).filterMap (Alarm.clock? now) = [] := by
  unfold cancelClock
  split <;> rfl

omit [Scalar α] in
/-- Cancelling the clock of a match is no order about another one. -/
theorem id_of_mem_cancelClock {registry : Registry α} {id : MatchId} {alarm : Alarm α}
    (member : alarm ∈ registry.cancelClock id) : alarm.id = id := by
  unfold cancelClock at member
  split at member
  · rw [List.mem_singleton.mp member]
    rfl
  · cases member

omit [Scalar α] in
/-- A match that differs from the stored one in no participant vacates the same seats. -/
theorem vacate_of_sameIdentity (registry : Registry α) {stored last : Match α}
    (id : last.id = stored.id) (same : stored.sameIdentity last = true) :
    registry.vacate last = registry.vacate stored := by
  simp only [vacate, Match.participants_of_sameIdentity same, id]

end Registry

namespace Effect

variable {minimum : α} {registry : Registry α} {call : Call α}
  {step : Step α (Except RegistryError Unit)}

/-- A refused call changes nothing, whatever it tells apart from stages of matches. -/
theorem of_refused {error : RegistryError} {notices : List (Notice α)}
    (untold : notices.filterMap Notice.stage? = []) :
    Effect minimum registry call (.refused registry error notices) :=
  .idle rfl rfl rfl untold rfl

/-- What a call asks to be written over a stored match is written or ends it. -/
theorem of_set {stored draft : Match α} (found : registry.match? stored.id = some stored)
    (asked : call.rewrite? minimum stored = some draft) :
    Effect minimum registry call (registry.set draft call.now).done := by
  obtain ⟨id, same⟩ := Call.rewrite?_identity asked
  have foundDraft : registry.match? draft.id = some stored := by rw [id]; exact found
  cases terminal : draft.isTerminal with
  | false =>
    rw [Registry.set_of_continues foundDraft same terminal, id]
    exact .write stored draft found asked terminal rfl rfl rfl rfl rfl rfl
  | true =>
    rw [Registry.set_of_over foundDraft same terminal, id]
    refine .close stored (draft.following stored) found (.written asked terminal) ?_ ?_ rfl ?_ rfl ?_
      fun alarm => Registry.id_of_mem_cancelClock
    · exact congrArg registry.active.erase id
    · exact registry.vacate_of_sameIdentity id same
    · exact congrArg registry.clocks.erase id
    · exact registry.clocks_cancelClock stored.id call.now

/-- A new match is entered, whatever else is told and whatever becomes of the challenges. -/
theorem of_register (earlier : List (Notice α)) {chessMatch : Match α} {others : Registry α}
    (free : registry.canSeat call.roles chessMatch = true)
    (active : others.active = registry.active) (seats : others.seats = registry.seats)
    (clocks : others.clocks = registry.clocks) (untold : earlier.filterMap Notice.stage? = []) :
    Effect minimum registry call
      { others.register call.roles chessMatch call.now with
        notices := earlier ++ (others.register call.roles chessMatch call.now).notices } := by
  refine .enter chessMatch free ?_ ?_ ?_ ?_ rfl
  · exact congrArg (·.insert chessMatch.id chessMatch) active
  · exact congrArg (fun seats => (Registry.seat { registry with seats := seats } _ _).seats) seats
  · exact congrArg (·.insert chessMatch.id
      ⟨chessMatch.generation, call.now, chessMatch.untilTimeout call.now⟩) clocks
  · simp only [Step.stages, Registry.register, List.filterMap_append, untold, List.nil_append]
    rfl

end Effect

namespace Registry

variable {minimum : α} {registry : Registry α} {call : Call α}

omit [Scalar α] in
theorem closeChallenge_frame (registry : Registry α) (challenger challenged : ClientKey) :
    (registry.closeChallenge challenger challenged).active = registry.active ∧
      (registry.closeChallenge challenger challenged).seats = registry.seats ∧
      (registry.closeChallenge challenger challenged).clocks = registry.clocks := by
  unfold closeChallenge
  split <;> exact ⟨rfl, rfl, rfl⟩

private theorem effect_challenge (challenge : Challenge) :
    Effect minimum registry call (registry.challenge call.roles challenge) := by
  unfold Registry.challenge
  split
  · exact .of_refused rfl
  · exact .idle rfl rfl rfl rfl rfl

private theorem effect_resolve (challenger challenged : ClientKey)
    (resolution : ChallengeResolution) :
    Effect minimum registry call (registry.resolve challenger challenged resolution) := by
  obtain ⟨active, seats, clocks⟩ := registry.closeChallenge_frame challenger challenged
  unfold resolve
  split
  · exact .idle active seats clocks rfl rfl
  · refine .idle active seats clocks ?_ rfl
    cases resolution <;> rfl

private theorem effect_accept (challenged challenger : ClientKey) (id : MatchId) (draw : Bool) :
    Effect minimum registry call
      (registry.accept call.roles challenged challenger id draw call.now) := by
  unfold accept
  split
  · exact .of_refused rfl
  · next challenge opened =>
    dsimp only
    split
    · next free =>
      obtain ⟨active, seats, clocks⟩ := registry.closeChallenge_frame challenger challenged
      simp only [resolve, opened]
      exact .of_register _ free active seats clocks rfl
    · exact .of_refused rfl

private theorem effect_add (chessMatch : Match α) :
    Effect minimum registry call (registry.add call.roles chessMatch call.now) := by
  unfold add
  split
  · next free => exact .of_register [] free rfl rfl rfl rfl
  · exact .of_refused rfl

private theorem effect_move (keyed : registry.Keyed) {id : MatchId} {request : MoveRequest}
    (operation : call.operation = .move id request) :
    Effect minimum registry call (registry.move minimum id request call.now) := by
  unfold move
  split
  · exact .of_refused rfl
  · next stored found =>
    obtain rfl := keyed id stored found
    split
    · next allowed =>
      refine .of_set found ?_
      simp only [Call.rewrite?, operation, allowed, and_self, if_true]
    · exact .of_refused rfl

private theorem effect_set (keyed : registry.Keyed) {chessMatch : Match α}
    (operation : call.operation = .set chessMatch) :
    Effect minimum registry call (registry.set chessMatch call.now).done := by
  cases found : registry.match? chessMatch.id with
  | none =>
    rw [set_of_absent found]
    exact .of_refused rfl
  | some stored =>
    have id := keyed _ _ found
    cases same : stored.sameIdentity chessMatch with
    | false =>
      rw [set_of_mismatch found same]
      exact .of_refused rfl
    | true =>
      refine .of_set (id ▸ found) ?_
      simp only [Call.rewrite?, operation, id, same, and_self, if_true]

private theorem effect_remove (keyed : registry.Keyed) {id : MatchId}
    (operation : call.operation = .remove id) :
    Effect minimum registry call (registry.remove id) := by
  unfold remove
  split
  · exact .of_refused rfl
  · next stored found =>
    obtain rfl := keyed id stored found
    exact .close stored stored found (.removed operation) rfl rfl rfl rfl rfl
      (registry.clocks_cancelClock stored.id call.now) fun alarm => id_of_mem_cancelClock

private theorem effect_resign (keyed : registry.Keyed) {id : MatchId} {key : ClientKey}
    (operation : call.operation = .resign id key) :
    Effect minimum registry call (registry.resign id key call.now) := by
  unfold resign
  split
  · exact .of_refused rfl
  · next stored found =>
    obtain rfl := keyed id stored found
    split
    · exact .of_refused rfl
    · next colour plays =>
      refine .of_set found ?_
      simp only [Call.rewrite?, operation, plays, if_true, Option.map_some]

private theorem effect_expire (keyed : registry.Keyed) {id : MatchId} {generation : Nat}
    (operation : call.operation = .expire id generation) :
    Effect minimum registry call { registry.expire id generation call.now with answer := .ok () } := by
  by_cases current : ∃ stored, registry.match? id = some stored ∧ stored.generation = generation
  · obtain ⟨stored, found, rfl⟩ := current
    obtain rfl := keyed id stored found
    have asked : call.rewrite? minimum stored = some stored.afterTimeout := by
      simp only [Call.rewrite?, operation, and_self, if_true]
    rw [expire_of_current call.now found]
    refine .close stored (stored.afterTimeout.following stored) found (.written asked rfl) ?_ ?_ rfl
      ?_ rfl rfl (List.forall_mem_singleton.mpr rfl)
    · exact congrArg registry.active.erase stored.afterTimeout_id
    · exact registry.vacate_of_sameIdentity stored.afterTimeout_id stored.afterTimeout_sameIdentity
    · exact congrArg registry.clocks.erase stored.afterTimeout_id
  · rw [expire_of_stale call.now (fun stored found same => current ⟨stored, found, same⟩)]
    exact .idle rfl rfl rfl rfl rfl

/-- Whatever is asked of a registry, it does no more to the matches than `Effect` allows. -/
theorem effect_perform (keyed : registry.Keyed) :
    Effect minimum registry call (registry.perform minimum call) := by
  unfold perform
  split
  · exact effect_challenge _
  · exact effect_accept _ _ _ _
  · exact effect_resolve _ _ _
  · exact effect_resolve _ _ _
  · exact effect_add _
  · next operation => exact effect_move keyed operation
  · next operation => exact effect_set keyed operation
  · next operation => exact effect_remove keyed operation
  · next operation => exact effect_resign keyed operation
  · next operation => exact effect_expire keyed operation

end Registry

/-- A call leaves every match under its own identity. -/
theorem Effect.keyed {minimum : α} {registry : Registry α} {call : Call α}
    {step : Step α (Except RegistryError Unit)} (effect : Effect minimum registry call step)
    (keyed : registry.Keyed) : step.registry.Keyed := by
  intro id other found
  cases effect with
  | idle active _ _ _ _ =>
    rw [Registry.match?_of_eq active] at found
    exact keyed id other found
  | enter chessMatch _ active _ _ _ _ =>
    rw [Registry.match?_of_insert active] at found
    split at found
    · next same =>
      cases found
      exact same
    · exact keyed id other found
  | write stored draft _ asked _ active _ _ _ _ _ =>
    rw [Registry.match?_of_insert active] at found
    split at found
    · next same =>
      cases found
      exact (Call.rewrite?_identity asked).1.trans same
    · exact keyed id other found
  | close stored _ _ _ active _ _ _ _ _ =>
    rw [Registry.match?_of_erase active] at found
    split at found
    · cases found
    · exact keyed id other found

namespace Run

variable {minimum : α} {history : List (Event α)} {registry : Registry α}

theorem keyed (run : Run minimum history registry) : registry.Keyed := by
  induction run with
  | start =>
    intro id stored found
    rw [Registry.match?_empty] at found
    cases found
  | call _ call _ ih => exact (Registry.effect_perform ih).keyed ih

/-- What the next call of a run can do to the matches. -/
theorem effect (run : Run minimum history registry) (call : Call α) :
    Effect minimum registry call (registry.perform minimum call) :=
  Registry.effect_perform run.keyed

end Run

end ChessArbiter
