import ChessArbiter.Proofs.Registry.Clocks
import ChessArbiter.Proofs.Registry.Entry
import ChessArbiter.Proofs.Registry.History

/-! # What a call can do to one match

`Effect` says what a call does to all matches; `MatchEffect` says what it does to the match of one
identity. Either the call is not about that match, which then stays as it is with its clock, is not told
of and is in no order to the timer, or it enters the match, writes over it or closes it. Laws about the
life of a match go by induction over the run or the history with these four cases for its last call.
-/

namespace ChessArbiter

variable {α : Type} [Scalar α]

/-- The ways in which a call can change the match of an identity. -/
inductive MatchEffect (minimum : α) (registry : Registry α) (call : Call α)
    (step : Step α (Except RegistryError Unit)) (id : MatchId) : Prop
  | untouched (kept : step.registry.match? id = registry.match? id)
      (clock : step.registry.clocks[id]? = registry.clocks[id]?)
      (untold : ∀ stage ∈ step.stages, stage.2.id ≠ id)
      (unordered : ∀ alarm ∈ step.alarms, alarm.id ≠ id)
  | entered (chessMatch : Match α) (own : chessMatch.id = id) (enters : call.Enters chessMatch)
      (stores : step.registry.match? id = some chessMatch)
      (clock : step.registry.clocks[id]? = some (chessMatch.clock call.now))
      (told : step.stages = [(.created, chessMatch)])
      (free : registry.canSeat call.roles chessMatch = true)
      (alarms : step.alarms = [Registry.clockAlarm chessMatch call.now])
  | written (stored draft : Match α) (found : registry.match? id = some stored)
      (asked : call.rewrite? minimum stored = some draft) (continues : draft.isTerminal = false)
      (stores : step.registry.match? id = some (draft.following stored))
      (clock : step.registry.clocks[id]? = some ((draft.following stored).clock call.now))
      (told : step.stages = [(.updated, draft.following stored)])
      (alarms : step.alarms = [Registry.clockAlarm (draft.following stored) call.now])
  | closed (stored last : Match α) (found : registry.match? id = some stored)
      (ending : Ending minimum call stored last)
      (absent : step.registry.match? id = none)
      (told : step.stages = [(.ended, last)]) (stopped : step.registry.clocks[id]? = none)

namespace MatchEffect

variable {minimum : α} {registry : Registry α} {call : Call α}
  {step : Step α (Except RegistryError Unit)}

/-- A call that tells of another match and orders only its clock has nothing to do with this one. -/
private theorem of_other {id : MatchId} {stage : Stage} {chessMatch : Match α}
    (other : chessMatch.id ≠ id) (kept : step.registry.match? id = registry.match? id)
    (clock : step.registry.clocks[id]? = registry.clocks[id]?)
    (told : step.stages = [(stage, chessMatch)])
    (ordered : ∀ alarm ∈ step.alarms, alarm.id = chessMatch.id) :
    MatchEffect minimum registry call step id := by
  refine .untouched kept clock ?_ ?_
  · rw [told]
    exact List.forall_mem_singleton.mpr other
  · intro alarm member
    rw [ordered alarm member]
    exact other

end MatchEffect

/-- What a call does to all matches it does to each of them. -/
theorem Registry.matchEffect {minimum : α} {registry : Registry α} {call : Call α}
    (keyed : registry.Keyed) (id : MatchId) :
    MatchEffect minimum registry call (registry.perform minimum call) id := by
  have effect : Effect minimum registry call (registry.perform minimum call) := effect_perform keyed
  cases effect with
  | idle active _ clocks silent alarms =>
    refine .untouched (match?_of_eq active id) (congrArg (·[id]?) clocks) ?_ ?_
    · rw [silent]
      exact List.forall_mem_nil _
    · rw [alarms]
      exact List.forall_mem_nil _
  | enter chessMatch free active _ clocks told alarms =>
    have kept := match?_of_insert active id
    have clock := (congrArg (·[id]?) clocks).trans (lookup_insert _ chessMatch.id id _)
    by_cases own : chessMatch.id = id
    · rw [if_pos own] at kept clock
      have enters := enters_of_created (told ▸ List.mem_singleton_self (Stage.created, chessMatch))
      exact .entered chessMatch own enters kept clock told free alarms
    · rw [if_neg own] at kept clock
      refine .of_other own kept clock told ?_
      rw [alarms]
      exact List.forall_mem_singleton.mpr rfl
  | write stored draft found asked continues active _ _ clocks told alarms =>
    have same : (draft.following stored).id = stored.id := (Call.rewrite?_identity asked).1
    have kept := match?_of_insert active id
    have clock := (congrArg (·[id]?) clocks).trans (lookup_insert _ _ id _)
    rw [same] at clock
    by_cases own : stored.id = id
    · rw [if_pos own] at kept clock
      exact .written stored draft (own ▸ found) asked continues kept clock told alarms
    · rw [if_neg own] at kept clock
      refine .of_other (same ▸ own) kept clock told ?_
      rw [alarms]
      exact List.forall_mem_singleton.mpr rfl
  | close stored last found ending active _ _ clocks told _ ordered =>
    have kept := match?_of_erase active id
    have clock := (congrArg (·[id]?) clocks).trans (lookup_erase _ stored.id id)
    by_cases own : stored.id = id
    · rw [if_pos own] at kept clock
      exact .closed stored last (own ▸ found) ending kept told clock
    · rw [if_neg own] at kept clock
      refine .of_other (ending.identity.1 ▸ own) kept clock told ?_
      rw [ending.identity.1]
      exact ordered

/-- A match that a call leaves or tells: one that it enters, one that it has nothing to do with, one that
it writes over a stored one, or one that it takes out. -/
inductive Call.Shown (minimum : α) (registry : Registry α) (call : Call α) (next : Match α) : Prop
  | entered (enters : call.Enters next) (free : registry.canSeat call.roles next = true)
      (told : (registry.perform minimum call).stages = [(.created, next)])
  | untouched (found : registry.match? next.id = some next)
      (untold : ∀ stage ∈ (registry.perform minimum call).stages, stage.2.id ≠ next.id)
  | written (stored draft : Match α) (found : registry.match? stored.id = some stored)
      (own : next.id = stored.id) (asked : call.rewrite? minimum stored = some draft)
      (same : next = draft.following stored)
  | removed (found : registry.match? next.id = some next) (asked : call.operation = .remove next.id)

/-- Every match that is there after a call or that it tells is one of these. -/
theorem Registry.shown {minimum : α} {registry : Registry α} {call : Call α} (keyed : registry.Keyed)
    {next : Match α} (seen : (registry.perform minimum call).registry.match? next.id = some next ∨
      ∃ stage, (stage, next) ∈ (registry.perform minimum call).stages) :
    call.Shown minimum registry next := by
  have effect : MatchEffect minimum registry call (registry.perform minimum call) next.id :=
    Registry.matchEffect keyed next.id
  cases effect with
  | untouched kept _ untold =>
    rcases seen with found | ⟨stage, told⟩
    · exact .untouched (kept.symm.trans found) untold
    · exact (untold _ told rfl).elim
  | entered chessMatch _ enters stores _ tells free =>
    have same : chessMatch = next := by
      rcases seen with found | ⟨stage, told⟩
      · exact Option.some.inj (stores.symm.trans found)
      · rw [tells] at told
        cases List.mem_singleton.mp told
        rfl
    subst same
    exact .entered enters free tells
  | written stored draft found asked _ stores _ tells =>
    have same : draft.following stored = next := by
      rcases seen with left | ⟨stage, told⟩
      · exact Option.some.inj (stores.symm.trans left)
      · rw [tells] at told
        cases List.mem_singleton.mp told
        rfl
    have own := keyed next.id stored found
    exact .written stored draft (own ▸ found) own.symm asked same.symm
  | closed stored last found ending absent tells =>
    rcases seen with left | ⟨stage, told⟩
    · cases absent.symm.trans left
    · rw [tells] at told
      cases List.mem_singleton.mp told
      have own := keyed next.id stored found
      cases ending with
      | written asked _ => exact .written stored _ (own ▸ found) own.symm asked rfl
      | removed asked => exact .removed found asked

/-- What the next call of a run can do to the match of an identity. -/
theorem Run.matchEffect {minimum : α} {history : List (Event α)} {registry : Registry α}
    (run : Run minimum history registry) (call : Call α) (id : MatchId) :
    MatchEffect minimum registry call (registry.perform minimum call) id :=
  Registry.matchEffect run.keyed id

namespace History

variable {rule : Registry α → Call α → Prop} {minimum : α} {events : List (Event α)}
  {registry : Registry α}

/-- What the next call of a history can do to the match of an identity. -/
theorem matchEffect (history : History rule minimum events registry) (call : Call α) (id : MatchId) :
    MatchEffect minimum registry call (registry.perform minimum call) id :=
  Registry.matchEffect history.keyed id

/-- A match that is stored has been entered. -/
theorem entriesOf_ne_nil (history : History rule minimum events registry) {id : MatchId}
    {stored : Match α} (found : registry.match? id = some stored) : entriesOf id events ≠ [] := by
  induction history generalizing stored with
  | start =>
    rw [Registry.match?_empty] at found
    cases found
  | @call events registry history call _ ih =>
    have kept {chessMatch : Match α} (before : registry.match? id = some chessMatch) :
        entriesOf id (events ++ [registry.event minimum call]) ≠ [] := by
      rw [entriesOf, entered_concat, List.filter_append]
      exact List.append_ne_nil_of_left_ne_nil (ih before) _
    cases history.matchEffect call id with
    | untouched same => exact kept (same ▸ found)
    | entered chessMatch own _ _ _ told =>
      have told : (registry.event minimum call).step.stages = [(.created, chessMatch)] := told
      rw [entriesOf_concat_of_created own told]
      exact List.concat_ne_nil _ _
    | written earlier _ foundEarlier => exact kept foundEarlier
    | closed _ _ _ _ absent => cases absent.symm.trans found

end History

end ChessArbiter
