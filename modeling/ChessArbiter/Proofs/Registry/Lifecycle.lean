import Mathlib.Data.List.Chain
import ChessArbiter.Proofs.Registry.Effect

/-! # The lifecycle of a match

What is told of a match is its entry, then its writes, then its end. `Course` is the automaton behind
this: it reads the milestones of one match in order and says what the registry holds of it after them.
Every run follows it (`Run.course`), since a fresh identity has no milestones and no call writes or
closes a match that is not stored. Writes count the generation up by one; a match that is taken out
is told once more as it stood.
-/

namespace ChessArbiter

variable {α : Type}

/-- A milestone continues from the match as it was told last. Taking a match out tells the same match
again; everything else counts up its generation. -/
structure Follows (id : MatchId) (last : Match α) (milestone : Milestone α) : Prop where
  identity : last.sameIdentity milestone.chessMatch = true
  removed : milestone.operation = .remove id →
    milestone.stage = .ended ∧ milestone.chessMatch = last
  counted : milestone.operation ≠ .remove id →
    milestone.chessMatch.generation = last.generation + 1

/-- How the milestones of a match may follow each other, and the match as it is stored after them. -/
inductive Course (id : MatchId) : List (Milestone α) → Option (Match α) → Prop
  | unknown : Course id [] none
  | created (operation : Operation α) (chessMatch : Match α) (same : chessMatch.id = id) :
      Course id [⟨operation, .created, chessMatch⟩] (some chessMatch)
  | updated {milestones : List (Milestone α)} {last : Match α}
      (course : Course id milestones (some last)) (operation : Operation α) (next : Match α)
      (follows : Follows id last ⟨operation, .updated, next⟩) :
      Course id (milestones ++ [⟨operation, .updated, next⟩]) (some next)
  | ended {milestones : List (Milestone α)} {last : Match α}
      (course : Course id milestones (some last)) (operation : Operation α) (final : Match α)
      (follows : Follows id last ⟨operation, .ended, final⟩) :
      Course id (milestones ++ [⟨operation, .ended, final⟩]) none

namespace Course

variable {id : MatchId} {milestones : List (Milestone α)} {current : Option (Match α)}

/-- The last milestone of a stored match shows it as it is stored. -/
theorem exists_getLast? {last : Match α} (course : Course id milestones (some last)) :
    ∃ milestone, milestones.getLast? = some milestone ∧ milestone.chessMatch = last := by
  cases course with
  | created => exact ⟨_, rfl, rfl⟩
  | updated => exact ⟨_, List.getLast?_concat, rfl⟩

/-- A match of which anything is told has been entered. -/
theorem exists_created (course : Course id milestones current) (told : milestones ≠ []) :
    ∃ operation chessMatch, ⟨operation, .created, chessMatch⟩ ∈ milestones ∧ chessMatch.id = id := by
  induction course with
  | unknown => exact (told rfl).elim
  | created operation chessMatch same =>
    exact ⟨operation, chessMatch, List.mem_singleton_self _, same⟩
  | updated course _ _ _ ih | ended course _ _ _ ih =>
    obtain ⟨last, isLast, _⟩ := course.exists_getLast?
    have earlier := List.ne_nil_of_mem (List.mem_of_getLast? isLast)
    obtain ⟨operation, chessMatch, member, same⟩ := ih earlier
    exact ⟨operation, chessMatch, List.mem_append_left _ member, same⟩

/-- As long as a match is stored, its entry has been told and after that only writes. -/
theorem stages_of_stored (course : Course id milestones current) (stored : current.isSome) :
    ∃ n, milestones.map (·.stage) = .created :: List.replicate n .updated := by
  induction course with
  | unknown => cases stored
  | created => exact ⟨0, rfl⟩
  | updated _ _ _ _ ih =>
    obtain ⟨n, stages⟩ := ih rfl
    refine ⟨n + 1, ?_⟩
    rw [List.map_append, stages, List.replicate_succ']
    rfl
  | ended => cases stored

theorem stages_prefix (course : Course id milestones current) :
    ∃ n, milestones.map (·.stage) <+: .created :: (List.replicate n .updated ++ [.ended]) := by
  cases course with
  | unknown => exact ⟨0, List.nil_prefix⟩
  | created => exact ⟨0, ⟨[.ended], rfl⟩⟩
  | updated course operation next follows =>
    obtain ⟨n, stages⟩ := (course.updated operation next follows).stages_of_stored rfl
    exact ⟨n, [.ended], by rw [stages]; rfl⟩
  | ended course =>
    obtain ⟨n, stages⟩ := course.stages_of_stored rfl
    refine ⟨n, [], ?_⟩
    rw [List.append_nil, List.map_append, stages]
    rfl

/-- What is stored is what was told last, unless that was the end. -/
theorem current_eq (course : Course id milestones current) :
    current = (milestones.getLast?.filter (·.stage ≠ .ended)).map (·.chessMatch) := by
  cases course with
  | unknown => rfl
  | created => rfl
  | updated | ended =>
    rw [List.getLast?_concat]
    rfl

/-- Nothing that is told changes the identity that is told last. -/
theorem sameIdentity_getLast? (course : Course id milestones current) :
    ∀ a ∈ milestones, ∀ b ∈ milestones.getLast?, a.chessMatch.sameIdentity b.chessMatch = true := by
  induction course with
  | unknown =>
    intro a member
    cases member
  | created =>
    intro a member b final
    cases List.mem_singleton.mp member
    cases final
    exact Match.sameIdentity_refl _
  | updated course _ _ follows ih | ended course _ _ follows ih =>
    intro a member b final
    rw [List.getLast?_concat] at final
    cases final
    rcases List.mem_append.mp member with earlier | latest
    · obtain ⟨last, isLast, rfl⟩ := course.exists_getLast?
      exact Match.sameIdentity_trans (ih a earlier last isLast) follows.identity
    · cases List.mem_singleton.mp latest
      exact Match.sameIdentity_refl _

theorem follows_chain (course : Course id milestones current) :
    milestones.IsChain fun a b => Follows id a.chessMatch b := by
  induction course with
  | unknown => exact List.isChain_nil
  | created => exact List.isChain_singleton _
  | updated course _ _ follows ih | ended course _ _ follows ih =>
    refine ih.append (List.isChain_singleton _) ?_
    intro a isLast b isHead
    obtain ⟨last, final, rfl⟩ := course.exists_getLast?
    cases final.symm.trans isLast
    cases isHead
    exact follows

/-- Nothing is stored of a match whose end has been told. -/
theorem absent_of_ended (course : Course id milestones current)
    {milestone : Milestone α} (member : milestone ∈ milestones) (ended : milestone.stage = .ended) :
    current = none := by
  cases stored : current with
  | none => rfl
  | some last =>
    obtain ⟨n, stages⟩ := course.stages_of_stored (by rw [stored]; rfl)
    have told : Stage.ended ∈ milestones.map (·.stage) := ended ▸ List.mem_map_of_mem member
    rw [stages] at told
    simp at told

end Course

/-- What is told of a match over its life, and what the registry holds of it meanwhile. -/
structure Lifecycle (id : MatchId) (milestones : List (Milestone α))
    (stored : Option (Match α)) : Prop where
  /-- Its entry, any number of writes and its end, or a beginning of this. -/
  ordered : ∃ n, milestones.map (·.stage) <+: .created :: (List.replicate n .updated ++ [.ended])
  /-- From its entry to its end it is stored, as it was told last. -/
  present : stored = (milestones.getLast?.filter (·.stage ≠ .ended)).map (·.chessMatch)
  constant : ∀ a ∈ milestones, ∀ b ∈ milestones, a.chessMatch.white = b.chessMatch.white ∧
    a.chessMatch.black = b.chessMatch.black ∧ a.chessMatch.timeControl = b.chessMatch.timeControl
  counted : milestones.IsChain fun a b => Follows id a.chessMatch b

theorem Course.toLifecycle {id : MatchId} {milestones : List (Milestone α)}
    {stored : Option (Match α)} (course : Course id milestones stored) :
    Lifecycle id milestones stored where
  ordered := course.stages_prefix
  present := course.current_eq
  counted := course.follows_chain
  constant := by
    intro a first b second
    cases final : milestones.getLast? with
    | none =>
      rw [List.getLast?_eq_none_iff.mp final] at first
      cases first
    | some last =>
      have left := course.sameIdentity_getLast? a first last final
      have right := course.sameIdentity_getLast? b second last final
      exact Match.sameIdentity_iff.mp (Match.sameIdentity_trans left (Match.sameIdentity_symm right))

/-- The step wrote a match: it tells this and nothing else, with the match as it was written. The
registry holds the written match, unless it is over. -/
def Step.Publishes {β : Type} (step : Step α β) (id : MatchId) (written : Match α) : Prop :=
  written.id = id ∧
    if written.isTerminal then
      step.notices = [.matchEnded written] ∧ step.registry.match? id = none
    else step.notices = [.matchUpdated written] ∧ step.registry.match? id = some written

section Run

variable [Scalar α] {minimum : α} {call : Call α}

theorem Follows.of_rewrite {stored draft : Match α}
    (asked : call.rewrite? minimum stored = some draft) (stage : Stage) :
    Follows stored.id stored ⟨call.operation, stage, draft.following stored⟩ where
  identity := (Call.rewrite?_identity asked).2
  removed operation := (Call.rewrite?_not_remove asked stored.id operation).elim
  counted _ := rfl

theorem Follows.of_ending {stored last : Match α} (ending : Ending minimum call stored last) :
    Follows stored.id stored ⟨call.operation, .ended, last⟩ := by
  cases ending with
  | written asked _ => exact .of_rewrite asked .ended
  | removed operation => exact ⟨stored.sameIdentity_refl, fun _ => ⟨rfl, rfl⟩, (absurd operation ·)⟩

/-- In a run every match follows its course, of which the registry holds the present state. -/
theorem Run.course {history : List (Event α)} {registry : Registry α}
    (run : Run minimum history registry) (id : MatchId) :
    Course id (milestonesOf id history) (registry.match? id) := by
  induction run with
  | start =>
    rw [Registry.match?_empty]
    exact .unknown
  | @call history registry run call fresh ih =>
    cases run.effect call with
    | idle active _ _ silent _ =>
      rw [milestonesOf_concat_of_nil id history silent, Registry.match?_of_eq active]
      exact ih
    | enter chessMatch _ active _ _ told _ =>
      rw [milestonesOf_concat_of_singleton id history told, Registry.match?_of_insert active]
      by_cases same : chessMatch.id = id
      · have untold : milestonesOf id history = [] := by
          by_contra nonempty
          obtain ⟨operation, earlier, member, sameId⟩ := ih.exists_created nonempty
          exact fresh.ne_of_created told earlier (mem_entered_of_milestone member rfl)
            (sameId.trans same.symm)
        rw [untold, if_pos same, if_pos same]
        exact .created call.operation chessMatch same
      · rw [if_neg same, if_neg same, List.append_nil]
        exact ih
    | write stored draft found asked _ active _ _ _ told _ =>
      have sameId : (draft.following stored).id = stored.id := (Call.rewrite?_identity asked).1
      rw [milestonesOf_concat_of_singleton id history told, Registry.match?_of_insert active, sameId]
      by_cases same : stored.id = id
      · subst same
        rw [found] at ih
        rw [if_pos rfl, if_pos rfl]
        exact ih.updated call.operation _ (.of_rewrite asked .updated)
      · rw [if_neg same, if_neg same, List.append_nil]
        exact ih
    | close stored last found ending active _ _ _ told _ =>
      rw [milestonesOf_concat_of_singleton id history told, Registry.match?_of_erase active,
        ending.identity.1]
      by_cases same : stored.id = id
      · subst same
        rw [found] at ih
        rw [if_pos rfl, if_pos rfl]
        exact ih.ended call.operation _ (.of_ending ending)
      · rw [if_neg same, if_neg same, List.append_nil]
        exact ih

theorem Registry.set_publishes {registry : Registry α} {stored : Match α} (draft : Match α)
    (now : Instant)
    (found : registry.match? draft.id = some stored) (same : stored.sameIdentity draft = true) :
    (registry.set draft now).Publishes draft.id (draft.following stored) := by
  refine ⟨rfl, ?_⟩
  cases terminal : draft.isTerminal with
  | true =>
    rw [set_of_over found same terminal, Match.following_isTerminal, terminal, if_pos rfl]
    exact ⟨rfl, (match?_of_erase rfl draft.id).trans (if_pos rfl)⟩
  | false =>
    rw [set_of_continues found same terminal, Match.following_isTerminal, terminal,
      if_neg Bool.false_ne_true]
    exact ⟨rfl, (match?_of_insert rfl draft.id).trans (if_pos rfl)⟩

/-- In every run, what is told of a match is its entry, its writes and its end, and the registry holds
it in between. Every move, every write and every resignation that succeeds is told once, with the
match that it wrote. -/
theorem Run.lifecycle {history : List (Event α)} {registry : Registry α}
    (run : Run minimum history registry) :
    (∀ id, Lifecycle id (milestonesOf id history) (registry.match? id)) ∧
      (∀ id request now, (registry.move minimum id request now).answer = .ok () →
        ∃ stored, registry.match? id = some stored ∧
          (registry.move minimum id request now).Publishes id
            ((stored.afterMove minimum request now).following stored)) ∧
      (∀ chessMatch written now, (registry.set chessMatch now).answer = .ok written →
        ∃ stored, registry.match? chessMatch.id = some stored ∧
          written = chessMatch.following stored ∧
          (registry.set chessMatch now).Publishes chessMatch.id written) ∧
      (∀ id key now, (registry.resign id key now).answer = .ok () →
        ∃ stored colour, registry.match? id = some stored ∧ stored.colourOf? key = some colour ∧
          (registry.resign id key now).Publishes id
            ((stored.afterResignation colour).following stored)) := by
  refine ⟨fun id => (run.course id).toLifecycle, ?_, ?_, ?_⟩
  · intro id request now success
    obtain ⟨stored, found, _, written⟩ := Registry.exists_of_move_ok success
    obtain rfl := run.keyed id stored found
    have foundNext : registry.match? (stored.afterMove minimum request now).id = some stored := by
      rw [Match.afterMove_id]
      exact found
    refine ⟨stored, found, ?_⟩
    rw [written, ← stored.afterMove_id minimum request now]
    exact Registry.set_publishes _ now foundNext (stored.afterMove_sameIdentity minimum request now)
  · intro chessMatch written now success
    obtain ⟨stored, found, same, rfl⟩ := Registry.exists_of_set_ok success
    exact ⟨stored, found, rfl, Registry.set_publishes chessMatch now found same⟩
  · intro id key now success
    obtain ⟨stored, colour, found, plays, written⟩ := Registry.exists_of_resign_ok success
    obtain rfl := run.keyed id stored found
    refine ⟨stored, colour, found, plays, ?_⟩
    rw [written]
    exact Registry.set_publishes (stored.afterResignation colour) now found
      (stored.afterResignation_sameIdentity colour)

end Run

/-- A match that is entered, written once and taken out is told three times, the last time as it was
written. -/
theorem lifecycle_of_removed :
    ∃ (history : List (Event Rat)) (registry : Registry Rat), Run 0 history registry ∧
      (milestonesOf ⟨1⟩ history).map (fun told => (told.stage, told.chessMatch.generation)) =
        [(.created, 0), (.updated, 1), (.ended, 1)] ∧
      Lifecycle ⟨1⟩ (milestonesOf ⟨1⟩ history) (registry.match? ⟨1⟩) := by
  let beginning : Instant := .ofMillis 0
  let call (operation : Operation Rat) : Call Rat := ⟨operation, fun _ => .player, beginning⟩
  let chessMatch : Match Rat := .start ⟨1⟩ "ada" "bob" .blitz beginning
  have begun : Run (0 : Rat) [] .empty := .start
  have entered := begun.call (call (.add chessMatch)) (by decide)
  have written := entered.call (call (.set chessMatch)) (by decide)
  have ended := written.call (call (.remove ⟨1⟩)) (by decide)
  exact ⟨_, _, ended, rfl, ended.lifecycle.1 ⟨1⟩⟩

end ChessArbiter
