import ChessArbiter.Proofs.Registry.Entry
import ChessArbiter.Proofs.Scheduler.Interleaving

/-! # Reachable states of the arbiter

The arbiter begins with an empty registry and an empty pool; from there it comes by acts and by steps of
the scheduler, in any order and at any times. In every state so reached (`Sound`) the pool holds a list,
every match is stored under its own identity, and that identity has been given out before, so that a new
one belongs to no match.
-/

namespace ChessArbiter

open WaitingPool

variable {α : Type}

variable [Scalar α]

namespace Arbiter

variable {arbiter after : Arbiter α}

/-- Every match has an identity that has been given out. -/
def Numbered (arbiter : Arbiter α) : Prop :=
  ∀ id, (arbiter.registry.match? id).isSome → id.number < arbiter.nextMatch

/-- The call that an act makes on the registry. -/
structure Asks (arbiter : Arbiter α) (act : Act α) (call : Call α) : Prop where
  registry : (arbiter.act act).registry =
    (arbiter.registry.perform arbiter.settings.minimumDeduction call).registry
  /-- A match is entered under its own identity, or under one that the act gives out. -/
  entry : ∀ id, call.operation.entry? = some id →
    id.number < (arbiter.act act).nextMatch ∨ ∃ chessMatch, act = .add chessMatch ∧ chessMatch.id = id

/-- A call that enters no match needs no identity. -/
theorem Asks.of_entryless {act : Act α} {call : Call α}
    (registry : (arbiter.act act).registry =
      (arbiter.registry.perform arbiter.settings.minimumDeduction call).registry)
    (entryless : call.operation.entry? = none) : arbiter.Asks act call := by
  refine ⟨registry, fun id entered => ?_⟩
  rw [entryless] at entered
  cases entered

private theorem asks_accept (quiet : arbiter.Quiet) (challenged challenger : ClientKey) :
    (arbiter.act (.accept challenged challenger)).registry = arbiter.registry ∨
      ∃ call, arbiter.Asks (.accept challenged challenger) call := by
  cases opened : arbiter.registry.challenge? challenger challenged with
  | none =>
    left
    simp only [Arbiter.act, accept, opened]
  | some challenge =>
    obtain ⟨roles, draw, rest, accepted⟩ := accept_of_quiet quiet opened
    right
    refine ⟨⟨.accept challenged challenger ⟨arbiter.nextMatch⟩ draw, roles, arbiter.now⟩, ?_, ?_⟩
    · simp only [Arbiter.act, accepted]
      rfl
    · rintro id ⟨⟩
      simp only [Arbiter.act, accepted]
      exact .inl (Nat.lt_succ_self _)

/-- An act makes at most one call on the registry. -/
theorem asks_act (quiet : arbiter.Quiet) (act : Act α) :
    (arbiter.act act).registry = arbiter.registry ∨ ∃ call, arbiter.Asks act call := by
  cases act with
  | join profile =>
    rw [Arbiter.act, join_eq]
    exact .inl rfl
  | leave key =>
    rw [Arbiter.act, leave_eq]
    exact .inl rfl
  | requeue client =>
    rw [Arbiter.act, requeue_eq]
    exact .inl rfl
  | challenge challenge =>
    let roles (_ : ClientKey) := arbiter.tableRole challenge.challenger
    refine .inr ⟨⟨.challenge challenge, roles, arbiter.now⟩, .of_entryless ?_ rfl⟩
    simp only [Arbiter.act, Arbiter.challenge, askRole_of_quiet quiet]
    rfl
  | accept challenged challenger => exact asks_accept quiet challenged challenger
  | decline challenged challenger =>
    exact .inr ⟨⟨.decline challenged challenger, arbiter.tableRole, arbiter.now⟩, .of_entryless rfl rfl⟩
  | revoke challenger challenged =>
    exact .inr ⟨⟨.revoke challenger challenged, arbiter.tableRole, arbiter.now⟩, .of_entryless rfl rfl⟩
  | add chessMatch =>
    refine .inr ⟨⟨.add chessMatch, arbiter.tableRoles chessMatch, arbiter.now⟩, ?_, ?_⟩
    · simp only [Arbiter.act, add_of_quiet quiet]
      rfl
    · rintro id ⟨⟩
      exact .inr ⟨chessMatch, rfl, rfl⟩
  | move id request =>
    exact .inr ⟨⟨.move id request, arbiter.tableRole, arbiter.now⟩, .of_entryless rfl rfl⟩
  | set chessMatch => exact .inr ⟨⟨.set chessMatch, arbiter.tableRole, arbiter.now⟩, .of_entryless rfl rfl⟩
  | remove id => exact .inr ⟨⟨.remove id, arbiter.tableRole, arbiter.now⟩, .of_entryless rfl rfl⟩
  | resign id key => exact .inr ⟨⟨.resign id key, arbiter.tableRole, arbiter.now⟩, .of_entryless rfl rfl⟩
  | expire id generation =>
    exact .inr ⟨⟨.expire id generation, arbiter.tableRole, arbiter.now⟩, .of_entryless rfl rfl⟩
  | _ => exact .inl rfl

theorem nextMatch_act (quiet : arbiter.Quiet) (act : Act α) :
    arbiter.nextMatch ≤ (arbiter.act act).nextMatch := by
  cases act with
  | join profile => exact Nat.le_of_eq (congrArg nextMatch (arbiter.join_eq profile)).symm
  | leave key => exact Nat.le_of_eq (congrArg nextMatch (arbiter.leave_eq key)).symm
  | requeue client => exact Nat.le_of_eq (congrArg nextMatch (arbiter.requeue_eq client)).symm
  | challenge challenge =>
    simp only [Arbiter.act, Arbiter.challenge, askRole_of_quiet quiet]
    exact Nat.le_refl _
  | accept challenged challenger =>
    cases opened : arbiter.registry.challenge? challenger challenged with
    | none => simp only [Arbiter.act, accept, opened, Nat.le_refl]
    | some challenge =>
      obtain ⟨_, _, _, accepted⟩ := accept_of_quiet quiet opened
      simp only [Arbiter.act, accepted]
      exact Nat.le_succ _
  | add chessMatch =>
    simp only [Arbiter.act, add_of_quiet quiet]
    exact Nat.le_refl _
  | newId => exact Nat.le_succ _
  | _ => exact Nat.le_refl _

/-- What holds in every state that can be reached. -/
structure Sound (arbiter : Arbiter α) : Prop where
  quiet : arbiter.Quiet
  keyed : arbiter.registry.Keyed
  numbered : arbiter.Numbered
  lineup : ∃ clients, Represents arbiter.pool clients

/-- A match that others enter has been given its identity before. -/
def Allows (arbiter : Arbiter α) : Act α → Prop
  | .add chessMatch => chessMatch.id.number < arbiter.nextMatch
  | _ => True

theorem Sound.act (sound : arbiter.Sound) (act : Act α) (allowed : arbiter.Allows act) :
    (arbiter.act act).Sound := by
  obtain ⟨quiet, keyed, numbered, clients, represents⟩ := sound
  have later := nextMatch_act quiet act
  refine ⟨quiet_act quiet act, ?_, ?_, ?_⟩
  · rcases asks_act quiet act with same | ⟨call, asks⟩
    · rwa [same]
    · rw [asks.registry]
      exact (Registry.effect_perform keyed).keyed keyed
  · intro id stored
    rcases asks_act quiet act with same | ⟨call, asks⟩
    · rw [same] at stored
      exact Nat.lt_of_lt_of_le (numbered id stored) later
    · rw [asks.registry] at stored
      rcases Registry.isSome_of_perform keyed stored with earlier | entered
      · exact Nat.lt_of_lt_of_le (numbered id earlier) later
      · rcases asks.entry id entered with given | ⟨chessMatch, rfl, rfl⟩
        · exact given
        · exact Nat.lt_of_lt_of_le allowed later
  · obtain ⟨next, after, _⟩ := represents_act quiet act represents
    exact ⟨next, after⟩

/-- The states to which acts and steps of the scheduler lead, whatever was settled at the beginning. -/
inductive Reachable : Arbiter α → Prop
  | start (settings : Settings α) (now : Instant) (roles : Std.ExtTreeMap ClientKey Role)
      (draws : List Bool) (nextMatch : Nat) :
      Reachable
        { settings := settings, now := now, registry := .empty, pool := .empty, roles := roles
          cues := ∅, draws := draws, nextMatch := nextMatch, notices := [], alarms := [] }
  | act {arbiter : Arbiter α} (reachable : Reachable arbiter) (act : Act α)
      (allowed : arbiter.Allows act) : Reachable (arbiter.act act)
  | pairStep {arbiter : Arbiter α} (reachable : Reachable arbiter) (pairing : Pairing α)
      (stage : PairStage) : Reachable (arbiter.pairStep pairing stage).2

variable {arbiter : Arbiter α}

theorem Sound.pairStep (sound : arbiter.Sound) (pairing : Pairing α) (stage : PairStage) :
    (arbiter.pairStep pairing stage).2.Sound := by
  cases stage with
  | checkFirst =>
    simp only [Arbiter.pairStep, canStart_of_quiet sound.quiet]
    exact sound
  | checkSecond =>
    simp only [Arbiter.pairStep, canStart_of_quiet sound.quiet]
    exact sound
  | takeFirst => exact sound.act (.leave _) trivial
  | takeSecond first => exact sound.act (.leave _) trivial
  | seat first second =>
    have numbered : arbiter.drafted.Numbered := fun id stored =>
      Nat.lt_succ_of_lt (sound.numbered id stored)
    have drafted : arbiter.drafted.Sound := ⟨sound.quiet, sound.keyed, numbered, sound.lineup⟩
    rw [pairStep_seat_eq_act sound.quiet]
    refine drafted.act _ ?_
    change (arbiter.draft first second).id.number < arbiter.nextMatch + 1
    rw [draft, Match.startDrawn_id]
    exact Nat.lt_succ_self _
  | putBack clients error =>
    cases clients with
    | nil => exact sound
    | cons client rest => exact sound.act (.requeue client) trivial
  | done result => exact sound

theorem Reachable.sound (reachable : arbiter.Reachable) : arbiter.Sound := by
  induction reachable with
  | start settings now roles draws nextMatch =>
    refine ⟨rfl, ?_, ?_, [], represents_empty⟩
    · intro id stored found
      rw [Registry.match?_empty] at found
      cases found
    · intro id stored
      rw [Registry.match?_empty] at stored
      cases stored
  | act _ act allowed ih => exact ih.act act allowed
  | pairStep _ pairing stage ih => exact ih.pairStep pairing stage

end Arbiter

end ChessArbiter
