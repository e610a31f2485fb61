import ChessArbiter.Arbiter
import ChessArbiter.Proofs.Pool.Lineup

/-! # What can be done to the arbiter

An act is one call of the arbiter, or a change of what it depends on: a role, the time, or that its
notices are collected. Each call is one step here, so that nobody acts while it asks for a role
(`Quiet`). An act does at most one operation on the waiting pool, therefore the pool holds a list
after any acts.
-/

namespace ChessArbiter

/-- What clients, clocks and whoever runs the arbiter can do to it. -/
inductive Act (α : Type) where
  | join (profile : ClientProfile)
  | leave (key : ClientKey)
  | requeue (client : QueuedClient)
  | challenge (challenge : Challenge)
  | accept (challenged challenger : ClientKey)
  | decline (challenged challenger : ClientKey)
  | revoke (challenger challenged : ClientKey)
  | add (chessMatch : Match α)
  | move (id : MatchId) (request : MoveRequest)
  | set (chessMatch : Match α)
  | remove (id : MatchId)
  | resign (id : MatchId) (key : ClientKey)
  | expire (id : MatchId) (generation : Nat)
  | setRole (key : ClientKey) (role : Role)
  | setTime (now : Instant)
  /-- The identity of a new match is given out. -/
  | newId
  /-- The notices and the orders to the timer are collected. -/
  | collect

namespace Arbiter

variable {α : Type}

/-- Nobody acts while the arbiter asks for a role. -/
def Quiet (arbiter : Arbiter α) : Prop :=
  arbiter.cues = ∅

section Quiet

variable {arbiter : Arbiter α}

theorem askRole_of_quiet (quiet : arbiter.Quiet) (key : ClientKey) :
    arbiter.askRole key = (arbiter.tableRole key, arbiter) := by
  have uncued : arbiter.cues[key]? = none := by
    rw [quiet]
    exact Std.ExtTreeMap.getElem?_empty
  simp only [askRole, uncued]

/-- The roles that the table gives to the participants of a match. -/
def tableRoles (arbiter : Arbiter α) (chessMatch : Match α) : ClientKey → Role :=
  fun key =>
    if key = chessMatch.white then arbiter.tableRole chessMatch.white
    else arbiter.tableRole chessMatch.black

theorem tableRoles_eq {chessMatch : Match α} {key : ClientKey}
    (plays : key ∈ chessMatch.participants) :
    arbiter.tableRoles chessMatch key = arbiter.tableRole key := by
  simp only [Match.participants, List.mem_cons, List.not_mem_nil, or_false] at plays
  unfold tableRoles
  split
  · next white => rw [white]
  · next notWhite => rw [plays.resolve_left notWhite]

theorem askRoles_of_quiet (quiet : arbiter.Quiet) (chessMatch : Match α) :
    arbiter.askRoles chessMatch = (arbiter.tableRoles chessMatch, arbiter) := by
  simp only [askRoles, askRole_of_quiet quiet]
  rfl

theorem canStart_of_quiet (quiet : arbiter.Quiet) (key : ClientKey) :
    arbiter.canStart key = (arbiter.registry.canStart key (arbiter.tableRole key), arbiter) := by
  simp only [canStart, askRole_of_quiet quiet]

end Quiet

variable [Scalar α] {arbiter : Arbiter α}

theorem add_of_quiet (quiet : arbiter.Quiet) (chessMatch : Match α) :
    arbiter.add chessMatch = arbiter.absorb
      (arbiter.registry.add (arbiter.tableRoles chessMatch) chessMatch arbiter.now) := by
  simp only [add, askRoles_of_quiet quiet]

/-- The arbiter after an act. -/
def act (arbiter : Arbiter α) : Act α → Arbiter α
  | .join profile => (arbiter.join profile).2
  | .leave key => (arbiter.leave key).2
  | .requeue client => (arbiter.requeue client).2
  | .challenge challenge => (arbiter.challenge challenge).2
  | .accept challenged challenger => (arbiter.accept challenged challenger).2
  | .decline challenged challenger => (arbiter.decline challenged challenger).2
  | .revoke challenger challenged => (arbiter.revoke challenger challenged).2
  | .add chessMatch => (arbiter.add chessMatch).2
  | .move id request => (arbiter.move id request).2
  | .set chessMatch => (arbiter.set chessMatch).2
  | .remove id => (arbiter.remove id).2
  | .resign id key => (arbiter.resign id key).2
  | .expire id generation => arbiter.expire id generation
  | .setRole key role => arbiter.setRole key role
  | .setTime now => { arbiter with now := now }
  | .newId => arbiter.newId.2
  | .collect => { arbiter with notices := [], alarms := [] }

/-- The operation on the waiting pool that an act does, where it does one. -/
def poolOperation? (arbiter : Arbiter α) : Act α → Option PoolOperation
  | .join profile => some (.add ⟨profile, arbiter.now⟩)
  | .leave key => some (.remove key)
  | .requeue client => some (.insert client)
  | _ => none

section Pool

omit [Scalar α]

theorem join_eq (arbiter : Arbiter α) (profile : ClientProfile) :
    (arbiter.join profile).2 =
      { arbiter with pool := (arbiter.pool.perform (.add ⟨profile, arbiter.now⟩)).2 } := by
  cases joined : arbiter.pool.add ⟨profile, arbiter.now⟩ <;>
    simp only [join, WaitingPool.perform, joined]

theorem leave_eq (arbiter : Arbiter α) (key : ClientKey) :
    (arbiter.leave key).2 =
      { arbiter with pool := (arbiter.pool.perform (.remove key)).2 } := by
  cases left : arbiter.pool.remove key <;> simp only [leave, WaitingPool.perform, left]

theorem requeue_eq (arbiter : Arbiter α) (client : QueuedClient) :
    (arbiter.requeue client).2 =
      { arbiter with pool := (arbiter.pool.perform (.insert client)).2 } := by
  cases returned : arbiter.pool.insert client <;>
    simp only [requeue, WaitingPool.perform, returned]

section Represents

open WaitingPool

variable {arbiter : Arbiter α} {clients front back : List QueuedClient} {client : QueuedClient}

theorem leave_of_queued (represents : Represents arbiter.pool (front ++ client :: back)) :
    ∃ pool, arbiter.leave client.key = (.ok client, { arbiter with pool := pool }) ∧
      Represents pool (front ++ back) := by
  obtain ⟨pool, removed, after⟩ := represents.exists_remove
  refine ⟨pool, ?_, after⟩
  simp only [leave, removed]

theorem leave_of_unqueued {key : ClientKey} (represents : Represents arbiter.pool clients)
    (unqueued : key ∉ keysOf clients) : arbiter.leave key = (.error .notQueued, arbiter) := by
  simp only [leave, represents.remove_of_unqueued unqueued]

theorem requeue_of_queued (represents : Represents arbiter.pool clients)
    (queued : client.key ∈ keysOf clients) :
    arbiter.requeue client = (.error .alreadyQueued, arbiter) := by
  simp only [requeue, represents.insert_of_queued queued]

/-- A client that is not in the pool returns to it, and nobody else moves. -/
theorem requeue_of_unqueued (represents : Represents arbiter.pool clients)
    (unqueued : client.key ∉ keysOf clients) :
    ∃ pool front back, arbiter.requeue client = (.ok (), { arbiter with pool := pool }) ∧
      clients = front ++ back ∧ Represents pool (front ++ client :: back) := by
  obtain ⟨front, back, rfl, behind, ahead⟩ := exists_cut clients client.joinedAt
  obtain ⟨pool, inserted, after⟩ := represents.exists_insert unqueued behind ahead
  refine ⟨pool, front, back, ?_, rfl, after⟩
  simp only [requeue, inserted]

end Represents

theorem draw_eq (arbiter : Arbiter α) :
    arbiter.draw = (arbiter.draws.headD true, { arbiter with draws := arbiter.draws.tail }) := by
  obtain ⟨_, _, _, _, _, _, draws, _, _, _⟩ := arbiter
  cases draws <;> rfl

theorem drawIf_eq (arbiter : Arbiter α) (needed : Bool) :
    ∃ draw rest, arbiter.drawIf needed = (draw, { arbiter with draws := rest }) := by
  cases needed with
  | false => exact ⟨true, arbiter.draws, rfl⟩
  | true => exact ⟨_, _, arbiter.draw_eq⟩

end Pool

/-- Accepting an open challenge gives out an identity and perhaps a draw; the rest is left to the
registry. -/
theorem accept_of_quiet (quiet : arbiter.Quiet) {challenged challenger : ClientKey}
    {challenge : Challenge}
    (opened : arbiter.registry.challenge? challenger challenged = some challenge) :
    ∃ roles draw rest, arbiter.accept challenged challenger =
      { arbiter with nextMatch := arbiter.nextMatch + 1, draws := rest }.absorb
        (arbiter.registry.accept roles challenged challenger ⟨arbiter.nextMatch⟩ draw
          arbiter.now) := by
  obtain ⟨draw, rest, drawn⟩ := { arbiter with nextMatch := arbiter.nextMatch + 1 }.drawIf_eq
    challenge.requested.isNone
  have quietNext :
      ({ arbiter with nextMatch := arbiter.nextMatch + 1, draws := rest } : Arbiter α).Quiet := quiet
  simp only [accept, opened, newId, drawn, askRoles_of_quiet quietNext]
  exact ⟨_, draw, rest, rfl⟩

/-- An act does at most its one operation on the pool. -/
theorem pool_act (quiet : arbiter.Quiet) (act : Act α) :
    (arbiter.act act).pool =
      ((arbiter.poolOperation? act).elim arbiter.pool fun operation =>
        (arbiter.pool.perform operation).2) := by
  cases act with
  | join profile => exact congrArg Arbiter.pool (arbiter.join_eq profile)
  | leave key => exact congrArg Arbiter.pool (arbiter.leave_eq key)
  | requeue client => exact congrArg Arbiter.pool (arbiter.requeue_eq client)
  | challenge challenge =>
    simp only [Arbiter.act, Arbiter.challenge, askRole_of_quiet quiet]
    rfl
  | accept challenged challenger =>
    cases opened : arbiter.registry.challenge? challenger challenged with
    | none =>
      simp only [Arbiter.act, accept, opened]
      rfl
    | some challenge =>
      obtain ⟨_, _, _, accepted⟩ := accept_of_quiet quiet opened
      simp only [Arbiter.act, accepted]
      rfl
  | add chessMatch =>
    simp only [Arbiter.act, add_of_quiet quiet]
    rfl
  | _ => rfl

theorem quiet_act (quiet : arbiter.Quiet) (act : Act α) : (arbiter.act act).Quiet := by
  cases act with
  | join profile =>
    rw [Arbiter.act, join_eq]
    exact quiet
  | leave key =>
    rw [Arbiter.act, leave_eq]
    exact quiet
  | requeue client =>
    rw [Arbiter.act, requeue_eq]
    exact quiet
  | challenge challenge =>
    simp only [Arbiter.act, Arbiter.challenge, askRole_of_quiet quiet]
    exact quiet
  | accept challenged challenger =>
    cases opened : arbiter.registry.challenge? challenger challenged with
    | none =>
      simp only [Arbiter.act, accept, opened]
      exact quiet
    | some challenge =>
      obtain ⟨_, _, _, accepted⟩ := accept_of_quiet quiet opened
      simp only [Arbiter.act, accepted]
      exact quiet
  | add chessMatch =>
    simp only [Arbiter.act, add_of_quiet quiet]
    exact quiet
  | _ => exact quiet

open WaitingPool in
/-- A pool that holds a list holds, after an act, the list as the act's operation changes it. -/
theorem represents_act (quiet : arbiter.Quiet) (act : Act α) {clients : List QueuedClient}
    (represents : Represents arbiter.pool clients) :
    ∃ next, Represents (arbiter.act act).pool next ∧
      ((arbiter.poolOperation? act = none ∧ next = clients) ∨
        ∃ operation answer, arbiter.poolOperation? act = some operation ∧
          Evolves clients operation answer next) := by
  rw [pool_act quiet act]
  cases asked : arbiter.poolOperation? act with
  | none => exact ⟨clients, represents, .inl ⟨rfl, rfl⟩⟩
  | some operation =>
    obtain ⟨next, evolves, after⟩ := represents.perform operation
    exact ⟨next, after, .inr ⟨operation, _, rfl, evolves⟩⟩

end Arbiter

end ChessArbiter
