import ChessArbiter.Proofs.Pool.JoinOrder
import ChessArbiter.Proofs.Scheduler.Pass

/-! # The queue while passes are made

Clients join, leave and return while the scheduler takes pairs through their steps, in any order; the
clock never goes back, and whoever is returned is returned as it was taken out last. The operations that
this does on the pool are a run of the pool (`QueueRun.poolRun`), so the queue keeps the order of joining.
A pass that nobody disturbs returns only clients that it has taken out itself, and so is always part of
such a run.
-/

namespace ChessArbiter

open WaitingPool

variable {α : Type}

/-- The operation on the pool that a step for a pair does, where it does one. -/
def PairStage.poolOperation? (pairing : Pairing α) : PairStage → Option PoolOperation
  | .takeFirst => some (.remove pairing.first.key)
  | .takeSecond _ => some (.remove pairing.second.key)
  | .putBack (client :: _) _ => some (.insert client)
  | _ => none

/-- Who is returned to the pool is returned as it was taken out last. -/
def ReturnsLast (events : List PoolEvent) (operation? : Option PoolOperation) : Prop :=
  ∀ client, operation? = some (.insert client) → lastLeft? client.key events = some client

namespace Arbiter

/-- The event of an operation on the pool, where there is one. -/
def poolEvents (arbiter : Arbiter α) (operation? : Option PoolOperation) : List PoolEvent :=
  operation?.toList.map (arbiter.pool.event · arbiter.now)

/-- The pool after an operation, where there is one. -/
def poolAfter (arbiter : Arbiter α) (operation? : Option PoolOperation) : WaitingPool :=
  operation?.elim arbiter.pool fun operation => (arbiter.pool.perform operation).2

/-- What is on record of a client that leaves is what is answered. -/
theorem left?_event (arbiter : Arbiter α) (key : ClientKey) :
    (arbiter.pool.event (.remove key) arbiter.now).left? key = (arbiter.leave key).1.toOption := by
  cases left : arbiter.pool.remove key with
  | error error =>
    simp only [event, WaitingPool.perform, leave, left]
    rfl
  | ok removed =>
    simp only [event, WaitingPool.perform, leave, left]
    exact if_pos rfl

/-- Of no other client it is on record that it has left. -/
theorem left?_event_of_other (arbiter : Arbiter α) {key other : ClientKey} (differs : key ≠ other) :
    (arbiter.pool.event (.remove key) arbiter.now).left? other = none := by
  cases left : arbiter.pool.remove key with
  | error error =>
    simp only [event, WaitingPool.perform, left]
    rfl
  | ok removed =>
    simp only [event, WaitingPool.perform, left]
    exact if_neg differs

variable [Scalar α]

/-- What has been asked of the pool so far, where others act and steps for pairs are made in any order
while the time does not go back. -/
inductive QueueRun : List PoolEvent → Arbiter α → Prop
  | start (settings : Settings α) (now : Instant) (roles : Std.ExtTreeMap ClientKey Role)
      (draws : List Bool) (nextMatch : Nat) :
      QueueRun []
        { settings := settings, now := now, registry := .empty, pool := .empty, roles := roles
          cues := ∅, draws := draws, nextMatch := nextMatch, notices := [], alarms := [] }
  | act {events : List PoolEvent} {arbiter : Arbiter α} (run : QueueRun events arbiter) (act : Act α)
      (noEarlier : arbiter.now ≤ (arbiter.act act).now)
      (returns : ReturnsLast events (arbiter.poolOperation? act)) :
      QueueRun (events ++ arbiter.poolEvents (arbiter.poolOperation? act)) (arbiter.act act)
  | pairStep {events : List PoolEvent} {arbiter : Arbiter α} (run : QueueRun events arbiter)
      (pairing : Pairing α) (stage : PairStage)
      (returns : ReturnsLast events (stage.poolOperation? pairing)) :
      QueueRun (events ++ arbiter.poolEvents (stage.poolOperation? pairing))
        (arbiter.pairStep pairing stage).2

section Step

variable {arbiter : Arbiter α} {events : List PoolEvent}

/-- A step for a pair does its one operation on the pool, in no time, and nobody acts meanwhile. -/
theorem pairStep_frame (quiet : arbiter.Quiet) (pairing : Pairing α) (stage : PairStage) :
    (arbiter.pairStep pairing stage).2.Quiet ∧
      (arbiter.pairStep pairing stage).2.now = arbiter.now ∧
      (arbiter.pairStep pairing stage).2.pool = arbiter.poolAfter (stage.poolOperation? pairing) := by
  cases stage with
  | checkFirst =>
    have same : (arbiter.pairStep pairing .checkFirst).2 = arbiter := by
      simp only [Arbiter.pairStep, canStart_of_quiet quiet]
    rw [same]
    exact ⟨quiet, rfl, rfl⟩
  | checkSecond =>
    have same : (arbiter.pairStep pairing .checkSecond).2 = arbiter := by
      simp only [Arbiter.pairStep, canStart_of_quiet quiet]
    rw [same]
    exact ⟨quiet, rfl, rfl⟩
  | takeFirst =>
    simp only [Arbiter.pairStep, leave_eq]
    exact ⟨quiet, trivial, rfl⟩
  | takeSecond first =>
    simp only [Arbiter.pairStep, leave_eq]
    exact ⟨quiet, trivial, rfl⟩
  | seat first second =>
    have quietNext : arbiter.drafted.Quiet := quiet
    rw [pairStep_seat_eq_act quiet, Arbiter.act, add_of_quiet quietNext]
    exact ⟨quiet, rfl, rfl⟩
  | putBack clients error =>
    cases clients with
    | nil => exact ⟨quiet, rfl, rfl⟩
    | cons client rest =>
      simp only [Arbiter.pairStep, requeue_eq]
      exact ⟨quiet, trivial, rfl⟩
  | done result => exact ⟨quiet, rfl, rfl⟩

omit [Scalar α] in
/-- A timely operation continues a run of the pool. -/
private theorem poolRun_poolEvents (run : PoolRun events arbiter.now arbiter.pool)
    (operation? : Option PoolOperation)
    (timely : ∀ operation, operation? = some operation → operation.Timely events arbiter.now) :
    PoolRun (events ++ arbiter.poolEvents operation?) arbiter.now (arbiter.poolAfter operation?) := by
  cases operation? with
  | none =>
    rw [poolEvents, Option.toList_none, List.map_nil, List.append_nil]
    exact run
  | some operation => exact run.perform operation (timely operation rfl)

end Step

namespace QueueRun

variable {arbiter : Arbiter α} {events : List PoolEvent} {clients : List QueuedClient}
  {pairing : Pairing α} {stage : PairStage}

/-- What is asked of the pool is a run of the pool. -/
theorem poolRun (run : QueueRun events arbiter) :
    arbiter.Quiet ∧ PoolRun events arbiter.now arbiter.pool := by
  induction run with
  | start => exact ⟨rfl, .start _⟩
  | @act events arbiter _ act noEarlier returns ih =>
    obtain ⟨quiet, run⟩ := ih
    refine ⟨quiet_act quiet act, ?_⟩
    rw [pool_act quiet act]
    refine (poolRun_poolEvents run _ ?_).wait noEarlier
    intro operation asked
    cases act with
    | join profile =>
      cases asked
      rfl
    | leave key =>
      cases asked
      trivial
    | requeue client =>
      cases asked
      exact returns client rfl
    | _ => cases asked
  | @pairStep events arbiter _ pairing stage returns ih =>
    obtain ⟨quiet, run⟩ := ih
    obtain ⟨quietNext, now, pool⟩ := pairStep_frame quiet pairing stage
    refine ⟨quietNext, ?_⟩
    rw [now, pool]
    refine poolRun_poolEvents run _ ?_
    intro operation asked
    cases operation with
    | add client => cases stage with
      | putBack clients error => cases clients <;> cases asked
      | _ => cases asked
    | insert client => exact returns client asked
    | remove key => trivial

theorem punctual (run : QueueRun events arbiter) :
    Represents arbiter.pool arbiter.pool.clients ∧
      Punctual events arbiter.now arbiter.pool.clients := by
  obtain ⟨_, pool⟩ := run.poolRun
  obtain ⟨clients, represents, punctual⟩ := pool.punctual
  rw [clients_eq represents]
  exact ⟨represents, punctual⟩

end QueueRun

section Undisturbed

variable {arbiter : Arbiter α} {events : List PoolEvent} {clients : List QueuedClient}
  {pairing : Pairing α} {stage : PairStage}

omit [Scalar α]

/-- A client that is asked to leave was waiting and does not wait any more, or is not found. -/
private theorem leave_cases (represents : Represents arbiter.pool arbiter.pool.clients)
    (key : ClientKey) :
    (∃ client after, arbiter.leave key = (.ok client, after) ∧ client.key = key ∧
      key ∈ keysOf arbiter.pool.clients ∧ key ∉ keysOf after.pool.clients) ∨
    arbiter.leave key = (.error .notQueued, arbiter) := by
  by_cases queued : key ∈ keysOf arbiter.pool.clients
  · obtain ⟨client, member, rfl⟩ := List.mem_map.mp queued
    obtain ⟨front, back, cut⟩ := List.append_of_mem member
    rw [cut] at represents
    obtain ⟨pool, left, after⟩ := leave_of_queued represents
    have shown : pool.clients = front ++ back := after.shows.forward.2
    refine .inl ⟨client, _, left, rfl, queued, ?_⟩
    rw [shown]
    exact (distinct_middle_iff.mp represents.distinct).1
  · exact .inr (leave_of_unqueued represents queued)

/-- Who was taken out last, after a client has been asked to leave. -/
theorem lastLeft?_leave (arbiter : Arbiter α) (events : List PoolEvent) (key other : ClientKey) :
    lastLeft? other (events ++ arbiter.poolEvents (some (.remove key))) =
      (if key = other then (arbiter.leave key).1.toOption else none).or (lastLeft? other events) := by
  rw [poolEvents, Option.toList_some, List.map_singleton, lastLeft?_concat]
  split
  · next same => rw [← same, left?_event]
  · next differs => rw [left?_event_of_other arbiter differs]

/-- Nobody is taken out when a client is returned. -/
theorem lastLeft?_requeue (arbiter : Arbiter α) (events : List PoolEvent) (client : QueuedClient)
    (key : ClientKey) :
    lastLeft? key (events ++ arbiter.poolEvents (some (.insert client))) = lastLeft? key events :=
  lastLeft?_concat ..

end Undisturbed

end Arbiter

/-- The clients that a stage holds were taken out last as it holds them. While the second client of a
pair is waited for, the first one does not wait. -/
def PairStage.Holds (events : List PoolEvent) (clients : List QueuedClient) : PairStage → Prop
  | .takeSecond first => lastLeft? first.key events = some first ∧ first.key ∉ keysOf clients
  | .seat first second =>
    lastLeft? first.key events = some first ∧ lastLeft? second.key events = some second
  | .putBack held _ => ∀ client ∈ held, lastLeft? client.key events = some client
  | _ => True

theorem PairStage.Holds.returnsLast {events : List PoolEvent} {clients : List QueuedClient}
    {stage : PairStage} (holds : stage.Holds events clients) (pairing : Pairing α) :
    ReturnsLast events (stage.poolOperation? pairing) := by
  intro client asked
  cases stage with
  | putBack held error => cases held with
    | nil => cases asked
    | cons first rest =>
      cases asked
      exact holds client List.mem_cons_self
  | _ => cases asked

namespace Arbiter

variable [Scalar α] {arbiter : Arbiter α} {events : List PoolEvent} {pairing : Pairing α}
  {stage : PairStage}

/-- A step for a pair takes over what the stage before it holds, and holds what it takes out itself. -/
theorem holds_pairStep (quiet : arbiter.Quiet)
    (represents : Represents arbiter.pool arbiter.pool.clients)
    (holds : stage.Holds events arbiter.pool.clients) :
    (arbiter.pairStep pairing stage).1.Holds
      (events ++ arbiter.poolEvents (stage.poolOperation? pairing))
      (arbiter.pairStep pairing stage).2.pool.clients := by
  cases stage with
  | checkFirst =>
    simp only [Arbiter.pairStep, canStart_of_quiet quiet]
    split <;> trivial
  | checkSecond =>
    simp only [Arbiter.pairStep, canStart_of_quiet quiet]
    split <;> trivial
  | takeFirst =>
    have left (other : ClientKey) := lastLeft?_leave arbiter events pairing.first.key other
    rcases leave_cases represents pairing.first.key with
      ⟨client, after, taken, own, -, gone⟩ | refused
    · simp only [Arbiter.pairStep, taken, PairStage.taken]
      refine ⟨?_, own ▸ gone⟩
      change lastLeft? client.key (events ++ arbiter.poolEvents (some (.remove _))) = _
      rw [left, taken, own, if_pos rfl]
      rfl
    · simp only [Arbiter.pairStep, refused, PairStage.taken]
      exact List.forall_mem_nil _
  | takeSecond first =>
    obtain ⟨firstLeft, absent⟩ := holds
    have left (other : ClientKey) := lastLeft?_leave arbiter events pairing.second.key other
    rcases leave_cases represents pairing.second.key with
      ⟨client, after, taken, own, waited, -⟩ | refused
    · have differs : pairing.second.key ≠ first.key := fun same => absent (same ▸ waited)
      simp only [Arbiter.pairStep, taken, PairStage.taken]
      constructor
      · change lastLeft? first.key (events ++ arbiter.poolEvents (some (.remove _))) = _
        rw [left, if_neg differs]
        exact firstLeft
      · change lastLeft? client.key (events ++ arbiter.poolEvents (some (.remove _))) = _
        rw [left, taken, own, if_pos rfl]
        rfl
    · simp only [Arbiter.pairStep, refused, PairStage.taken]
      refine List.forall_mem_singleton.mpr ?_
      change lastLeft? first.key (events ++ arbiter.poolEvents (some (.remove _))) = _
      rw [left, refused]
      refine Eq.trans ?_ firstLeft
      split <;> rfl
  | seat first second =>
    obtain ⟨firstLeft, secondLeft⟩ := holds
    by_cases free : arbiter.registry.canSeat (arbiter.tableRoles (arbiter.draft first second))
        (arbiter.draft first second) = true
    · rw [pairStep_seat_of_free quiet pairing free]
      trivial
    · rw [pairStep_seat_of_busy quiet pairing free]
      change ∀ client ∈ [first, second], lastLeft? client.key (events ++ []) = some client
      rw [List.append_nil]
      exact List.forall_mem_cons.mpr ⟨firstLeft, List.forall_mem_singleton.mpr secondLeft⟩
  | putBack held error =>
    cases held with
    | nil => trivial
    | cons client rest =>
      intro other member
      exact (lastLeft?_requeue arbiter events client other.key).trans
        (holds other (List.mem_cons_of_mem _ member))
  | done result => trivial

namespace QueueRun

/-- The steps for a pair that nobody disturbs continue a run. -/
theorem finishPair (run : QueueRun events arbiter) (pairing : Pairing α)
    (holds : stage.Holds events arbiter.pool.clients) :
    ∃ later, QueueRun (events ++ later) (arbiter.finishPair pairing stage).2 := by
  fun_induction Arbiter.finishPair pairing stage arbiter generalizing events with
  | case1 stage arbiter result ended =>
    refine ⟨[], ?_⟩
    rwa [List.append_nil]
  | case2 stage arbiter unfinished next =>
    rename_i ih
    have after := run.pairStep pairing stage (holds.returnsLast pairing)
    obtain ⟨later, finished⟩ := ih after (holds_pairStep run.poolRun.1 run.punctual.1 holds)
    exact ⟨_ ++ later, by rwa [← List.append_assoc]⟩

theorem processPairs (run : QueueRun events arbiter) (pairs : List (Pairing α)) :
    ∃ later, QueueRun (events ++ later) (arbiter.processPairs pairs).2 := by
  induction pairs generalizing arbiter events with
  | nil =>
    refine ⟨[], ?_⟩
    rwa [List.append_nil]
  | cons pairing rest ih =>
    have begun : PairStage.checkFirst.Holds events arbiter.pool.clients := trivial
    obtain ⟨earlier, first⟩ := run.finishPair pairing begun
    obtain ⟨later, others⟩ := ih first
    exact ⟨earlier ++ later, by rwa [← List.append_assoc]⟩

/-- A pass that nobody disturbs continues a run. -/
theorem tick (run : QueueRun events arbiter) :
    ∃ later, QueueRun (events ++ later) arbiter.tick.2 := by
  simp only [Arbiter.tick, available_of_quiet run.poolRun.1]
  split
  · refine ⟨[], ?_⟩
    rwa [List.append_nil]
  · exact run.processPairs _

/-- Who leaves and returns at once comes behind those that joined in the same instant, and in front of
all who joined later. -/
theorem leave_requeue (run : QueueRun events arbiter) {client : QueuedClient}
    (waits : client ∈ arbiter.pool.clients) :
    ∃ front ties rest left back,
      arbiter.pool.clients = front ++ client :: (ties ++ rest) ∧
      (∀ tie ∈ ties, tie.joinedAt = client.joinedAt) ∧
      (∀ later ∈ rest, ¬ later.joinedAt ≤ client.joinedAt) ∧
      arbiter.leave client.key = (.ok client, left) ∧ left.requeue client = (.ok (), back) ∧
      back.pool.clients = front ++ ties ++ client :: rest := by
  obtain ⟨represents, punctual⟩ := run.punctual
  obtain ⟨front, behind, cut⟩ := List.append_of_mem waits
  have inOrder : InOrder (front ++ client :: behind) := cut ▸ punctual.inOrder
  obtain ⟨-, behindInOrder, across⟩ := List.pairwise_append.mp inOrder
  obtain ⟨ties, rest, rfl, same, ahead⟩ := InOrder.exists_ties behindInOrder
  rw [cut] at represents
  obtain ⟨pool, left, without⟩ := leave_of_queued represents
  obtain ⟨isNew, -⟩ := distinct_middle_iff.mp represents.distinct
  rw [← List.append_assoc] at without isNew
  have noLater : ∀ last ∈ (front ++ ties).getLast?, last.joinedAt ≤ client.joinedAt := by
    intro last isLast
    rcases List.mem_append.mp (List.mem_of_getLast? isLast) with inFront | tie
    · exact across last inFront client List.mem_cons_self
    · rw [same last tie]
      exact Instant.le_refl _
  obtain ⟨after, inserted, returned⟩ := without.exists_insert isNew noLater ahead
  refine ⟨front, ties, rest, _, { arbiter with pool := after }, cut, same, ahead, left, ?_,
    returned.shows.forward.2⟩
  simp only [requeue, inserted]

/-- In every run over a time that never goes back the clients wait in the order in which they joined,
each since its last joining, however often it has left and returned after that. Two clients keep their
order as long as neither leaves. Who leaves and returns at once only comes behind those that joined in
the same instant. A pass that nobody disturbs is part of a run. -/
theorem join_order (run : QueueRun events arbiter) :
    arbiter.Sorted ∧
      (∀ client ∈ arbiter.pool.clients, lastJoined? client.key events = some client) ∧
      (∀ (before later : List PoolEvent) (earlier : Arbiter α), events = before ++ later →
        QueueRun before earlier → ∀ first second, [first, second].Sublist earlier.pool.clients →
          (∀ event ∈ later, event.left? first.key = none ∧ event.left? second.key = none) →
          [first, second].Sublist arbiter.pool.clients) ∧
      (∀ client ∈ arbiter.pool.clients, ∃ front ties rest left back,
        arbiter.pool.clients = front ++ client :: (ties ++ rest) ∧
        (∀ tie ∈ ties, tie.joinedAt = client.joinedAt) ∧
        (∀ later ∈ rest, ¬ later.joinedAt ≤ client.joinedAt) ∧
        arbiter.leave client.key = (.ok client, left) ∧ left.requeue client = (.ok (), back) ∧
        back.pool.clients = front ++ ties ++ client :: rest) ∧
      ∃ later, QueueRun (events ++ later) arbiter.tick.2 := by
  obtain ⟨-, punctual⟩ := run.punctual
  refine ⟨punctual.inOrder, punctual.waiting, ?_, fun _ => run.leave_requeue, run.tick⟩
  rintro before later earlier rfl begun first second order stay
  exact run.poolRun.2.sublist begun.poolRun.2 order stay

end QueueRun

end Arbiter

/-- Two clients join in one instant and a third later; the first leaves and returns, and so comes behind
the second, but not behind the third. -/
theorem join_order_of_ties :
    ∃ (events : List PoolEvent) (arbiter : Arbiter Rat), Arbiter.QueueRun events arbiter ∧
      arbiter.pool.clients.map (fun client => (client.key, client.joinedAt)) =
        [("bob", .ofMillis 0), ("ada", .ofMillis 0), ("cid", .ofMillis 5)] ∧
      arbiter.now = .ofMillis 9 ∧ arbiter.Sorted ∧
      lastJoined? "ada" events = some ⟨⟨"ada", 1500, 0, 0⟩, .ofMillis 0⟩ ∧
      lastLeft? "ada" events = lastJoined? "ada" events := by
  let profile (key : ClientKey) : ClientProfile := ⟨key, 1500, 0, 0⟩
  have run : Arbiter.QueueRun [] _ :=
    .start (⟨1000, 100, 0, .blitz, .info⟩ : Settings Rat) (.ofMillis 0) ∅ [] 0
  have run := run.act (.join (profile "ada")) (by decide +kernel) nofun
  have run := run.act (.join (profile "bob")) (by decide +kernel) nofun
  have run := run.act (.setTime (.ofMillis 5)) (by decide +kernel) nofun
  have run := run.act (.join (profile "cid")) (by decide +kernel) nofun
  have run := run.act (.leave "ada") (by decide +kernel) nofun
  have run := run.act (.setTime (.ofMillis 9)) (by decide +kernel) nofun
  have run := run.act (.requeue ⟨profile "ada", .ofMillis 0⟩) (by decide +kernel) (by
    rintro _ ⟨⟩
    decide +kernel)
  obtain ⟨sorted, joined, -⟩ := run.join_order
  refine ⟨_, _, run, by decide +kernel, by decide +kernel, sorted, ?_, by decide +kernel⟩
  exact joined ⟨profile "ada", .ofMillis 0⟩ (by decide +kernel)

end ChessArbiter
