import ChessArbiter.Proofs.Concat
import ChessArbiter.Proofs.Pool.Lineup
import ChessArbiter.Proofs.Time.Order

/-! # The order of joining

Clients join the pool at the time of the clock, which never goes back, and whoever returns to it returns
as it was taken out last. Then the clients wait in the order in which they joined, each since its own
last joining (`Punctual`): a client that joins comes behind all others because none joined later, and one
that returns finds its place because the others are in order. Nobody overtakes anybody meanwhile, and
who leaves and returns at once has only lost its place among those that joined in the same instant.
-/

namespace ChessArbiter

/-- An operation on the pool, what it answered, and the time at which it was asked for. -/
structure PoolEvent where
  operation : PoolOperation
  answer : PoolAnswer
  now : Instant

namespace PoolEvent

/-- The client of this key with the time of the event, where the event is that it joined the pool. -/
def joined? (key : ClientKey) : PoolEvent → Option QueuedClient
  | ⟨.add client, .ok _, now⟩ => if client.key = key then some ⟨client.profile, now⟩ else none
  | _ => none

/-- The client of this key as it was answered, where the event is that it was taken out of the pool. -/
def left? (key : ClientKey) : PoolEvent → Option QueuedClient
  | ⟨.remove own, .ok (some node), _⟩ => if own = key then some node.client else none
  | _ => none

end PoolEvent

/-- The client of this key as it joined the pool last. -/
def lastJoined? (key : ClientKey) (events : List PoolEvent) : Option QueuedClient :=
  (events.filterMap (·.joined? key)).getLast?

/-- The client of this key as it was taken out of the pool last. -/
def lastLeft? (key : ClientKey) (events : List PoolEvent) : Option QueuedClient :=
  (events.filterMap (·.left? key)).getLast?

section Last

variable (key : ClientKey) (events : List PoolEvent) (event : PoolEvent)

theorem lastJoined?_concat :
    lastJoined? key (events ++ [event]) = (event.joined? key).or (lastJoined? key events) :=
  getLast?_filterMap_concat _ _ _

theorem lastLeft?_concat :
    lastLeft? key (events ++ [event]) = (event.left? key).or (lastLeft? key events) :=
  getLast?_filterMap_concat _ _ _

end Last

/-- What may be asked of the pool at a time: who joins does so now, and who returns does so as it was
taken out last. -/
def PoolOperation.Timely (events : List PoolEvent) (now : Instant) : PoolOperation → Prop
  | .add client => client.joinedAt = now
  | .insert client => lastLeft? client.key events = some client
  | .remove _ => True

namespace WaitingPool

/-- The event of an operation on the pool. -/
def event (pool : WaitingPool) (operation : PoolOperation) (now : Instant) : PoolEvent :=
  ⟨operation, (pool.perform operation).1, now⟩

end WaitingPool

open WaitingPool

/-- What has been asked of a new pool so far, over a time that does not go back. -/
inductive PoolRun : List PoolEvent → Instant → WaitingPool → Prop
  | start (now : Instant) : PoolRun [] now .empty
  | wait {events : List PoolEvent} {now later : Instant} {pool : WaitingPool}
      (run : PoolRun events now pool) (noEarlier : now ≤ later) : PoolRun events later pool
  | perform {events : List PoolEvent} {now : Instant} {pool : WaitingPool}
      (run : PoolRun events now pool) (operation : PoolOperation)
      (timely : operation.Timely events now) :
      PoolRun (events ++ [pool.event operation now]) now (pool.perform operation).2

/-- The clients wait in the order in which they joined. -/
def InOrder (clients : List QueuedClient) : Prop :=
  clients.Pairwise fun earlier later => earlier.joinedAt ≤ later.joinedAt

/-- The clients wait in order, each as it joined last; who does not wait was taken out as it had
joined. -/
structure Punctual (events : List PoolEvent) (now : Instant) (clients : List QueuedClient) : Prop where
  inOrder : InOrder clients
  waiting : ∀ client ∈ clients, lastJoined? client.key events = some client
  past : ∀ key client, lastJoined? key events = some client → client.joinedAt ≤ now
  gone : ∀ key ∉ keysOf clients, lastLeft? key events = lastJoined? key events

namespace InOrder

variable {front back : List QueuedClient} {client : QueuedClient}

theorem concat (inOrder : InOrder front)
    (last : ∀ earlier ∈ front, earlier.joinedAt ≤ client.joinedAt) : InOrder (front ++ [client]) := by
  refine List.pairwise_append.mpr ⟨inOrder, List.pairwise_singleton _ _, ?_⟩
  intro earlier member
  exact List.forall_mem_singleton.mpr (last earlier member)

/-- Where the clients are in order, all in front of a place joined no later than the last of them. -/
theorem le_of_getLast? (inOrder : InOrder front)
    (behind : ∀ last ∈ front.getLast?, last.joinedAt ≤ client.joinedAt) :
    ∀ earlier ∈ front, earlier.joinedAt ≤ client.joinedAt := by
  rcases List.eq_nil_or_concat front with rfl | ⟨init, last, rfl⟩
  · exact List.forall_mem_nil _
  · rw [List.concat_eq_append] at inOrder behind ⊢
    obtain ⟨-, -, before⟩ := List.pairwise_append.mp inOrder
    have noLater := behind last List.getLast?_concat
    intro earlier member
    rcases List.mem_append.mp member with inFront | own
    · exact Instant.le_trans (before earlier inFront last (List.mem_singleton_self last)) noLater
    · rwa [List.mem_singleton.mp own]

/-- A client may stand between those that joined no later and those that joined later. -/
theorem insert (inOrder : InOrder (front ++ back))
    (behind : ∀ earlier ∈ front, earlier.joinedAt ≤ client.joinedAt)
    (ahead : ∀ later ∈ back, ¬ later.joinedAt ≤ client.joinedAt) :
    InOrder (front ++ client :: back) := by
  obtain ⟨frontInOrder, backInOrder, across⟩ := List.pairwise_append.mp inOrder
  refine List.pairwise_append.mpr ⟨frontInOrder, List.pairwise_cons.mpr ⟨?_, backInOrder⟩, ?_⟩
  · intro later member
    exact Instant.le_of_not_le (ahead later member)
  · intro earlier member
    exact List.forall_mem_cons.mpr ⟨behind earlier member, across earlier member⟩

/-- Behind a client stand first those that joined in the same instant, then those that joined later. -/
theorem exists_ties (inOrder : InOrder (client :: back)) :
    ∃ ties rest, back = ties ++ rest ∧ (∀ tie ∈ ties, tie.joinedAt = client.joinedAt) ∧
      ∀ later ∈ rest, ¬ later.joinedAt ≤ client.joinedAt := by
  obtain ⟨ties, rest, rfl, behind, ahead⟩ := exists_cut back client.joinedAt
  obtain ⟨noEarlier, backInOrder⟩ := List.pairwise_cons.mp inOrder
  have tiesInOrder : InOrder ties := backInOrder.sublist (List.sublist_append_left ties rest)
  have noLater := tiesInOrder.le_of_getLast? behind
  refine ⟨ties, rest, rfl, ?_, ahead⟩
  intro tie member
  exact Instant.le_antisymm (noLater tie member) (noEarlier tie (List.mem_append_left _ member))

end InOrder

namespace Punctual

variable {events : List PoolEvent} {now : Instant} {clients front back : List QueuedClient}
  {client : QueuedClient}

theorem wait {later : Instant} (punctual : Punctual events now clients) (noEarlier : now ≤ later) :
    Punctual events later clients where
  inOrder := punctual.inOrder
  waiting := punctual.waiting
  past key client joined := Instant.le_trans (punctual.past key client joined) noEarlier
  gone := punctual.gone

/-- An event by which nobody joins or leaves changes nothing. -/
theorem concat {event : PoolEvent} (punctual : Punctual events now clients)
    (unjoined : ∀ key, event.joined? key = none) (unleft : ∀ key, event.left? key = none) :
    Punctual (events ++ [event]) now clients := by
  have joined (key : ClientKey) : lastJoined? key (events ++ [event]) = lastJoined? key events := by
    rw [lastJoined?_concat, unjoined, Option.none_or]
  have left (key : ClientKey) : lastLeft? key (events ++ [event]) = lastLeft? key events := by
    rw [lastLeft?_concat, unleft, Option.none_or]
  constructor
  · exact punctual.inOrder
  · simpa only [joined] using punctual.waiting
  · simpa only [joined] using punctual.past
  · simpa only [joined, left] using punctual.gone

/-- A client joins behind all others: none of them has joined later than now. -/
theorem add (punctual : Punctual events now clients) (joinsNow : client.joinedAt = now)
    (isNew : client.key ∉ keysOf clients) :
    Punctual (events ++ [⟨.add client, .ok none, now⟩]) now (clients ++ [client]) := by
  have joined (key : ClientKey) : lastJoined? key (events ++ [⟨.add client, .ok none, now⟩]) =
      if client.key = key then some client else lastJoined? key events := by
    rw [lastJoined?_concat]
    subst joinsNow
    change (if client.key = key then some client else none).or _ = _
    split
    · rfl
    · exact Option.none_or
  have left (key : ClientKey) :
      lastLeft? key (events ++ [⟨.add client, .ok none, now⟩]) = lastLeft? key events :=
    lastLeft?_concat ..
  constructor
  · apply punctual.inOrder.concat
    intro earlier member
    exact joinsNow ▸ punctual.past earlier.key earlier (punctual.waiting earlier member)
  · intro other member
    rw [joined]
    rcases List.mem_append.mp member with waits | own
    · rw [if_neg]
      · exact punctual.waiting other waits
      · intro same
        exact isNew (same ▸ List.mem_map_of_mem waits)
    · rw [List.mem_singleton.mp own, if_pos rfl]
  · intro key other last
    rw [joined] at last
    split at last
    · obtain rfl := Option.some.inj last
      exact joinsNow ▸ Instant.le_refl _
    · exact punctual.past key other last
  · intro key outside
    obtain ⟨absent, differs⟩ := not_or.mp (mt mem_append_iff.mpr outside)
    rw [joined, left, if_neg, punctual.gone key absent]
    rintro rfl
    exact differs List.mem_cons_self

/-- A client returns as it was taken out last, which is as it had joined. -/
theorem insert (punctual : Punctual events now (front ++ back))
    (returns : lastLeft? client.key events = some client)
    (isNew : client.key ∉ keysOf (front ++ back))
    (behind : ∀ last ∈ front.getLast?, last.joinedAt ≤ client.joinedAt)
    (ahead : ∀ later ∈ back, ¬ later.joinedAt ≤ client.joinedAt) :
    Punctual (events ++ [⟨.insert client, .ok none, now⟩]) now (front ++ client :: back) := by
  have frontInOrder : InOrder front := punctual.inOrder.sublist (List.sublist_append_left front back)
  have returned : Punctual events now (front ++ client :: back) := by
    constructor
    · exact punctual.inOrder.insert (frontInOrder.le_of_getLast? behind) ahead
    · intro other member
      rcases List.mem_append.mp member with inFront | rest
      · exact punctual.waiting other (List.mem_append_left _ inFront)
      · rcases List.mem_cons.mp rest with rfl | inBack
        · exact (punctual.gone _ isNew).symm.trans returns
        · exact punctual.waiting other (List.mem_append_right _ inBack)
    · exact punctual.past
    · intro key outside
      exact punctual.gone key fun waits => outside (mem_middle_iff.mpr (.inr waits))
  exact returned.concat (fun _ => rfl) fun _ => rfl

/-- A client is taken out as it had joined. -/
theorem remove (punctual : Punctual events now (front ++ client :: back)) {node : PoolNode}
    (own : node.client = client) :
    Punctual (events ++ [⟨.remove client.key, .ok (some node), now⟩]) now (front ++ back) := by
  have joined (key : ClientKey) :
      lastJoined? key (events ++ [⟨.remove client.key, .ok (some node), now⟩]) =
        lastJoined? key events :=
    lastJoined?_concat ..
  have fewer : (front ++ back).Sublist (front ++ client :: back) :=
    (List.Sublist.refl front).append (List.sublist_cons_self client back)
  constructor
  · exact punctual.inOrder.sublist fewer
  · intro other member
    rw [joined]
    exact punctual.waiting other (fewer.subset member)
  · intro key other last
    rw [joined] at last
    exact punctual.past key other last
  · intro key outside
    rw [joined, lastLeft?_concat]
    by_cases same : client.key = key
    · subst same
      have waited := punctual.waiting client (List.mem_append_right _ List.mem_cons_self)
      rw [waited]
      change (if client.key = client.key then some node.client else none).or _ = _
      rw [if_pos rfl, own]
      rfl
    · have absent : key ∉ keysOf (front ++ client :: back) := by
        intro waits
        exact (mem_middle_iff.mp waits).elim (same ·.symm) outside
      change (if client.key = key then some node.client else none).or _ = _
      rw [if_neg same, Option.none_or]
      exact punctual.gone key absent

/-- What a timely operation makes of clients that wait in order. -/
theorem perform {next : List QueuedClient} {operation : PoolOperation} {answer : PoolAnswer}
    (punctual : Punctual events now clients) (evolves : Evolves clients operation answer next)
    (timely : operation.Timely events now) :
    Punctual (events ++ [⟨operation, answer, now⟩]) now next := by
  cases evolves with
  | added client isNew => exact punctual.add timely isNew
  | inserted client isNew front back cut behind ahead =>
    subst cut
    exact punctual.insert timely isNew behind ahead
  | removed front client back cut =>
    subst cut
    exact punctual.remove rfl
  | addRefused _ _ => exact punctual.concat (fun _ => rfl) fun _ => rfl
  | insertRefused _ _ => exact punctual.concat (fun _ => rfl) fun _ => rfl
  | removeRefused _ _ => exact punctual.concat (fun _ => rfl) fun _ => rfl

end Punctual

namespace PoolRun

variable {events : List PoolEvent} {now : Instant} {pool : WaitingPool}

/-- In every run the pool holds clients that wait in order. -/
theorem punctual (run : PoolRun events now pool) :
    ∃ clients, Represents pool clients ∧ Punctual events now clients := by
  induction run with
  | start now =>
    refine ⟨[], represents_empty, List.Pairwise.nil, List.forall_mem_nil _, ?_, fun _ _ => rfl⟩
    intro key client joined
    cases joined
  | wait _ noEarlier ih =>
    obtain ⟨clients, represents, punctual⟩ := ih
    exact ⟨clients, represents, punctual.wait noEarlier⟩
  | perform _ operation timely ih =>
    obtain ⟨clients, represents, punctual⟩ := ih
    obtain ⟨next, evolves, after⟩ := represents.perform operation
    exact ⟨next, after, punctual.perform evolves timely⟩

end PoolRun

namespace Evolves

variable {clients next : List QueuedClient} {operation : PoolOperation} {answer : PoolAnswer}
  {first second : QueuedClient}

/-- Clients that an operation does not take out keep their order. -/
theorem sublist (evolves : Evolves clients operation answer next) (now : Instant)
    (order : [first, second].Sublist clients)
    (firstStays : PoolEvent.left? first.key ⟨operation, answer, now⟩ = none)
    (secondStays : PoolEvent.left? second.key ⟨operation, answer, now⟩ = none) :
    [first, second].Sublist next := by
  cases evolves with
  | added client _ => exact order.trans (List.sublist_append_left clients [client])
  | inserted client _ front back cut _ _ =>
    subst cut
    exact order.trans ((List.Sublist.refl front).append (List.sublist_cons_self client back))
  | removed front client back cut =>
    subst cut
    have differs {other : QueuedClient} (stays : PoolEvent.left? other.key
        ⟨.remove client.key, .ok (some ⟨client, lastKey front, firstKey back⟩), now⟩ = none) :
        client ≠ other := by
      rintro rfl
      exact Option.some_ne_none _ ((if_pos rfl).symm.trans stays)
    have dropped :
        (front ++ client :: back).filter (· ≠ client) = (front ++ back).filter (· ≠ client) := by
      simp
    have both : [first, second].filter (· ≠ client) = [first, second] := by
      simp [(differs firstStays).symm, (differs secondStays).symm]
    have kept := order.filter (· ≠ client)
    rw [both, dropped] at kept
    exact kept.trans List.filter_sublist
  | addRefused _ _ => exact order
  | insertRefused _ _ => exact order
  | removeRefused _ _ => exact order

end Evolves

namespace WaitingPool

theorem performAll_concat (pool : WaitingPool) (operations : List PoolOperation)
    (last : PoolOperation) : (pool.performAll (operations ++ [last])).2 =
      ((pool.performAll operations).2.perform last).2 := by
  induction operations generalizing pool with
  | nil => rfl
  | cons operation rest ih => exact ih _

end WaitingPool

namespace PoolRun

variable {events before later : List PoolEvent} {now begun : Instant} {pool earlier : WaitingPool}
  {first second : QueuedClient}

/-- The pool is what the operations have made of it. -/
theorem pool_eq (run : PoolRun events now pool) :
    pool = (WaitingPool.empty.performAll (events.map (·.operation))).2 := by
  induction run with
  | start => rfl
  | wait _ _ ih => exact ih
  | perform _ operation _ ih =>
    rw [List.map_append, List.map_singleton, performAll_concat, ← ih]
    rfl

/-- Two clients keep their order as long as neither of them is taken out. -/
theorem sublist (run : PoolRun (before ++ later) now pool) (begins : PoolRun before begun earlier)
    (order : [first, second].Sublist earlier.clients)
    (stay : ∀ event ∈ later, event.left? first.key = none ∧ event.left? second.key = none) :
    [first, second].Sublist pool.clients := by
  generalize whole : before ++ later = events at run
  induction run generalizing later with
  | start =>
    obtain ⟨rfl, rfl⟩ := List.append_eq_nil_iff.mp whole
    rw [begins.pool_eq] at order
    exact order
  | wait _ _ ih => exact ih stay whole
  | @perform events now pool run operation timely ih =>
    rcases List.eq_nil_or_concat later with rfl | ⟨rest, last, rfl⟩
    · have same := (run.perform operation timely).pool_eq
      rw [← whole, List.append_nil, ← begins.pool_eq] at same
      rwa [same]
    · rw [List.concat_eq_append, ← List.append_assoc] at whole
      obtain ⟨cut, own⟩ := List.append_inj' whole rfl
      obtain rfl := List.singleton_inj.mp own
      rw [List.concat_eq_append] at stay
      have earlierOrder := ih (fun event member => stay event (List.mem_append_left _ member)) cut
      obtain ⟨firstStays, secondStays⟩ := stay _ (List.mem_append_right _ (List.mem_singleton_self _))
      obtain ⟨clients, represents, _⟩ := run.punctual
      obtain ⟨next, evolves, after⟩ := represents.perform operation
      have shown : pool.clients = clients := represents.shows.forward.2
      have shownNext : (pool.perform operation).2.clients = next := after.shows.forward.2
      rw [shown] at earlierOrder
      rw [shownNext]
      exact evolves.sublist now earlierOrder firstStays secondStays

end PoolRun

end ChessArbiter
