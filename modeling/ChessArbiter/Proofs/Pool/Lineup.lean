import Mathlib.Data.List.Induction
import ChessArbiter.Proofs.Pool.Traversal

/-! # The lineup of the pool

Whatever is asked of a new pool, it holds a list of clients with distinct keys that changes as
`Evolves` says, and everything that can be seen of the pool is what that list shows (`Shows`): both
ways of following its links end and give the list, and so do its ends, its size and its nodes.
-/

namespace ChessArbiter

/-- What can be asked of the pool. -/
inductive PoolOperation where
  | add (client : QueuedClient)
  | insert (client : QueuedClient)
  | remove (key : ClientKey)

/-- What the pool answers: an error, or the node of the client that it took out, if it was asked to
take one out. -/
abbrev PoolAnswer := Except PoolError (Option PoolNode)

namespace WaitingPool

/-- The answer of the pool, and the pool after it. -/
def perform (pool : WaitingPool) : PoolOperation → PoolAnswer × WaitingPool
  | .add client =>
    match pool.add client with
    | .ok after => (.ok none, after)
    | .error error => (.error error, pool)
  | .insert client =>
    match pool.insert client with
    | .ok after => (.ok none, after)
    | .error error => (.error error, pool)
  | .remove key =>
    match pool.remove key with
    | .ok (node, after) => (.ok (some node), after)
    | .error error => (.error error, pool)

/-- The answers to operations one after the other, and the pool after them. -/
def performAll (pool : WaitingPool) : List PoolOperation → List PoolAnswer × WaitingPool
  | [] => ([], pool)
  | operation :: rest =>
    let (answer, after) := pool.perform operation
    let (answers, last) := after.performAll rest
    (answer :: answers, last)

end WaitingPool

open WaitingPool

/-- How an operation changes the list of waiting clients, and what it answers. -/
inductive Evolves (clients : List QueuedClient) :
    PoolOperation → PoolAnswer → List QueuedClient → Prop
  | added (client : QueuedClient) (isNew : client.key ∉ keysOf clients) :
      Evolves clients (.add client) (.ok none) (clients ++ [client])
  /-- Behind the last client that joined no later, at the front where there is none. -/
  | inserted (client : QueuedClient) (isNew : client.key ∉ keysOf clients)
      (front back : List QueuedClient) (cut : clients = front ++ back)
      (behind : ∀ last ∈ front.getLast?, last.joinedAt ≤ client.joinedAt)
      (ahead : ∀ later ∈ back, ¬ later.joinedAt ≤ client.joinedAt) :
      Evolves clients (.insert client) (.ok none) (front ++ client :: back)
  | removed (front : List QueuedClient) (client : QueuedClient) (back : List QueuedClient)
      (cut : clients = front ++ client :: back) :
      Evolves clients (.remove client.key) (.ok (some ⟨client, lastKey front, firstKey back⟩))
        (front ++ back)
  | addRefused (client : QueuedClient) (queued : client.key ∈ keysOf clients) :
      Evolves clients (.add client) (.error .alreadyQueued) clients
  | insertRefused (client : QueuedClient) (queued : client.key ∈ keysOf clients) :
      Evolves clients (.insert client) (.error .alreadyQueued) clients
  | removeRefused (key : ClientKey) (unqueued : key ∉ keysOf clients) :
      Evolves clients (.remove key) (.error .notQueued) clients

/-- How operations one after the other change the list, and what they answer. -/
inductive Lineup :
    List QueuedClient → List PoolOperation → List PoolAnswer → List QueuedClient → Prop
  | start {clients : List QueuedClient} : Lineup clients [] [] clients
  | step {clients next last : List QueuedClient} {operation : PoolOperation} {answer : PoolAnswer}
      {operations : List PoolOperation} {answers : List PoolAnswer}
      (evolves : Evolves clients operation answer next)
      (rest : Lineup next operations answers last) :
      Lineup clients (operation :: operations) (answer :: answers) last

namespace WaitingPool

variable {pool : WaitingPool} {front back clients : List QueuedClient} {client : QueuedClient}
  {key : ClientKey}

/-- The pool with a client linked in between two keys. -/
def splice (pool : WaitingPool) (client : QueuedClient) (previous next : Option ClientKey) :
    WaitingPool :=
  let linked := (pool.linkBehind previous (some client.key)).linkAhead next (some client.key)
  { linked with nodes := linked.nodes.insert client.key ⟨client, previous, next⟩ }

namespace Represents

/-- A client is found with the keys of its neighbours. -/
theorem node?_eq (represents : Represents pool (front ++ client :: back)) :
    pool.node? client.key = some ⟨client, lastKey front, firstKey back⟩ := by
  obtain ⟨_, _ | ⟨found, _⟩⟩ := Linked.append_iff.mp represents.linked
  rw [Option.or_none, Option.or_none] at found
  exact found

theorem node?_isSome_iff (represents : Represents pool clients) :
    (pool.node? key).isSome ↔ key ∈ keysOf clients := by
  constructor
  · intro found
    by_cases member : key ∈ keysOf clients
    · exact member
    · rw [represents.absent key member] at found
      cases found
  · intro member
    obtain ⟨client, inside, rfl⟩ := List.mem_map.mp member
    obtain ⟨front, back, rfl⟩ := List.append_of_mem inside
    rw [represents.node?_eq]
    rfl

theorem contains_iff (represents : Represents pool clients) :
    pool.contains key = true ↔ key ∈ keysOf clients := by
  rw [← represents.node?_isSome_iff, WaitingPool.contains,
    Std.ExtTreeMap.contains_eq_isSome_getElem?]
  rfl

/-- No other key has a node. -/
theorem keys_perm (represents : Represents pool clients) :
    pool.nodes.keys.Perm (keysOf clients) := by
  refine (List.perm_ext_iff_of_nodup Std.ExtTreeMap.nodup_keys represents.distinct).mpr ?_
  intro key
  rw [Std.ExtTreeMap.mem_keys, ← Std.ExtTreeMap.contains_iff_mem]
  exact represents.contains_iff

theorem size_eq (represents : Represents pool clients) : pool.size = clients.length := by
  rw [WaitingPool.size, ← Std.ExtTreeMap.length_keys, represents.keys_perm.length_eq]
  exact List.length_map _

/-- The links ahead lead from the head through the whole list. -/
theorem traverses_next (represents : Represents pool clients) :
    Traverses pool (·.next) pool.head pool.walk ∧ pool.walk.map (·.client) = clients := by
  obtain ⟨nodes, order, traverses⟩ := represents.linked.traverses_next rfl
  rw [Option.or_none, ← represents.head] at traverses
  have length : nodes.length = pool.size := by
    rw [represents.size_eq, ← order, List.length_map]
  have walked : pool.walk = nodes := traverses.trail_eq (Nat.le_of_eq length)
  rw [walked]
  exact ⟨traverses, order⟩

/-- The links behind lead from the tail through the whole list in reverse order. -/
theorem traverses_previous (represents : Represents pool clients) :
    Traverses pool (·.previous) pool.tail pool.walkBack ∧
      pool.walkBack.map (·.client) = clients.reverse := by
  obtain ⟨nodes, order, traverses⟩ := represents.linked.traverses_previous (.stop rfl)
  rw [Option.or_none, ← represents.tail, List.append_nil] at traverses
  have length : nodes.length = pool.size := by
    rw [represents.size_eq, ← clients.length_reverse, ← order, List.length_map]
  have walked : pool.walkBack = nodes := traverses.trail_eq (Nat.le_of_eq length)
  rw [walked]
  exact ⟨traverses, order⟩

/-- The anchor is the last client of the part in front, where a list is cut by time of joining. -/
theorem anchor_eq (represents : Represents pool (front ++ back)) {joinedAt : Instant}
    (behind : ∀ last ∈ front.getLast?, last.joinedAt ≤ joinedAt)
    (ahead : ∀ later ∈ back, ¬ later.joinedAt ≤ joinedAt) :
    pool.anchor joinedAt pool.size pool.tail = lastKey front := by
  obtain ⟨traverses, order⟩ := represents.traverses_previous
  have length : pool.walkBack.length = pool.size := by
    rw [represents.size_eq, ← (front ++ back).length_reverse, ← order, List.length_map]
  have unfound : back.reverse.find? (fun client => client.joinedAt ≤ joinedAt) = none := by
    simpa using ahead
  rw [traverses.anchor_eq joinedAt (Nat.le_of_eq length), order, List.reverse_append,
    List.find?_append, unfound, Option.none_or, lastKey, ← List.head?_reverse]
  rw [← List.head?_reverse] at behind
  cases reversed : front.reverse with
  | nil => rfl
  | cons last rest =>
    rw [reversed] at behind
    have found := List.find?_cons_of_pos (p := fun client => client.joinedAt ≤ joinedAt) (l := rest)
      (decide_eq_true (behind last rfl))
    exact congrArg (Option.map (·.key)) found

/-- The link that leads out of the part in front leads to the part behind. -/
theorem next_eq (represents : Represents pool (front ++ back)) :
    (match lastKey front with
      | some key => (pool.node? key).bind (·.next)
      | none => pool.head) = firstKey back := by
  rcases List.eq_nil_or_concat front with rfl | ⟨init, last, rfl⟩
  · exact represents.head
  · rw [List.concat_eq_append] at represents ⊢
    rw [List.append_assoc] at represents
    rw [lastKey_concat]
    exact congrArg (·.bind (·.next)) represents.node?_eq

/-- Linking a client in where the list is cut puts it there. -/
theorem splice (represents : Represents pool (front ++ back))
    (isNew : client.key ∉ keysOf (front ++ back)) :
    Represents (pool.splice client (lastKey front) (firstKey back)) (front ++ client :: back) :=
  ((represents.cut.linkBehind _).linkAhead _).putIn isNew

theorem exists_add (represents : Represents pool clients) (isNew : client.key ∉ keysOf clients) :
    ∃ after, pool.add client = .ok after ∧ Represents after (clients ++ [client]) := by
  have absent : ¬ pool.contains client.key = true := mt represents.contains_iff.mp isNew
  have added : pool.add client = .ok (pool.splice client pool.tail none) := if_neg absent
  rw [represents.tail] at added
  rw [← List.append_nil clients] at represents isNew
  exact ⟨_, added, represents.splice isNew⟩

theorem exists_insert (represents : Represents pool (front ++ back))
    (isNew : client.key ∉ keysOf (front ++ back))
    (behind : ∀ last ∈ front.getLast?, last.joinedAt ≤ client.joinedAt)
    (ahead : ∀ later ∈ back, ¬ later.joinedAt ≤ client.joinedAt) :
    ∃ after, pool.insert client = .ok after ∧ Represents after (front ++ client :: back) := by
  have absent : ¬ pool.contains client.key = true := mt represents.contains_iff.mp isNew
  refine ⟨_, ?_, represents.splice isNew⟩
  rw [WaitingPool.insert, if_neg absent, represents.anchor_eq behind ahead]
  exact congrArg (Except.ok ∘ pool.splice client (lastKey front)) represents.next_eq

theorem exists_remove (represents : Represents pool (front ++ client :: back)) :
    ∃ after, pool.remove client.key = .ok (⟨client, lastKey front, firstKey back⟩, after) ∧
      Represents after (front ++ back) := by
  refine ⟨_, ?_, ((represents.takeOut.linkBehind _).linkAhead _).join⟩
  rw [remove, represents.node?_eq]

theorem add_of_queued (represents : Represents pool clients) (queued : client.key ∈ keysOf clients) :
    pool.add client = .error .alreadyQueued :=
  if_pos (represents.contains_iff.mpr queued)

theorem insert_of_queued (represents : Represents pool clients)
    (queued : client.key ∈ keysOf clients) : pool.insert client = .error .alreadyQueued :=
  if_pos (represents.contains_iff.mpr queued)

theorem remove_of_unqueued (represents : Represents pool clients) (unqueued : key ∉ keysOf clients) :
    pool.remove key = .error .notQueued := by
  rw [remove, represents.absent key unqueued]

end Represents

/-- Every list can be cut behind the last client that joined no later than a given instant. -/
theorem exists_cut (clients : List QueuedClient) (joinedAt : Instant) :
    ∃ front back, clients = front ++ back ∧ (∀ last ∈ front.getLast?, last.joinedAt ≤ joinedAt) ∧
      ∀ later ∈ back, ¬ later.joinedAt ≤ joinedAt := by
  induction clients using List.reverseRecOn with
  | nil => exact ⟨[], [], rfl, nofun, nofun⟩
  | append_singleton clients last ih =>
    by_cases noLater : last.joinedAt ≤ joinedAt
    · refine ⟨clients ++ [last], [], (List.append_nil _).symm, ?_, nofun⟩
      rw [List.getLast?_concat]
      rintro _ ⟨rfl⟩
      exact noLater
    · obtain ⟨front, back, rfl, behind, ahead⟩ := ih
      refine ⟨front, back ++ [last], List.append_assoc _ _ _, behind, ?_⟩
      intro later member
      rcases List.mem_append.mp member with inside | isLast
      · exact ahead later inside
      · cases List.mem_singleton.mp isLast
        exact noLater

/-- A pool that holds a list holds, after an operation, the list as that operation changes it. -/
theorem Represents.perform (represents : Represents pool clients) (operation : PoolOperation) :
    ∃ next, Evolves clients operation (pool.perform operation).1 next ∧
      Represents (pool.perform operation).2 next := by
  cases operation with
  | add client =>
    by_cases queued : client.key ∈ keysOf clients
    · simp only [WaitingPool.perform, represents.add_of_queued queued]
      exact ⟨clients, .addRefused client queued, represents⟩
    · obtain ⟨after, added, next⟩ := represents.exists_add queued
      simp only [WaitingPool.perform, added]
      exact ⟨_, .added client queued, next⟩
  | insert client =>
    by_cases queued : client.key ∈ keysOf clients
    · simp only [WaitingPool.perform, represents.insert_of_queued queued]
      exact ⟨clients, .insertRefused client queued, represents⟩
    · obtain ⟨front, back, rfl, behind, ahead⟩ := exists_cut clients client.joinedAt
      obtain ⟨after, inserted, next⟩ := represents.exists_insert queued behind ahead
      simp only [WaitingPool.perform, inserted]
      exact ⟨_, .inserted client queued front back rfl behind ahead, next⟩
  | remove key =>
    by_cases queued : key ∈ keysOf clients
    · obtain ⟨client, member, rfl⟩ := List.mem_map.mp queued
      obtain ⟨front, back, rfl⟩ := List.append_of_mem member
      obtain ⟨after, removed, next⟩ := represents.exists_remove
      simp only [WaitingPool.perform, removed]
      exact ⟨_, .removed front client back rfl, next⟩
    · simp only [WaitingPool.perform, represents.remove_of_unqueued queued]
      exact ⟨clients, .removeRefused key queued, represents⟩

/-- A pool that holds a list holds, after any operations, the list as these change it. -/
theorem Represents.performAll (represents : Represents pool clients)
    (operations : List PoolOperation) :
    ∃ last, Lineup clients operations (pool.performAll operations).1 last ∧
      Represents (pool.performAll operations).2 last := by
  induction operations generalizing pool clients with
  | nil => exact ⟨clients, .start, represents⟩
  | cons operation rest ih =>
    obtain ⟨next, evolves, after⟩ := represents.perform operation
    obtain ⟨last, evolved, final⟩ := ih after
    exact ⟨last, .step evolves evolved, final⟩

/-- Everything that can be seen of a pool is what a list of clients with distinct keys shows. -/
structure Shows (pool : WaitingPool) (clients : List QueuedClient) : Prop where
  distinct : (keysOf clients).Nodup
  /-- The links ahead come to an end and lead through the list, and so does the walk. -/
  forward : Traverses pool (·.next) pool.head pool.walk ∧ pool.walk.map (·.client) = clients
  /-- The links behind come to an end and lead through the list in reverse order. -/
  backward : Traverses pool (·.previous) pool.tail pool.walkBack ∧
    pool.walkBack.map (·.client) = clients.reverse
  head : pool.headNode?.map (·.client) = clients.head?
  tail : pool.tailNode?.map (·.client) = clients.getLast?
  size : pool.size = clients.length
  isEmpty : pool.isEmpty = clients.isEmpty
  contains : ∀ key, pool.contains key = true ↔ key ∈ keysOf clients
  /-- Each client is found under its key, with the keys of its neighbours. -/
  node : ∀ front client back, clients = front ++ client :: back →
    pool.node? client.key = some ⟨client, lastKey front, firstKey back⟩
  keys : pool.nodes.keys.Perm (keysOf clients)

theorem Represents.shows (represents : Represents pool clients) : Shows pool clients where
  distinct := represents.distinct
  forward := represents.traverses_next
  backward := represents.traverses_previous
  head := by
    rw [headNode?, represents.head]
    exact represents.linked.follow_firstKey
  tail := by
    rw [tailNode?, represents.tail]
    exact represents.linked.follow_lastKey
  size := represents.size_eq
  isEmpty := by
    have size := represents.size_eq
    rw [WaitingPool.size] at size
    rw [WaitingPool.isEmpty, Std.ExtTreeMap.isEmpty_eq_size_beq_zero, size]
    cases clients <;> rfl
  contains key := represents.contains_iff
  node front client back cut := by
    subst cut
    exact represents.node?_eq
  keys := represents.keys_perm

/-- Whatever is asked of a new pool, it shows a list that changes as each operation says. Asking for a
client that is queued already to be added or inserted, or for one that is not queued to be taken
out, is refused and leaves the pool exactly as it was. -/
theorem lineup (operations : List PoolOperation) :
    let answers := (empty.performAll operations).1
    let pool := (empty.performAll operations).2
    ∃ clients, Lineup [] operations answers clients ∧ Shows pool clients ∧
      (∀ client, client.key ∈ keysOf clients →
        pool.perform (.add client) = (.error .alreadyQueued, pool) ∧
          pool.perform (.insert client) = (.error .alreadyQueued, pool)) ∧
      ∀ key ∉ keysOf clients, pool.perform (.remove key) = (.error .notQueued, pool) := by
  intro answers pool
  obtain ⟨clients, evolved, represents⟩ := represents_empty.performAll operations
  refine ⟨clients, evolved, represents.shows, ?_, ?_⟩
  · intro client queued
    constructor
    · simp only [pool, WaitingPool.perform, represents.add_of_queued queued]
    · simp only [pool, WaitingPool.perform, represents.insert_of_queued queued]
  · intro key unqueued
    simp only [pool, WaitingPool.perform, represents.remove_of_unqueued unqueued]

/-- A client that returns stands in front of all who joined later, in whatever order these stand. -/
example :
    let client (key : ClientKey) (millis : Int) : QueuedClient := ⟨⟨key, 0, 0, 0⟩, .ofMillis millis⟩
    let operations : List PoolOperation :=
      [.add (client "ada" 1), .add (client "bob" 5), .add (client "cid" 4), .insert (client "dan" 2)]
    (empty.performAll operations).2.clients.map (·.key) = ["ada", "dan", "bob", "cid"] := by
  decide +kernel

end WaitingPool

end ChessArbiter
