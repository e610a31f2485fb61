import ChessArbiter.Proofs.Pool.Represents

/-! # Following the links of the pool

`Traverses` follows a link from node to node without any bound; it holds only if that comes to an end.
Where it does, bounding the number of steps by the number of nodes cuts nothing off, neither from a
walk nor from the search for an anchor.
-/

namespace ChessArbiter.WaitingPool

variable {pool : WaitingPool} {link : PoolNode → Option ClientKey}

/-- Following a link from a start comes to its end after these nodes. -/
inductive Traverses (pool : WaitingPool) (link : PoolNode → Option ClientKey) :
    Option ClientKey → List PoolNode → Prop
  | stop {start : Option ClientKey} (ended : pool.follow start = none) :
      Traverses pool link start []
  | visit {start : Option ClientKey} {node : PoolNode} {nodes : List PoolNode}
      (found : pool.follow start = some node) (rest : Traverses pool link (link node) nodes) :
      Traverses pool link start (node :: nodes)

/-- As many steps as there are nodes on the way reach its end. -/
theorem Traverses.trail_eq {start : Option ClientKey} {nodes : List PoolNode}
    (traverses : Traverses pool link start nodes) {steps : Nat} (enough : nodes.length ≤ steps) :
    pool.trail link steps start = nodes := by
  induction traverses generalizing steps with
  | stop ended =>
    cases steps with
    | zero => rfl
    | succ steps => rw [trail, ended]
  | visit found _ ih =>
    cases steps with
    | zero => cases enough
    | succ steps =>
      rw [trail, found]
      exact congrArg _ (ih (Nat.le_of_succ_le_succ enough))

/-- The anchor is the first client on the way back that joined no later. -/
theorem Traverses.anchor_eq {start : Option ClientKey} {nodes : List PoolNode}
    (traverses : Traverses pool (·.previous) start nodes) (joinedAt : Instant) {steps : Nat}
    (enough : nodes.length ≤ steps) : pool.anchor joinedAt steps start =
      ((nodes.map (·.client)).find? fun client => client.joinedAt ≤ joinedAt).map (·.key) := by
  induction traverses generalizing steps with
  | stop ended =>
    cases steps with
    | zero => rfl
    | succ steps =>
      rw [anchor, ended]
      rfl
  | @visit start node _ found _ ih =>
    cases steps with
    | zero => cases enough
    | succ steps =>
      rw [anchor, found, List.map_cons, List.find?_cons]
      by_cases no : node.client.joinedAt ≤ joinedAt
      · simp [no]
      · simp [no, ih (Nat.le_of_succ_le_succ enough)]

namespace Linked

variable {previous next : Option ClientKey} {clients : List QueuedClient}

/-- The links ahead lead through the clients in order. -/
theorem traverses_next (linked : Linked pool previous clients next)
    (ended : pool.follow next = none) : ∃ nodes, nodes.map (·.client) = clients ∧
      Traverses pool (·.next) ((firstKey clients).or next) nodes := by
  induction linked with
  | nil => exact ⟨[], rfl, .stop ended⟩
  | cons found _ ih =>
    obtain ⟨nodes, order, rest⟩ := ih ended
    exact ⟨_ :: nodes, congrArg _ order, .visit found rest⟩

/-- The links behind lead through the clients in reverse order and on from there. -/
theorem traverses_previous (linked : Linked pool previous clients next) {earlier : List PoolNode}
    (before : Traverses pool (·.previous) previous earlier) :
    ∃ nodes, nodes.map (·.client) = clients.reverse ∧
      Traverses pool (·.previous) ((lastKey clients).or previous) (nodes ++ earlier) := by
  induction linked generalizing earlier with
  | nil => exact ⟨[], rfl, before⟩
  | @cons previous next client rest found _ ih =>
    obtain ⟨nodes, order, traverses⟩ := ih (.visit found before)
    refine ⟨nodes ++ [⟨client, previous, (firstKey rest).or next⟩], ?_, ?_⟩
    · rw [List.map_append, order, List.reverse_cons]
      rfl
    · rw [lastKey_cons, Option.or_assoc, Option.some_or, List.append_assoc]
      exact traverses

end Linked

end ChessArbiter.WaitingPool
