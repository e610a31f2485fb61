import Std.Data.ExtTreeMap
import ChessArbiter.Client

/-! # The waiting pool

Clients wait in a list whose nodes name their neighbours and are found by key, so that a client can
be taken out of the middle without a search. Clients that join stand at the end; one that returns
stands behind all who joined no later. Following the links terminates because no more steps are
taken than there are nodes.
-/

namespace ChessArbiter

inductive PoolError where
  | alreadyQueued
  | notQueued
deriving DecidableEq

namespace PoolError

/-- What the pool says of its own nodes. -/
def message : PoolError → String
  | .alreadyQueued => "Client is already queued"
  | .notQueued => "Client is not queued"

/-- What a client is told that joins or leaves. -/
def clientMessage : PoolError → String
  | .alreadyQueued => "Client is already in the matchmaking queue"
  | .notQueued => "Client is not in the matchmaking queue"

end PoolError

/-- A waiting client and the keys of its neighbours. -/
structure PoolNode where
  client : QueuedClient
  previous : Option ClientKey
  next : Option ClientKey
deriving DecidableEq

structure WaitingPool where
  nodes : Std.ExtTreeMap ClientKey PoolNode
  head : Option ClientKey
  tail : Option ClientKey

namespace WaitingPool

def empty : WaitingPool :=
  ⟨∅, none, none⟩

def size (pool : WaitingPool) : Nat :=
  pool.nodes.size

def isEmpty (pool : WaitingPool) : Bool :=
  pool.nodes.isEmpty

def contains (pool : WaitingPool) (key : ClientKey) : Bool :=
  pool.nodes.contains key

def node? (pool : WaitingPool) (key : ClientKey) : Option PoolNode :=
  pool.nodes[key]?

/-- The node that a link leads to. -/
def follow (pool : WaitingPool) (link : Option ClientKey) : Option PoolNode :=
  link.bind pool.node?

def headNode? (pool : WaitingPool) : Option PoolNode :=
  pool.follow pool.head

def tailNode? (pool : WaitingPool) : Option PoolNode :=
  pool.follow pool.tail

/-- The pool with the link behind the given place changed: the node's own, or the head where there
is no such node. -/
def linkBehind (pool : WaitingPool) (place target : Option ClientKey) : WaitingPool :=
  match place.bind fun key => (pool.node? key).map fun node => (key, node) with
  | some (key, node) => { pool with nodes := pool.nodes.insert key { node with next := target } }
  | none => { pool with head := target }

/-- The pool with the link in front of the given place changed: the node's own, or the tail where
there is no such node. -/
def linkAhead (pool : WaitingPool) (place target : Option ClientKey) : WaitingPool :=
  match place.bind fun key => (pool.node? key).map fun node => (key, node) with
  | some (key, node) =>
    { pool with nodes := pool.nodes.insert key { node with previous := target } }
  | none => { pool with tail := target }

/-- Adds a client at the end. -/
def add (pool : WaitingPool) (client : QueuedClient) : Except PoolError WaitingPool :=
  if pool.contains client.key then .error .alreadyQueued
  else
    let linked := pool.linkBehind pool.tail (some client.key)
    .ok { linked with
      tail := some client.key
      nodes := linked.nodes.insert client.key ⟨client, pool.tail, none⟩ }

/-- The last client, from the given link backward, that joined no later than the given instant. -/
def anchor (pool : WaitingPool) (joinedAt : Instant) : Nat → Option ClientKey → Option ClientKey
  | 0, _ => none
  | steps + 1, link =>
    match pool.follow link with
    | none => none
    | some node =>
      if node.client.joinedAt ≤ joinedAt then some node.client.key
      else pool.anchor joinedAt steps node.previous

/-- Adds a client behind all who joined no later than it did. -/
def insert (pool : WaitingPool) (client : QueuedClient) : Except PoolError WaitingPool :=
  if pool.contains client.key then .error .alreadyQueued
  else
    let previous := pool.anchor client.joinedAt pool.size pool.tail
    let next := match previous with
      | some key => (pool.node? key).bind (·.next)
      | none => pool.head
    let linked :=
      (pool.linkBehind previous (some client.key)).linkAhead next (some client.key)
    .ok { linked with nodes := linked.nodes.insert client.key ⟨client, previous, next⟩ }

/-- Takes a client out and gives its node as it was. -/
def remove (pool : WaitingPool) (key : ClientKey) : Except PoolError (PoolNode × WaitingPool) :=
  match pool.node? key with
  | none => .error .notQueued
  | some node =>
    let rest := { pool with nodes := pool.nodes.erase key }
    .ok (node, (rest.linkBehind node.previous node.next).linkAhead node.next node.previous)

/-- The nodes reached from a link by at most so many steps, by the link that each names. -/
def trail (pool : WaitingPool) (link : PoolNode → Option ClientKey) :
    Nat → Option ClientKey → List PoolNode
  | 0, _ => []
  | steps + 1, start =>
    match pool.follow start with
    | none => []
    | some node => node :: pool.trail link steps (link node)

/-- The nodes from head to tail. -/
def walk (pool : WaitingPool) : List PoolNode :=
  pool.trail (·.next) pool.size pool.head

/-- The nodes from tail to head. -/
def walkBack (pool : WaitingPool) : List PoolNode :=
  pool.trail (·.previous) pool.size pool.tail

/-- The waiting clients in order. -/
def clients (pool : WaitingPool) : List QueuedClient :=
  pool.walk.map (·.client)

end WaitingPool

end ChessArbiter
