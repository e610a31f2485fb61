import ChessArbiter.Proofs.Lookup
import ChessArbiter.Pool

/-! # The pool as a list

A pool represents a list of clients with distinct keys if its nodes are those of the list, each with
the keys of its neighbours, and its ends are those of the list. `Linked` says this of a part of the
list and of the links that lead out of it on either side. An operation cuts the list in two; `Gap` is
the state of the pool in between, where the links across the cut may lead anywhere, and relinking
sets them.
-/

namespace ChessArbiter

namespace WaitingPool

section Keys

variable {front back clients : List QueuedClient} {client : QueuedClient} {key : ClientKey}

def keysOf (clients : List QueuedClient) : List ClientKey :=
  clients.map (·.key)

def firstKey (clients : List QueuedClient) : Option ClientKey :=
  clients.head?.map (·.key)

def lastKey (clients : List QueuedClient) : Option ClientKey :=
  clients.getLast?.map (·.key)

@[simp] theorem firstKey_cons : firstKey (client :: clients) = some client.key := rfl

@[simp] theorem lastKey_concat : lastKey (clients ++ [client]) = some client.key := by
  simp only [lastKey, List.getLast?_concat, Option.map_some]

theorem firstKey_append : firstKey (front ++ back) = (firstKey front).or (firstKey back) := by
  cases front <;> rfl

theorem lastKey_append : lastKey (front ++ back) = (lastKey back).or (lastKey front) := by
  simp only [lastKey, List.getLast?_append, Option.map_or]

theorem lastKey_cons : lastKey (client :: clients) = (lastKey clients).or (some client.key) := by
  rw [← List.singleton_append, lastKey_append]
  rfl

theorem mem_of_firstKey (first : firstKey clients = some key) : key ∈ keysOf clients := by
  obtain ⟨client, isHead, rfl⟩ := Option.map_eq_some_iff.mp first
  exact List.mem_map_of_mem (List.mem_of_head? isHead)

theorem mem_of_lastKey (last : lastKey clients = some key) : key ∈ keysOf clients := by
  obtain ⟨client, isLast, rfl⟩ := Option.map_eq_some_iff.mp last
  exact List.mem_map_of_mem (List.mem_of_getLast? isLast)

theorem mem_append_iff : key ∈ keysOf (front ++ back) ↔ key ∈ keysOf front ∨ key ∈ keysOf back := by
  rw [keysOf, List.map_append, List.mem_append]
  rfl

theorem distinct_append_iff : (keysOf (front ++ back)).Nodup ↔
    (keysOf front).Nodup ∧ (keysOf back).Nodup ∧ ∀ key ∈ keysOf front, key ∉ keysOf back := by
  simp only [keysOf, List.map_append, List.nodup_append, ne_eq]
  grind

theorem mem_middle_iff : key ∈ keysOf (front ++ client :: back) ↔
    key = client.key ∨ key ∈ keysOf (front ++ back) := by
  simp only [keysOf, List.map_append, List.map_cons, List.mem_append, List.mem_cons]
  exact or_left_comm

theorem distinct_middle_iff : (keysOf (front ++ client :: back)).Nodup ↔
    client.key ∉ keysOf (front ++ back) ∧ (keysOf (front ++ back)).Nodup := by
  have order : (keysOf (front ++ client :: back)).Perm (client.key :: keysOf (front ++ back)) :=
    List.perm_middle.map _
  rw [order.nodup_iff, List.nodup_cons]

end Keys

section Links

variable (pool : WaitingPool) (place target : Option ClientKey)

/-- Changing the node at a place, where there is one, changes no other node. -/
private theorem node?_patched (unpatched : WaitingPool) (same : unpatched.nodes = pool.nodes)
    (change : PoolNode → PoolNode) (key : ClientKey) :
    (match place.bind fun key => (pool.node? key).map fun node => (key, node) with
      | some (key, node) => { pool with nodes := pool.nodes.insert key (change node) }
      | none => unpatched).node? key =
      if place = some key then (pool.node? key).map change else pool.node? key := by
  cases place with
  | none => exact congrArg (·[key]?) same
  | some own =>
    cases found : pool.node? own with
    | none =>
      simp only [Option.bind_some, found, Option.map_none, Option.some.injEq]
      split
      · next here =>
        subst here
        rw [found]
        exact (congrArg (·[own]?) same).trans found
      · exact congrArg (·[key]?) same
    | some node =>
      simp only [Option.bind_some, found, Option.map_some, Option.some.injEq]
      split
      · next here =>
        subst here
        rw [found]
        exact (lookup_insert _ _ _ _).trans (if_pos rfl)
      · next other => exact (lookup_insert _ _ _ _).trans (if_neg other)

theorem node?_linkBehind (key : ClientKey) : (pool.linkBehind place target).node? key =
    if place = some key then (pool.node? key).map fun node => { node with next := target }
    else pool.node? key :=
  pool.node?_patched place { pool with head := target } rfl _ key

theorem node?_linkAhead (key : ClientKey) : (pool.linkAhead place target).node? key =
    if place = some key then (pool.node? key).map fun node => { node with previous := target }
    else pool.node? key :=
  pool.node?_patched place { pool with tail := target } rfl _ key

/-- Where there is no node at the place, the head is what leads to the list behind it. -/
theorem head_linkBehind : (pool.linkBehind place target).head =
    if (pool.follow place).isSome then pool.head else target := by
  unfold linkBehind follow
  cases place with
  | none => rfl
  | some own => cases found : pool.node? own <;> simp [found]

@[simp] theorem tail_linkBehind : (pool.linkBehind place target).tail = pool.tail := by
  unfold linkBehind
  split <;> rfl

@[simp] theorem head_linkAhead : (pool.linkAhead place target).head = pool.head := by
  unfold linkAhead
  split <;> rfl

/-- Where there is no node at the place, the tail is what leads to the list in front of it. -/
theorem tail_linkAhead : (pool.linkAhead place target).tail =
    if (pool.follow place).isSome then pool.tail else target := by
  unfold linkAhead follow
  cases place with
  | none => rfl
  | some own => cases found : pool.node? own <;> simp [found]

end Links

/-- The nodes of the given clients name each other in order. The first names one key before it, the
last another behind it. -/
inductive Linked (pool : WaitingPool) :
    Option ClientKey → List QueuedClient → Option ClientKey → Prop
  | nil {previous next : Option ClientKey} : Linked pool previous [] next
  | cons {previous next : Option ClientKey} {client : QueuedClient} {rest : List QueuedClient}
      (found : pool.node? client.key = some ⟨client, previous, (firstKey rest).or next⟩)
      (linked : Linked pool (some client.key) rest next) : Linked pool previous (client :: rest) next

namespace Linked

variable {pool after : WaitingPool} {previous next : Option ClientKey}
  {front back clients : List QueuedClient}

theorem append_iff : Linked pool previous (front ++ back) next ↔
    Linked pool previous front ((firstKey back).or next) ∧
      Linked pool ((lastKey front).or previous) back next := by
  induction front generalizing previous with
  | nil =>
    constructor
    · intro linked
      exact ⟨.nil, linked⟩
    · rintro ⟨_, linked⟩
      exact linked
  | cons client rest ih =>
    rw [lastKey_cons, Option.or_assoc, Option.some_or, List.cons_append]
    constructor
    · rintro (_ | ⟨found, linked⟩)
      rw [firstKey_append, Option.or_assoc] at found
      obtain ⟨left, right⟩ := ih.mp linked
      exact ⟨.cons found left, right⟩
    · rintro ⟨_ | ⟨found, left⟩, right⟩
      rw [← Option.or_assoc, ← firstKey_append] at found
      exact .cons found (ih.mpr ⟨left, right⟩)

/-- A part of the list stays linked as long as its own nodes stay as they are. -/
theorem frame (linked : Linked pool previous clients next)
    (same : ∀ key ∈ keysOf clients, after.node? key = pool.node? key) :
    Linked after previous clients next := by
  induction linked with
  | nil => exact .nil
  | cons found _ ih =>
    refine .cons ((same _ List.mem_cons_self).trans found) (ih ?_)
    intro key member
    exact same key (List.mem_cons_of_mem _ member)

/-- A part of the list stays linked where no node but that of another client changes. -/
theorem frame_of_outside (linked : Linked pool previous clients next) {changed : ClientKey}
    (outside : changed ∉ keysOf clients)
    (same : ∀ key, changed ≠ key → after.node? key = pool.node? key) :
    Linked after previous clients next := by
  apply linked.frame
  intro key member
  apply same
  rintro rfl
  exact outside member

/-- Linking behind the last client changes the link that leads out there. -/
theorem linkBehind_lastKey (linked : Linked pool previous clients next)
    (distinct : (keysOf clients).Nodup) (target : Option ClientKey) :
    Linked (pool.linkBehind (lastKey clients) target) previous clients target := by
  rcases List.eq_nil_or_concat clients with rfl | ⟨init, last, rfl⟩
  · exact .nil
  · rw [List.concat_eq_append] at linked distinct ⊢
    obtain ⟨left, _ | ⟨found, _⟩⟩ := append_iff.mp linked
    obtain ⟨unrepeated, _⟩ := distinct_middle_iff.mp distinct
    rw [List.append_nil] at unrepeated
    rw [lastKey_concat]
    refine append_iff.mpr ⟨left.frame_of_outside unrepeated ?_, .cons ?_ .nil⟩
    · intro key differs
      rw [node?_linkBehind, if_neg (mt Option.some.inj differs)]
    · rw [node?_linkBehind, if_pos rfl, found]
      rfl

/-- Linking in front of the first client changes the link that leads out there. -/
theorem linkAhead_firstKey (linked : Linked pool previous clients next)
    (distinct : (keysOf clients).Nodup) (target : Option ClientKey) :
    Linked (pool.linkAhead (firstKey clients) target) target clients next := by
  cases linked with
  | nil => exact .nil
  | @cons _ _ client rest found linked =>
    obtain ⟨unrepeated, _⟩ := List.nodup_cons.mp distinct
    rw [firstKey_cons]
    refine .cons ?_ (linked.frame_of_outside unrepeated ?_)
    · rw [node?_linkAhead, if_pos rfl, found]
      rfl
    · intro key differs
      rw [node?_linkAhead, if_neg (mt Option.some.inj differs)]

/-- The first key leads to the first client. -/
theorem follow_firstKey (linked : Linked pool previous clients next) :
    (pool.follow (firstKey clients)).map (·.client) = clients.head? := by
  cases linked with
  | nil => rfl
  | cons found _ =>
    rw [firstKey_cons, follow, Option.bind_some, found]
    rfl

/-- The last key leads to the last client. -/
theorem follow_lastKey (linked : Linked pool previous clients next) :
    (pool.follow (lastKey clients)).map (·.client) = clients.getLast? := by
  rcases List.eq_nil_or_concat clients with rfl | ⟨init, last, rfl⟩
  · rfl
  · rw [List.concat_eq_append] at linked ⊢
    obtain ⟨_, _ | ⟨found, _⟩⟩ := append_iff.mp linked
    rw [lastKey_concat, follow, Option.bind_some, found, List.getLast?_concat]
    rfl

end Linked

/-- The pool holds these clients in this order and no others. -/
structure Represents (pool : WaitingPool) (clients : List QueuedClient) : Prop where
  distinct : (keysOf clients).Nodup
  linked : Linked pool none clients none
  head : pool.head = firstKey clients
  tail : pool.tail = lastKey clients
  absent : ∀ key ∉ keysOf clients, pool.node? key = none

/-- The pool holds two lists in order; the one in front leads on to a given key, and the one behind
leads back to another. -/
structure Gap (pool : WaitingPool) (front back : List QueuedClient)
    (next previous : Option ClientKey) : Prop where
  distinct : (keysOf (front ++ back)).Nodup
  leading : Linked pool none front next
  trailing : Linked pool previous back none
  head : pool.head = (firstKey front).or next
  tail : pool.tail = (lastKey back).or previous
  absent : ∀ key ∉ keysOf (front ++ back), pool.node? key = none

section Cut

variable {pool : WaitingPool} {front back : List QueuedClient} {client : QueuedClient}
  {next previous : Option ClientKey}

theorem represents_empty : Represents empty [] where
  distinct := List.nodup_nil
  linked := .nil
  head := rfl
  tail := rfl
  absent _ _ := Std.ExtTreeMap.getElem?_empty

/-- A list that is cut in two leads over the cut. -/
theorem Represents.cut (represents : Represents pool (front ++ back)) :
    Gap pool front back (firstKey back) (lastKey front) := by
  obtain ⟨left, right⟩ := Linked.append_iff.mp represents.linked
  rw [Option.or_none] at left right
  exact ⟨represents.distinct, left, right, represents.head.trans firstKey_append,
    represents.tail.trans lastKey_append, represents.absent⟩

/-- Two lists that lead to each other are one. -/
theorem Gap.join (gap : Gap pool front back (firstKey back) (lastKey front)) :
    Represents pool (front ++ back) where
  distinct := gap.distinct
  linked := Linked.append_iff.mpr
    ⟨by rw [Option.or_none]; exact gap.leading, by rw [Option.or_none]; exact gap.trailing⟩
  head := gap.head.trans firstKey_append.symm
  tail := gap.tail.trans lastKey_append.symm
  absent := gap.absent

/-- Linking behind the list in front changes where that list leads. -/
theorem Gap.linkBehind (gap : Gap pool front back next previous) (target : Option ClientKey) :
    Gap (pool.linkBehind (lastKey front) target) front back target previous := by
  obtain ⟨distinct, _, apart⟩ := distinct_append_iff.mp gap.distinct
  refine ⟨gap.distinct, gap.leading.linkBehind_lastKey distinct target, gap.trailing.frame ?_, ?_,
    ?_, ?_⟩
  · intro key member
    rw [node?_linkBehind, if_neg]
    intro same
    exact apart key (mem_of_lastKey same) member
  · have led := congrArg Option.isSome gap.leading.follow_lastKey
    rw [Option.isSome_map] at led
    rw [head_linkBehind, led, gap.head]
    cases front with
    | nil => rfl
    | cons => simp
  · rw [tail_linkBehind]
    exact gap.tail
  · intro key outside
    rw [node?_linkBehind, gap.absent key outside, Option.map_none, ite_self]

/-- Linking in front of the list behind changes where that list leads. -/
theorem Gap.linkAhead (gap : Gap pool front back next previous) (target : Option ClientKey) :
    Gap (pool.linkAhead (firstKey back) target) front back next target := by
  obtain ⟨_, distinct, apart⟩ := distinct_append_iff.mp gap.distinct
  refine ⟨gap.distinct, gap.leading.frame ?_, gap.trailing.linkAhead_firstKey distinct target, ?_,
    ?_, ?_⟩
  · intro key member
    rw [node?_linkAhead, if_neg]
    intro same
    exact apart key member (mem_of_firstKey same)
  · rw [head_linkAhead]
    exact gap.head
  · have led := congrArg Option.isSome gap.trailing.follow_firstKey
    rw [Option.isSome_map] at led
    rw [tail_linkAhead, led, gap.tail]
    rcases List.eq_nil_or_concat back with rfl | ⟨init, last, rfl⟩
    · rfl
    · simp
  · intro key outside
    rw [node?_linkAhead, gap.absent key outside, Option.map_none, ite_self]

/-- Without the node of a client, its neighbours lead to where it was. -/
theorem Represents.takeOut (represents : Represents pool (front ++ client :: back)) :
    Gap { pool with nodes := pool.nodes.erase client.key } front back (some client.key)
      (some client.key) := by
  obtain ⟨_, leading, _ | ⟨_, trailing⟩, head, tail, absent⟩ := represents.cut
  obtain ⟨unrepeated, distinct⟩ := distinct_middle_iff.mp represents.distinct
  obtain ⟨notAhead, notBehind⟩ := not_or.mp (mt mem_append_iff.mpr unrepeated)
  have erased (key : ClientKey) := lookup_erase pool.nodes client.key key
  have kept (key : ClientKey) (differs : client.key ≠ key) := (erased key).trans (if_neg differs)
  refine ⟨distinct, leading.frame_of_outside notAhead kept, trailing.frame_of_outside notBehind kept,
    head, ?_, ?_⟩
  · rw [← lastKey_cons]
    exact tail
  · intro key outside
    by_cases same : client.key = key
    · exact (erased key).trans (if_pos same)
    · refine (kept key same).trans (absent key ?_)
      intro member
      exact (mem_middle_iff.mp member).elim (same ·.symm) outside

/-- A client whose neighbours lead to it already is in the list as soon as it has a node. -/
theorem Gap.putIn (gap : Gap pool front back (some client.key) (some client.key))
    (isNew : client.key ∉ keysOf (front ++ back)) :
    Represents
      { pool with nodes := pool.nodes.insert client.key ⟨client, lastKey front, firstKey back⟩ }
      (front ++ client :: back) := by
  obtain ⟨notAhead, notBehind⟩ := not_or.mp (mt mem_append_iff.mpr isNew)
  have inserted (key : ClientKey) :=
    lookup_insert pool.nodes client.key key ⟨client, lastKey front, firstKey back⟩
  have kept (key : ClientKey) (differs : client.key ≠ key) := (inserted key).trans (if_neg differs)
  refine ⟨distinct_middle_iff.mpr ⟨isNew, gap.distinct⟩, ?_, ?_, ?_, ?_⟩
  · refine Linked.append_iff.mpr ⟨gap.leading.frame_of_outside notAhead kept, ?_⟩
    refine .cons ?_ (gap.trailing.frame_of_outside notBehind kept)
    rw [Option.or_none, Option.or_none]
    exact (inserted client.key).trans (if_pos rfl)
  · rw [firstKey_append]
    exact gap.head
  · rw [lastKey_append, lastKey_cons, Option.or_assoc, Option.some_or]
    exact gap.tail
  · intro key outside
    obtain ⟨other, elsewhere⟩ := not_or.mp (mt mem_middle_iff.mpr outside)
    exact (kept key (Ne.symm other)).trans (gap.absent key elsewhere)

end Cut

end WaitingPool

end ChessArbiter
