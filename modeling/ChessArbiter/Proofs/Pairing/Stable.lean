import ChessArbiter.Proofs.Pairing.Greedy

/-! # What determines the pairs

`StablePairs` says of a list of pairs which choices it reflects, without saying how they are made: every
pair is the best that its first client could have had when its turn came, the earlier opponent where two
are equally good, and whoever is left over found nobody near enough. The conditions are taken apart at the
head of the queue: of a head that is paired they say that it has the best opponent, of one that is not
that everybody is too far away, and of the rest what they say of a queue from which more has been taken.
That is what each greedy choice is about, so the greedy pairs and no others meet them.
-/

namespace ChessArbiter

open WaitingPool

/-- At the turn of a client the other one is free: it has not been taken before, and it is in no pair
whose first client stands before the one whose turn it is. -/
def FreeUntil (taken : List ClientKey) (queued : List QueuedClient) (pairs : List (Pairing Rat))
    (turn other : QueuedClient) : Prop :=
  other.key ∉ taken ∧
    ∀ pairing ∈ pairs, [pairing.first, turn].Sublist queued → other.key ∉ pairing.keys

/-- No opponent that was free at the turn of the pair's first client would have been cheaper, and none
that stands before the second would have been as cheap. -/
def Unbeaten (now : Instant) (taken : List ClientKey) (queued : List QueuedClient)
    (pairs : List (Pairing Rat)) (pairing : Pairing Rat) : Prop :=
  ∀ other, [pairing.first, other].Sublist queued →
    FreeUntil taken queued pairs pairing.first other →
      pairing.weight ≤ pairingWeight pairing.first other now ∧
        ([other, pairing.second].Sublist queued →
          pairing.weight < pairingWeight pairing.first other now)

/-- Everybody who was free at the client's turn is too far from it. -/
def Unmatched (threshold : Rat) (now : Instant) (taken : List ClientKey)
    (queued : List QueuedClient) (pairs : List (Pairing Rat)) (client : QueuedClient) : Prop :=
  ∀ other, [client, other].Sublist queued → FreeUntil taken queued pairs client other →
    threshold < pairingWeight client other now

/-- The pairs among queued clients, some of whom have been taken before, reflect nothing but the best
choice of each client in turn. -/
structure StablePairs (threshold : Rat) (now : Instant) (taken : List ClientKey)
    (queued : List QueuedClient) (pairs : List (Pairing Rat)) : Prop where
  untaken : ∀ key ∈ Pairing.keysOf pairs, key ∉ taken
  /-- Nobody is paired twice. -/
  once : (Pairing.keysOf pairs).Nodup
  /-- The first of a pair stands before the second. -/
  ahead : ∀ pairing ∈ pairs, [pairing.first, pairing.second].Sublist queued
  /-- The pairs come in the order of their first clients. -/
  ordered : (pairs.map Pairing.first).Sublist queued
  near : ∀ pairing ∈ pairs, pairing.weight = pairingWeight pairing.first pairing.second now ∧
    pairing.weight ≤ threshold
  best : ∀ pairing ∈ pairs, Unbeaten now taken queued pairs pairing
  leftover : ∀ client ∈ queued, client.key ∉ taken ++ Pairing.keysOf pairs →
    Unmatched threshold now taken queued pairs client

namespace Pairing

variable {α : Type} {pairing : Pairing α} {pairs : List (Pairing α)}

theorem keysOf_cons :
    keysOf (pairing :: pairs) = pairing.first.key :: pairing.second.key :: keysOf pairs := rfl

theorem first_mem_keysOf (member : pairing ∈ pairs) : pairing.first.key ∈ keysOf pairs :=
  List.mem_flatMap.mpr ⟨pairing, member, List.mem_cons_self⟩

end Pairing

section Order

variable {client first second : QueuedClient} {rest : List QueuedClient}

/-- Whoever stands behind somebody is not the head of the queue. -/
theorem mem_of_behind (order : [first, second].Sublist (client :: rest)) : second ∈ rest := by
  rcases List.cons_sublist_cons'.mp order with behind | ⟨_, behind⟩
  · exact behind.subset (List.mem_cons_of_mem _ List.mem_cons_self)
  · exact List.singleton_sublist.mp behind

/-- Two clients of whom the first is not the head stand in the same order without the head. -/
theorem behind_of_ne (order : [first, second].Sublist (client :: rest)) (other : first ≠ client) :
    [first, second].Sublist rest := by
  rcases List.cons_sublist_cons'.mp order with behind | ⟨same, _⟩
  · exact behind
  · exact absurd same other

/-- Everybody else stands behind the head of the queue. -/
theorem behind_head (member : second ∈ rest) : [client, second].Sublist (client :: rest) :=
  (List.singleton_sublist.mpr member).cons_cons _

/-- In a queue with distinct keys nobody has the key of the head but the head. -/
theorem unrepeated_of_distinct (distinct : (keysOf (client :: rest)).Nodup) :
    ∀ other ∈ rest, other.key ≠ client.key :=
  fun _ member same => (List.nodup_cons.mp distinct).1 (List.mem_map.mpr ⟨_, member, same⟩)

/-- Two clients that have not been taken stand in the same order among those that have not. -/
theorem untaken_order {taken : List ClientKey} {queued : List QueuedClient}
    (order : [first, second].Sublist queued) (firstFree : first.key ∉ taken)
    (secondFree : second.key ∉ taken) : [first, second].Sublist (untaken taken queued) := by
  have kept := order.filter fun client => !taken.contains client.key
  rw [List.filter_cons_of_pos (by simpa using firstFree),
    List.filter_cons_of_pos (by simpa using secondFree)] at kept
  exact kept

end Order

namespace EarliestLeast

variable {candidate opponent other : QueuedClient} {now : Instant} {opponents : List QueuedClient}
  {weight otherWeight : Rat}

/-- Nobody that stands before the best opponent is as cheap. -/
theorem cheaper (best : EarliestLeast candidate now opponents opponent weight)
    (distinct : opponents.Nodup) (order : [other, opponent].Sublist opponents) :
    weight < pairingWeight candidate other now := by
  obtain ⟨front, back, rfl, ahead, _⟩ := best.cut
  obtain ⟨_, behind, _⟩ := List.nodup_append.mp distinct
  apply ahead
  obtain ⟨early, late, split, earlyIn, lateIn⟩ := List.sublist_append_iff.mp order
  cases early with
  | nil =>
    -- both would stand behind the front, so that the best opponent stood behind itself
    obtain rfl : [other, opponent] = late := split
    exact absurd (mem_of_behind lateIn) (List.nodup_cons.mp behind).1
  | cons first early =>
    obtain ⟨rfl, _⟩ := List.cons.inj split
    exact earlyIn.subset List.mem_cons_self

/-- The best opponent is known by being cheapest, and cheaper than all before it. -/
theorem of_least (member : opponent ∈ opponents)
    (weight_eq : weight = pairingWeight candidate opponent now)
    (least : ∀ other ∈ opponents, weight ≤ pairingWeight candidate other now)
    (earliest : ∀ other, [other, opponent].Sublist opponents →
      weight < pairingWeight candidate other now) :
    EarliestLeast candidate now opponents opponent weight := by
  obtain ⟨front, back, rfl⟩ := List.append_of_mem member
  refine ⟨weight_eq, front, back, rfl, ?_, ?_⟩
  · intro other inFront
    exact earliest other ((List.singleton_sublist.mpr inFront).append
      (List.singleton_sublist.mpr List.mem_cons_self))
  · intro other inBack
    exact least other (List.mem_append_right _ (List.mem_cons_of_mem _ inBack))

end EarliestLeast

namespace FreeUntil

variable {taken : List ClientKey} {client opponent turn other : QueuedClient}
  {rest : List QueuedClient} {pairs : List (Pairing Rat)} {weight : Rat}

theorem head_iff (unrepeated : client ∉ rest) :
    FreeUntil taken (client :: rest) pairs client other ↔ other.key ∉ taken :=
  ⟨And.left, fun free => ⟨free, fun _ _ order => absurd (mem_of_behind order) unrepeated⟩⟩

/-- A head that is the first of no pair takes nobody. -/
theorem cons_iff (unpaired : ∀ pairing ∈ pairs, pairing.first ≠ client) :
    FreeUntil taken (client :: rest) pairs turn other ↔ FreeUntil taken rest pairs turn other := by
  refine and_congr_right fun _ => forall₂_congr fun pairing member => ?_
  exact imp_congr_left ⟨fun order => behind_of_ne order (unpaired pairing member),
    fun order => order.cons _⟩

/-- For whoever stands behind it, a head that is paired takes itself and its opponent. -/
theorem pair_iff (unpaired : ∀ pairing ∈ pairs, pairing.first ≠ client) (behind : turn ∈ rest) :
    FreeUntil taken (client :: rest) (⟨client, opponent, weight⟩ :: pairs) turn other ↔
      FreeUntil (client.key :: opponent.key :: taken) rest pairs turn other := by
  have tail : FreeUntil taken (client :: rest) pairs turn other ↔
      FreeUntil taken rest pairs turn other := cons_iff unpaired
  have head : other.key ∉ [client.key, opponent.key] ↔
      other.key ≠ client.key ∧ other.key ≠ opponent.key := by simp
  rw [FreeUntil] at tail
  rw [FreeUntil, List.forall_mem_cons, Pairing.keys, forall_prop_of_true (behind_head behind), head,
    and_left_comm, tail]
  simp only [FreeUntil, List.mem_cons, not_or, and_assoc, ne_eq]

end FreeUntil

section Head

variable {threshold : Rat} {now : Instant} {taken more : List ClientKey}
  {client opponent turn : QueuedClient} {rest : List QueuedClient} {pairs later : List (Pairing Rat)}
  {pairing : Pairing Rat} {weight : Rat}

/-- Behind the head a pair is judged as it is in the rest of the queue, if the same clients are free. -/
theorem unbeaten_cons_iff (unrepeated : client ∉ rest) (other : pairing.first ≠ client)
    (same : ∀ other, FreeUntil taken (client :: rest) pairs pairing.first other ↔
      FreeUntil more rest later pairing.first other) :
    Unbeaten now taken (client :: rest) pairs pairing ↔ Unbeaten now more rest later pairing := by
  constructor
  · intro unbeaten opponent order free
    obtain ⟨least, earlier⟩ := unbeaten opponent (order.cons _) ((same opponent).mpr free)
    exact ⟨least, fun before => earlier (before.cons _)⟩
  · intro unbeaten opponent order free
    obtain ⟨least, earlier⟩ := unbeaten opponent (behind_of_ne order other) ((same opponent).mp free)
    have behind : opponent ≠ client := fun head => unrepeated (head ▸ mem_of_behind order)
    exact ⟨least, fun before => earlier (behind_of_ne before behind)⟩

/-- The pair of the head is unbeaten if the second is the best of those that are still free. -/
theorem unbeaten_head_iff (distinct : (keysOf (client :: rest)).Nodup)
    (member : opponent ∈ untaken taken rest) (weight_eq : weight = pairingWeight client opponent now) :
    Unbeaten now taken (client :: rest) pairs ⟨client, opponent, weight⟩ ↔
      EarliestLeast client now (untaken taken rest) opponent weight := by
  have unrepeated : client ∉ rest := fun member => unrepeated_of_distinct distinct client member rfl
  constructor
  · intro unbeaten
    have judged (other : QueuedClient) (free : other ∈ untaken taken rest) :=
      unbeaten other (behind_head (mem_untaken.mp free).1)
        ((FreeUntil.head_iff unrepeated).mpr (mem_untaken.mp free).2)
    refine .of_least member weight_eq (fun other free => (judged other free).1) ?_
    intro other order
    exact (judged other (order.subset List.mem_cons_self)).2
      ((order.trans List.filter_sublist).cons _)
  · intro best other order free
    have free : other.key ∉ taken := (FreeUntil.head_iff unrepeated).mp free
    have behind : other ∈ rest := mem_of_behind order
    refine ⟨best.least other (mem_untaken.mpr ⟨behind, free⟩), fun before => ?_⟩
    have notHead : other ≠ client := fun head => unrepeated (head ▸ behind)
    have rest_nodup : rest.Nodup := (List.nodup_cons.mp distinct).2.of_map
    exact best.cheaper (rest_nodup.filter _)
      (untaken_order (behind_of_ne before notHead) free (mem_untaken.mp member).2)

/-- Behind the head a client is judged as it is in the rest of the queue, if the same clients are
free. -/
theorem unmatched_cons_iff (unrepeated : client ∉ rest) (behind : turn ∈ rest)
    (same : ∀ other, FreeUntil taken (client :: rest) pairs turn other ↔
      FreeUntil more rest later turn other) :
    Unmatched threshold now taken (client :: rest) pairs turn ↔
      Unmatched threshold now more rest later turn := by
  have other : turn ≠ client := fun head => unrepeated (head ▸ behind)
  constructor
  · intro unmatched opponent order free
    exact unmatched opponent (order.cons _) ((same opponent).mpr free)
  · intro unmatched opponent order free
    exact unmatched opponent (behind_of_ne order other) ((same opponent).mp free)

namespace StablePairs

/-- Whoever has been taken before is the first of no pair. -/
theorem first_ne_of_taken (stable : StablePairs threshold now taken rest pairs)
    (isTaken : client.key ∈ taken) : ∀ pairing ∈ pairs, pairing.first ≠ client := by
  rintro pairing member rfl
  exact stable.untaken _ (Pairing.first_mem_keysOf member) isTaken

/-- The head of the queue with its best opponent goes before the pairs among the rest with the two
taken. -/
theorem pair (distinct : (keysOf (client :: rest)).Nodup) (isFree : client.key ∉ taken)
    (near : weight ≤ threshold)
    (best : EarliestLeast client now (ChessArbiter.untaken taken rest) opponent weight)
    (stable : StablePairs threshold now (client.key :: opponent.key :: taken) rest pairs) :
    StablePairs threshold now taken (client :: rest) (⟨client, opponent, weight⟩ :: pairs) := by
  have unrepeated := unrepeated_of_distinct distinct
  have notBehind : client ∉ rest := fun member => unrepeated client member rfl
  obtain ⟨behind, opponentFree⟩ := mem_untaken.mp best.mem
  have free (key : ClientKey) (paired : key ∈ Pairing.keysOf pairs) :
      key ≠ client.key ∧ key ≠ opponent.key ∧ key ∉ taken := by
    simpa using stable.untaken key paired
  have isTaken : client.key ∈ client.key :: opponent.key :: taken := List.mem_cons_self
  have unpaired := stable.first_ne_of_taken isTaken
  have firstBehind (pairing : Pairing Rat) (member : pairing ∈ pairs) : pairing.first ∈ rest :=
    stable.ordered.subset (List.mem_map_of_mem member)
  exact
    { untaken := by
        rw [Pairing.keysOf_cons, List.forall_mem_cons, List.forall_mem_cons]
        exact ⟨isFree, opponentFree, fun key paired => (free key paired).2.2⟩
      once := by
        simp only [Pairing.keysOf_cons, List.nodup_cons, List.mem_cons, not_or]
        exact ⟨⟨(unrepeated opponent behind).symm, fun paired => (free _ paired).1 rfl⟩,
          fun paired => (free _ paired).2.1 rfl, stable.once⟩
      ahead := List.forall_mem_cons.mpr ⟨behind_head behind,
        fun pairing member => (stable.ahead pairing member).cons _⟩
      ordered := stable.ordered.cons_cons _
      near := List.forall_mem_cons.mpr ⟨⟨best.weight_eq, near⟩, stable.near⟩
      best := List.forall_mem_cons.mpr
        ⟨(unbeaten_head_iff distinct best.mem best.weight_eq).mpr best,
          fun pairing member => (unbeaten_cons_iff notBehind (unpaired pairing member)
            fun _ => FreeUntil.pair_iff unpaired (firstBehind pairing member)).mpr
              (stable.best pairing member)⟩
      leftover := by
        intro turn member leftover
        have leftover : (turn.key ≠ client.key ∧ turn.key ≠ opponent.key ∧ turn.key ∉ taken) ∧
            turn.key ∉ Pairing.keysOf pairs := by
          rw [Pairing.keysOf_cons] at leftover
          simpa [and_assoc, and_comm, and_left_comm] using leftover
        rcases List.mem_cons.mp member with rfl | behind
        · exact absurd rfl leftover.1.1
        · exact (unmatched_cons_iff notBehind behind fun _ => FreeUntil.pair_iff unpaired behind).mpr
            (stable.leftover turn behind (by simpa [and_assoc] using leftover)) }

end StablePairs

end Head

end ChessArbiter
