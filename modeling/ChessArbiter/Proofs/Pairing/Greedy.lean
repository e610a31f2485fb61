import ChessArbiter.Proofs.Pairing.Weight
import ChessArbiter.Proofs.Pool.Represents

/-! # Greedy pairing

`Greedy` says what happens to each client in turn: it is passed over because it has been taken, left
alone because everybody behind it is too far away, or paired with the best opponent behind it. What the
pairs have in common is shown by induction on it. No two clients that are left over could have been
paired, the earlier with the later; so there is nothing to pair among them.
-/

namespace ChessArbiter

open WaitingPool

/-- The earliest of the opponents that are cheapest to pair with a candidate. -/
structure EarliestLeast (candidate : QueuedClient) (now : Instant) (opponents : List QueuedClient)
    (opponent : QueuedClient) (weight : Rat) : Prop where
  weight_eq : weight = pairingWeight candidate opponent now
  cut : ∃ front back, opponents = front ++ opponent :: back ∧
    (∀ other ∈ front, weight < pairingWeight candidate other now) ∧
    (∀ other ∈ back, weight ≤ pairingWeight candidate other now)

namespace EarliestLeast

variable {candidate opponent : QueuedClient} {now : Instant} {opponents : List QueuedClient}
  {weight : Rat}

theorem mem (best : EarliestLeast candidate now opponents opponent weight) :
    opponent ∈ opponents := by
  obtain ⟨front, back, rfl, _⟩ := best.cut
  exact List.mem_append_right _ List.mem_cons_self

theorem least (best : EarliestLeast candidate now opponents opponent weight) :
    ∀ other ∈ opponents, weight ≤ pairingWeight candidate other now := by
  obtain ⟨front, back, rfl, ahead, behind⟩ := best.cut
  intro other member
  rcases List.mem_append.mp member with inFront | rest
  · exact (ahead other inFront).le
  · rcases List.mem_cons.mp rest with rfl | inBack
    · exact best.weight_eq.le
    · exact behind other inBack

/-- An opponent that is no cheaper does not matter. -/
theorem keep (best : EarliestLeast candidate now opponents opponent weight) {other : QueuedClient}
    (least : weight ≤ pairingWeight candidate other now) :
    EarliestLeast candidate now (opponents ++ [other]) opponent weight := by
  obtain ⟨front, back, rfl, ahead, behind⟩ := best.cut
  refine ⟨best.weight_eq, front, back ++ [other], by simp, ahead, ?_⟩
  intro client member
  rcases List.mem_append.mp member with earlier | last
  · exact behind client earlier
  · cases List.mem_singleton.mp last
    exact least

/-- A cheaper opponent takes the place of the best. -/
theorem replace (best : EarliestLeast candidate now opponents opponent weight) {other : QueuedClient}
    (cheaper : ¬ weight ≤ pairingWeight candidate other now) :
    EarliestLeast candidate now (opponents ++ [other]) other (pairingWeight candidate other now) := by
  refine ⟨rfl, opponents, [], rfl, ?_, List.forall_mem_nil _⟩
  intro client member
  exact (lt_of_not_ge cheaper).trans_le (best.least client member)

end EarliestLeast

/-- The best opponent is the earliest of least weight; there is none only among nobody. -/
theorem bestOpponent_spec (candidate : QueuedClient) (opponents : List QueuedClient)
    (now : Instant) :
    (bestOpponent candidate opponents now : Option (QueuedClient × Rat)).elim (opponents = [])
      fun best => EarliestLeast candidate now opponents best.1 best.2 := by
  induction opponents using List.reverseRecOn with
  | nil => rfl
  | append_singleton opponents other ih =>
    have folded : (bestOpponent candidate (opponents ++ [other]) now : Option (_ × Rat)) =
        betterOpponent candidate now (bestOpponent candidate opponents now) other := by
      rw [bestOpponent, List.foldl_append]
      rfl
    rw [folded]
    cases found : (bestOpponent candidate opponents now : Option (_ × Rat)) with
    | none =>
      rw [found] at ih
      obtain rfl : opponents = [] := ih
      exact ⟨rfl, [], [], rfl, List.forall_mem_nil _, List.forall_mem_nil _⟩
    | some best =>
      rw [found] at ih
      have best : EarliestLeast candidate now opponents best.1 best.2 := ih
      unfold betterOpponent
      dsimp only
      split
      · next least => exact best.keep least
      · next cheaper => exact best.replace cheaper

/-- The clients whose keys have not been taken. -/
def untaken (taken : List ClientKey) (clients : List QueuedClient) : List QueuedClient :=
  clients.filter fun client => !taken.contains client.key

theorem mem_untaken {taken : List ClientKey} {clients : List QueuedClient} {client : QueuedClient} :
    client ∈ untaken taken clients ↔ client ∈ clients ∧ client.key ∉ taken := by
  simp [untaken]

theorem untaken_nil (clients : List QueuedClient) : untaken [] clients = clients :=
  List.filter_eq_self.mpr fun _ _ => rfl

theorem untaken_append (taken more : List ClientKey) (clients : List QueuedClient) :
    untaken (taken ++ more) clients = untaken more (untaken taken clients) := by
  rw [untaken, untaken, untaken, List.filter_filter]
  apply List.filter_congr
  intro client _
  rw [List.contains_append, Bool.not_or, Bool.and_comm]

/-- Without one of the clients, a list with distinct keys has those on either side. -/
theorem untaken_middle {front back : List QueuedClient} {client : QueuedClient}
    (distinct : (keysOf (front ++ client :: back)).Nodup) :
    untaken [client.key] (front ++ client :: back) = front ++ back := by
  obtain ⟨unrepeated, _⟩ := distinct_middle_iff.mp distinct
  have kept : untaken [client.key] (front ++ back) = front ++ back := by
    apply List.filter_eq_self.mpr
    intro other member
    have differs : other.key ≠ client.key := fun same =>
      unrepeated (same ▸ List.mem_map_of_mem (f := QueuedClient.key) member)
    simpa using differs
  rw [untaken, List.filter_append] at kept ⊢
  rw [List.filter_cons_of_neg (by simp), kept]

namespace Pairing

variable {α : Type}

def keys (pairing : Pairing α) : List ClientKey :=
  [pairing.first.key, pairing.second.key]

/-- The keys of the clients that are paired. -/
def keysOf (pairs : List (Pairing α)) : List ClientKey :=
  pairs.flatMap keys

end Pairing

/-- The clients in order, with the keys that have been taken before, and the pairs that they make. -/
inductive Greedy (threshold : Rat) (now : Instant) :
    List ClientKey → List QueuedClient → List (Pairing Rat) → Prop
  | nil {taken : List ClientKey} : Greedy threshold now taken [] []
  | skip {taken : List ClientKey} {client : QueuedClient} {rest : List QueuedClient}
      {pairs : List (Pairing Rat)} (isTaken : client.key ∈ taken)
      (greedy : Greedy threshold now taken rest pairs) :
      Greedy threshold now taken (client :: rest) pairs
  | leave {taken : List ClientKey} {client : QueuedClient} {rest : List QueuedClient}
      {pairs : List (Pairing Rat)} (isFree : client.key ∉ taken)
      (tooFar : ∀ other ∈ untaken taken rest, threshold < pairingWeight client other now)
      (greedy : Greedy threshold now taken rest pairs) :
      Greedy threshold now taken (client :: rest) pairs
  | pair {taken : List ClientKey} {client opponent : QueuedClient} {rest : List QueuedClient}
      {weight : Rat} {pairs : List (Pairing Rat)} (isFree : client.key ∉ taken)
      (best : EarliestLeast client now (untaken taken rest) opponent weight)
      (near : weight ≤ threshold)
      (greedy : Greedy threshold now (client.key :: opponent.key :: taken) rest pairs) :
      Greedy threshold now taken (client :: rest) (⟨client, opponent, weight⟩ :: pairs)

theorem greedy_pairsAmong (threshold : Rat) (now : Instant) (taken : List ClientKey)
    (queued : List QueuedClient) :
    Greedy threshold now taken queued (pairsAmong threshold now taken queued) := by
  induction queued generalizing taken with
  | nil => exact .nil
  | cons client rest ih =>
    unfold pairsAmong
    split
    · next isTaken => exact .skip (List.contains_iff_mem.mp isTaken) (ih taken)
    · next isFree =>
      have isFree : client.key ∉ taken := mt List.contains_iff_mem.mpr isFree
      have spec := bestOpponent_spec client (untaken taken rest) now
      cases found : (bestOpponent client (untaken taken rest) now : Option (_ × Rat)) with
      | none =>
        rw [found] at spec
        have nobody : untaken taken rest = [] := spec
        simp only [untaken] at found
        simp only [found]
        refine .leave isFree ?_ (ih taken)
        rw [nobody]
        exact List.forall_mem_nil _
      | some best =>
        rw [found] at spec
        have best : EarliestLeast client now (untaken taken rest) best.1 best.2 := spec
        simp only [untaken] at found
        simp only [found]
        split
        · next near => exact .pair isFree best (of_decide_eq_true near) (ih _)
        · next far =>
          refine .leave isFree ?_ (ih taken)
          intro other member
          exact (lt_of_not_ge (of_decide_eq_false (Bool.eq_false_iff.mpr far))).trans_le
            (best.least other member)

namespace Greedy

variable {threshold : Rat} {now : Instant} {taken : List ClientKey} {queued : List QueuedClient}
  {pairs : List (Pairing Rat)}

/-- The first of a pair stands before the second. -/
theorem sublist (greedy : Greedy threshold now taken queued pairs) :
    ∀ pairing ∈ pairs, [pairing.first, pairing.second].Sublist queued := by
  induction greedy with
  | nil => exact List.forall_mem_nil _
  | skip _ _ ih => exact fun pairing member => (ih pairing member).cons _
  | leave _ _ _ ih => exact fun pairing member => (ih pairing member).cons _
  | pair _ best _ _ ih =>
    intro pairing member
    rcases List.mem_cons.mp member with rfl | later
    · exact (List.singleton_sublist.mpr (mem_untaken.mp best.mem).1).cons_cons _
    · exact (ih pairing later).cons _

theorem weight_eq (greedy : Greedy threshold now taken queued pairs) :
    ∀ pairing ∈ pairs, pairing.weight = pairingWeight pairing.first pairing.second now ∧
      pairing.weight ≤ threshold := by
  induction greedy with
  | nil => exact List.forall_mem_nil _
  | skip _ _ ih => exact ih
  | leave _ _ _ ih => exact ih
  | pair _ best near _ ih => exact List.forall_mem_cons.mpr ⟨⟨best.weight_eq, near⟩, ih⟩

/-- Nobody is paired that has been taken before. -/
theorem free (greedy : Greedy threshold now taken queued pairs) :
    ∀ key ∈ Pairing.keysOf pairs, key ∉ taken := by
  induction greedy with
  | nil => exact List.forall_mem_nil _
  | skip _ _ ih => exact ih
  | leave _ _ _ ih => exact ih
  | pair isFree best _ _ ih =>
    intro key member
    rcases List.mem_append.mp member with own | later
    · rcases List.mem_pair.mp own with rfl | rfl
      · exact isFree
      · exact (mem_untaken.mp best.mem).2
    · exact fun isTaken => ih key later (List.mem_cons_of_mem _ (List.mem_cons_of_mem _ isTaken))

/-- Two clients that are left over were too far apart, the earlier from the later. -/
theorem leftover (greedy : Greedy threshold now taken queued pairs) {earlier later : QueuedClient}
    (order : [earlier, later].Sublist queued)
    (earlierFree : earlier.key ∉ taken ++ Pairing.keysOf pairs)
    (laterFree : later.key ∉ taken ++ Pairing.keysOf pairs) :
    threshold < pairingWeight earlier later now := by
  induction greedy with
  | nil => cases order
  | skip isTaken _ ih =>
    rcases List.cons_sublist_cons'.mp order with behind | ⟨rfl, _⟩
    · exact ih behind earlierFree laterFree
    · exact absurd (List.mem_append_left _ isTaken) earlierFree
  | leave _ tooFar _ ih =>
    rcases List.cons_sublist_cons'.mp order with behind | ⟨rfl, second⟩
    · exact ih behind earlierFree laterFree
    · refine tooFar later (mem_untaken.mpr ⟨List.singleton_sublist.mp second, ?_⟩)
      exact mt (List.mem_append_left _) laterFree
  | @pair taken client opponent _ weight pairs _ _ _ _ ih =>
    -- the two clients of the pair are taken for the rest, and they are left over no more
    have moved (key : ClientKey) (member : key ∈ client.key :: opponent.key :: taken ++
        Pairing.keysOf pairs) :
        key ∈ taken ++ Pairing.keysOf (⟨client, opponent, weight⟩ :: pairs) := by
      simp only [Pairing.keysOf, Pairing.keys, List.flatMap_cons, List.cons_append,
        List.mem_cons, List.mem_append, List.nil_append] at member ⊢
      tauto
    rcases List.cons_sublist_cons'.mp order with behind | ⟨rfl, _⟩
    · exact ih behind (mt (moved _) earlierFree) (mt (moved _) laterFree)
    · exact absurd (moved _ List.mem_cons_self) earlierFree

end Greedy

/-- The pairs among waiting clients are made greedily. -/
theorem greedy_findPairs (threshold : Rat) (queued : List QueuedClient) (now : Instant) :
    Greedy threshold now [] queued (findPairs threshold queued now) :=
  greedy_pairsAmong threshold now [] queued

end ChessArbiter
