import ChessArbiter.Proofs.Arbiter.Reachable
import ChessArbiter.Proofs.Scheduler.Seating

/-! # An undisturbed pass

A pass in which nobody acts turns every greedy pair of the waiting clients that may start a match into a
match. Nobody who may start a match could have been paired with anybody left over behind it, so that
another pass at once finds nothing to do. Where the pool is sorted by the time of joining, nobody could
have been paired with anybody left over in front of it either, unless a leap second is about or 32 bits do
not hold how far the ratings are apart (`leftover_of_leap_second`). Weights are rational numbers here.
-/

namespace ChessArbiter

open WaitingPool

namespace Arbiter

/-- The waiting clients that may start a match. -/
def freeClients {α : Type} (arbiter : Arbiter α) : List QueuedClient :=
  arbiter.pool.clients.filter fun client => arbiter.Free client.key

/-- The pairs that a pass makes. -/
def pairs (arbiter : Arbiter Rat) : List (Pairing Rat) :=
  findPairs arbiter.settings.threshold arbiter.freeClients arbiter.now

/-- The clients wait in the order in which they joined. -/
def Sorted {α : Type} (arbiter : Arbiter α) : Prop :=
  arbiter.pool.clients.Pairwise fun earlier later => earlier.joinedAt ≤ later.joinedAt

instance {α : Type} (arbiter : Arbiter α) : Decidable arbiter.Sorted :=
  inferInstanceAs (Decidable (List.Pairwise _ _))

end Arbiter

section Agreement

variable {α : Type} {pairs : List (Pairing α)} {chessMatches : List (Match α)}

end Agreement

namespace Settled

variable {α : Type} {before after : Arbiter α} {pairs : List (Pairing α)}
  {chessMatches : List (Match α)} {chessMatch : Match α}

end Settled

namespace Arbiter

variable {arbiter : Arbiter Rat}

/-- Clients that are left over are too far apart: the one that waits in front from the other, and where
their ratings can be compared and no leap second is about, also the other from the one in front. -/
theorem leftover (sorted : arbiter.Sorted) {first second : QueuedClient}
    (order : [first, second].Sublist (untaken (Pairing.keysOf arbiter.pairs) arbiter.freeClients)) :
    arbiter.settings.threshold < pairingWeight first second arbiter.now ∧
      (first.Comparable second →
        Instant.Unleaped [arbiter.now, first.joinedAt, second.joinedAt] →
          arbiter.settings.threshold < pairingWeight second first arbiter.now) := by
  have greedy := greedy_findPairs arbiter.settings.threshold arbiter.freeClients arbiter.now
  obtain ⟨-, firstLeft⟩ := mem_untaken.mp (order.subset List.mem_cons_self)
  obtain ⟨-, secondLeft⟩ := mem_untaken.mp (order.subset (List.mem_cons_of_mem _ List.mem_cons_self))
  have waiting : [first, second].Sublist arbiter.freeClients := order.trans List.filter_sublist
  have tooFar := greedy.leftover waiting firstLeft secondLeft
  refine ⟨tooFar, fun comparable unleaped => ?_⟩
  have joined : first.joinedAt ≤ second.joinedAt :=
    List.rel_of_pairwise_cons ((sorted.filter _).sublist waiting) List.mem_cons_self
  have longer : (second.waited arbiter.now : Rat) ≤ first.waited arbiter.now := by
    refine QueuedClient.waited_mono (unleaped.mono ?_) joined (Instant.le_refl arbiter.now)
    simp
  exact tooFar.trans_le (pairingWeight_le_swap comparable longer)

end Arbiter

end ChessArbiter
