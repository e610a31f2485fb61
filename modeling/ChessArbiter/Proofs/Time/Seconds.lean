import Mathlib.Algebra.Order.Field.Rat
import Mathlib.Tactic.Ring
import ChessArbiter.Proofs.Time.Order
import ChessArbiter.Scalar

/-! # Seconds that are not rounded

Laws about clocks and waiting are stated over the rational numbers. The arbiter counts whole
milliseconds from one instant to another; between instants that are whole milliseconds themselves,
nothing is lost by that.
-/

namespace ChessArbiter

namespace Scalar

theorem atLeast_rat (floor x : Rat) : atLeast floor x = max floor x := by
  unfold atLeast
  split
  · next below => exact (max_eq_left below).symm
  · next above =>
    rw [if_pos le_rfl]
    exact (max_eq_right (le_of_not_ge above)).symm

end Scalar

namespace Instant

variable {earlier later : Instant}

/-- Seconds since 1970-01-01T00:00:00 UTC. -/
def seconds (instant : Instant) : Rat :=
  instant.nanos / 1000000000

/-- The seconds from one instant to another, of which whole milliseconds are counted. -/
def secondsSince (later earlier : Instant) : Rat :=
  later.millisSince earlier / 1000

/-- The instant is a whole number of milliseconds since 1970-01-01T00:00:00 UTC, which none inside a leap
second is. -/
def OnMillis (instant : Instant) : Prop :=
  instant.leap = false ∧ (1000000 : Int) ∣ instant.nanos

instance (instant : Instant) : Decidable instant.OnMillis :=
  inferInstanceAs (Decidable (_ ∧ _))

theorem nanos_ofMillis (millis : Int) : (ofMillis millis).nanos = millis * 1000000 := by
  have nano : (part ((millis % 1000).toNat * 1000000)).val = (millis % 1000).toNat * 1000000 := by
    apply Nat.mod_eq_of_lt
    omega
  simp only [nanos, ofMillis, intoSecond, nano, Bool.false_eq_true, if_false]
  omega

theorem onMillis_ofMillis (millis : Int) : (ofMillis millis).OnMillis :=
  ⟨rfl, millis, by rw [nanos_ofMillis, Int.mul_comm]⟩

/-- Between whole milliseconds the count loses nothing. -/
theorem secondsSince_eq_sub (now : later.OnMillis) (before : earlier.OnMillis) :
    later.secondsSince earlier = later.seconds - earlier.seconds := by
  obtain ⟨laterUnleaped, a, laterNanos⟩ := now
  obtain ⟨earlierUnleaped, b, earlierNanos⟩ := before
  have difference : later.millisSince earlier = a - b := by
    rw [millisSince_of_unleaped laterUnleaped earlierUnleaped, laterNanos, earlierNanos, ← Int.mul_sub]
    exact Int.mul_tdiv_cancel_left _ (by decide)
  rw [secondsSince, difference, seconds, seconds, laterNanos, earlierNanos]
  push_cast
  ring

end Instant

end ChessArbiter
