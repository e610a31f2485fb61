import ChessArbiter.Time.Calendar

/-! # Instants

An instant is a second since 1970-01-01T00:00:00 UTC, leap seconds not counted, and a nanosecond of
it. A leap second has no number of its own: an instant inside one carries the number of the second
before it and the flag `leap`, and stands after all instants of that second.

The time from one instant to another takes no leap second for granted but those in which the two
instants lie. So it does not always agree with the order of instants: it counts such a second only where
the time of day of the one instant is past that of the other.
-/

namespace ChessArbiter

structure Instant where
  second : Int
  leap : Bool
  nano : Fin 1000000000
deriving DecidableEq

namespace Instant

/-- A number of nanoseconds within a second. -/
def part (nanos : Nat) : Fin 1000000000 :=
  Fin.ofNat _ nanos

/-- Nanoseconds since the instant's second began. -/
def intoSecond (instant : Instant) : Nat :=
  (if instant.leap then 1000000000 else 0) + instant.nano.val

instance : LE Instant :=
  ⟨fun a b => a.second < b.second ∨ (a.second = b.second ∧ a.intoSecond ≤ b.intoSecond)⟩

instance (a b : Instant) : Decidable (a ≤ b) :=
  inferInstanceAs (Decidable (_ ∨ _))

/-- Nanoseconds since 1970-01-01T00:00:00 UTC. -/
def nanos (instant : Instant) : Int :=
  instant.second * 1000000000 + instant.intoSecond

/-- The second of the instant's day. -/
def secondOfDay (instant : Instant) : Int :=
  instant.second % 86400

/-- The leap second between two instants, where one of them lies inside it and the time of day goes
past it. -/
def leapSince (later earlier : Instant) : Int :=
  if earlier.secondOfDay < later.secondOfDay ∧ earlier.leap then 1
  else if later.secondOfDay < earlier.secondOfDay ∧ later.leap then -1
  else 0

/-- The instant so many milliseconds after 1970-01-01T00:00:00 UTC. -/
def ofMillis (millis : Int) : Instant :=
  ⟨millis / 1000, false, part ((millis % 1000).toNat * 1000000)⟩

/-- The whole milliseconds from one instant to another; a part of one is dropped, toward zero. -/
def millisSince (later earlier : Instant) : Int :=
  (later.nanos - earlier.nanos + later.leapSince earlier * 1000000000).tdiv 1000000

/-- The milliseconds since 1970-01-01T00:00:00 UTC, those of the instant's second rounded down. -/
def toMillis (instant : Instant) : Int :=
  instant.second * 1000 + (instant.intoSecond / 1000000 : Nat)

/-- The first second that has a date: -262143-01-01T00:00:00. -/
def firstSecond : Int := -8334601228800

/-- The last second that has a date: 262142-12-31T23:59:59. -/
def lastSecond : Int := 8210266876799

/-- The instant has a date. -/
def InRange (instant : Instant) : Prop :=
  firstSecond ≤ instant.second ∧ instant.second ≤ lastSecond

instance (instant : Instant) : Decidable instant.InRange :=
  inferInstanceAs (Decidable (_ ∧ _))

/-- The beginning of the first second that has a date. -/
def earliest : Instant := ⟨firstSecond, false, 0⟩

end Instant

/-- A clock that moves only when told to. Its reading is a 64-bit number of milliseconds, which
wraps around at the ends. -/
structure ManualClock where
  millis : Int
deriving DecidableEq

namespace ManualClock

def advance (clock : ManualClock) (millis : Int) : ManualClock :=
  ⟨(clock.millis + millis).bmod 18446744073709551616⟩

def set (millis : Int) : ManualClock :=
  ⟨millis⟩

/-- The time that the clock shows; a reading that has no date shows the earliest instant. -/
def now (clock : ManualClock) : Instant :=
  let instant := Instant.ofMillis clock.millis
  if instant.InRange then instant else .earliest

end ManualClock

end ChessArbiter
