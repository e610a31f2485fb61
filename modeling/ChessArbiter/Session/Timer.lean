import ChessArbiter.Decimal.Shortest
import ChessArbiter.Registry.Basic

/-! # The timer

The timer counts whole milliseconds of its own time, which passes independently of the wall clock. A
wait is rounded to the nearest nanosecond and lasts thirty years at most; the alarm rings at the first
whole millisecond that is not before its end. An alarm can be cancelled as long as it is attached to
its match.

Alarms ring in the order of their milliseconds. What decides between two of the same millisecond is
a `Precedence`: the order in which they were set, for which every alarm has its rank, or the order of
their matches.
-/

namespace ChessArbiter

/-- An alarm that has not rung. -/
structure PendingAlarm where
  id : MatchId
  generation : Nat
  /-- The millisecond of the timer at which it rings. -/
  due : Nat
  /-- How many alarms were set before it. -/
  rank : Nat
  attached : Bool
deriving DecidableEq

/-- What decides between alarms that are due at the same millisecond. -/
inductive Precedence where
  /-- The one that was set first comes first. -/
  | rank
  /-- The one of the earlier match comes first. -/
  | identity

/-- The place of an alarm among those of its millisecond. -/
def Precedence.place : Precedence → PendingAlarm → Nat
  | .rank, alarm => alarm.rank
  | .identity, alarm => alarm.id.number

/-- The quotient nearest to `numerator / denominator`, the even one of two. -/
def nearestQuotient (numerator denominator : Nat) : Nat :=
  let quotient := numerator / denominator
  let twice := 2 * (numerator % denominator)
  if twice < denominator ∨ (twice = denominator ∧ quotient % 2 = 0) then quotient
  else quotient + 1

/-- A number of seconds in nanoseconds. Nothing is waited for a negative number. -/
def nanosOfSeconds (seconds : Float) : Nat :=
  if seconds ≤ 0 then 0
  else
    let number := Decimal.Binary.ofBits seconds.toBits
    nearestQuotient (number.mantissa * Nat.pow 2 number.exponent.toNat * 1000000000)
      (Nat.pow 2 (-number.exponent).toNat)

/-- The longest wait in nanoseconds, thirty years of 365 days. -/
def longestWait : Nat :=
  30 * 365 * 86400 * 1000000000

structure Timer where
  /-- The milliseconds that have passed. -/
  time : Nat
  /-- How many alarms have been set so far. -/
  count : Nat
  pending : List PendingAlarm

namespace Timer

/-- The timer at the beginning. -/
def start : Timer :=
  ⟨0, 0, []⟩

/-- The millisecond at which an alarm rings that is set now. -/
def dueAfter (timer : Timer) (wait : Float) : Nat :=
  timer.time + (min (nanosOfSeconds wait) longestWait + 999999) / 1000000

/-- The pending alarms that are not attached to a match. -/
def detachedFrom (timer : Timer) (id : MatchId) : List PendingAlarm :=
  timer.pending.filter fun alarm => !(alarm.id == id && alarm.attached)

/-- The timer after an order. -/
def obey (timer : Timer) : Alarm Float → Timer
  | .set id generation wait =>
    { timer with
      count := timer.count + 1
      pending :=
        timer.detachedFrom id ++ [⟨id, generation, timer.dueAfter wait, timer.count, true⟩] }
  | .cancel id => { timer with pending := timer.detachedFrom id }
  | .release id =>
    { timer with
      pending := timer.pending.map fun alarm =>
        if alarm.id = id then { alarm with attached := false } else alarm }

/-- The one of two alarms that rings first. -/
def earlier (precedence : Precedence) (a b : PendingAlarm) : PendingAlarm :=
  if b.due < a.due ∨ (b.due = a.due ∧ precedence.place b < precedence.place a) then b else a

/-- The next alarm to ring. -/
def next? (timer : Timer) (precedence : Precedence) : Option PendingAlarm :=
  match timer.pending with
  | [] => none
  | first :: rest => some (rest.foldl (earlier precedence) first)

/-- The next alarm if it is one of those that may ring, and the timer when it does. -/
def ring? (timer : Timer) (precedence : Precedence) (rings : PendingAlarm → Bool) :
    Option (PendingAlarm × Timer) :=
  ((timer.next? precedence).filter rings).map fun alarm =>
    (alarm, { timer with
      time := max timer.time alarm.due
      pending := timer.pending.erase alarm })

end Timer

end ChessArbiter
