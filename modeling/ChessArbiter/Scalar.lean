/-! # Numbers for seconds and weights

Clocks and pairing weights are reckoned in any type with the four operations and an order. The arbiter
runs on floating-point numbers; laws about its arithmetic are stated for the rational numbers, where
nothing is rounded. The order of the operations is part of every definition.
-/

namespace ChessArbiter

class Scalar (α : Type) extends Add α, Sub α, Mul α, Div α, LT α, LE α, IntCast α where
  decidableLT : DecidableLT α
  decidableLE : DecidableLE α

namespace Scalar

variable {α : Type} [Scalar α]

instance : DecidableLT α := Scalar.decidableLT

instance : DecidableLE α := Scalar.decidableLE

/-- The number of an integer. -/
def ofInt (n : Int) : α :=
  IntCast.intCast n

/-- The larger of a number and a floor, the floor where the two are equal. What is no number, and so is
not even at most itself, gives way to the other. -/
def atLeast (floor x : α) : α :=
  if x ≤ floor then floor
  else if x ≤ x then x
  else floor

theorem atLeast_self (floor : α) : atLeast floor floor = floor := by
  simp [atLeast]

/-- Milliseconds in seconds. -/
def ofMillis (millis : Int) : α :=
  ofInt millis / ofInt 1000

end Scalar

instance : Scalar Float where
  toAdd := instAddFloat
  toSub := instSubFloat
  toMul := instMulFloat
  toDiv := instDivFloat
  toLT := instLTFloat
  toLE := instLEFloat
  intCast := Float.ofInt
  decidableLT := Float.decLt
  decidableLE := Float.decLe

instance : Scalar Rat where
  toAdd := Rat.instAdd
  toSub := Rat.instSub
  toMul := Rat.instMul
  toDiv := Rat.instDiv
  toLT := Rat.instLT
  toLE := Rat.instLE
  toIntCast := Rat.instIntCast
  decidableLT := Rat.instDecidableLt
  decidableLE := Rat.instDecidableLe

end ChessArbiter
