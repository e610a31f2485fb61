import ChessArbiter.Text.Numeral

/-! # The shortest decimal that reads back

A positive binary number stands for an interval of reals, those that round to it. Among the decimals
of that interval the ones with fewest digits are taken, and of those the one nearest to the number;
halfway between two of them, the one whose last digit is even. All of this is exact integer
arithmetic on a common denominator, one grid of decimals after the other.
-/

namespace ChessArbiter.Decimal

/-- The number `mantissa · 2 ^ exponent`. -/
structure Binary where
  mantissa : Nat
  exponent : Int

/-- The number `digits · 10 ^ exponent`. -/
structure Scientific where
  digits : Nat
  exponent : Int

/-- A positive number and the ends of the interval that rounds to it, over one denominator. -/
structure Rounding where
  low : Nat
  middle : Nat
  high : Nat
  denominator : Nat
  closed : Bool

/-- The magnitude of a finite 64-bit pattern. -/
def Binary.ofBits (bits : UInt64) : Binary :=
  let fraction := bits.toNat % Nat.pow 2 52
  let exponent : Nat := bits.toNat / Nat.pow 2 52 % Nat.pow 2 11
  if exponent = 0 then ⟨fraction, -1074⟩ else ⟨fraction + Nat.pow 2 52, (exponent : Int) - 1075⟩

/-- The interval of a number: half a unit to each side, a quarter below a power of two, where the
units are half as large; the ends belong to it where the mantissa is even. -/
def Binary.rounding (number : Binary) : Rounding :=
  let scale := Nat.pow 2 number.exponent.toNat
  let middle := 4 * number.mantissa * scale
  let below := if number.mantissa = Nat.pow 2 52 ∧ -1074 < number.exponent then 1 else 2
  { low := middle - below * scale
    middle := middle
    high := middle + 2 * scale
    denominator := 4 * Nat.pow 2 (-number.exponent).toNat
    closed := number.mantissa % 2 = 0 }

namespace Rounding

/-- The exponent of the power of ten at or below the number. -/
def magnitude (number : Rounding) : Int :=
  if number.denominator ≤ number.middle then
    (Text.digits (number.middle / number.denominator)).length - 1
  else
    -((Text.digits ((number.denominator - 1) / number.middle)).length : Int)

/-- Whether `digits · 10 ^ exponent` rounds to the number. -/
def contains (number : Rounding) (decimal : Scientific) : Bool :=
  let fine := Nat.pow 10 (-decimal.exponent).toNat
  let point := decimal.digits * Nat.pow 10 decimal.exponent.toNat * number.denominator
  if number.closed then number.low * fine ≤ point && point ≤ number.high * fine
  else number.low * fine < point && point < number.high * fine

/-- The decimal of the grid with the given exponent that rounds to the number and is nearest to it. -/
def onGrid? (number : Rounding) (exponent : Int) : Option Scientific :=
  let fine := number.middle * Nat.pow 10 (-exponent).toNat
  let unit := number.denominator * Nat.pow 10 exponent.toNat
  let below : Scientific := ⟨fine / unit, exponent⟩
  let above : Scientific := ⟨fine / unit + 1, exponent⟩
  let twice := 2 * (fine % unit)
  let nearer := twice < unit || (twice == unit && below.digits % 2 == 0)
  match number.contains below && 0 < below.digits, number.contains above with
  | true, true => some (if nearer then below else above)
  | true, false => some below
  | false, true => some above
  | false, false => none

/-- The shortest decimal that rounds to the number; seventeen digits always suffice. -/
def shortest (number : Rounding) : Scientific :=
  ((List.range 17).findSome? fun n => number.onGrid? (number.magnitude - Int.ofNat n)).getD
    ⟨number.middle / number.denominator, 0⟩

end Rounding

end ChessArbiter.Decimal
