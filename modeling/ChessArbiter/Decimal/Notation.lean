import ChessArbiter.Text.Blank
import ChessArbiter.Decimal.Shortest

/-! # Decimal notation of floating-point numbers

Writing takes the shortest decimal that reads back. It is positional, with at least one digit on each
side of the point, from `10 ^ -5` up to but not including `10 ^ 16`. It is scientific elsewhere, and
the exponent always bears its sign.

Reading takes an optional sign and then `inf`, `infinity` or `nan` in any case, or digits with an
optional point and an optional exponent. The nearest number is taken; one beyond the largest is
infinite.
-/

namespace ChessArbiter.Decimal

/-- An exponent with its sign. -/
def signed (exponent : Int) : List Char :=
  if 0 ≤ exponent then '+' :: Text.integer exponent else Text.integer exponent

/-- The text of `digits · 10 ^ exponent`, where the digits end in no zero. -/
def layout (digits : List Char) (exponent : Int) : List Char :=
  let point : Int := digits.length + exponent
  if 0 ≤ exponent ∧ point ≤ 16 then
    digits ++ List.replicate exponent.toNat '0' ++ ['.', '0']
  else if 0 < point ∧ point ≤ 16 then
    digits.take point.toNat ++ '.' :: digits.drop point.toNat
  else if -5 < point ∧ point ≤ 0 then
    '0' :: '.' :: List.replicate (-point).toNat '0' ++ digits
  else
    let fraction := digits.drop 1
    digits.take 1 ++ (if fraction.isEmpty then [] else '.' :: fraction) ++
      'e' :: signed (point - 1)

/-- The text of a decimal, once the zeros at its end have gone into the exponent. -/
def Scientific.text (decimal : Scientific) : List Char :=
  let written := Text.digits decimal.digits
  let zeros := (written.reverse.takeWhile (· == '0')).length
  layout (written.take (written.length - zeros)) (decimal.exponent + zeros)

/-- The text of a finite number. -/
def finite (x : Float) : List Char :=
  let sign := if x.toBits.toNat / Nat.pow 2 63 = 1 then ['-'] else []
  let magnitude := Binary.ofBits x.toBits
  if magnitude.mantissa = 0 then sign ++ ['0', '.', '0']
  else sign ++ magnitude.rounding.shortest.text

/-- The text of a number, the two infinities and the undefined number included. -/
def write (x : Float) : String :=
  if x.isNaN then "NaN"
  else if x.isInf then (if x < 0 then "-inf" else "inf")
  else String.ofList (finite x)

/-- The number nearest to `digits · 10 ^ exponent`. Where the decimal point lies far outside the
range of the format the answer is known without computing the power. -/
def nearest (digits : Nat) (exponent : Int) : Float :=
  let point : Int := (Text.digits digits).length + exponent
  if digits = 0 ∨ point < -400 then 0
  else if 400 < point then Float.ofScientific 1 false 400
  else Float.ofScientific digits (exponent < 0) exponent.natAbs

/-- An exponent: a sign where there is one, then digits up to the end. -/
def exponent? : List Char → Option Int
  | '-' :: text => (Text.digitsValue? text).map fun n => -(n : Int)
  | '+' :: text => (Text.digitsValue? text).map Int.ofNat
  | text => (Text.digitsValue? text).map Int.ofNat

/-- Digits with an optional point among or around them, and an optional exponent. -/
def magnitude? (text : List Char) : Option Float :=
  let (whole, rest) := text.span Char.isDigit
  let (fraction, rest) := match rest with
    | '.' :: rest => rest.span Char.isDigit
    | rest => ([], rest)
  if whole.isEmpty && fraction.isEmpty then none
  else
    let digits := Nat.ofDigitChars 10 (whole ++ fraction) 0
    match rest with
    | [] => some (nearest digits (-(fraction.length : Int)))
    | mark :: rest =>
      if mark == 'e' || mark == 'E' then
        (exponent? rest).map fun exponent => nearest digits (exponent - fraction.length)
      else none

/-- A number without its sign, or one of the names of the numbers that are not finite. -/
def unsigned? (text : List Char) : Option Float :=
  let name := Text.lowerAscii text
  if name = "inf".toList ∨ name = "infinity".toList then some (1 / 0)
  else if name = "nan".toList then some (0 / 0)
  else magnitude? text

/-- Reads a number in decimal notation. -/
def read? : List Char → Option Float
  | '-' :: text => (unsigned? text).map (- ·)
  | '+' :: text => unsigned? text
  | text => unsigned? text

end ChessArbiter.Decimal
