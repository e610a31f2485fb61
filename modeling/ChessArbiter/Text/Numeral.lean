/-! # Unsigned numerals

A numeral is one or more ASCII digits after an optional plus sign; leading zeros are allowed, a minus
sign never is. Readers for the fixed widths refuse a value that does not fit and never wrap.
-/

namespace ChessArbiter.Text

/-- The ASCII decimal digits of a number, without leading zeros. -/
def digits (n : Nat) : List Char :=
  Nat.toDigits 10 n

/-- The value of a nonempty stretch of decimal digits. -/
def digitsValue? (text : List Char) : Option Nat :=
  if text.isEmpty || !text.all Char.isDigit then none
  else some (Nat.ofDigitChars 10 text 0)

theorem digitsValue?_digits (n : Nat) : digitsValue? (digits n) = some n := by
  have digit : ∀ c ∈ digits n, c.isDigit = true := fun _ member =>
    Nat.isDigit_of_mem_toDigits (by decide) (by decide) member
  unfold digitsValue?
  rw [if_neg (by simpa [digits, Nat.toDigits_ne_nil] using digit)]
  exact congrArg some (Nat.ofDigitChars_toDigits (by decide) (by decide))

/-- A numeral: an optional plus sign, then digits. -/
def natural? : List Char → Option Nat
  | '+' :: text => digitsValue? text
  | text => digitsValue? text

/-- A numeral below `2 ^ 32`. -/
def natural32? (text : List Char) : Option UInt32 :=
  (natural? text).bind fun n => if n < UInt32.size then some (UInt32.ofNat n) else none

/-- A numeral below `2 ^ 64`. -/
def natural64? (text : List Char) : Option Nat :=
  (natural? text).filter (· < UInt64.size)

/-- The decimal text of an integer, with a minus sign where it is negative. -/
def integer (n : Int) : List Char :=
  if n < 0 then '-' :: digits n.natAbs else digits n.natAbs

/-- The decimal text of a number, with zeros in front up to the given width. -/
def padded (width n : Nat) : List Char :=
  List.replicate (width - (digits n).length) '0' ++ digits n

end ChessArbiter.Text
