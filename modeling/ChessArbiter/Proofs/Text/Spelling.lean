import Mathlib.Data.List.Forall2
import Mathlib.Data.List.Induction
import ChessArbiter.Proofs.Text.Blank

/-! # How names and numbers are written

A name of small letters may be written with letters of either case (`AnyCase`), so that it is the text with
its capitals made small. A number is written with one decimal digit or more, zeros in front included
(`Numeral`), and where a sign is allowed with at most one plus sign before them (`SignedNumeral`). These
are the texts that the readers of numerals accept, and the numbers that they give.
-/

namespace ChessArbiter

/-- Two characters have a small letter as theirs, itself and the capital 32 places before it. -/
theorem toLower_eq_iff {c small capital : Char} (isSmall : 97 ≤ small.toNat ∧ small.toNat ≤ 122)
    (before : capital.toNat + 32 = small.toNat) : c.toLower = small ↔ c = small ∨ c = capital := by
  unfold Char.toLower
  split
  · next isCapital =>
    have range : 65 ≤ c.toNat ∧ c.toNat ≤ 90 := isCapital
    have moved : (c.val + ('a'.val - 'A'.val)).toNat = c.toNat + 32 := by
      rw [UInt32.toNat_add]
      exact Nat.mod_eq_of_lt (show c.toNat + 32 < 4294967296 by omega)
    constructor
    · intro same
      have shifted : c.toNat + 32 = small.toNat := moved.symm.trans (congrArg Char.toNat same)
      exact .inr (Char.toNat_inj.mp (by omega))
    · rintro (rfl | rfl)
      · omega
      · exact Char.toNat_inj.mp (moved.trans before)
  · next other =>
    refine ⟨.inl, fun same => same.resolve_right ?_⟩
    rintro rfl
    refine other (show 65 ≤ c.toNat ∧ c.toNat ≤ 90 from ?_)
    omega

namespace Text

variable {name text : List Char} {n : Nat} {c : Char}

/-- The text is the name, with each letter small or as its ASCII capital. -/
def AnyCase (name text : List Char) : Prop :=
  List.Forall₂ (fun small c => c = small ∨ c = small.toUpper) name text

/-- How a number is written: one digit, or a numeral and one more digit. -/
inductive Numeral : Nat → List Char → Prop
  | digit {d : Nat} (small : d < 10) : Numeral d [d.digitChar]
  | append {n d : Nat} {text : List Char} (front : Numeral n text) (small : d < 10) :
      Numeral (10 * n + d) (text ++ [d.digitChar])

/-- A numeral, with or without a plus sign in front. -/
inductive SignedNumeral (n : Nat) : List Char → Prop
  | plain {text : List Char} (numeral : Numeral n text) : SignedNumeral n text
  | plus {text : List Char} (numeral : Numeral n text) : SignedNumeral n ('+' :: text)

theorem toUpper_toNat (isSmall : 97 ≤ c.toNat ∧ c.toNat ≤ 122) : c.toUpper.toNat + 32 = c.toNat := by
  have moved : (c.val + ('A'.val - 'a'.val)).toNat + 32 = c.toNat := by
    rw [UInt32.toNat_add]
    change (c.toNat + 4294967264) % 4294967296 + 32 = c.toNat
    omega
  unfold Char.toUpper
  split
  · exact moved
  · next other => exact absurd isSmall other

theorem lowerAscii_eq_iff (small : ∀ c ∈ name, 97 ≤ c.toNat ∧ c.toNat ≤ 122) :
    lowerAscii text = name ↔ AnyCase name text := by
  rw [lowerAscii, AnyCase]
  induction name generalizing text with
  | nil => rw [List.map_eq_nil_iff, List.forall₂_nil_left_iff]
  | cons letter name ih =>
    obtain ⟨isSmall, others⟩ := List.forall_mem_cons.mp small
    cases text with
    | nil => exact iff_of_false nofun nofun
    | cons c text =>
      rw [List.map_cons, List.cons.injEq, List.forall₂_cons, ih others,
        toLower_eq_iff isSmall (toUpper_toNat isSmall)]

theorem exists_digitChar (digit : c.isDigit = true) : ∃ d < 10, d.digitChar = c := by
  simp only [Char.isDigit, Bool.and_eq_true, decide_eq_true_eq, ge_iff_le] at digit
  have range : 48 ≤ c.toNat ∧ c.toNat ≤ 57 := digit
  refine ⟨c.toNat - 48, by omega, Char.toNat_inj.mp ?_⟩
  rw [Nat.toNat_digitChar_of_lt_ten (by omega)]
  omega

namespace Numeral

theorem ne_nil (numeral : Numeral n text) : text ≠ [] := by
  cases numeral with
  | digit => exact List.cons_ne_nil _ _
  | append => exact List.append_ne_nil_of_right_ne_nil _ (List.cons_ne_nil _ _)

theorem isDigit_of_mem (numeral : Numeral n text) : ∀ c ∈ text, c.isDigit = true := by
  induction numeral with
  | digit small => simpa [Nat.isDigit_digitChar] using small
  | append front small ih =>
    intro c member
    rcases List.mem_append.mp member with before | last
    · exact ih c before
    · rw [List.mem_singleton.mp last, Nat.isDigit_digitChar]
      exact decide_eq_true small

theorem not_plus_mem (numeral : Numeral n text) : '+' ∉ text := fun member => by
  cases numeral.isDigit_of_mem '+' member

theorem ofDigitChars_eq (numeral : Numeral n text) : Nat.ofDigitChars 10 text 0 = n := by
  induction numeral with
  | digit small =>
    have value := Nat.toNat_digitChar_of_lt_ten small
    rw [Nat.ofDigitChars_cons, Nat.ofDigitChars_nil, value]
    change 10 * 0 + (48 + _ - 48) = _
    omega
  | append front small ih =>
    have value := Nat.toNat_digitChar_of_lt_ten small
    rw [Nat.ofDigitChars_append, ih, Nat.ofDigitChars_cons, Nat.ofDigitChars_nil, value]
    change 10 * _ + (48 + _ - 48) = _
    omega

/-- A stretch of digits is a numeral. -/
theorem exists_of_all (nonempty : text ≠ []) (digits : ∀ c ∈ text, c.isDigit = true) :
    ∃ n, Numeral n text := by
  induction text using List.reverseRecOn with
  | nil => exact absurd rfl nonempty
  | append_singleton front c ih =>
    obtain ⟨d, small, rfl⟩ := exists_digitChar (digits c (by simp))
    by_cases alone : front = []
    · rw [alone]
      exact ⟨d, .digit small⟩
    · obtain ⟨n, numeral⟩ := ih alone fun c member => digits c (List.mem_append_left _ member)
      exact ⟨_, numeral.append small⟩

end Numeral

/-- The digits that are read as a number are the numerals of that number. -/
theorem digitsValue?_eq_some_iff : digitsValue? text = some n ↔ Numeral n text := by
  unfold digitsValue?
  constructor
  · intro read
    split at read
    · cases read
    · next digits =>
      simp only [Bool.or_eq_true, List.isEmpty_iff, Bool.not_eq_true', not_or, Bool.not_eq_false,
        List.all_eq_true] at digits
      obtain ⟨value, numeral⟩ := Numeral.exists_of_all digits.1 digits.2
      rw [numeral.ofDigitChars_eq] at read
      obtain rfl := Option.some.inj read
      exact numeral
  · intro numeral
    have digits := List.all_eq_true.mpr numeral.isDigit_of_mem
    have nonempty := List.isEmpty_eq_false_iff.mpr numeral.ne_nil
    rw [nonempty, digits, numeral.ofDigitChars_eq]
    rfl

/-- A number is a numeral as it is printed. -/
theorem numeral_digits (n : Nat) : Numeral n (digits n) :=
  digitsValue?_eq_some_iff.mp (digitsValue?_digits n)

/-- Where there is no plus sign, there is none in front. -/
theorem SignedNumeral.unsigned (signed : SignedNumeral n text) (none : '+' ∉ text) :
    Numeral n text := by
  cases signed with
  | plain numeral => exact numeral
  | plus => exact absurd List.mem_cons_self none

theorem natural?_eq_some_iff : natural? text = some n ↔ SignedNumeral n text := by
  unfold natural?
  split
  · next digits =>
    rw [digitsValue?_eq_some_iff]
    constructor
    · exact .plus
    · rintro (unsigned | signed)
      · exact absurd List.mem_cons_self unsigned.not_plus_mem
      · exact signed
  · next unsigned =>
    rw [digitsValue?_eq_some_iff]
    constructor
    · exact .plain
    · rintro (plain | _)
      · exact plain
      · exact absurd rfl (unsigned _)

/-- A numeral below `2 ^ 32` is read as its number. -/
theorem natural32?_eq_some_iff {value : UInt32} :
    natural32? text = some value ↔ SignedNumeral value.toNat text := by
  rw [natural32?, Option.bind_eq_some_iff, ← natural?_eq_some_iff]
  constructor
  · rintro ⟨n, read, fits⟩
    rw [Option.ite_none_right_eq_some] at fits
    obtain ⟨small, made⟩ := fits
    rw [read, ← Option.some.inj made, UInt32.toNat_ofNat', Nat.mod_eq_of_lt small]
  · intro read
    exact ⟨value.toNat, read, by rw [if_pos value.toNat_lt_size, UInt32.ofNat_toNat]⟩

/-- A number is read again from its digits. -/
theorem natural32?_digits (small : n < UInt32.size) :
    (natural32? (digits n)).map (·.toNat) = some n := by
  have same : (UInt32.ofNat n).toNat = n := UInt32.toNat_ofNat_of_lt' small
  have read : natural32? (digits n) = some (UInt32.ofNat n) :=
    natural32?_eq_some_iff.mpr (.plain (same.symm ▸ numeral_digits n))
  rw [read, Option.map_some, same]

end Text

end ChessArbiter
