import ChessArbiter.Proofs.Text.Blank
import ChessArbiter.Proofs.Time.Calendar
import ChessArbiter.Time.Timestamp

/-! # Timestamps read again

What is written for an instant is read part by part, each part with the rest of the text behind it: a
number stops at the first character that is no digit, or where its digits are all there, and a fraction
of three, six or nine digits is scaled to nanoseconds. The date that is read is that of the instant's
day. Leap seconds are left out, since only the end of a minute can be one.
-/

namespace ChessArbiter

namespace Text

variable {width n : Nat}

theorem isDigit_of_mem_padded : ∀ c ∈ padded width n, c.isDigit = true := by
  intro c member
  rcases List.mem_append.mp member with zero | digit
  · rw [List.eq_of_mem_replicate zero]
    rfl
  · exact isDigit_of_mem_digits c digit

theorem padded_ne_nil (width n : Nat) : padded width n ≠ [] := by
  simp [padded, digits, Nat.toDigits_ne_nil]

theorem ofDigitChars_padded (width n : Nat) : Nat.ofDigitChars 10 (padded width n) 0 = n := by
  rw [padded, Nat.ofDigitChars_append, Nat.ofDigitChars_replicate_zero, Nat.mul_zero]
  exact Nat.ofDigitChars_ten_toDigits

theorem length_padded (positive : 0 < width) (small : n < Nat.pow 10 width) :
    (padded width n).length = width := by
  have short : (digits n).length ≤ width := (Nat.length_toDigits_le_iff (by decide) positive).mpr small
  rw [padded, List.length_append, List.length_replicate]
  omega

/-- What is padded begins with a digit. -/
theorem exists_padded (width n : Nat) :
    ∃ first rest, padded width n = first :: rest ∧ first.isDigit = true := by
  obtain ⟨first, rest, written⟩ := List.exists_cons_of_ne_nil (padded_ne_nil width n)
  exact ⟨first, rest, written, isDigit_of_mem_padded first (written ▸ List.mem_cons_self)⟩

end Text

open Text

namespace Timestamp

variable {c : Char} {run rest : List Char} {width n : Nat}

theorem skipBlank_cons (unblank : isBlank c = false) : skipBlank (c :: rest) = c :: rest :=
  List.dropWhile_cons_of_neg (Bool.eq_false_iff.mp unblank)

theorem skipBlank_padded (width n : Nat) (rest : List Char) :
    skipBlank (padded width n ++ rest) = padded width n ++ rest := by
  obtain ⟨first, others, written, digit⟩ := exists_padded width n
  rw [written, List.cons_append, skipBlank_cons (isBlank_of_isDigit digit)]

theorem mark?_cons (unblank : isBlank c = false) (rest : List Char) : mark? c (c :: rest) = some rest := by
  rw [mark?, skipBlank_cons unblank]
  exact if_pos rfl

private theorem number?_of_cut {most : Nat}
    (cut : ((padded width n ++ rest).take most).takeWhile Char.isDigit = padded width n) :
    number? most (padded width n ++ rest) = some (n, rest) := by
  have nonempty : (padded width n).isEmpty = false :=
    List.isEmpty_eq_false_iff.mpr (padded_ne_nil width n)
  simp only [number?, cut, nonempty, ofDigitChars_padded, List.drop_left, Bool.false_eq_true, if_false]

/-- A number that has all the digits that it may have is read, whatever follows. -/
theorem number?_padded (positive : 0 < width) (small : n < Nat.pow 10 width) (rest : List Char) :
    number? width (padded width n ++ rest) = some (n, rest) := by
  apply number?_of_cut
  rw [List.take_left' (length_padded positive small)]
  exact List.takeWhile_eq_self_iff.mpr isDigit_of_mem_padded

/-- A number that is not too long is read up to what is no digit. -/
theorem number?_padded_cons {most : Nat} (fits : (padded width n).length ≤ most)
    (notDigit : c.isDigit = false) (rest : List Char) :
    number? most (padded width n ++ c :: rest) = some (n, c :: rest) := by
  apply number?_of_cut
  have stops : ((c :: rest).take (most - (padded width n).length)).takeWhile Char.isDigit = [] := by
    cases most - (padded width n).length with
    | zero => rfl
    | succ _ => exact List.takeWhile_cons_of_neg (Bool.eq_false_iff.mp notDigit)
  rw [List.take_append, List.take_of_length_le fits, List.takeWhile_append_of_pos isDigit_of_mem_padded,
    stops, List.append_nil]

theorem part?_padded {low high : Nat} (least : low ≤ n) (most : n ≤ high) (small : n < 100)
    (rest : List Char) : part? low high (padded 2 n ++ rest) = some (n, rest) := by
  rw [part?, skipBlank_padded, number?_padded (by decide) small]
  simp [least, most]

/-- A year with a sign is read whatever its length, one without a sign by its four digits. -/
theorem year?_writeYear (year : Int) (rest : List Char) :
    year? (Date.writeYear year ++ '-' :: rest) = some (year, '-' :: rest) := by
  unfold Date.writeYear
  split
  · next plain =>
    obtain ⟨first, others, written, digit⟩ := exists_padded 4 year.natAbs
    have read := @number?_padded 4 year.natAbs (by decide)
      (show year.natAbs < 10000 by omega) ('-' :: rest)
    unfold year?
    rw [skipBlank_padded]
    rw [written, List.cons_append] at read ⊢
    split
    · next sign => cases sign; cases digit
    · next sign => cases sign; cases digit
    · rw [read, Option.map_some]
      simp only [Int.natAbs_of_nonneg plain.1]
  · next signed =>
    have fits : (padded 4 year.natAbs).length ≤ (padded 4 year.natAbs ++ '-' :: rest).length := by simp
    have dash : Char.isDigit '-' = false := rfl
    have read := number?_padded_cons fits dash rest
    by_cases negative : year < 0
    · rw [if_pos negative, List.cons_append, year?, skipBlank_cons rfl]
      simp only [read, Option.map_some]
      rw [Int.ofNat_natAbs_of_nonpos (by omega), Int.neg_neg]
    · rw [if_neg negative, List.cons_append, year?, skipBlank_cons rfl]
      simp only [read, Option.map_some]
      rw [Int.natAbs_of_nonneg (by omega)]

theorem date?_write {date : Date} (valid : date.Valid) (rest : List Char) :
    date? (date.write ++ rest) = some (date, rest) := by
  obtain ⟨month, month', day, day'⟩ := id valid
  have short : date.day ≤ 31 := by
    refine day'.trans ?_
    unfold Date.daysInMonth
    split
    · split <;> omega
    · split <;> omega
  simp only [date?, Date.write, List.append_assoc, List.cons_append, year?_writeYear,
    @mark?_cons '-' rfl, part?_padded month month' (by omega), part?_padded day short (by omega),
    Option.bind_eq_bind, Option.bind_some]
  exact if_pos valid

theorem fraction?_padded {nano : Nat} (positive : 0 < width) (short : width ≤ 9)
    (small : n < Nat.pow 10 width) (scaled : n * Nat.pow 10 (9 - width) = nano) (rest : List Char) :
    fraction? ('.' :: padded width n ++ 'Z' :: rest) = some (nano, 'Z' :: rest) := by
  have length := length_padded positive small
  have read := @number?_padded_cons 'Z' width n 9 (by omega) rfl rest
  have consumed : (padded width n ++ 'Z' :: rest).length - ('Z' :: rest).length = width := by
    rw [List.length_append, length, Nat.add_sub_cancel]
  have stops : ('Z' :: rest).dropWhile Char.isDigit = 'Z' :: rest :=
    List.dropWhile_cons_of_neg (by decide)
  simp only [fraction?, List.cons_append, read, Option.bind_eq_bind, Option.bind_some, consumed, stops]
  exact congrArg (fun value => some (value, 'Z' :: rest)) scaled

/-- A fraction is read as the nanoseconds for which it was written. -/
theorem fraction?_writeFraction {nano : Nat} (small : nano < 1000000000) (rest : List Char) :
    fraction? (Instant.writeFraction nano ++ 'Z' :: rest) = some (nano, 'Z' :: rest) := by
  unfold Instant.writeFraction
  split
  · next zero => rw [zero]; rfl
  · split
    · next millis =>
      exact fraction?_padded (by decide) (by decide) (show nano / 1000000 < 1000 by omega)
        (show nano / 1000000 * 1000000 = nano by omega) rest
    · split
      · next micros =>
        exact fraction?_padded (by decide) (by decide) (show nano / 1000 < 1000000 by omega)
          (show nano / 1000 * 1000 = nano by omega) rest
      · exact fraction?_padded (by decide) (by decide) small (Nat.mul_one nano) rest

theorem clock?_write {hour minute second nano : Nat} (hours : hour ≤ 23) (minutes : minute ≤ 59)
    (seconds : second ≤ 60) (small : nano < 1000000000) (rest : List Char) :
    clock? (padded 2 hour ++ ':' :: (padded 2 minute ++ ':' :: (padded 2 second ++
      (Instant.writeFraction nano ++ 'Z' :: rest)))) =
        some ((hour, minute, second, nano), 'Z' :: rest) := by
  simp only [clock?, part?_padded (Nat.zero_le _) hours (by omega),
    part?_padded (Nat.zero_le _) minutes (by omega), part?_padded (Nat.zero_le _) seconds (by omega),
    @mark?_cons ':' rfl, fraction?_writeFraction small, Option.bind_eq_bind, Option.bind_some]
  rfl

variable {instant : Instant}

theorem offset?_utc : offset? (skipBlank ['Z']) = some (0, []) := by
  decide +kernel

/-- The instant of a timestamp is read from it again, unless it lies inside a leap second. -/
theorem read?_write (inRange : instant.InRange) (unleaped : instant.leap = false) :
    read? instant.write = some instant := by
  obtain ⟨second, leap, nano⟩ := instant
  obtain rfl : leap = false := unleaped
  have whole : (Date.ofDays (second / 86400)).toDays * 86400 + ((second % 86400).toNat : Nat) = second := by
    rw [Date.toDays_ofDays]
    omega
  have inDay : (second % 86400).toNat < 86400 := by omega
  have date := date?_write (Date.valid_ofDays (second / 86400))
  simp only [Instant.write, List.append_assoc, List.cons_append, Bool.false_eq_true, if_false,
    Nat.add_zero]
  generalize (second % 86400).toNat = secondOfDay at *
  have clock := @clock?_write (secondOfDay / 3600) (secondOfDay / 60 % 60) (secondOfDay % 60) nano.val
    (by omega) (by omega) (by omega) nano.isLt []
  have counted : secondOfDay / 3600 * 3600 + secondOfDay / 60 % 60 * 60 + secondOfDay % 60 = secondOfDay := by
    omega
  have plain : (secondOfDay % 60 == 60) = false := beq_eq_false_iff_ne.mpr (by omega)
  simp only [read?, date, separator?, clock, offset?_utc, Option.bind_eq_bind, Option.bind_some,
    beq_self_eq_true, Bool.true_or, if_true, plain, Bool.false_eq_true, if_false, counted, whole, Int.sub_zero]
  have same : Instant.part nano.val = nano := Fin.ofNat_val_eq_self nano
  rw [same]
  exact if_pos ⟨rfl, by decide, inRange, inRange⟩

/-- What is read has a date. -/
theorem inRange_of_read? {text : List Char} (read : read? text = some instant) : instant.InRange := by
  simp only [read?, Option.bind_eq_bind, Option.bind_eq_some_iff, Option.ite_none_right_eq_some,
    Option.some.injEq] at read
  obtain ⟨_, _, _, _, _, _, _, _, ⟨_, _, _, inRange⟩, rfl⟩ := read
  exact inRange

end Timestamp

end ChessArbiter
