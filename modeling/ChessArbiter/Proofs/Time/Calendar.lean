import ChessArbiter.Time.Calendar

/-! # Days and dates

A day is counted from the first of March of its year, so that the leap day comes last and the months
before it begin on the same days of every year. The date of a day is the one day of its March year that
is left when the whole years before it are taken away; it exists in the calendar, and its number is that
day again.
-/

namespace ChessArbiter

namespace Date

/-- The days from the first of March of the year 0 to that of another year. -/
def marchDays (year : Int) : Int :=
  365 * year + year / 4 - year / 100 + year / 400

/-- The date so many days after the first of March. -/
def ofMarch (year : Int) (dayOfYear : Nat) : Date :=
  let month := (5 * dayOfYear + 2) / 153
  { year := if month < 10 then year else year + 1
    month := if month < 10 then month + 3 else month - 9
    day := dayOfYear - (153 * month + 2) / 5 + 1 }

/-- A year that ends with February has a leap day exactly if February has one. -/
theorem marchDays_succ (year : Int) :
    marchDays (year + 1) = marchDays year + if isLeapYear (year + 1) then 366 else 365 := by
  unfold marchDays isLeapYear
  split
  · next leap =>
    simp only [Bool.and_eq_true, Bool.or_eq_true, beq_iff_eq, bne_iff_ne] at leap
    omega
  · next common =>
    simp only [Bool.and_eq_true, Bool.or_eq_true, beq_iff_eq, bne_iff_ne] at common
    omega

/-- The days before the first of a year are the whole cycles, centuries, leap cycles and years before
it. -/
theorem marchDays_parts {cycle : Int} {century leapCycle year : Nat} (inCycle : century ≤ 3)
    (inCentury : leapCycle ≤ 24) (inLeapCycle : year ≤ 3) :
    marchDays (cycle * 400 + (century * 100 + leapCycle * 4 + year : Nat)) =
      cycle * 146097 + (century * 36524 + leapCycle * 1461 + year * 365 : Nat) := by
  unfold marchDays
  omega

variable {year : Int} {dayOfYear : Nat}

/-- The date so many days after the first of March, from March to December. -/
theorem ofMarch_of_lt (early : (5 * dayOfYear + 2) / 153 < 10) :
    ofMarch year dayOfYear = ⟨year, (5 * dayOfYear + 2) / 153 + 3,
      dayOfYear - (153 * ((5 * dayOfYear + 2) / 153) + 2) / 5 + 1⟩ := by
  simp only [ofMarch, if_pos early]

/-- The date so many days after the first of March, in January and February. -/
theorem ofMarch_of_ge (late : ¬ (5 * dayOfYear + 2) / 153 < 10) :
    ofMarch year dayOfYear = ⟨year + 1, (5 * dayOfYear + 2) / 153 - 9,
      dayOfYear - (153 * ((5 * dayOfYear + 2) / 153) + 2) / 5 + 1⟩ := by
  simp only [ofMarch, if_neg late]

theorem toDays_ofMarch (inYear : dayOfYear ≤ 365) :
    (ofMarch year dayOfYear).toDays = marchDays year + dayOfYear - 719468 := by
  by_cases early : (5 * dayOfYear + 2) / 153 < 10
  · have march : ¬ (5 * dayOfYear + 2) / 153 + 3 ≤ 2 := by omega
    rw [ofMarch_of_lt early]
    simp only [toDays, if_neg march, marchDays]
    omega
  · have january : (5 * dayOfYear + 2) / 153 - 9 ≤ 2 := by omega
    rw [ofMarch_of_ge early]
    simp only [toDays, if_pos january, marchDays, Int.add_sub_cancel]
    omega

theorem valid_ofMarch (inYear : marchDays year + dayOfYear < marchDays (year + 1)) :
    (ofMarch year dayOfYear).Valid := by
  rw [marchDays_succ] at inYear
  by_cases early : (5 * dayOfYear + 2) / 153 < 10
  · rw [ofMarch_of_lt early]
    have short : dayOfYear ≤ 365 := by split at inYear <;> omega
    unfold Valid daysInMonth
    dsimp only
    refine ⟨by omega, by omega, by omega, ?_⟩
    rw [if_neg (by omega)]
    split <;> omega
  · rw [ofMarch_of_ge early]
    unfold Valid daysInMonth
    dsimp only
    split at inYear
    · next leap =>
      simp only [leap, if_true]
      refine ⟨by omega, by omega, by omega, ?_⟩
      split
      · omega
      · split <;> omega
    · next common =>
      simp only [common, if_false, Bool.false_eq_true]
      refine ⟨by omega, by omega, by omega, ?_⟩
      split
      · omega
      · split <;> omega

/-- The date of a day lies in a year that begins on a first of March, as many days after it as are left
over. -/
theorem exists_ofMarch (days : Int) : ∃ year dayOfYear, ofDays days = ofMarch year dayOfYear ∧
    marchDays year + dayOfYear = days + 719468 ∧
    marchDays year + dayOfYear < marchDays (year + 1) := by
  have whole : (days + 719468) / 146097 * 146097 + ((days + 719468) % 146097).toNat = days + 719468 := by
    omega
  have inCycle : ((days + 719468) % 146097).toNat < 146097 := by omega
  generalize date : ofDays days = result
  unfold ofDays at date
  generalize (days + 719468) / 146097 = cycle at *
  generalize ((days + 719468) % 146097).toNat = dayOfCycle at *
  dsimp only at date
  generalize century : min (dayOfCycle / 36524) 3 = centuries at *
  generalize leapCycle : (dayOfCycle - centuries * 36524) / 1461 = leapCycles at *
  generalize rest : dayOfCycle - centuries * 36524 - leapCycles * 1461 = dayOfLeapCycle at *
  generalize ofLeapCycle : min (dayOfLeapCycle / 365) 3 = years at *
  have parts := @marchDays_parts cycle centuries leapCycles years (by omega) (by omega) (by omega)
  refine ⟨_, _, date.symm, by omega, ?_⟩
  rw [marchDays_succ, parts]
  -- The last day of a leap cycle is a leap day, and so is the last day of a century that ends a cycle.
  split
  · omega
  · next common =>
    simp only [isLeapYear, Bool.and_eq_true, Bool.or_eq_true, beq_iff_eq, bne_iff_ne] at common
    omega

theorem toDays_ofDays (days : Int) : (ofDays days).toDays = days := by
  obtain ⟨year, dayOfYear, date, left, inYear⟩ := exists_ofMarch days
  rw [marchDays_succ] at inYear
  have short : dayOfYear ≤ 365 := by
    split at inYear <;> omega
  rw [date, toDays_ofMarch short]
  omega

theorem valid_ofDays (days : Int) : (ofDays days).Valid := by
  obtain ⟨year, dayOfYear, date, _, inYear⟩ := exists_ofMarch days
  exact date ▸ valid_ofMarch inYear

end Date

end ChessArbiter
