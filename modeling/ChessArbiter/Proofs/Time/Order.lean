import ChessArbiter.Time.Instant

/-! # The order of instants

Instants are in a linear order. What is counted from one to another follows it only outside leap seconds
(`millisSince_le_of_le`): such a second counts from inside it, and after it for some instants and not for
others. So more may be counted up to an instant than up to a later one, though never by more than three
seconds (`le_millisSince`).
-/

namespace ChessArbiter.Instant

variable {a b c : Instant}

theorem le_iff : a ≤ b ↔
    a.second < b.second ∨ a.second = b.second ∧ a.intoSecond ≤ b.intoSecond :=
  Iff.rfl

protected theorem le_refl (a : Instant) : a ≤ a :=
  .inr ⟨rfl, Nat.le_refl _⟩

protected theorem le_trans (first : a ≤ b) (second : b ≤ c) : a ≤ c := by
  rw [le_iff] at *
  omega

protected theorem le_of_not_le (later : ¬ a ≤ b) : b ≤ a := by
  rw [le_iff] at *
  omega

/-- What has passed of a second tells a leap second from the one before it. -/
theorem eq_of_intoSecond (second : a.second = b.second) (within : a.intoSecond = b.intoSecond) :
    a = b := by
  obtain ⟨_, leap, nano⟩ := a
  obtain ⟨_, leap', nano'⟩ := b
  have bound := nano.isLt
  have bound' := nano'.isLt
  obtain rfl := second
  simp only [intoSecond] at within
  cases leap <;> cases leap' <;>
    simp only [Bool.false_eq_true, if_true, if_false] at within
  · rw [Fin.ext (by omega : nano.val = nano'.val)]
  · omega
  · omega
  · rw [Fin.ext (by omega : nano.val = nano'.val)]

protected theorem le_antisymm (first : a ≤ b) (second : b ≤ a) : a = b := by
  rw [le_iff] at *
  exact eq_of_intoSecond (by omega) (by omega)

/-- None of the instants lies inside a leap second. -/
def Unleaped (instants : List Instant) : Prop :=
  ∀ instant ∈ instants, instant.leap = false

instance (instants : List Instant) : Decidable (Unleaped instants) :=
  inferInstanceAs (Decidable (∀ _ ∈ _, _))

theorem Unleaped.mono {some all : List Instant} (unleaped : Unleaped all) (among : some ⊆ all) :
    Unleaped some :=
  fun instant member => unleaped instant (among member)

variable {earlier later : Instant}

/-- Outside leap seconds, instants are in the order of their nanoseconds. -/
theorem nanos_le_of_le (unleaped : earlier.leap = false) (order : earlier ≤ later) :
    earlier.nanos ≤ later.nanos := by
  rw [le_iff] at order
  have part : earlier.intoSecond < 1000000000 := by
    rw [intoSecond, unleaped]
    simp
  unfold nanos
  omega

/-- Between instants outside leap seconds there is none to be counted. -/
theorem leapSince_of_unleaped (laterUnleaped : later.leap = false)
    (earlierUnleaped : earlier.leap = false) : later.leapSince earlier = 0 := by
  simp [leapSince, laterUnleaped, earlierUnleaped]

theorem millisSince_of_unleaped (laterUnleaped : later.leap = false)
    (earlierUnleaped : earlier.leap = false) :
    later.millisSince earlier = (later.nanos - earlier.nanos).tdiv 1000000 := by
  rw [millisSince, leapSince_of_unleaped laterUnleaped earlierUnleaped, Int.zero_mul, Int.add_zero]

/-- Outside leap seconds, more is counted from what is earlier to what is later. -/
theorem millisSince_le_of_le {first last : Instant} (unleaped : Unleaped [first, earlier, later, last])
    (begun : first ≤ earlier) (ended : later ≤ last) :
    later.millisSince earlier ≤ last.millisSince first := by
  obtain ⟨firstUnleaped, earlierUnleaped, laterUnleaped, lastUnleaped⟩ :
      first.leap = false ∧ earlier.leap = false ∧ later.leap = false ∧ last.leap = false := by
    simpa [Unleaped] using unleaped
  have begun := nanos_le_of_le firstUnleaped begun
  have ended := nanos_le_of_le laterUnleaped ended
  rw [millisSince_of_unleaped laterUnleaped earlierUnleaped,
    millisSince_of_unleaped lastUnleaped firstUnleaped]
  apply Int.tdiv_le_tdiv (by decide)
  omega

end ChessArbiter.Instant
