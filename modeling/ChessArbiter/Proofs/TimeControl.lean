import Mathlib.Data.List.TakeDrop
import ChessArbiter.TimeControl
import ChessArbiter.Proofs.Text.Spelling

/-! # The grammar of time controls

A time control is written as the name of a preset, with letters of either case, or as minutes and an
increment with a plus sign between them (`TimeControl.Spelling`). A text is read as a time control exactly
if it is a spelling of it but for the blanks around it, as long as its minutes have less than `2 ^ 32`
seconds. What was read has whole minutes, so that its text, which says nothing of the time added after a
number of moves, is read as the same time control without that. Only the classical preset has such time.
-/

namespace ChessArbiter

namespace TimeControl

open Text

/-- The names of the presets. -/
inductive Preset : TimeControl → String → Prop
  | bullet : Preset bullet "bullet"
  | blitz : Preset blitz "blitz"
  | rapid : Preset rapid "rapid"
  | classical : Preset classical "classical"

/-- Minutes, at least one, and an increment on either side of the first plus sign, with blanks around
each. The increment may have a plus sign of its own. -/
inductive Counted (minutes increment : Nat) : List Char → Prop
  | parts {front back : List Char} (first : '+' ∉ front) (written : Numeral minutes (trimList front))
      (writtenToo : SignedNumeral increment (trimList back)) (positive : 0 < minutes)
      (small : minutes < UInt32.size) (smallToo : increment < UInt32.size) :
      Counted minutes increment (front ++ '+' :: back)

/-- How a time control is written. -/
inductive Spelling (control : TimeControl) (text : List Char) : Prop
  | preset {name : String} (named : Preset control name) (letters : AnyCase name.toList text)
  | counted {minutes increment : Nat} (counted : Counted minutes increment text)
      (initial : control.initial.toNat = 60 * minutes) (added : control.increment.toNat = increment)
      (never : control.extraAfter = 0) (nothing : control.extra = 0)

/-- The minutes that a text counts have less than `2 ^ 32` seconds. -/
def Bounded (text : List Char) : Prop :=
  ∀ minutes increment, Counted minutes increment text → 60 * minutes < UInt32.size

/-- The time control without what is added after a number of moves. -/
def basic (control : TimeControl) : TimeControl :=
  { control with extraAfter := 0, extra := 0 }

variable {control : TimeControl} {chars front back : List Char} {text name : String}
  {minutes increment : Nat}

theorem text_basic (control : TimeControl) : control.basic.text = control.text := rfl

namespace Preset

theorem small (named : Preset control name) : ∀ c ∈ name.toList, 97 ≤ c.toNat ∧ c.toNat ≤ 122 := by
  cases named <;> simp

/-- A name in either case is found in the table of presets. -/
theorem find?_eq_some (named : Preset control name) (letters : AnyCase name.toList chars) :
    (presets.find? fun preset => preset.1.toList == lowerAscii chars) = some (name, control) := by
  rw [(lowerAscii_eq_iff named.small).mpr letters]
  cases named <;> decide +kernel

/-- What is found in the table of presets is named by the text. -/
theorem of_find?_eq_some {preset : String × TimeControl}
    (found : (presets.find? fun preset => preset.1.toList == lowerAscii chars) = some preset) :
    Preset preset.2 preset.1 ∧ AnyCase preset.1.toList chars := by
  have named : Preset preset.2 preset.1 := by
    have member := List.mem_of_find?_eq_some found
    simp only [presets, List.mem_cons, List.not_mem_nil, or_false] at member
    rcases member with rfl | rfl | rfl | rfl
    · exact .bullet
    · exact .blitz
    · exact .rapid
    · exact .classical
  have same := List.find?_some found
  exact ⟨named, (lowerAscii_eq_iff named.small).mp (eq_of_beq same).symm⟩

/-- The presets begin with whole minutes. -/
theorem whole (named : Preset control name) :
    ∃ minutes, 0 < minutes ∧ control.initial.toNat = 60 * minutes := by
  cases named with
  | bullet => exact ⟨1, by decide, rfl⟩
  | blitz => exact ⟨5, by decide, rfl⟩
  | rapid => exact ⟨15, by decide, rfl⟩
  | classical => exact ⟨90, by decide, rfl⟩

end Preset

/-- A text is cut at its first plus sign. -/
theorem cut?_eq_some_iff :
    cut? chars = some (front, back) ↔ chars = front ++ '+' :: back ∧ '+' ∉ front := by
  unfold cut?
  rw [List.span_eq_takeWhile_dropWhile]
  constructor
  · intro cut
    split at cut
    · next minutes sign increment parts =>
      obtain ⟨rfl, rfl⟩ := Prod.mk.inj (Option.some.inj cut)
      obtain ⟨before, after⟩ := Prod.mk.inj parts
      have stops := List.head?_dropWhile_not (· != '+') chars
      rw [after, List.head?_cons] at stops
      obtain rfl : sign = '+' := by simpa using stops
      have whole : minutes ++ '+' :: increment = chars := by
        rw [← before, ← after, List.takeWhile_append_dropWhile]
      refine ⟨whole.symm, fun member => ?_⟩
      have other := List.mem_takeWhile_imp (before ▸ member)
      exact absurd rfl (bne_iff_ne.mp other)
    · cases cut
  · rintro ⟨rfl, first⟩
    have others : ∀ c ∈ front, (c != '+') = true := by
      intro c member
      rw [bne_iff_ne]
      rintro rfl
      exact first member
    rw [List.takeWhile_append_of_pos others, List.dropWhile_append_of_pos others]
    simp

theorem ofParts?_eq_some_iff : ofParts? front back = some control ↔
    ∃ minutes increment : UInt32, natural32? (trimList front) = some minutes ∧
      natural32? (trimList back) = some increment ∧ minutes ≠ 0 ∧
      control = ⟨minutes * 60, increment, 0, 0⟩ := by
  simp only [ofParts?, Option.bind_eq_bind, Option.bind_eq_some_iff, Option.ite_none_left_eq_some,
    Option.some.injEq]
  constructor
  · rintro ⟨minutes, read, increment, readToo, nonzero, rfl⟩
    exact ⟨minutes, increment, read, readToo, nonzero, rfl⟩
  · rintro ⟨minutes, increment, read, readToo, nonzero, rfl⟩
    exact ⟨minutes, read, increment, readToo, nonzero, rfl⟩

/-- The parts of a text are read exactly if it counts minutes and an increment. -/
theorem parts_eq_some_iff :
    ((cut? chars).bind fun (minutes, increment) => ofParts? minutes increment) = some control ↔
      ∃ minutes increment : UInt32, Counted minutes.toNat increment.toNat chars ∧
        control = ⟨minutes * 60, increment, 0, 0⟩ := by
  have positive (minutes : UInt32) : minutes ≠ 0 ↔ 0 < minutes.toNat := by
    rw [Nat.pos_iff_ne_zero, ne_eq, ne_eq, ← UInt32.toNat_inj]
    rfl
  rw [Option.bind_eq_some_iff]
  constructor
  · rintro ⟨⟨front, back⟩, cut, made⟩
    obtain ⟨rfl, first⟩ := cut?_eq_some_iff.mp cut
    obtain ⟨minutes, increment, read, readToo, nonzero, rfl⟩ := ofParts?_eq_some_iff.mp made
    have written := (natural32?_eq_some_iff.mp read).unsigned fun member =>
      first (mem_of_mem_trimList member)
    exact ⟨minutes, increment, .parts first written (natural32?_eq_some_iff.mp readToo)
      ((positive minutes).mp nonzero) minutes.toNat_lt_size increment.toNat_lt_size, rfl⟩
  · rintro ⟨minutes, increment, counted, rfl⟩
    cases counted with
    | @parts front back first written writtenToo some _ _ =>
      refine ⟨(front, back), cut?_eq_some_iff.mpr ⟨rfl, first⟩, ofParts?_eq_some_iff.mpr ?_⟩
      exact ⟨minutes, increment, natural32?_eq_some_iff.mpr (.plain written),
        natural32?_eq_some_iff.mpr writtenToo, (positive minutes).mpr some, rfl⟩

theorem Counted.bounds (counted : Counted minutes increment chars) :
    0 < minutes ∧ minutes < UInt32.size ∧ increment < UInt32.size := by
  cases counted with
  | parts _ _ _ positive small smallToo => exact ⟨positive, small, smallToo⟩

/-- No preset has a plus sign in its name. -/
theorem Counted.find?_eq_none (counted : Counted minutes increment chars) :
    (presets.find? fun preset => preset.1.toList == lowerAscii chars) = none := by
  cases found : presets.find? fun preset => preset.1.toList == lowerAscii chars with
  | none => rfl
  | some preset =>
    obtain ⟨named, letters⟩ := Preset.of_find?_eq_some found
    cases counted with
    | parts =>
      have lower := (lowerAscii_eq_iff named.small).mpr letters
      have sign : '+' ∈ preset.1.toList := by
        rw [← lower, lowerAscii, List.map_append, List.map_cons]
        exact List.mem_append_right _ List.mem_cons_self
      exact absurd (named.small '+' sign).1 (by decide)

/-- What is read from a text is the preset that it names, or the minutes, wrapped around where they are too
many, and the increment that it counts. -/
theorem read?_eq_some_iff : read? chars = some control ↔
    (∃ name, Preset control name ∧ AnyCase name.toList (trimList chars)) ∨
      ∃ minutes increment : UInt32, Counted minutes.toNat increment.toNat (trimList chars) ∧
        control = ⟨minutes * 60, increment, 0, 0⟩ := by
  unfold read?
  dsimp only
  constructor
  · intro read
    split at read
    · next preset found =>
      obtain rfl := Option.some.inj read
      exact .inl ⟨preset.1, Preset.of_find?_eq_some found⟩
    · exact .inr (parts_eq_some_iff.mp read)
  · rintro (⟨name, named, letters⟩ | ⟨minutes, increment, counted, made⟩)
    · rw [named.find?_eq_some letters]
    · rw [counted.find?_eq_none]
      exact parts_eq_some_iff.mpr ⟨minutes, increment, counted, made⟩

theorem ofText?_eq_ok_iff : ofText? text = .ok control ↔ read? text.toList = some control := by
  unfold ofText?
  split
  · next read => rw [read, Except.ok.injEq, Option.some.injEq]
  · next unread => exact iff_of_false nofun (unread ▸ nofun)

/-- As long as they are few, the minutes are the seconds with which a side begins. -/
theorem toNat_mul_sixty {minutes : UInt32} (fits : 60 * minutes.toNat < UInt32.size) :
    (minutes * 60).toNat = 60 * minutes.toNat := by
  rw [UInt32.toNat_mul, Nat.mul_comm]
  exact Nat.mod_eq_of_lt fits

/-- The minutes of a text are the digits in front of its plus sign. -/
theorem bounded_of_cut? (few : ∀ parts ∈ cut? chars, ∀ minutes ∈ digitsValue? (trimList parts.1),
    60 * minutes < UInt32.size) : Bounded chars := by
  intro minutes increment counted
  cases counted with
  | @parts front back first written =>
    exact few (front, back) (cut?_eq_some_iff.mpr ⟨rfl, first⟩) minutes
      (digitsValue?_eq_some_iff.mpr written)

namespace Spelling

/-- A spelling is read as what it spells. -/
theorem ofText?_eq_ok (spelling : control.Spelling (trimList text.toList)) :
    ofText? text = .ok control := by
  rw [ofText?_eq_ok_iff, read?_eq_some_iff]
  cases spelling with
  | preset named letters => exact .inl ⟨_, named, letters⟩
  | @counted minutes increment counted initial added never nothing =>
    subst added
    have fits : 60 * minutes < UInt32.size := initial ▸ control.initial.toNat_lt_size
    have small : (UInt32.ofNat minutes).toNat = minutes := UInt32.toNat_ofNat_of_lt' counted.bounds.2.1
    have product : control.initial = UInt32.ofNat minutes * 60 := by
      rw [← UInt32.toNat_inj, toNat_mul_sixty (small.symm ▸ fits), small, initial]
    refine .inr ⟨UInt32.ofNat minutes, control.increment, small.symm ▸ counted, ?_⟩
    cases control
    simp_all only

/-- Whatever is spelled begins with whole minutes, at least one. -/
theorem whole (spelling : control.Spelling chars) :
    ∃ minutes, 0 < minutes ∧ control.initial.toNat = 60 * minutes := by
  cases spelling with
  | preset named _ => exact named.whole
  | counted counted initial => exact ⟨_, counted.bounds.1, initial⟩

/-- Only a spelling of the classical preset has time added after a number of moves. -/
theorem eq_basic (spelling : control.Spelling chars) (other : ¬ AnyCase "classical".toList chars) :
    control = control.basic := by
  cases spelling with
  | preset named letters =>
    cases named with
    | classical => exact absurd letters other
    | _ => rfl
  | counted _ _ _ never nothing =>
    cases control
    simp_all only [basic]

end Spelling

/-- A text whose minutes are few enough is read as what it spells, and refused if it spells nothing. -/
theorem ofText?_eq_ok_iff_spelling (bounded : Bounded (trimList text.toList)) :
    ofText? text = .ok control ↔ control.Spelling (trimList text.toList) := by
  refine ⟨fun read => ?_, Spelling.ofText?_eq_ok⟩
  rcases read?_eq_some_iff.mp (ofText?_eq_ok_iff.mp read) with
    ⟨name, named, letters⟩ | ⟨minutes, increment, counted, rfl⟩
  · exact .preset named letters
  · exact .counted counted (toNat_mul_sixty (bounded _ _ counted)) rfl rfl rfl

/-- A text is read as some time control exactly if it names a preset or counts minutes. -/
theorem exists_ofText?_iff : (∃ control, ofText? text = .ok control) ↔
    (∃ control name, Preset control name ∧ AnyCase name.toList (trimList text.toList)) ∨
      ∃ minutes increment, Counted minutes increment (trimList text.toList) := by
  simp only [ofText?_eq_ok_iff, read?_eq_some_iff]
  constructor
  · rintro ⟨control, named | ⟨minutes, increment, counted, -⟩⟩
    · exact .inl ⟨control, named⟩
    · exact .inr ⟨_, _, counted⟩
  · rintro (⟨control, named⟩ | ⟨minutes, increment, counted⟩)
    · exact ⟨control, .inl named⟩
    · obtain ⟨-, small, smallToo⟩ := counted.bounds
      refine ⟨_, .inr ⟨UInt32.ofNat minutes, UInt32.ofNat increment, ?_, rfl⟩⟩
      rw [UInt32.toNat_ofNat_of_lt' small, UInt32.toNat_ofNat_of_lt' smallToo]
      exact counted

/-- The text of a time control that begins with whole minutes spells the same without what is added after
a number of moves. -/
theorem spelling_text (positive : 0 < minutes) (whole : control.initial.toNat = 60 * minutes) :
    control.basic.Spelling (trimList control.text.toList) := by
  have quotient : control.initial.toNat / 60 = minutes := by omega
  have written : control.text.toList = digits minutes ++ '+' :: digits control.increment.toNat := by
    rw [TimeControl.text, String.toList_ofList, quotient]
  have unbroken : ∀ c ∈ digits minutes ++ '+' :: digits control.increment.toNat, isBlank c = false := by
    rw [List.forall_mem_append, List.forall_mem_cons]
    exact ⟨(solid_digits _).unbroken, by decide, (solid_digits _).unbroken⟩
  have trimmed (n : Nat) : trimList (digits n) = digits n := trimList_of_unbroken (solid_digits n).unbroken
  have few : minutes < UInt32.size := by
    have bound := control.initial.toNat_lt_size
    omega
  rw [written, trimList_of_unbroken unbroken]
  refine .counted (.parts (numeral_digits minutes).not_plus_mem ?_ ?_ positive few
    control.increment.toNat_lt_size) whole rfl rfl rfl
  · rw [trimmed]
    exact numeral_digits minutes
  · rw [trimmed]
    exact .plain (numeral_digits _)

/-- A text whose minutes have less than `2 ^ 32` seconds is read as a time control exactly if, without the
blanks around it, it is the name of a preset in letters of either case, or minutes, at least one, and an
increment on either side of its first plus sign; and it is read as the preset, or as that many minutes and
that increment and nothing else. What was read is read again from its own text unless the text was a
spelling of the classical preset, and in any case something with the same text is. -/
theorem reads_and_prints (text : String) (bounded : Bounded (trimList text.toList)) :
    ((∃ control, ofText? text = .ok control) ↔
      (∃ control name, Preset control name ∧ AnyCase name.toList (trimList text.toList)) ∨
        ∃ minutes increment, Counted minutes increment (trimList text.toList)) ∧
    (∀ control, ofText? text = .ok control ↔ control.Spelling (trimList text.toList)) ∧
    ∀ control, ofText? text = .ok control →
      (¬ AnyCase "classical".toList (trimList text.toList) → ofText? control.text = .ok control) ∧
      ∃ again, ofText? control.text = .ok again ∧ again.text = control.text := by
  refine ⟨exists_ofText?_iff, fun _ => ofText?_eq_ok_iff_spelling bounded, fun control read => ?_⟩
  have spelling := (ofText?_eq_ok_iff_spelling bounded).mp read
  obtain ⟨minutes, positive, whole⟩ := spelling.whole
  have again : ofText? control.text = .ok control.basic := (spelling_text positive whole).ofText?_eq_ok
  refine ⟨fun other => ?_, control.basic, again, control.text_basic⟩
  rw [again, ← spelling.eq_basic other]

/-- Minutes with a zero in front and an increment with a sign of its own are the blitz preset, and are
read again as it. The classical preset is not, although the text stays the same. -/
theorem reads_and_prints_of_signed :
    Bounded (trimList "\u00a005 + +3\n".toList) ∧ ofText? "\u00a005 + +3\n" = .ok blitz ∧
      ofText? blitz.text = .ok blitz ∧
    Bounded (trimList " ClassicaL".toList) ∧ ofText? " ClassicaL" = .ok classical ∧
      ofText? classical.text ≠ .ok classical ∧
      ∃ again, ofText? classical.text = .ok again ∧ again.text = classical.text := by
  have bounded : Bounded (trimList "\u00a005 + +3\n".toList) := bounded_of_cut? (by decide +kernel)
  have boundedToo : Bounded (trimList " ClassicaL".toList) := bounded_of_cut? (by decide +kernel)
  obtain ⟨-, spellings, again⟩ := reads_and_prints _ bounded
  obtain ⟨-, spellingsToo, againToo⟩ := reads_and_prints _ boundedToo
  have counted : Counted 5 3 (trimList "\u00a005 + +3\n".toList) := by
    have parts : trimList "\u00a005 + +3\n".toList = ['0', '5', ' '] ++ '+' :: [' ', '+', '3'] := by
      decide +kernel
    rw [parts]
    exact .parts (by decide) (digitsValue?_eq_some_iff.mp (by decide +kernel))
      (natural?_eq_some_iff.mp (by decide +kernel)) (by decide) (by decide) (by decide)
  have read := (spellings blitz).mpr (.counted counted rfl rfl rfl rfl)
  have letters : AnyCase "classical".toList (trimList " ClassicaL".toList) :=
    (lowerAscii_eq_iff Preset.classical.small).mp (by decide +kernel)
  have readToo := (spellingsToo classical).mpr (.preset .classical letters)
  have other : ¬ AnyCase "classical".toList (trimList "\u00a005 + +3\n".toList) := by
    rw [← lowerAscii_eq_iff Preset.classical.small]
    decide +kernel
  exact ⟨bounded, read, (again blitz read).1 other, boundedToo, readToo, by decide +kernel,
    (againToo classical readToo).2⟩

end TimeControl

end ChessArbiter
