import Mathlib.Data.List.DropRight
import Mathlib.Data.List.TakeWhile
import ChessArbiter.Text.Blank
import ChessArbiter.Text.Numeral

/-! # Cutting texts at blanks

A trimmed text has a blank at neither end, so that trimming it again changes nothing. A text that is
written as parts with single spaces between them is cut into these parts again, into its fields if no
part holds a space, and into its words if no part is empty or holds a blank. The digits of a number are
such a part.
-/

namespace ChessArbiter.Text

variable {part : List Char}

theorem trimList_trimList (text : List Char) : trimList (trimList text) = trimList text := by
  have trimmed : trimList text = (text.dropWhile isBlank).rdropWhile isBlank := rfl
  have front : (trimList text).dropWhile isBlank = trimList text := by
    apply List.dropWhile_eq_self_iff.mpr
    intro nonempty
    have cut := List.dropWhile_eq_self_iff.mp (List.dropWhile_idempotent isBlank text)
    have begins := List.rdropWhile_prefix isBlank (text.dropWhile isBlank)
    rw [← trimmed] at begins
    rw [begins.getElem nonempty]
    exact cut (Nat.lt_of_lt_of_le nonempty begins.length_le)
  have back : (trimList text).rdropWhile isBlank = trimList text := by
    rw [trimmed]
    exact List.rdropWhile_idempotent isBlank _
  calc trimList (trimList text)
      = ((trimList text).dropWhile isBlank).rdropWhile isBlank := rfl
    _ = trimList text := by rw [front, back]

theorem mem_of_mem_trimList {text : List Char} {c : Char} (member : c ∈ trimList text) : c ∈ text := by
  have kept : c ∈ (text.dropWhile isBlank).rdropWhile isBlank := member
  exact (List.dropWhile_sublist isBlank).mem ((List.rdropWhile_prefix isBlank _).sublist.mem kept)

theorem trimList_of_unbroken {text : List Char} (unbroken : ∀ c ∈ text, isBlank c = false) :
    trimList text = text := by
  have front : text.dropWhile isBlank = text :=
    List.dropWhile_eq_self_iff.mpr fun nonempty =>
      Bool.eq_false_iff.mp (unbroken _ (List.getElem_mem nonempty))
  have back : text.rdropWhile isBlank = text :=
    List.rdropWhile_eq_self_iff.mpr fun nonempty =>
      Bool.eq_false_iff.mp (unbroken _ (List.getLast_mem nonempty))
  calc trimList text
      = (text.dropWhile isBlank).rdropWhile isBlank := rfl
    _ = text := by rw [front, back]

/-- What follows the last character that is not blank is all that trimming takes from the end. -/
theorem rdropWhile_append_cons (front rest : List Char) {last : Char} (unblank : isBlank last = false) :
    (front ++ last :: rest).rdropWhile isBlank = front ++ last :: rest.rdropWhile isBlank := by
  have stops : ¬ isBlank last = true := Bool.eq_false_iff.mp unblank
  induction rest using List.reverseRecOn with
  | nil => exact List.rdropWhile_concat_neg isBlank front last stops
  | append_singleton rest final ih =>
    rw [← List.cons_append, ← List.append_assoc, List.rdropWhile_concat, List.rdropWhile_concat]
    split
    · exact ih
    · rw [List.append_assoc, List.cons_append]

/-- A text that begins with a character that is not blank is trimmed at the end only. -/
theorem trimList_append_cons (front rest : List Char) {first last : Char}
    (begins : isBlank first = false) (ends : isBlank last = false) :
    trimList (first :: (front ++ last :: rest)) =
      first :: (front ++ last :: rest.rdropWhile isBlank) := by
  have stops : ¬ isBlank first = true := Bool.eq_false_iff.mp begins
  calc trimList (first :: (front ++ last :: rest))
      = ((first :: (front ++ last :: rest)).dropWhile isBlank).rdropWhile isBlank := rfl
    _ = ((first :: front) ++ last :: rest).rdropWhile isBlank := by
        rw [List.dropWhile_cons_of_neg stops, List.cons_append]
    _ = _ := rdropWhile_append_cons (first :: front) rest ends

/-- A single space separates words, whatever stands on its two sides. -/
theorem words_append_space (front rest : List Char) :
    words (front ++ ' ' :: rest) = words front ++ words rest := by
  rw [words, words, words, List.splitOnP_append_cons _ _ rfl, List.filter_append]

/-- No word goes beyond the field in which it begins. -/
theorem words_eq_flatMap_fields (text : List Char) : words text = (fields text).flatMap words := by
  have joined (parts : List (List Char)) :
      words ([' '].intercalate parts) = parts.flatMap words := by
    induction parts with
    | nil => rfl
    | cons part rest ih =>
      cases rest with
      | nil => rw [List.intercalate_singleton, List.flatMap_singleton]
      | cons next rest =>
        rw [List.intercalate_cons_cons, List.append_assoc, List.singleton_append,
          words_append_space, ih]
        rfl
  rw [← joined, fields, List.intercalate_splitOn]

theorem unspaced_of_mem_fields {text field : List Char} (member : field ∈ fields text) :
    ' ' ∉ field := by
  induction text generalizing field with
  | nil =>
    rw [List.mem_singleton.mp member]
    exact List.not_mem_nil
  | cons c text ih =>
    rw [fields, List.splitOn_cons_eq_if_modifyHead] at member
    split at member
    · rcases List.mem_cons.mp member with rfl | later
      · exact List.not_mem_nil
      · exact ih later
    · next other =>
      obtain ⟨first, rest, cut⟩ := List.exists_cons_of_ne_nil (List.splitOn_ne_nil ' ' text)
      rw [cut, List.modifyHead_cons] at member
      have behind : ∀ field ∈ first :: rest, ' ' ∉ field := fun _ inside =>
        ih (by rw [fields, cut]; exact inside)
      obtain ⟨head, later⟩ := List.forall_mem_cons.mp behind
      rcases List.mem_cons.mp member with rfl | inRest
      · intro inside
        rcases List.mem_cons.mp inside with rfl | inHead
        · exact other (beq_self_eq_true ' ')
        · exact head inHead
      · exact later field inRest

/-- A part of a text that is a word by itself. -/
structure Solid (part : List Char) : Prop where
  nonempty : part ≠ []
  unbroken : ∀ c ∈ part, isBlank c = false

namespace Solid

theorem of_all (nonempty : part ≠ []) (unbroken : part.all (!isBlank ·) = true) : Solid part :=
  ⟨nonempty, fun c member => (Bool.not_eq_true' _).mp (List.all_eq_true.mp unbroken c member)⟩

theorem unspaced (solid : Solid part) : ∀ c ∈ part, (c == ' ') = false := by
  intro c member
  rw [beq_eq_false_iff_ne]
  rintro rfl
  cases solid.unbroken ' ' member

theorem fields_append (solid : Solid part) (rest : List Char) :
    fields (part ++ ' ' :: rest) = part :: fields rest := by
  rw [fields, fields, List.splitOn_eq_splitOnP, List.splitOn_eq_splitOnP,
    List.splitOnP_append_cons _ _ rfl, List.splitOnP_eq_singleton solid.unspaced]
  rfl

theorem words_eq (solid : Solid part) : words part = [part] := by
  have kept : (!part.isEmpty) = true := by
    rw [List.isEmpty_eq_false_iff.mpr solid.nonempty, Bool.not_false]
  rw [words, List.splitOnP_eq_singleton solid.unbroken]
  exact List.filter_eq_self.mpr (List.forall_mem_singleton.mpr kept)

theorem words_append (solid : Solid part) (rest : List Char) :
    words (part ++ ' ' :: rest) = part :: words rest := by
  rw [words_append_space, solid.words_eq, List.singleton_append]

end Solid

theorem isBlank_of_isDigit {c : Char} (digit : c.isDigit = true) : isBlank c = false := by
  simp only [Char.isDigit, Bool.and_eq_true, decide_eq_true_eq, ge_iff_le,
    UInt32.le_iff_toNat_le] at digit
  have range : 48 ≤ c.toNat ∧ c.toNat ≤ 57 := digit
  simp only [isBlank, Bool.or_eq_false_iff, Bool.and_eq_false_iff, decide_eq_false_iff_not,
    beq_eq_false_iff_ne]
  omega

theorem isDigit_of_mem_digits {n : Nat} : ∀ c ∈ digits n, c.isDigit = true := fun _ member =>
  Nat.isDigit_of_mem_toDigits (by decide) (by decide) member

theorem solid_digits (n : Nat) : Solid (digits n) :=
  ⟨Nat.toDigits_ne_nil, fun c member => isBlank_of_isDigit (isDigit_of_mem_digits c member)⟩

end ChessArbiter.Text
