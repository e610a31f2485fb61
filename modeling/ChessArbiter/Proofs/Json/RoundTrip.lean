import Mathlib.Data.List.TakeDrop
import ChessArbiter.Json.Codec
import ChessArbiter.Proofs.Text.Blank

/-! # JSON that is written is read again

What is written of a value is read with the rest of the document behind it: a string ends at its closing
quotation mark, a number at a comma, a brace or the end, a record at its brace. The induction is on the
value; the depth that is left always exceeds the length of the text that is still to be read, so that the
bound on the nesting never stops it.
-/

namespace ChessArbiter

namespace Json

open Text

section Strings

variable {c : Char} {text rest : List Char}

/-- A character's code names no half of a surrogate pair. -/
theorem not_surrogate (c : Char) : isLeadSurrogate c.toNat = false ∧ isTrailSurrogate c.toNat = false := by
  have range : c.toNat < 0xd800 ∨ 0xdfff < c.toNat ∧ c.toNat < 0x110000 := c.valid
  simp only [isLeadSurrogate, isTrailSurrogate, Bool.and_eq_false_iff, decide_eq_false_iff_not]
  omega

theorem assemble_toNat (content : List Char) : assemble (content.map Char.toNat) = some content := by
  induction content with
  | nil => rfl
  | cons first content ih =>
    obtain ⟨noLead, noTrail⟩ := not_surrogate first
    cases content with
    | nil => simp [assemble, noLead, noTrail]
    | cons next content =>
      rw [List.map_cons, List.map_cons, assemble, noLead, noTrail, ← List.map_cons, ih]
      simp

theorem hexUnit?_digitChar : ∀ n < 0x20,
    hexUnit? '0' '0' (Nat.digitChar (n / 16)) (Nat.digitChar (n % 16)) = some n := by
  decide

theorem units_letter {letter : Char} (stands : escape? letter = some c) (notUnit : letter ≠ 'u')
    (text : List Char) : units ('\\' :: letter :: text) =
      (units text).map fun (following, rest) => (c.toNat :: following, rest) := by
  rw [units.eq_4 _ _ fun _ _ _ _ _ isUnit => (notUnit isUnit).elim, stands]
  cases units text <;> rfl

theorem units_unit (small : c.toNat < 0x20) (text : List Char) :
    units ('\\' :: 'u' :: '0' :: '0' :: Nat.digitChar (c.toNat / 16) :: Nat.digitChar (c.toNat % 16) ::
      text) = (units text).map fun (following, rest) => (c.toNat :: following, rest) := by
  rw [units, hexUnit?_digitChar _ small]
  cases units text <;> rfl

theorem units_plain (notQuote : c ≠ '"') (notBackslash : c ≠ '\\') (large : ¬ c.toNat < 0x20)
    (text : List Char) : units (c :: text) =
      (units text).map fun (following, rest) => (c.toNat :: following, rest) := by
  have kept : (decide (c.toNat < 0x20) || c == '\\') = false := by simp [large, notBackslash]
  rw [units.eq_5 _ _ notQuote (fun _ _ _ _ _ same => absurd same notBackslash)
    fun _ _ same => absurd same notBackslash, kept]
  cases units text <;> rfl

/-- However a character is written, it is read as one unit. -/
theorem units_escaped (c : Char) (text : List Char) : units (escaped c ++ text) =
    (units text).map fun (following, rest) => (c.toNat :: following, rest) := by
  by_cases named : c ∈ ['"', '\\', '\n', '\t', '\r', '\x08', '\x0c']
  · simp only [List.mem_cons, List.not_mem_nil, or_false] at named
    rcases named with rfl | rfl | rfl | rfl | rfl | rfl | rfl <;>
      exact units_letter rfl (by decide) text
  · simp only [List.mem_cons, List.not_mem_nil, or_false, not_or] at named
    simp only [escaped, named, if_false]
    split
    · next small => exact units_unit small text
    · next large => exact units_plain named.1 named.2.1 large text

theorem units_flatMap (content rest : List Char) :
    units (content.flatMap escaped ++ '"' :: rest) = some (content.map Char.toNat, rest) := by
  induction content with
  | nil => rfl
  | cons first content ih =>
    rw [List.flatMap_cons, List.append_assoc, units_escaped, ih]
    rfl

theorem readText_flatMap (content : String) (rest : List Char) :
    readText (content.toList.flatMap escaped ++ '"' :: rest) = some (some content, rest) := by
  simp only [readText, units_flatMap, Option.map_some, assemble_toNat, String.ofList_toList]

end Strings

section Numbers

variable {rest : List Char}

/-- What follows a value in a document: nothing, or the comma or the brace behind a field. -/
inductive Follows : List Char → Prop
  | nil : Follows []
  | comma (rest : List Char) : Follows (',' :: rest)
  | brace (rest : List Char) : Follows ('}' :: rest)

theorem Follows.not_digit (follows : Follows rest) : rest.takeWhile Char.isDigit = [] ∧
    rest.dropWhile Char.isDigit = rest := by
  cases follows with
  | nil => exact ⟨rfl, rfl⟩
  | comma => exact ⟨rfl, rfl⟩
  | brace => exact ⟨rfl, rfl⟩

/-- A number above zero is not written with a zero in front. -/
theorem head?_digits {n : Nat} (positive : 0 < n) : (digits n).head? ≠ some '0' := by
  induction n using Nat.strongRecOn with
  | ind n ih =>
    by_cases single : n < 10
    · rw [digits, Nat.toDigits_of_lt_base single, List.head?_cons, ne_eq, Option.some.injEq,
        Nat.digitChar_eq_zero]
      omega
    · have front := ih (n / 10) (by omega) (by omega)
      obtain ⟨first, others, written⟩ := List.exists_cons_of_ne_nil (solid_digits (n / 10)).nonempty
      rw [written] at front
      rw [digits] at written ⊢
      rw [Nat.toDigits_of_base_le (by decide) (by omega), written]
      exact front

theorem readDigits_append (follows : Follows rest) (n : Nat) :
    readDigits (digits n ++ rest) = some (digits n, rest) := by
  obtain ⟨stops, left⟩ := follows.not_digit
  have nonempty : (digits n).isEmpty = false := List.isEmpty_eq_false_iff.mpr (solid_digits n).nonempty
  rw [readDigits, List.span_eq_takeWhile_dropWhile, List.takeWhile_append_of_pos isDigit_of_mem_digits,
    List.dropWhile_append_of_pos isDigit_of_mem_digits, stops, left, List.append_nil]
  simp [nonempty]

theorem readWhole_append (follows : Follows rest) (n : Nat) :
    readWhole (digits n ++ rest) = some (digits n, rest) := by
  have plain : ((digits n).head? == some '0' && (digits n).length != 1) = false := by
    rcases Nat.eq_zero_or_pos n with rfl | positive
    · rfl
    · rw [beq_eq_false_iff_ne.mpr (head?_digits positive), Bool.false_and]
  simp only [readWhole, readDigits_append follows, plain, Bool.false_eq_true, if_false]

theorem readMagnitude_append (follows : Follows rest) (n : Nat) :
    readMagnitude (digits n ++ rest) = some (digits n, rest) := by
  have noFraction : readFraction rest = some ([], rest) := by cases follows <;> rfl
  have noExponent : readExponent rest = some ([], rest) := by cases follows <;> rfl
  simp only [readMagnitude, readWhole_append follows, noFraction, noExponent, Option.bind_eq_bind,
    Option.bind_some, List.append_nil]
  rfl

/-- Digits begin with no sign. -/
theorem exists_digits (n : Nat) : ∃ first others, digits n = first :: others ∧ first.isDigit = true := by
  obtain ⟨first, others, written⟩ := List.exists_cons_of_ne_nil (solid_digits n).nonempty
  exact ⟨first, others, written, isDigit_of_mem_digits first (written ▸ List.mem_cons_self)⟩

theorem readNumber_append (follows : Follows rest) (n : Int) :
    readNumber (integer n ++ rest) = some (integer n, rest) := by
  have read := readMagnitude_append follows n.natAbs
  unfold integer
  split
  · rw [List.cons_append, readNumber, read]
    rfl
  · obtain ⟨first, others, written, digit⟩ := exists_digits n.natAbs
    rw [written, List.cons_append] at read ⊢
    unfold readNumber
    split
    · next sign => cases sign; cases digit
    · exact read

theorem literalInteger?_integer (n : Int) : literalInteger? (integer n) = some n := by
  unfold integer
  split
  · next negative =>
    have nonzero : n.natAbs ≠ 0 := by omega
    have value : -(n.natAbs : Int) = n := by omega
    simp only [literalInteger?, digitsValue?_digits, Option.filter_some, nonzero, ne_eq,
      not_false_eq_true, decide_true, if_true]
    exact congrArg some value
  · next positive =>
    obtain ⟨first, others, written, digit⟩ := exists_digits n.natAbs
    have value := digitsValue?_digits n.natAbs
    rw [written] at value ⊢
    unfold literalInteger?
    split
    · next sign => cases sign; cases digit
    · rw [value, Option.map_some, Int.ofNat_eq_natCast, Int.natAbs_of_nonneg (by omega)]

end Numbers

/-- Values whose strings stand for texts and whose numbers are integers: those of which records are
made. -/
inductive Plain : Json → Prop
  | null : Plain .null
  | bool (value : Bool) : Plain (.bool value)
  | integer (n : Int) : Plain (.ofInt n)
  | string (content : String) : Plain (.ofString content)
  | record (fields : List (String × Json)) (each : ∀ field ∈ fields, Plain field.2) :
      Plain (.record fields)

section Values

variable {value : Json} {rest : List Char} {depth : Nat}

/-- The value is read from its text, whatever follows, if the depth that is left exceeds its length. -/
def ReadsBack (value : Json) : Prop :=
  ∀ depth rest, value.write.length < depth → Follows rest →
    readValue depth (value.write ++ rest) = some (value, rest)

/-- A depth that exceeds a length is not zero. -/
theorem ReadsBack.of_succ (reads : ∀ depth rest, value.write.length < depth + 1 → Follows rest →
    readValue (depth + 1) (value.write ++ rest) = some (value, rest)) : ReadsBack value := by
  intro depth rest deep follows
  cases depth with
  | zero => cases deep
  | succ depth => exact reads depth rest deep follows

theorem skipSpace_cons {c : Char} (plain : isSpace c = false) (rest : List Char) :
    skipSpace (c :: rest) = c :: rest :=
  List.dropWhile_cons_of_neg (Bool.eq_false_iff.mp plain)

theorem quoted_append (content : String) (rest : List Char) :
    quoted (some content) ++ rest = '"' :: (content.toList.flatMap escaped ++ '"' :: rest) := by
  simp only [quoted, Option.getD_some, List.cons_append, List.append_assoc, List.nil_append]

theorem readValue_quoted (content : String) (rest : List Char) :
    readValue (depth + 1) (quoted (some content) ++ rest) = some (.ofString content, rest) := by
  have read := readText_flatMap content rest
  rw [quoted_append]
  show (readText (content.toList.flatMap escaped ++ '"' :: rest)).map _ = _
  rw [read]
  rfl

/-- Neither a sign nor a digit begins anything else than a number. -/
theorem readValue_integer (follows : Follows rest) (n : Int) :
    readValue (depth + 1) (integer n ++ rest) = some (.ofInt n, rest) := by
  obtain ⟨first, others, written, number⟩ : ∃ first others, integer n ++ rest = first :: others ∧
      (first == '-' || first.isDigit) = true := by
    unfold integer
    split
    · exact ⟨_, _, rfl, rfl⟩
    · obtain ⟨first, others, written, digit⟩ := exists_digits n.natAbs
      exact ⟨first, others ++ rest, by rw [written, List.cons_append], by rw [digit, Bool.or_true]⟩
  have read := readNumber_append follows n
  have plain : isSpace first = false := by
    rw [Bool.eq_false_iff]
    intro space
    simp only [isSpace, Bool.or_eq_true, beq_iff_eq] at space
    rcases space with ((rfl | rfl) | rfl) | rfl <;> exact absurd number (by decide)
  rw [written] at read ⊢
  rw [readValue, skipSpace_cons plain]
  split
  · next same => cases same; exact absurd number (by decide)
  · next same => cases same; exact absurd number (by decide)
  · next same => cases same; exact absurd number (by decide)
  · next same => cases same; exact absurd number (by decide)
  · next same => cases same; exact absurd number (by decide)
  · next same => cases same; exact absurd number (by decide)
  · rw [read]
    rfl

section Fields

variable {name : String}

theorem readFields_comma (reads : ReadsBack value) (deep : value.write.length < depth)
    (rest : List Char) : readFields (depth + 1) (quoted (some name) ++ ':' :: value.write ++ ',' :: rest) =
      (readFields depth rest).map fun (fields, rest) => ((some name, value) :: fields, rest) := by
  have quote := readText_flatMap name (':' :: (value.write ++ ',' :: rest))
  have inner := reads depth (',' :: rest) deep (.comma rest)
  rw [List.append_assoc, List.cons_append, quoted_append]
  simp only [readFields, @skipSpace_cons '"' rfl, @skipSpace_cons ':' rfl, @skipSpace_cons ',' rfl, quote,
    inner, Option.bind_eq_bind, Option.bind_some]
  cases readFields depth rest <;> rfl

theorem readFields_brace (reads : ReadsBack value) (deep : value.write.length < depth)
    (rest : List Char) : readFields (depth + 1) (quoted (some name) ++ ':' :: value.write ++ '}' :: rest) =
      some ([(some name, value)], rest) := by
  have quote := readText_flatMap name (':' :: (value.write ++ '}' :: rest))
  have inner := reads depth ('}' :: rest) deep (.brace rest)
  rw [List.append_assoc, List.cons_append, quoted_append]
  simp only [readFields, @skipSpace_cons '"' rfl, @skipSpace_cons ':' rfl, @skipSpace_cons '}' rfl, quote,
    inner, Option.bind_eq_bind, Option.bind_some]
  rfl

/-- The fields of an object. -/
abbrev named (fields : List (String × Json)) : List (Json.Content × Json) :=
  fields.map fun field => (some field.1, field.2)

theorem readFields_writeFields {fields : List (String × Json)} (nonempty : fields ≠ [])
    (each : ∀ field ∈ fields, ReadsBack field.2)
    (deep : (writeFields (named fields)).length < depth) (rest : List Char) :
    readFields depth (writeFields (named fields) ++ '}' :: rest) = some (named fields, rest) := by
  induction fields generalizing depth with
  | nil => exact absurd rfl nonempty
  | cons field fields ih =>
    obtain ⟨name, value⟩ := field
    obtain ⟨reads, others⟩ := List.forall_mem_cons.mp each
    have reads : ReadsBack value := reads
    cases depth with
    | zero => cases deep
    | succ depth =>
      cases fields with
      | nil =>
        simp only [named, List.map_cons, List.map_nil, writeFields, List.length_append,
          List.length_cons] at deep ⊢
        rw [readFields_brace reads (by omega)]
      | cons next fields =>
        have behind := @ih depth (List.cons_ne_nil _ _) others
        simp only [named, List.map_cons, writeFields, List.length_append, List.length_cons] at deep behind ⊢
        rw [List.append_assoc, List.cons_append, readFields_comma reads (by omega), behind (by omega)]
        rfl

theorem exists_writeFields (field : String × Json) (fields : List (String × Json)) (rest : List Char) :
    ∃ text, writeFields (named (field :: fields)) ++ rest = '"' :: text := by
  cases fields with
  | nil => exact ⟨_, rfl⟩
  | cons next fields => exact ⟨_, rfl⟩

theorem readValue_record {fields : List (String × Json)} (each : ∀ field ∈ fields, ReadsBack field.2)
    (deep : (Json.record fields).write.length < depth + 1) (rest : List Char) :
    readValue (depth + 1) ((Json.record fields).write ++ rest) = some (.record fields, rest) := by
  have written : (Json.record fields).write ++ rest = '{' :: (writeFields (named fields) ++ '}' :: rest) := by
    simp only [record, write, List.cons_append, List.append_assoc, List.nil_append]
  rw [written]
  cases fields with
  | nil => rfl
  | cons field fields =>
    have short : (writeFields (named (field :: fields))).length < depth := by
      have deep : (write (.object (named (field :: fields)))).length < depth + 1 := deep
      simp only [write, List.length_append, List.length_cons, List.length_nil] at deep
      omega
    have read := readFields_writeFields (List.cons_ne_nil _ _) each short rest
    obtain ⟨text, begins⟩ := exists_writeFields field fields ('}' :: rest)
    rw [begins] at read ⊢
    show (readFields depth ('"' :: text)).map _ = _
    rw [read]
    rfl

end Fields

theorem Plain.readsBack (plain : value.Plain) : ReadsBack value := by
  induction plain with
  | null => exact .of_succ fun _ _ _ _ => rfl
  | bool value => cases value <;> exact .of_succ fun _ _ _ _ => rfl
  | integer n => exact .of_succ fun _ _ _ follows => readValue_integer follows n
  | string content => exact .of_succ fun _ rest _ _ => readValue_quoted content rest
  | record fields _ ih => exact .of_succ fun _ rest deep _ => readValue_record ih deep rest

/-- A plain value is read from its text. -/
theorem parse?_toText (plain : value.Plain) : parse? value.toText = some value := by
  have length : value.toText.length = value.write.length := by simp [toText]
  have read := plain.readsBack (2 * value.write.length + 2) [] (by omega) .nil
  rw [List.append_nil] at read
  rw [parse?, length, toText, String.toList_ofList, read]
  rfl

end Values

end Json

end ChessArbiter
