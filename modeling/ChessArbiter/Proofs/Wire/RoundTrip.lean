import ChessArbiter.Proofs.Json.RoundTrip
import ChessArbiter.Proofs.Time.Timestamp
import ChessArbiter.Wire.Records

/-! # Records and enumerations read from their own texts

The JSON form of a record is plain, and its fields are found in it under their names, of which no two are
the same; so a record is decoded from its form if the values of its fields are. The only values that do
not come back are instants without a date, which are never read, and those inside leap seconds.
-/

namespace ChessArbiter

namespace Json

variable {fields : List (String × Json)}

theorem filter_named {field : String × Json} (distinct : (fields.map (·.1)).Nodup)
    (member : field ∈ fields) : (named fields).filter (fun other => other.1 == some field.1) =
      [(some field.1, field.2)] := by
  induction fields with
  | nil => cases member
  | cons head tail ih =>
    obtain ⟨fresh, distinct⟩ := List.nodup_cons.mp distinct
    rcases List.mem_cons.mp member with rfl | behind
    · have others : (named tail).filter (fun other => other.1 == some field.1) = [] := by
        simp only [named, List.filter_eq_nil_iff, List.forall_mem_map, beq_iff_eq, Option.some.injEq]
        exact fun other behind same => fresh (List.mem_map.mpr ⟨other, behind, same⟩)
      rw [named, List.map_cons, List.filter_cons, if_pos (beq_self_eq_true _), others]
    · have apart : ¬ ((some head.1 : Content) == some field.1) = true := by
        rw [beq_iff_eq, Option.some.injEq]
        exact fun same => fresh (List.mem_map.mpr ⟨field, behind, same.symm⟩)
      rw [named, List.map_cons, List.filter_cons, if_neg apart]
      exact ih distinct behind

theorem mapM_eq_some_map {β γ δ : Type} {read : γ → Option δ} {form : β → γ} {content : β → δ}
    {items : List β} (each : ∀ item ∈ items, read (form item) = some (content item)) :
    (items.map form).mapM read = some (items.map content) := by
  induction items with
  | nil => rfl
  | cons item items ih =>
    obtain ⟨first, others⟩ := List.forall_mem_cons.mp each
    simp only [List.map_cons, List.mapM_cons, first, ih others, Option.bind_eq_bind, Option.bind_some]
    rfl

/-- The fields of a record are found under their names. -/
theorem fields?_record {names : List String} (distinct : names.Nodup)
    (spelt : fields.map (·.1) = names) :
    (Json.record fields).fields? names = some (fields.map fun field => some field.2) := by
  subst spelt
  have known : (named fields).all (·.1.isSome) = true := by simp [named]
  have found : (fields.map (·.1)).mapM (field? (named fields)) =
      some (fields.map fun field => some field.2) := by
    refine mapM_eq_some_map fun field member => ?_
    rw [field?, filter_named distinct member]
  exact (if_pos known).trans found

theorem record?_record {names : List String} (distinct : names.Nodup)
    (spelt : fields.map (·.1) = names) : (Json.record fields).record? names = some (fields.map (·.2)) := by
  rw [record?, fields?_record distinct spelt, Option.bind_some]
  exact mapM_eq_some_map fun _ _ => rfl

theorem integer?_ofInt (n : Int) : (ofInt n).integer? = some n :=
  literalInteger?_integer n

theorem ofNat_eq_ofInt (n : Nat) : ofNat n = ofInt n := by
  simp [ofNat, ofInt, Text.integer]

theorem natural32?_ofNat (n : UInt32) : (ofNat n.toNat).natural32? = some n := by
  have small : (0 : Int) ≤ n.toNat ∧ (n.toNat : Int) < UInt32.size :=
    ⟨by omega, by exact_mod_cast n.toNat_lt⟩
  rw [natural32?, ofNat_eq_ofInt, integer?_ofInt, Option.bind_some, if_pos small, Int.toNat_natCast,
    UInt32.ofNat_toNat]

theorem integer32?_ofInt (n : Int32) : (ofInt n.toInt).integer32? = some n := by
  rw [integer32?, integer?_ofInt, Option.bind_some, if_pos ⟨n.minValue_le_toInt, n.toInt_le⟩,
    Int32.ofInt_toInt]

theorem enumerated?_ofString {α : Type} {values : List α} {name : α → String} {value : α}
    (found : values.find? (fun candidate => name candidate == name value) = some value) :
    enumerated? values name (ofString (name value)) = some value :=
  found

end Json

namespace Encoding

/-- The form of a value is plain, and the value is decoded from it. -/
structure Decodes {α : Type} [Encoding α] (value : α) : Prop where
  plain : (encode value).Plain
  decoded : decode? (encode value) = some value

variable {α : Type} [Encoding α] {value : α}

/-- A record is decoded from its form if its fields are plain and make the value again. -/
theorem Decodes.of_record {fields : List (String × Json)} {names : List String}
    {make : List Json → Option α} (form : encode value = .record fields)
    (reading : decode? (Json.record fields) = ((Json.record fields).record? names).bind make)
    (distinct : names.Nodup) (spelt : fields.map (·.1) = names) (each : ∀ field ∈ fields, field.2.Plain)
    (made : make (fields.map (·.2)) = some value) : Decodes value where
  plain := form ▸ .record fields each
  decoded := by rw [form, reading, Json.record?_record distinct spelt, Option.bind_some, made]

/-- A value that is decoded from its form is read from its text. -/
theorem Decodes.ofText?_text (decodes : Decodes value) : ofText? (text value) = some value := by
  rw [ofText?, text, Json.parse?_toText decodes.plain, Option.bind_some, decodes.decoded]

/-- The values that can be written come back from their texts. The text of a value that has been read is
canonical: the same value is read from it, and has it for its text. Both are said of the values that fall
into no leap second. -/
structure RoundTrips (α : Type) [Encoding α] (writable unleaped : α → Prop) : Prop where
  back : ∀ value : α, writable value → unleaped value → ofText? (text value) = some value
  canonical : ∀ (accepted : String) (value : α), ofText? accepted = some value → unleaped value →
    ofText? (text value) = some value ∧
      (ofText? (text value)).map (fun again : α => text again) = some (text value)

theorem RoundTrips.of_decodes {writable unleaped : α → Prop}
    (decodes : ∀ value, writable value → unleaped value → Decodes value)
    (read : ∀ accepted value, ofText? accepted = some value → writable value) :
    RoundTrips α writable unleaped where
  back value written plain := (decodes value written plain).ofText?_text
  canonical accepted value known plain := by
    have back := (decodes value (read accepted value known) plain).ofText?_text
    exact ⟨back, by rw [back, Option.map_some]⟩

/-- Where every value is decoded from its form, all of them come back. -/
theorem RoundTrips.of_all (decodes : ∀ value : α, Decodes value) :
    RoundTrips α (fun _ => True) (fun _ => True) :=
  .of_decodes (fun value _ _ => decodes value) fun _ _ _ => trivial

end Encoding

open Encoding

theorem MoveRequest.decodes (request : MoveRequest) : Decodes request := by
  obtain ⟨source, target, promotion⟩ := request
  constructor
  · refine .record _ ?_
    simp only [List.forall_mem_cons, List.not_mem_nil, false_implies, implies_true, and_true]
    refine ⟨.string _, .string _, ?_⟩
    cases promotion with
    | none => exact .null
    | some promotion => exact .string promotion
  · simp only [encode, decode?, Option.bind_eq_bind]
    rw [Json.fields?_record]
    · cases promotion <;> rfl
    · decide
    · rfl

theorem TimeControl.decodes (control : TimeControl) : Decodes control := by
  refine .of_record rfl rfl (by decide) rfl ?_ ?_
  · simp only [List.forall_mem_cons, List.not_mem_nil, false_implies, implies_true, and_true,
      Json.ofNat_eq_ofInt]
    exact ⟨.integer _, .integer _, .integer _, .integer _⟩
  · simp only [List.map_cons, List.map_nil, Option.bind_eq_bind, Option.bind_some, Json.natural32?_ofNat]

theorem Challenge.decodes (challenge : Challenge) : Decodes challenge := by
  have control := challenge.timeControl.decodes
  refine .of_record rfl rfl (by decide) rfl ?_ ?_
  · simp only [List.forall_mem_cons, List.not_mem_nil, false_implies, implies_true, and_true]
    exact ⟨.string _, .string _, .bool _, .bool _, control.plain⟩
  · simp only [List.map_cons, List.map_nil, Option.bind_eq_bind, Option.bind_some, control.decoded,
      Json.ofString, Json.string?, Json.bool?]

theorem ClientProfile.decodes (profile : ClientProfile) : Decodes profile := by
  refine .of_record rfl rfl (by decide) rfl ?_ ?_
  · simp only [List.forall_mem_cons, List.not_mem_nil, false_implies, implies_true, and_true]
    exact ⟨.string _, .integer _, .integer _, .integer _⟩
  · simp only [List.map_cons, List.map_nil, Option.bind_eq_bind, Option.bind_some, Json.integer32?_ofInt,
      Json.ofString, Json.string?]

theorem Instant.decodes {instant : Instant} (inRange : instant.InRange)
    (unleaped : instant.leap = false) : Decodes instant := by
  have written : instant.toText.toList = instant.write := String.toList_ofList
  refine ⟨Json.Plain.string instant.toText, ?_⟩
  simp only [encode, decode?, Json.ofString, Json.string?, Option.bind_some, written]
  exact Timestamp.read?_write inRange unleaped

theorem QueuedClient.decodes {client : QueuedClient} (inRange : client.joinedAt.InRange)
    (unleaped : client.joinedAt.leap = false) : Decodes client := by
  have profile := client.profile.decodes
  have joinedAt := Instant.decodes inRange unleaped
  refine .of_record rfl rfl (by decide) rfl ?_ ?_
  · simp only [List.forall_mem_cons, List.not_mem_nil, false_implies, implies_true, and_true]
    exact ⟨profile.plain, joinedAt.plain⟩
  · simp only [List.map_cons, List.map_nil, Option.bind_eq_bind, Option.bind_some, profile.decoded,
      joinedAt.decoded]

/-- A client is read only with an instant that has a date. -/
theorem QueuedClient.inRange_of_decode? {form : Json} {client : QueuedClient}
    (decoded : decode? form = some client) : client.joinedAt.InRange := by
  simp only [decode?, Option.bind_eq_bind, Option.bind_eq_some_iff] at decoded
  obtain ⟨values, _, made⟩ := decoded
  split at made
  · simp only [Option.bind_eq_some_iff, Option.some.injEq] at made
    obtain ⟨_, _, joinedAt, ⟨text, _, read⟩, rfl⟩ := made
    exact Timestamp.inRange_of_read? read
  · cases made

theorem Role.decodes (role : Role) : Decodes role := by
  refine ⟨.string _, Json.enumerated?_ofString ?_⟩
  cases role <;> decide +kernel

theorem ChallengeResolution.decodes (resolution : ChallengeResolution) : Decodes resolution := by
  refine ⟨.string _, Json.enumerated?_ofString ?_⟩
  cases resolution <;> decide +kernel

theorem MatchResult.decodes (result : MatchResult) : Decodes result := by
  refine ⟨.string _, Json.enumerated?_ofString ?_⟩
  rcases result with _ | ⟨_ | _, _ | _ | _⟩ | _ | _ | _ | _ <;> decide +kernel

/-- Every value of the types that are read comes back from its text, and the text of whatever was read is
canonical. A waiting client must have joined at an instant with a date and outside leap seconds. -/
theorem json_round_trip :
    RoundTrips MoveRequest (fun _ => True) (fun _ => True) ∧
    RoundTrips TimeControl (fun _ => True) (fun _ => True) ∧
    RoundTrips Challenge (fun _ => True) (fun _ => True) ∧
    RoundTrips ClientProfile (fun _ => True) (fun _ => True) ∧
    RoundTrips QueuedClient (·.joinedAt.InRange) (·.joinedAt.leap = false) ∧
    RoundTrips Role (fun _ => True) (fun _ => True) ∧
    RoundTrips MatchResult (fun _ => True) (fun _ => True) ∧
    RoundTrips ChallengeResolution (fun _ => True) (fun _ => True) := by
  have clients : RoundTrips QueuedClient (·.joinedAt.InRange) (·.joinedAt.leap = false) := by
    refine .of_decodes (fun client => QueuedClient.decodes) fun accepted client read => ?_
    obtain ⟨form, _, decoded⟩ := Option.bind_eq_some_iff.mp read
    exact QueuedClient.inRange_of_decode? decoded
  exact ⟨.of_all MoveRequest.decodes, .of_all TimeControl.decodes, .of_all Challenge.decodes,
    .of_all ClientProfile.decodes, clients, .of_all Role.decodes, .of_all MatchResult.decodes,
    .of_all ChallengeResolution.decodes⟩

/-- A client with a quotation mark in its key that joined in the year before the year 0 comes back, and so
does one that was read from an array with an offset from UTC. -/
theorem json_round_trip_of_queued_clients :
    ∃ early : QueuedClient, early.profile.key = "\"ξ\n" ∧ early.joinedAt.second = -62167219201 ∧
      ofText? (text early) = some early ∧
      ∃ listed : QueuedClient,
        ofText? "[[\"bob\", -7, 0, 1], \"2024-02-29T23:30:00.5-01:00\"]" = some listed ∧
          ofText? (text listed) = some listed := by
  obtain ⟨_, _, _, _, clients, _⟩ := json_round_trip
  have early := clients.back ⟨⟨"\"ξ\n", 1200, 0, 3⟩, ⟨-62167219201, false, 999999999⟩⟩
    (by decide) rfl
  obtain ⟨listed, read, plain⟩ : ∃ listed : QueuedClient,
      ofText? "[[\"bob\", -7, 0, 1], \"2024-02-29T23:30:00.5-01:00\"]" = some listed ∧
        listed.joinedAt.leap = false :=
    ⟨⟨⟨"bob", -7, 0, 1⟩, ⟨1709253000, false, 500000000⟩⟩, by decide +kernel, rfl⟩
  exact ⟨_, rfl, rfl, early, listed, read, (clients.canonical _ listed read plain).1⟩

end ChessArbiter
