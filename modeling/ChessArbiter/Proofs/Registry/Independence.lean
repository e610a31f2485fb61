import ChessArbiter.Proofs.Registry.History

/-! # Operations on different matches

A move, a write, a resignation, a removal and a clock that rings depend on the match that they are about
and on nothing else of the registry, and they change nothing but that match, the seats in it and its
clock (`Local`). Changes of different matches can be made in either order, and so can the operations:
each says the same whether it comes first or second. A client may sit in neither, one or both of the
matches; closing a match takes away the seats in it and no other.
-/

namespace ChessArbiter

attribute [ext] Registry

variable {α : Type}

/-- The stored match that an operation is about, where it is about one. -/
def Operation.subject? : Operation α → Option MatchId
  | .move id _ => some id
  | .set chessMatch => some chessMatch.id
  | .remove id => some id
  | .resign id _ => some id
  | .expire id _ => some id
  | _ => none

/-- The match of which a notice tells, where it tells of one. -/
def Notice.subject? : Notice α → Option MatchId
  | .moveFailure id _ _ _ => some id
  | notice => notice.match?.map (·.id)

/-- What an operation makes of a match. -/
inductive MatchChange (α : Type) where
  | keep
  | write (chessMatch : Match α)
  | close (chessMatch : Match α)

namespace MatchChange

/-- The change is one of the match of this identity. -/
def Concerns (id : MatchId) : MatchChange α → Prop
  | .keep => True
  | .write chessMatch => chessMatch.id = id
  | .close chessMatch => chessMatch.id = id

/-- The seat of a client after a change, given the one that it had before. -/
def seat (key : ClientKey) (held : Option MatchId) : MatchChange α → Option MatchId
  | .close chessMatch =>
    if key ∈ chessMatch.participants ∧ held = some chessMatch.id then none else held
  | _ => held

variable {change other : MatchChange α} {x y : MatchId}

/-- A change takes away no seat in another match, and gives none. -/
theorem seat_eq_some_iff (concerns : change.Concerns x) (differ : x ≠ y) (key : ClientKey)
    (held : Option MatchId) : change.seat key held = some y ↔ held = some y := by
  cases change with
  | keep | write => rfl
  | close chessMatch =>
    obtain rfl : chessMatch.id = x := concerns
    simp only [MatchChange.seat]
    split
    · next vacated =>
      rw [vacated.2]
      simpa using differ
    · rfl

theorem seat_comm (concerns : change.Concerns x) (concernsOther : other.Concerns y) (differ : x ≠ y)
    (key : ClientKey) (held : Option MatchId) :
    change.seat key (other.seat key held) = other.seat key (change.seat key held) := by
  cases change with
  | keep | write => rfl
  | close first =>
    cases other with
    | keep | write => rfl
    | close second =>
      obtain rfl : first.id = x := concerns
      obtain rfl : second.id = y := concernsOther
      simp only [MatchChange.seat]
      grind

end MatchChange

namespace Registry

/-- Two registries show the same of the match of this identity. -/
structure Agrees (registry other : Registry α) (id : MatchId) : Prop where
  match? : other.match? id = registry.match? id
  clock : other.clocks[id]? = registry.clocks[id]?

theorem Agrees.refl (registry : Registry α) (id : MatchId) : registry.Agrees registry id :=
  ⟨rfl, rfl⟩

/-- The clock that is there to be cancelled is the same. -/
theorem Agrees.cancelClock {registry other : Registry α} {id : MatchId}
    (agrees : registry.Agrees other id) : other.cancelClock id = registry.cancelClock id := by
  simp only [Registry.cancelClock, Std.ExtTreeMap.contains_eq_isSome_getElem?, agrees.clock]

variable [Scalar α]

/-- The registry after a match has been changed. -/
def changed (registry : Registry α) (now : Instant) : MatchChange α → Registry α
  | .keep => registry
  | .write chessMatch =>
    { registry with active := registry.active.insert chessMatch.id chessMatch }.setClock chessMatch now
  | .close chessMatch => registry.close chessMatch

section Changed

variable {registry other : Registry α} {change : MatchChange α} {x y : MatchId} {now : Instant}

/-- A change leaves every other match alone. -/
theorem agrees_changed (registry : Registry α) (now : Instant) (concerns : change.Concerns x)
    (differ : x ≠ y) : registry.Agrees (registry.changed now change) y := by
  cases change with
  | keep => exact .refl registry y
  | write chessMatch =>
    obtain rfl : chessMatch.id = x := concerns
    exact ⟨(match?_of_insert rfl y).trans (if_neg differ), (lookup_insert ..).trans (if_neg differ)⟩
  | close chessMatch =>
    obtain rfl : chessMatch.id = x := concerns
    exact ⟨(match?_of_erase rfl y).trans (if_neg differ), (lookup_erase ..).trans (if_neg differ)⟩

/-- Where two registries show the same of a match, they do so after a change that both undergo. -/
theorem Agrees.changed (agrees : registry.Agrees other y) (now : Instant) (change : MatchChange α) :
    (registry.changed now change).Agrees (other.changed now change) y := by
  cases change with
  | keep => exact agrees
  | write chessMatch =>
    constructor
    · have written (registry : Registry α) := match?_of_insert
        (show (registry.changed now (.write chessMatch)).active = registry.active.insert _ _ from rfl) y
      rw [written other, written registry, agrees.match?]
    · simp only [Registry.changed, setClock, lookup_insert, agrees.clock]
  | close chessMatch =>
    constructor
    · have closed (registry : Registry α) := match?_of_erase
        (show (registry.changed now (.close chessMatch)).active = registry.active.erase _ from rfl) y
      rw [closed other, closed registry, agrees.match?]
    · simp only [Registry.changed, close, lookup_erase, agrees.clock]

theorem seats_changed (registry : Registry α) (now : Instant) (change : MatchChange α)
    (key : ClientKey) :
    (registry.changed now change).seats[key]? = change.seat key registry.seats[key]? := by
  cases change with
  | keep | write => rfl
  | close chessMatch => exact registry.seats_vacate chessMatch key

@[simp] theorem challenges_changed (registry : Registry α) (now : Instant)
    (change : MatchChange α) : (registry.changed now change).challenges = registry.challenges := by
  cases change <;> rfl

/-- Changes of different matches can be made in either order. -/
theorem changed_comm {other : MatchChange α} (registry : Registry α) (now later : Instant)
    (concerns : change.Concerns x) (concernsOther : other.Concerns y) (differ : x ≠ y) :
    (registry.changed now change).changed later other =
      (registry.changed later other).changed now change := by
  -- At every identity one of the two changes makes no difference.
  have agrees (id : MatchId) : ((registry.changed now change).changed later other).Agrees
      ((registry.changed later other).changed now change) id := by
    by_cases own : x = id
    · subst own
      have before := (registry.agrees_changed later concernsOther differ.symm).changed now change
      have after := (registry.changed now change).agrees_changed later concernsOther differ.symm
      exact ⟨before.match?.trans after.match?.symm, before.clock.trans after.clock.symm⟩
    · have before := (registry.changed later other).agrees_changed now concerns own
      have after := (registry.agrees_changed now concerns own).changed later other
      exact ⟨before.match?.trans after.match?.symm, before.clock.trans after.clock.symm⟩
  ext1
  · exact Std.ExtTreeMap.ext_getElem? fun id => (agrees id).match?.symm
  · apply Std.ExtTreeMap.ext_getElem?
    intro key
    simp only [seats_changed]
    exact MatchChange.seat_comm concernsOther concerns differ.symm key _
  · simp only [challenges_changed]
  · exact Std.ExtTreeMap.ext_getElem? fun id => (agrees id).clock.symm

end Changed

/-- An operation on the match of this identity. It tells of that match only, and in every registry that
shows the same of the match it says the same and makes the same change. -/
def Local {β : Type} (registry : Registry α) (id : MatchId) (now : Instant)
    (operation : Registry α → Step α β) : Prop :=
  (∀ notice ∈ (operation registry).notices, notice.subject? = some id) ∧
    ∃ change : MatchChange α, change.Concerns id ∧ ∀ other, registry.Agrees other id →
      operation other = ⟨(operation registry).answer, other.changed now change,
        (operation registry).notices, (operation registry).alarms⟩

namespace Local

variable {β γ : Type} {registry : Registry α} {id : MatchId} {now : Instant}

/-- An operation that makes a known change. -/
theorem of_forall {operation : Registry α → Step α β} (answer : β) (notices : List (Notice α))
    (alarms : List (Alarm α)) (change : MatchChange α) (concerns : change.Concerns id)
    (told : ∀ notice ∈ notices, notice.subject? = some id)
    (same : ∀ other, registry.Agrees other id →
      operation other = ⟨answer, other.changed now change, notices, alarms⟩) :
    registry.Local id now operation := by
  have own := same registry (.refl registry id)
  refine ⟨by rwa [own], change, concerns, ?_⟩
  intro other agrees
  rw [same other agrees, own]

/-- An operation that is refused. -/
theorem of_refused {operation : Registry α → Step α (Except RegistryError γ)}
    (error : RegistryError) (notices : List (Notice α))
    (told : ∀ notice ∈ notices, notice.subject? = some id)
    (same : ∀ other, registry.Agrees other id → operation other = .refused other error notices) :
    registry.Local id now operation :=
  of_forall (.error error) notices [] .keep trivial told same

theorem congr {operation alike : Registry α → Step α β} (isLocal : registry.Local id now alike)
    (same : ∀ other, registry.Agrees other id → operation other = alike other) :
    registry.Local id now operation := by
  obtain ⟨told, change, concerns, changes⟩ := isLocal
  have own := same registry (.refl registry id)
  refine ⟨by rwa [own], change, concerns, ?_⟩
  intro other agrees
  rw [same other agrees, own, changes other agrees]

/-- The answer makes no difference. -/
theorem answering {operation : Registry α → Step α β} (isLocal : registry.Local id now operation)
    (answer : β → γ) : registry.Local id now fun registry =>
      ⟨answer (operation registry).answer, (operation registry).registry,
        (operation registry).notices, (operation registry).alarms⟩ := by
  obtain ⟨told, change, concerns, changes⟩ := isLocal
  refine ⟨told, change, concerns, ?_⟩
  intro other agrees
  simp only [changes other agrees]

theorem done {operation : Registry α → Step α (Except RegistryError γ)}
    (isLocal : registry.Local id now operation) :
    registry.Local id now fun registry => (operation registry).done :=
  isLocal.answering (·.map fun _ => ())

end Local

section Operations

variable {registry : Registry α} {minimum : α} {id : MatchId} {now : Instant}

theorem local_set (registry : Registry α) (draft : Match α) (now : Instant) :
    registry.Local draft.id now (·.set draft now) := by
  cases found : registry.match? draft.id with
  | none =>
    apply Local.of_refused .matchNotFound [] (List.forall_mem_nil _)
    intro other agrees
    exact set_of_absent (agrees.match?.trans found)
  | some stored =>
    cases same : stored.sameIdentity draft with
    | false =>
      apply Local.of_refused .immutableFieldChanged [] (List.forall_mem_nil _)
      intro other agrees
      exact set_of_mismatch (agrees.match?.trans found) same
    | true =>
      have own : (draft.following stored).id = draft.id := rfl
      cases terminal : draft.isTerminal with
      | false =>
        apply Local.of_forall (.ok (draft.following stored)) [.matchUpdated (draft.following stored)]
          [clockAlarm (draft.following stored) now] (.write (draft.following stored)) own
          (List.forall_mem_singleton.mpr rfl)
        intro other agrees
        exact set_of_continues (agrees.match?.trans found) same terminal
      | true =>
        apply Local.of_forall (.ok (draft.following stored)) [.matchEnded (draft.following stored)]
          (registry.cancelClock draft.id) (.close (draft.following stored)) own
          (List.forall_mem_singleton.mpr rfl)
        intro other agrees
        rw [← agrees.cancelClock]
        exact set_of_over (agrees.match?.trans found) same terminal

theorem local_move (keyed : registry.Keyed) (minimum : α) (id : MatchId) (request : MoveRequest)
    (now : Instant) : registry.Local id now (·.move minimum id request now) := by
  cases found : registry.match? id with
  | none =>
    apply Local.of_refused .matchNotFound
      [.moveFailure id request.text RegistryError.matchNotFound.message []]
      (List.forall_mem_singleton.mpr rfl)
    intro other agrees
    simp only [move, agrees.match?, found]
  | some stored =>
    cases accepted : stored.position.accepts request with
    | false =>
      apply Local.of_refused .illegalMove
        [.moveFailure id request.text RegistryError.illegalMove.message stored.participants]
        (List.forall_mem_singleton.mpr rfl)
      intro other agrees
      simp only [move, agrees.match?, found, accepted, Bool.false_eq_true, if_false]
    | true =>
      have written := (registry.local_set (stored.afterMove minimum request now) now).done
      rw [Match.afterMove_id, keyed id stored found] at written
      apply written.congr
      intro other agrees
      simp only [move, agrees.match?, found, accepted, if_true]

theorem local_resign (keyed : registry.Keyed) (id : MatchId) (key : ClientKey) (now : Instant) :
    registry.Local id now (·.resign id key now) := by
  cases found : registry.match? id with
  | none =>
    apply Local.of_refused .matchNotFound [] (List.forall_mem_nil _)
    intro other agrees
    simp only [resign, agrees.match?, found]
  | some stored =>
    cases plays : stored.colourOf? key with
    | none =>
      apply Local.of_refused .notParticipant [] (List.forall_mem_nil _)
      intro other agrees
      simp only [resign, agrees.match?, found, plays]
    | some colour =>
      obtain rfl := keyed id stored found
      apply (registry.local_set (stored.afterResignation colour) now).done.congr
      intro other agrees
      have same : other.match? stored.id = some stored := agrees.match?.trans found
      simp only [resign, same, plays]

theorem local_remove (keyed : registry.Keyed) (id : MatchId) (now : Instant) :
    registry.Local id now (·.remove id) := by
  cases found : registry.match? id with
  | none =>
    apply Local.of_refused .matchNotFound [] (List.forall_mem_nil _)
    intro other agrees
    simp only [remove, agrees.match?, found]
  | some stored =>
    have own := keyed id stored found
    apply Local.of_forall (.ok ()) [.matchEnded stored] (registry.cancelClock id) (.close stored) own
      (List.forall_mem_singleton.mpr (congrArg some own))
    intro other agrees
    simp only [remove, agrees.match?, found, agrees.cancelClock]
    rfl

theorem local_expire (keyed : registry.Keyed) (id : MatchId) (generation : Nat) (now : Instant) :
    registry.Local id now (·.expire id generation now) := by
  by_cases current : ∃ stored, registry.match? id = some stored ∧ stored.generation = generation
  · obtain ⟨stored, found, rfl⟩ := current
    obtain rfl := keyed id stored found
    have own : (stored.afterTimeout.following stored).id = stored.id := stored.afterTimeout_id
    apply Local.of_forall () [.matchEnded (stored.afterTimeout.following stored)]
      [.release stored.id] (.close (stored.afterTimeout.following stored)) own
      (List.forall_mem_singleton.mpr (congrArg some own))
    intro other agrees
    exact expire_of_current now (agrees.match?.trans found)
  · apply Local.of_forall () [] [] .keep trivial (List.forall_mem_nil _)
    intro other agrees
    apply expire_of_stale now
    intro stored found same
    exact current ⟨stored, agrees.match?.symm.trans found, same⟩

/-- Every operation that is about a stored match is one on that match. -/
theorem local_perform (keyed : registry.Keyed) (minimum : α) {call : Call α}
    (about : call.operation.subject? = some id) :
    registry.Local id call.now (·.perform minimum call) := by
  cases operation : call.operation with
  | move =>
    cases operation ▸ about
    simp only [perform, operation]
    exact local_move keyed minimum _ _ call.now
  | set chessMatch =>
    cases operation ▸ about
    simp only [perform, operation]
    exact (registry.local_set chessMatch call.now).done
  | remove =>
    cases operation ▸ about
    simp only [perform, operation]
    exact local_remove keyed _ call.now
  | resign =>
    cases operation ▸ about
    simp only [perform, operation]
    exact local_resign keyed _ _ call.now
  | expire id generation =>
    cases operation ▸ about
    simp only [perform, operation]
    exact (local_expire keyed id generation call.now).answering fun _ => Except.ok ()
  | _ => cases operation ▸ about

end Operations

/-- A call has nothing to do with what another one is about, a match of this identity: it says the same
whether it is made first or after that one, and it changes neither the match, nor who sits in it, nor its
clock, nor any challenge. -/
structure Independent (minimum : α) (registry : Registry α) (call other : Call α) (id : MatchId) :
    Prop where
  answer : ((registry.perform minimum other).registry.perform minimum call).answer =
    (registry.perform minimum call).answer
  written : ∀ draft, call.operation = .set draft →
    ((registry.perform minimum other).registry.set draft call.now).answer =
      (registry.set draft call.now).answer
  notices : ((registry.perform minimum other).registry.perform minimum call).notices =
    (registry.perform minimum call).notices
  alarms : ((registry.perform minimum other).registry.perform minimum call).alarms =
    (registry.perform minimum call).alarms
  match? : (registry.perform minimum call).registry.match? id = registry.match? id
  seats : ∀ key : ClientKey, (registry.perform minimum call).registry.seats[key]? = some id ↔
    registry.seats[key]? = some id
  clock : (registry.perform minimum call).registry.clocks[id]? = registry.clocks[id]?
  challenges : (registry.perform minimum call).registry.challenges = registry.challenges

section Independent

variable {registry : Registry α} {minimum : α} {call other : Call α} {x y : MatchId}

/-- What a call about a match does wherever that match is as it is here. -/
theorem exists_change_of_perform (keyed : registry.Keyed) (minimum : α)
    (about : call.operation.subject? = some x) :
    ∃ change : MatchChange α, change.Concerns x ∧ ∀ other, registry.Agrees other x →
      other.perform minimum call = ⟨(registry.perform minimum call).answer,
        other.changed call.now change, (registry.perform minimum call).notices,
        (registry.perform minimum call).alarms⟩ :=
  (local_perform keyed minimum about).2

/-- A call about a match leaves every other match alone. -/
theorem agrees_perform (keyed : registry.Keyed) (minimum : α)
    (about : call.operation.subject? = some x) (differ : x ≠ y) :
    registry.Agrees (registry.perform minimum call).registry y := by
  obtain ⟨change, concerns, changes⟩ := exists_change_of_perform keyed minimum about
  rw [changes registry (.refl registry x)]
  exact registry.agrees_changed call.now concerns differ

/-- Calls about different matches have nothing to do with each other. -/
theorem independent (keyed : registry.Keyed) (about : call.operation.subject? = some x)
    (aboutOther : other.operation.subject? = some y) (differ : x ≠ y) :
    Independent minimum registry call other y := by
  obtain ⟨change, concerns, changes⟩ := exists_change_of_perform keyed minimum about
  have own := changes registry (.refl registry x)
  have unseen := agrees_perform keyed minimum aboutOther differ.symm
  have after := changes _ unseen
  have untouched := agrees_perform keyed minimum about differ
  refine ⟨?_, ?_, ?_, ?_, untouched.match?, ?_, untouched.clock, ?_⟩
  · rw [after]
  · intro draft operation
    cases operation ▸ about
    obtain ⟨-, _, -, writes⟩ := registry.local_set draft call.now
    have same := congrArg Step.answer (writes _ unseen)
    exact same
  · rw [after]
  · rw [after]
  · intro key
    rw [own, seats_changed]
    exact MatchChange.seat_eq_some_iff concerns differ key _
  · rw [own]
    exact registry.challenges_changed call.now change

/-- Calls about different matches leave the same registry in either order. -/
theorem perform_comm (keyed : registry.Keyed) (about : call.operation.subject? = some x)
    (aboutOther : other.operation.subject? = some y) (differ : x ≠ y) :
    ((registry.perform minimum call).registry.perform minimum other).registry =
      ((registry.perform minimum other).registry.perform minimum call).registry := by
  obtain ⟨change, concerns, changes⟩ := exists_change_of_perform keyed minimum about
  obtain ⟨changeOther, concernsOther, changesOther⟩ :=
    exists_change_of_perform keyed minimum aboutOther
  rw [changes _ (agrees_perform keyed minimum aboutOther differ.symm),
    changesOther _ (agrees_perform keyed minimum about differ),
    changes registry (.refl registry x), changesOther registry (.refl registry y)]
  exact registry.changed_comm call.now other.now concerns concernsOther differ

end Independent

end Registry

/-- Where two steps tell of different matches, what is told of each match does not depend on their
order. -/
theorem Notice.filter_append_comm {first second : List (Notice α)} {x y : MatchId} (differ : x ≠ y)
    (told : ∀ notice ∈ first, notice.subject? = some x)
    (toldOther : ∀ notice ∈ second, notice.subject? = some y) (id : MatchId) :
    (first ++ second).filter (·.subject? = some id) =
      (second ++ first).filter (·.subject? = some id) := by
  simp only [List.filter_append]
  by_cases own : x = id
  · have none : second.filter (·.subject? = some id) = [] := by
      simp only [List.filter_eq_nil_iff, decide_eq_true_eq]
      intro notice member about
      exact differ (own.trans (Option.some.inj (about.symm.trans (toldOther notice member))))
    rw [none, List.append_nil, List.nil_append]
  · have none : first.filter (·.subject? = some id) = [] := by
      simp only [List.filter_eq_nil_iff, decide_eq_true_eq]
      intro notice member about
      exact own (Option.some.inj ((told notice member).symm.trans about))
    rw [none, List.append_nil, List.nil_append]

variable [Scalar α] {rule : Registry α → Call α → Prop} {minimum : α} {events : List (Event α)}
  {registry : Registry α}

/-- After every history calls about two different matches can be made in either order. Each answers,
tells and asks of the timer the same, and has nothing to do with the match that the other is about; the
same registry is left, and the same is told of each match. -/
theorem History.commute (history : History rule minimum events registry) {first second : Call α}
    {x y : MatchId} (about : first.operation.subject? = some x)
    (aboutOther : second.operation.subject? = some y) (differ : x ≠ y) :
    let afterFirst := (registry.perform minimum first).registry
    let afterSecond := (registry.perform minimum second).registry
    registry.Independent minimum first second y ∧ registry.Independent minimum second first x ∧
      (afterFirst.perform minimum second).registry = (afterSecond.perform minimum first).registry ∧
      ∀ id,
        ((registry.perform minimum first).notices ++ (afterFirst.perform minimum second).notices).filter
            (·.subject? = some id) =
          ((registry.perform minimum second).notices ++
            (afterSecond.perform minimum first).notices).filter (·.subject? = some id) := by
  intro afterFirst afterSecond
  have keyed := history.keyed
  have independent : registry.Independent minimum first second y :=
    Registry.independent keyed about aboutOther differ
  have independentOther : registry.Independent minimum second first x :=
    Registry.independent keyed aboutOther about differ.symm
  refine ⟨independent, independentOther, Registry.perform_comm keyed about aboutOther differ, ?_⟩
  intro id
  rw [independent.notices, independentOther.notices]
  have told := (Registry.local_perform keyed minimum about).1
  have toldOther := (Registry.local_perform keyed minimum aboutOther).1
  exact Notice.filter_append_comm differ told toldOther id

/-- A client that is a player in one match and has entered another as a bot resigns the second while its
flag falls in the first. In either order both matches end, and she loses her seat with the first. -/
theorem commute_of_shared_client :
    ∃ (events : List (Event Rat)) (registry : Registry Rat) (first second : Call Rat),
      History (fun _ _ => True) 0 events registry ∧
      first.operation = .resign ⟨2⟩ "ada" ∧ second.operation = .expire ⟨1⟩ 0 ∧
      registry.Independent 0 first second ⟨1⟩ ∧ registry.Independent 0 second first ⟨2⟩ ∧
      (registry.perform 0 first).stages.map (·.1) = [.ended] ∧
      (registry.perform 0 second).stages.map (·.1) = [.ended] ∧
      (registry.perform 0 first).registry.seats["ada"]? = some ⟨1⟩ ∧
      (registry.perform 0 second).registry.seats["ada"]? = none ∧
      ((registry.perform 0 first).registry.perform 0 second).registry =
        ((registry.perform 0 second).registry.perform 0 first).registry := by
  let beginning : Instant := .ofMillis 0
  let call (operation : Operation Rat) : Call Rat := ⟨operation, fun _ => .player, beginning⟩
  have history : History (fun _ _ => True) (0 : Rat) [] .empty := .start
  have history := history.call (call (.add (.start ⟨1⟩ "ada" "bob" .blitz beginning))) trivial
  have history := history.call
    ⟨.add (.start ⟨2⟩ "cid" "ada" .blitz beginning),
      fun key => if key = "ada" then .bot else .player, beginning⟩
    trivial
  have differ : (⟨2⟩ : MatchId) ≠ ⟨1⟩ := by decide
  obtain ⟨independent, independentOther, same, -⟩ := history.commute
    (show (call (.resign ⟨2⟩ "ada")).operation.subject? = some ⟨2⟩ from rfl)
    (show (call (.expire ⟨1⟩ 0)).operation.subject? = some ⟨1⟩ from rfl) differ
  exact ⟨_, _, _, _, history, rfl, rfl, independent, independentOther, by decide +kernel,
    by decide +kernel, by decide +kernel, by decide +kernel, same⟩

end ChessArbiter
