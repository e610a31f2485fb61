import ChessArbiter.Scheduler
import ChessArbiter.Proofs.Arbiter.Acts
import ChessArbiter.Proofs.Registry.Lookup
import ChessArbiter.Proofs.Registry.Run

/-! # A pair while others act

The scheduler takes a pair through its steps while others act on the arbiter between any two of them:
they come and go, play, accept challenges, change roles. `Interleaved` is any such course of events. It
records the moves of the scheduler alone, each with the arbiter right before and right after it, so
that what a move did is read off these two and not off the intentions of the scheduler.

The ledger says for each stage what the moves so far amount to: which clients were taken out of the
pool, which match was entered, and who of those taken out has been returned.
-/

namespace ChessArbiter

open WaitingPool

/-- A step of the scheduler: what it was about to do, and the arbiter before and after it. -/
structure PairMove (α : Type) where
  stage : PairStage
  before : Arbiter α
  after : Arbiter α

namespace PairMove

variable {α : Type}

/-- The clients that were in the pool and are not any more. -/
def taken (move : PairMove α) : List QueuedClient :=
  move.before.pool.clients.filter fun client => !move.after.pool.contains client.key

/-- The clients that are in the pool and were not before. -/
def added (move : PairMove α) : List QueuedClient :=
  move.after.pool.clients.filter fun client => !move.before.pool.contains client.key

/-- The matches whose entry was published. -/
def entered (move : PairMove α) : List (Match α) :=
  (((move.after.notices.drop move.before.notices.length).filterMap Notice.stage?).filter
    (·.1 = .created)).map (·.2)

/-- The move returns a client that was taken out. Afterwards the pool has its key exactly once: with the
client as it was taken out, or, where others had put the key back, with their entry, and then nothing
has changed. -/
structure Returns (move : PairMove α) (client : QueuedClient) : Prop where
  stage : ∃ rest error, move.stage = .putBack (client :: rest) error
  once : (keysOf move.after.pool.clients).count client.key = 1
  absent : client.key ∉ keysOf move.before.pool.clients →
    ∃ front back, move.before.pool.clients = front ++ back ∧
      move.after.pool.clients = front ++ client :: back
  present : client.key ∈ keysOf move.before.pool.clients → move.after = move.before

/-- A move that enters a match adds it to those that are played; one that enters none leaves the
registry as it is. -/
structure Books (move : PairMove α) : Prop where
  stored : ∀ chessMatch, move.entered = [chessMatch] →
    move.after.registry.active = move.before.registry.active.insert chessMatch.id chessMatch
  unchanged : move.entered = [] → move.after.registry = move.before.registry

theorem Books.of_unchanged {move : PairMove α} (enters : move.entered = [])
    (registry : move.after.registry = move.before.registry) : move.Books where
  stored _ entered := by
    rw [enters] at entered
    cases entered
  unchanged _ := registry

end PairMove

variable {α : Type}

/-- What moves amount to: the clients taken out, the matches entered, the clients returned. -/
structure Account (moves : List (PairMove α)) (taken : List QueuedClient) (entered : List (Match α))
    (returned : List QueuedClient) : Prop where
  takes : moves.flatMap PairMove.taken = taken
  enters : moves.flatMap PairMove.entered = entered
  returns : ∀ client ∈ returned, ∃ move ∈ moves, move.Returns client
  /-- Nobody is put into the pool but to be returned. -/
  adds : returned = [] → moves.flatMap PairMove.added = []
  books : ∀ move ∈ moves, move.Books

namespace Account

variable {moves : List (PairMove α)} {taken : List QueuedClient} {returned : List QueuedClient}
  {move : PairMove α}

theorem nil : Account ([] : List (PairMove α)) [] [] [] where
  takes := rfl
  enters := rfl
  returns _ member := by cases member
  adds _ := rfl
  books _ member := by cases member

/-- The account with one more move. -/
theorem concat {entered : List (Match α)} {back : List QueuedClient}
    (account : Account moves taken [] returned) (clients : List QueuedClient)
    (takes : move.taken = clients) (adds : returned ++ back = [] → move.added = [])
    (enters : move.entered = entered) (books : move.Books)
    (returns : ∀ client ∈ back, move.Returns client) :
    Account (moves ++ [move]) (taken ++ clients) entered (returned ++ back) where
  takes := by rw [List.flatMap_append, List.flatMap_singleton, account.takes, takes]
  enters := by
    rw [List.flatMap_append, List.flatMap_singleton, account.enters, enters, List.nil_append]
  returns client member := by
    rcases List.mem_append.mp member with earlier | latest
    · obtain ⟨move, made, returns⟩ := account.returns client earlier
      exact ⟨move, List.mem_append_left _ made, returns⟩
    · exact ⟨move, List.mem_append_right _ (List.mem_singleton_self _), returns client latest⟩
  adds none := by
    rw [List.flatMap_append, List.flatMap_singleton, adds none, List.append_nil]
    exact account.adds (List.append_eq_nil_iff.mp none).1
  books other member := by
    rcases List.mem_append.mp member with earlier | latest
    · exact account.books other earlier
    · cases List.mem_singleton.mp latest
      exact books

end Account

/-- What the moves amount to when the scheduler has come to a stage. -/
def Ledger (pairing : Pairing α) (moves : List (PairMove α)) : PairStage → Prop
  | .checkFirst | .checkSecond | .takeFirst => Account moves [] [] []
  | .takeSecond first => first.key = pairing.first.key ∧ Account moves [first] [] []
  | .seat first second =>
    first.key = pairing.first.key ∧ second.key = pairing.second.key ∧
      Account moves [first, second] [] []
  | .putBack clients _ => ∃ returned,
    keysOf (returned ++ clients) <+: [pairing.first.key, pairing.second.key] ∧
      Account moves (returned ++ clients) [] returned
  | .done (.ok ()) => ∃ first second chessMatch,
    first.key = pairing.first.key ∧ second.key = pairing.second.key ∧
      chessMatch.participants.Perm [first.key, second.key] ∧
      Account moves [first, second] [chessMatch] []
  | .done (.error _) => ∃ taken,
    keysOf taken <+: [pairing.first.key, pairing.second.key] ∧ Account moves taken [] taken

section Observation

variable {pairing : Pairing α} {moves : List (PairMove α)} {now after : Arbiter α}
  {stage : PairStage} {clients front back : List QueuedClient} {client : QueuedClient}

theorem Arbiter.clients_eq (represents : Represents now.pool clients) :
    now.pool.clients = clients :=
  represents.shows.forward.2

/-- Comparing a pool with itself shows no difference. -/
private theorem filter_uncontained (represents : Represents now.pool clients) :
    (now.pool.clients.filter fun client => !now.pool.contains client.key) = [] := by
  rw [Arbiter.clients_eq represents, List.filter_eq_nil_iff]
  intro client member
  rw [represents.contains_iff.mpr (List.mem_map_of_mem member)]
  decide

/-- A move that leaves the pool alone takes nobody out and puts nobody in. -/
private theorem unmoved (stage : PairStage) (after : Arbiter α)
    (represents : Represents now.pool clients) (pool : after.pool = now.pool) :
    (PairMove.mk stage now after).taken = [] ∧ (PairMove.mk stage now after).added = [] := by
  unfold PairMove.taken PairMove.added
  dsimp only
  rw [pool]
  exact ⟨filter_uncontained represents, filter_uncontained represents⟩

/-- A move that publishes nothing enters no match. -/
private theorem unentered (stage : PairStage) (now after : Arbiter α)
    (notices : after.notices = now.notices) :
    (PairMove.mk stage now after).entered = [] := by
  unfold PairMove.entered
  dsimp only
  rw [notices, List.drop_length]
  rfl

/-- What a move publishes shows the matches that it enters. -/
private theorem entered_of_told (told : List (Notice α))
    (notices : after.notices = now.notices ++ told) :
    (PairMove.mk stage now after).entered =
      ((told.filterMap Notice.stage?).filter (·.1 = .created)).map (·.2) := by
  unfold PairMove.entered
  dsimp only
  rw [notices, List.drop_left]

/-- A move after which one client is missing takes out this client and no other. -/
private theorem taken_middle (stage : PairStage) (after : Arbiter α)
    (before : Represents now.pool (front ++ client :: back))
    (represents : Represents after.pool (front ++ back)) :
    (PairMove.mk stage now after).taken = [client] ∧
      (PairMove.mk stage now after).added = [] := by
  obtain ⟨unrepeated, _⟩ := distinct_middle_iff.mp before.distinct
  have kept (other : QueuedClient) (member : other ∈ front ++ back) :
      ¬ (!after.pool.contains other.key) = true := by
    rw [represents.contains_iff.mpr (List.mem_map_of_mem member)]
    decide
  have gone : (!after.pool.contains client.key) = true := by
    rw [Bool.not_eq_true', Bool.eq_false_iff]
    exact mt represents.contains_iff.mp unrepeated
  constructor
  · unfold PairMove.taken
    dsimp only
    rw [Arbiter.clients_eq before, List.filter_append,
      List.filter_cons_of_pos (p := fun other : QueuedClient => !after.pool.contains other.key) gone,
      List.filter_eq_nil_iff.mpr fun other member => kept other (List.mem_append_left _ member),
      List.filter_eq_nil_iff.mpr fun other member => kept other (List.mem_append_right _ member)]
    rfl
  · unfold PairMove.added
    dsimp only
    rw [Arbiter.clients_eq represents, List.filter_eq_nil_iff]
    intro other member
    rw [before.contains_iff.mpr (mem_middle_iff.mpr (.inr (List.mem_map_of_mem member)))]
    decide

/-- A move after which the pool has all it had takes nobody out. -/
private theorem taken_nil (stage : PairStage) (after : Arbiter α)
    (before : Represents now.pool clients) (represents : Represents after.pool front)
    (kept : ∀ client ∈ clients, client.key ∈ keysOf front) :
    (PairMove.mk stage now after).taken = [] := by
  unfold PairMove.taken
  dsimp only
  rw [Arbiter.clients_eq before, List.filter_eq_nil_iff]
  intro client member
  rw [represents.contains_iff.mpr (kept client member)]
  decide

/-- A move that changes nothing leaves the account as it is. -/
private theorem Account.idle (stage : PairStage) {taken returned : List QueuedClient}
    (account : Account moves taken [] returned) (represents : Represents now.pool clients) :
    Account (moves ++ [⟨stage, now, now⟩]) taken [] returned := by
  obtain ⟨takes, adds⟩ := unmoved stage now represents rfl
  have enters := unentered stage now now rfl
  have same := account.concat [] takes (fun _ => adds) enters (.of_unchanged enters rfl)
    (List.forall_mem_nil _)
  rwa [List.append_nil, List.append_nil] at same

end Observation

variable [Scalar α]

/-- The scheduler has made these moves for a pair and has come to this stage and this arbiter, while
others acted between its moves. -/
inductive Interleaved (pairing : Pairing α) (arbiter : Arbiter α) :
    List (PairMove α) → PairStage → Arbiter α → Prop
  | start : Interleaved pairing arbiter [] .checkFirst arbiter
  | others {moves : List (PairMove α)} {stage : PairStage} {now : Arbiter α}
      (interleaved : Interleaved pairing arbiter moves stage now) (act : Act α) :
      Interleaved pairing arbiter moves stage (now.act act)
  | step {moves : List (PairMove α)} {stage : PairStage} {now : Arbiter α}
      (interleaved : Interleaved pairing arbiter moves stage now)
      (unfinished : stage.result? = none) :
      Interleaved pairing arbiter (moves ++ [⟨stage, now, (now.pairStep pairing stage).2⟩])
        (now.pairStep pairing stage).1 (now.pairStep pairing stage).2

section Seating

namespace Arbiter

/-- The match that is tried for two clients. -/
def draft (arbiter : Arbiter α) (first second : QueuedClient) : Match α :=
  Match.startDrawn ⟨arbiter.nextMatch⟩ first.key second.key (arbiter.draws.headD true)
    arbiter.settings.timeControl arbiter.now

/-- The arbiter after it has given out an identity and made a draw. -/
def drafted (arbiter : Arbiter α) : Arbiter α :=
  { arbiter with nextMatch := arbiter.nextMatch + 1, draws := arbiter.draws.tail }

variable {arbiter : Arbiter α}

theorem participants_draft (first second : QueuedClient) :
    (arbiter.draft first second).participants.Perm [first.key, second.key] :=
  Match.participants_startDrawn ..

/-- What is tried for two clients is left to the registry. -/
private theorem pairStep_seat (quiet : arbiter.Quiet) (pairing : Pairing α)
    (first second : QueuedClient) :
    arbiter.pairStep pairing (.seat first second) =
      match arbiter.drafted.absorb (arbiter.registry.add
        (arbiter.tableRoles (arbiter.draft first second)) (arbiter.draft first second)
          arbiter.now) with
      | (.ok (), arbiter) => (.done (.ok ()), arbiter)
      | (.error error, arbiter) => (.putBack [first, second] (.registry error), arbiter) := by
  have quietNext : arbiter.drafted.Quiet := quiet
  simp only [pairStep, newId, draw_eq]
  change (match arbiter.drafted.add (arbiter.draft first second) with
      | (.ok (), arbiter) => (PairStage.done (.ok ()), arbiter)
      | (.error error, arbiter) => (.putBack [first, second] (.registry error), arbiter)) = _
  rw [add_of_quiet quietNext]
  rfl

/-- Trying a match for two clients is entering it, whatever becomes of it. -/
theorem pairStep_seat_eq_act (quiet : arbiter.Quiet) (pairing : Pairing α)
    (first second : QueuedClient) :
    (arbiter.pairStep pairing (.seat first second)).2 =
      arbiter.drafted.act (.add (arbiter.draft first second)) := by
  have quietNext : arbiter.drafted.Quiet := quiet
  rw [pairStep_seat quiet, act, add_of_quiet quietNext]
  change (match arbiter.drafted.absorb (arbiter.registry.add
      (arbiter.tableRoles (arbiter.draft first second)) (arbiter.draft first second)
        arbiter.now) with
    | (.ok (), arbiter) => (PairStage.done (.ok ()), arbiter)
    | (.error error, arbiter) => (.putBack [first, second] (.registry error), arbiter)).2 =
      (arbiter.drafted.absorb (arbiter.registry.add
        (arbiter.tableRoles (arbiter.draft first second)) (arbiter.draft first second)
          arbiter.now)).2
  split <;> next tried => rw [tried]

theorem pairStep_seat_of_free (quiet : arbiter.Quiet) (pairing : Pairing α)
    {first second : QueuedClient}
    (free : arbiter.registry.canSeat (arbiter.tableRoles (arbiter.draft first second))
      (arbiter.draft first second) = true) :
    arbiter.pairStep pairing (.seat first second) = (.done (.ok ()),
      (arbiter.drafted.absorb (arbiter.registry.register
        (arbiter.tableRoles (arbiter.draft first second)) (arbiter.draft first second)
          arbiter.now)).2) := by
  rw [pairStep_seat quiet, Registry.add, if_pos free]
  rfl

theorem pairStep_seat_of_busy (quiet : arbiter.Quiet) (pairing : Pairing α)
    {first second : QueuedClient}
    (busy : ¬ arbiter.registry.canSeat (arbiter.tableRoles (arbiter.draft first second))
      (arbiter.draft first second) = true) :
    arbiter.pairStep pairing (.seat first second) =
      (.putBack [first, second] (.registry .participantUnavailable),
        (arbiter.drafted.absorb (.refused (β := Unit) arbiter.registry .participantUnavailable
          [.matchCreationFailed (arbiter.draft first second)
            RegistryError.participantUnavailable.message])).2) := by
  rw [pairStep_seat quiet, Registry.add, if_neg busy]
  rfl

end Arbiter

end Seating

/-- The moves up to a stage are accounted for, and the pool is in order. -/
structure Accounted (pairing : Pairing α) (moves : List (PairMove α)) (stage : PairStage)
    (now : Arbiter α) : Prop where
  ledger : Ledger pairing moves stage
  quiet : now.Quiet
  represents : ∃ clients, Represents now.pool clients

namespace Accounted

variable {pairing : Pairing α} {moves : List (PairMove α)} {now : Arbiter α}
  {clients : List QueuedClient}

/-- The scheduler is sent on to the next stage, or ends, and changes nothing. -/
private theorem check (stage : PairStage) {next : PairStage} (account : Account moves [] [] [])
    (quiet : now.Quiet) (represents : Represents now.pool clients) (key : ClientKey)
    (step : now.pairStep pairing stage =
      (if (now.canStart key).1 then next else .done (.error (.unavailable key)),
        (now.canStart key).2))
    (continues : ∀ moves, Account moves [] [] [] → Ledger pairing moves next) :
    Accounted pairing (moves ++ [⟨stage, now, (now.pairStep pairing stage).2⟩])
      (now.pairStep pairing stage).1 (now.pairStep pairing stage).2 := by
  rw [step, Arbiter.canStart_of_quiet quiet]
  dsimp only
  have same := account.idle stage represents
  refine ⟨?_, quiet, clients, represents⟩
  split
  · exact continues _ same
  · exact ⟨[], List.nil_prefix, same⟩

/-- A client is taken out, or is not there; then those taken out before are to be returned. -/
private theorem take (stage : PairStage) {held : List QueuedClient} {next : QueuedClient → PairStage}
    (account : Account moves held [] []) (quiet : now.Quiet)
    (represents : Represents now.pool clients) (key : ClientKey)
    (keys : keysOf held <+: [pairing.first.key, pairing.second.key])
    (step : now.pairStep pairing stage =
      (.taken (now.leave key).1 held next, (now.leave key).2))
    (continues : ∀ moves client, client.key = key → Account moves (held ++ [client]) [] [] →
      Ledger pairing moves (next client)) :
    Accounted pairing (moves ++ [⟨stage, now, (now.pairStep pairing stage).2⟩])
      (now.pairStep pairing stage).1 (now.pairStep pairing stage).2 := by
  rw [step]
  by_cases queued : key ∈ keysOf clients
  · obtain ⟨client, member, rfl⟩ := List.mem_map.mp queued
    obtain ⟨front, back, rfl⟩ := List.append_of_mem member
    obtain ⟨pool, left, after⟩ := Arbiter.leave_of_queued represents
    rw [left]
    obtain ⟨takes, adds⟩ := taken_middle stage { now with pool := pool }
      represents after
    have enters := unentered stage now { now with pool := pool } rfl
    have next := account.concat [client] takes (fun _ => adds) enters (.of_unchanged enters rfl)
      (List.forall_mem_nil _)
    exact ⟨continues _ client rfl next, quiet, _, after⟩
  · rw [Arbiter.leave_of_unqueued represents queued]
    exact ⟨⟨[], keys, account.idle stage represents⟩, quiet, clients, represents⟩

omit [Scalar α] in
/-- What is tried for two clients enters the matches of which it tells. -/
private theorem tried {stage : PairStage} {taken : List QueuedClient} {entered : List (Match α)}
    (account : Account moves taken [] []) (represents : Represents now.pool clients)
    (step : Step α (Except RegistryError Unit))
    (told : (step.stages.filter (·.1 = .created)).map (·.2) = entered)
    (stored : ∀ chessMatch, entered = [chessMatch] →
      step.registry.active = now.registry.active.insert chessMatch.id chessMatch)
    (unchanged : entered = [] → step.registry = now.registry) :
    Account (moves ++ [⟨stage, now, (now.drafted.absorb step).2⟩]) taken entered [] := by
  obtain ⟨takes, adds⟩ :=
    unmoved stage (now.drafted.absorb step).2 represents rfl
  have enters : (PairMove.mk stage now (now.drafted.absorb step).2).entered = entered :=
    (entered_of_told step.notices rfl).trans told
  have next := account.concat [] takes (fun _ => adds) enters
    ⟨fun chessMatch only => stored chessMatch (enters.symm.trans only),
      fun none => unchanged (enters.symm.trans none)⟩ (List.forall_mem_nil _)
  rwa [List.append_nil] at next

/-- A match is entered, or the two clients are to be returned. -/
private theorem seat {first second : QueuedClient}
    (ledger : Ledger pairing moves (.seat first second)) (quiet : now.Quiet)
    (represents : Represents now.pool clients) :
    Accounted pairing
      (moves ++ [⟨.seat first second, now, (now.pairStep pairing (.seat first second)).2⟩])
      (now.pairStep pairing (.seat first second)).1 (now.pairStep pairing (.seat first second)).2 := by
  obtain ⟨firstKey, secondKey, account⟩ := ledger
  by_cases free : now.registry.canSeat (now.tableRoles (now.draft first second))
      (now.draft first second) = true
  · rw [Arbiter.pairStep_seat_of_free quiet pairing free]
    refine ⟨⟨first, second, now.draft first second, firstKey, secondKey,
      Arbiter.participants_draft first second, ?_⟩, quiet, clients, represents⟩
    refine tried account represents _ rfl ?_ ?_
    · intro chessMatch only
      cases only
      rfl
    · intro none
      cases none
  · rw [Arbiter.pairStep_seat_of_busy quiet pairing free]
    have keys : keysOf ([] ++ [first, second]) = [pairing.first.key, pairing.second.key] := by
      rw [List.nil_append, keysOf, List.map_cons, List.map_singleton, firstKey, secondKey]
    refine ⟨⟨[], ?_, ?_⟩, quiet, clients, represents⟩
    · exact keys ▸ List.prefix_rfl
    · refine tried account represents _ rfl ?_ fun _ => rfl
      intro chessMatch only
      cases only

omit [Scalar α] in
/-- The next client is returned to the pool, or its key is there already. -/
private theorem putBack {client : QueuedClient} {rest : List QueuedClient} {error : SchedulerError}
    (ledger : Ledger pairing moves (.putBack (client :: rest) error)) (quiet : now.Quiet)
    (represents : Represents now.pool clients) :
    Accounted pairing
      (moves ++ [⟨.putBack (client :: rest) error, now, (now.requeue client).2⟩])
      (.putBack rest error) (now.requeue client).2 := by
  obtain ⟨returned, keys, account⟩ := ledger
  rw [← List.singleton_append, ← List.append_assoc] at keys account
  by_cases queued : client.key ∈ keysOf clients
  · rw [Arbiter.requeue_of_queued represents queued]
    obtain ⟨takes, adds⟩ := unmoved (.putBack (client :: rest) error) now represents rfl
    have enters := unentered (.putBack (client :: rest) error) now now rfl
    have returns : (PairMove.mk (.putBack (client :: rest) error) now now).Returns client :=
      { stage := ⟨rest, error, rfl⟩
        once := by rw [Arbiter.clients_eq represents, represents.distinct.count, if_pos queued]
        absent := fun unqueued => (unqueued (by rwa [Arbiter.clients_eq represents])).elim
        present := fun _ => rfl }
    have next := account.concat [] takes (fun _ => adds) enters (.of_unchanged enters rfl)
      (List.forall_mem_singleton.mpr returns)
    rw [List.append_nil] at next
    exact ⟨⟨returned ++ [client], keys, next⟩, quiet, clients, represents⟩
  · obtain ⟨pool, front, back, requeued, rfl, after⟩ := Arbiter.requeue_of_unqueued represents queued
    rw [requeued]
    have takes := taken_nil (.putBack (client :: rest) error)
      { now with pool := pool } represents after fun other member =>
        mem_middle_iff.mpr (.inr (List.mem_map_of_mem member))
    have enters := unentered (.putBack (client :: rest) error) now
      { now with pool := pool } rfl
    have shown : pool.clients = front ++ client :: back := after.shows.forward.2
    have returns : (PairMove.mk (.putBack (client :: rest) error) now
        { now with pool := pool }).Returns client :=
      { stage := ⟨rest, error, rfl⟩
        once := by
          rw [shown, after.distinct.count, if_pos (mem_middle_iff.mpr (.inl rfl))]
        absent := fun _ => ⟨front, back, Arbiter.clients_eq represents, shown⟩
        present := fun member => (queued (by rwa [Arbiter.clients_eq represents] at member)).elim }
    have next := account.concat [] takes
      (fun none => (List.append_ne_nil_of_right_ne_nil _ (List.cons_ne_nil _ _) none).elim) enters
      (.of_unchanged enters rfl) (List.forall_mem_singleton.mpr returns)
    rw [List.append_nil] at next
    exact ⟨⟨returned ++ [client], keys, next⟩, quiet, _, after⟩

theorem step {stage : PairStage} (accounted : Accounted pairing moves stage now)
    (unfinished : stage.result? = none) :
    Accounted pairing (moves ++ [⟨stage, now, (now.pairStep pairing stage).2⟩])
      (now.pairStep pairing stage).1 (now.pairStep pairing stage).2 := by
  obtain ⟨ledger, quiet, clients, represents⟩ := accounted
  cases stage with
  | checkFirst => exact check _ ledger quiet represents _ rfl fun _ account => account
  | checkSecond => exact check _ ledger quiet represents _ rfl fun _ account => account
  | takeFirst =>
    exact take _ ledger quiet represents _ List.nil_prefix rfl
      fun _ _ key account => ⟨key, account⟩
  | takeSecond first =>
    obtain ⟨firstKey, account⟩ := ledger
    refine take _ account quiet represents _ ?_ rfl
      fun _ _ key account => ⟨firstKey, key, account⟩
    rw [keysOf, List.map_singleton, firstKey]
    exact List.prefix_append [_] [_]
  | seat first second => exact seat ledger quiet represents
  | putBack held error =>
    cases held with
    | nil =>
      obtain ⟨returned, keys, account⟩ := ledger
      rw [List.append_nil] at keys account
      exact ⟨⟨returned, keys, account.idle _ represents⟩, quiet, clients, represents⟩
    | cons client rest => exact putBack ledger quiet represents
  | done result => cases unfinished

/-- What others do changes the pool, but keeps it in order. -/
theorem others {stage : PairStage} (accounted : Accounted pairing moves stage now) (act : Act α) :
    Accounted pairing moves stage (now.act act) := by
  obtain ⟨ledger, quiet, clients, represents⟩ := accounted
  obtain ⟨next, after, _⟩ := Arbiter.represents_act quiet act represents
  exact ⟨ledger, Arbiter.quiet_act quiet act, next, after⟩

end Accounted

namespace Interleaved

variable {pairing : Pairing α} {arbiter last : Arbiter α} {moves : List (PairMove α)}
  {stage : PairStage} {result : Except SchedulerError Unit} {clients : List QueuedClient}

theorem ended (interleaved : Interleaved pairing arbiter moves stage last)
    (isResult : stage.result? = some result) :
    Interleaved pairing arbiter moves (.done result) last := by
  cases stage with
  | done other =>
    cases isResult
    exact interleaved
  | _ => cases isResult

theorem accounted (quiet : arbiter.Quiet) (represents : Represents arbiter.pool clients)
    (interleaved : Interleaved pairing arbiter moves stage last) :
    Accounted pairing moves stage last := by
  induction interleaved with
  | start => exact ⟨.nil, quiet, clients, represents⟩
  | others _ act ih => exact ih.others act
  | step _ unfinished ih => exact ih.step unfinished

/-- However others act while the scheduler takes a pair through its steps, it loses no client and
duplicates none. Where it succeeds it has taken out the two clients of the pair, entered the one match
between them, and put nobody into the pool. Where it fails it has entered no match, and every client
that it had taken out was returned: right after that, the pool has the client's key once. -/
theorem conserves (quiet : arbiter.Quiet) (represents : Represents arbiter.pool clients)
    (interleaved : Interleaved pairing arbiter moves (.done result) last) :
    (result = .ok () → ∃ first second chessMatch,
      first.key = pairing.first.key ∧ second.key = pairing.second.key ∧
      moves.flatMap PairMove.taken = [first, second] ∧ moves.flatMap PairMove.added = [] ∧
      moves.flatMap PairMove.entered = [chessMatch] ∧
      chessMatch.participants.Perm [first.key, second.key] ∧ ∀ move ∈ moves, move.Books) ∧
    (∀ error, result = .error error →
      keysOf (moves.flatMap PairMove.taken) <+: [pairing.first.key, pairing.second.key] ∧
      moves.flatMap PairMove.entered = [] ∧
      (∀ move ∈ moves, move.after.registry = move.before.registry) ∧
      ∀ client ∈ moves.flatMap PairMove.taken, ∃ move ∈ moves, move.Returns client) := by
  have ledger := (interleaved.accounted quiet represents).ledger
  constructor
  · rintro rfl
    obtain ⟨first, second, chessMatch, firstKey, secondKey, participants, account⟩ := ledger
    exact ⟨first, second, chessMatch, firstKey, secondKey, account.takes, account.adds rfl,
      account.enters, participants, account.books⟩
  · rintro error rfl
    obtain ⟨taken, keys, account⟩ := ledger
    rw [account.takes]
    refine ⟨keys, account.enters, ?_, account.returns⟩
    intro move made
    apply (account.books move made).unchanged
    exact List.flatMap_eq_nil_iff.mp account.enters move made

end Interleaved

/-- The second client of a pair leaves when the first has been taken out; the first returns. -/
theorem conserves_of_leaving :
    ∃ (pairing : Pairing Rat) (arbiter last : Arbiter Rat) (moves : List (PairMove Rat)),
      Interleaved pairing arbiter moves (.done (.error (.queue .notQueued))) last ∧
      moves.flatMap PairMove.taken = [pairing.first] ∧ moves.flatMap PairMove.entered = [] ∧
      ∃ move ∈ moves, move.Returns pairing.first := by
  let arbiter : Arbiter Rat :=
    { settings := ⟨1000, 100, 0, .blitz, .info⟩, now := .ofMillis 0, registry := .empty, pool := .empty
      roles := ∅, cues := ∅, draws := [], nextMatch := 0, notices := [], alarms := [] }
  let ada : ClientProfile := ⟨"ada", 1500, 0, 0⟩
  let bob : ClientProfile := ⟨"bob", 1600, 0, 0⟩
  let pairing : Pairing Rat := ⟨⟨ada, arbiter.now⟩, ⟨bob, arbiter.now⟩, 200⟩
  obtain ⟨moves, last, interleaved, taken⟩ : ∃ moves last,
      Interleaved pairing arbiter moves (.done (.error (.queue .notQueued))) last ∧
        moves.flatMap PairMove.taken = [pairing.first] := by
    have begun : Interleaved pairing arbiter [] .checkFirst arbiter := .start
    have queued := (begun.others (.join ada)).others (.join bob)
    have checked := (queued.step (by decide +kernel)).step (by decide +kernel)
    have left := (checked.step (by decide +kernel)).others (.leave "bob")
    have returned := (left.step (by decide +kernel)).step (by decide +kernel)
    have failed : Interleaved pairing arbiter _ (.done (.error (.queue .notQueued))) _ :=
      (returned.step (by decide +kernel)).ended (by decide +kernel)
    exact ⟨_, _, failed, by decide +kernel⟩
  have quiet : arbiter.Quiet := rfl
  obtain ⟨_, entered, _, returned⟩ := (interleaved.conserves quiet represents_empty).2 _ rfl
  exact ⟨pairing, arbiter, last, moves, interleaved, taken, entered,
    returned _ (taken ▸ List.mem_cons_self)⟩

end ChessArbiter
