import ChessArbiter.Proofs.Pairing.Greedy
import ChessArbiter.Proofs.Registry.Entry
import ChessArbiter.Proofs.Scheduler.Interleaving

/-! # Pairs that are not disturbed

Where nobody acts in between, a pair of waiting clients that may both start a match becomes one, and
nothing stands in the way of the pairs behind it: they are about other clients. `Settled` is what a list
of pairs does to the arbiter as a whole.
-/

namespace ChessArbiter

open WaitingPool

variable {α : Type}

namespace Arbiter

/-- The client may enter a new match. -/
def Free (arbiter : Arbiter α) (key : ClientKey) : Prop :=
  arbiter.registry.canStart key (arbiter.tableRole key) = true

instance (arbiter : Arbiter α) (key : ClientKey) : Decidable (arbiter.Free key) :=
  inferInstanceAs (Decidable (_ = true))

end Arbiter

theorem Arbiter.leave_of_mem {arbiter : Arbiter α} {clients : List QueuedClient}
    {client : QueuedClient} (represents : Represents arbiter.pool clients)
    (member : client ∈ clients) :
    ∃ pool, arbiter.leave client.key = (.ok client, { arbiter with pool := pool }) ∧
      Represents pool (untaken [client.key] clients) := by
  obtain ⟨front, back, rfl⟩ := List.append_of_mem member
  rw [untaken_middle represents.distinct]
  exact Arbiter.leave_of_queued represents

/-- The match is one between the clients of the pair. -/
def Pairing.Agrees (pairing : Pairing α) (chessMatch : Match α) : Prop :=
  chessMatch.participants.Perm pairing.keys

/-- What pairs that all become matches do to the arbiter: the clients have left the pool, and there is
one match for each pair, in order, under identities that were new. Nothing else changes. -/
structure Settled (before : Arbiter α) (pairs : List (Pairing α)) (chessMatches : List (Match α))
    (after : Arbiter α) : Prop where
  quiet : after.Quiet
  settings : after.settings = before.settings
  now : after.now = before.now
  roles : after.roles = before.roles
  pool : Represents after.pool (untaken (Pairing.keysOf pairs) before.pool.clients)
  agree : List.Forall₂ Pairing.Agrees pairs chessMatches
  begun : ∀ chessMatch ∈ chessMatches, chessMatch.result = .inProgress ∧
    chessMatch.timeControl = before.settings.timeControl
  ids : chessMatches.map (·.id) = (List.range' before.nextMatch pairs.length).map MatchId.mk
  nextMatch : after.nextMatch = before.nextMatch + pairs.length
  stored : ∀ chessMatch ∈ chessMatches, after.registry.match? chessMatch.id = some chessMatch
  others : ∀ id ∉ chessMatches.map (·.id), after.registry.match? id = before.registry.match? id ∧
    after.registry.clocks[id]? = before.registry.clocks[id]?
  challenges : after.registry.challenges = before.registry.challenges
  seats : ∀ key ∉ Pairing.keysOf pairs, after.registry.seats[key]? = before.registry.seats[key]?

namespace Settled

variable {before middle after : Arbiter α} {pairing : Pairing α} {pairs : List (Pairing α)}
  {chessMatches : List (Match α)}

theorem nil (quiet : before.Quiet) (represents : Represents before.pool before.pool.clients) :
    Settled before [] [] before where
  quiet := quiet
  settings := rfl
  now := rfl
  roles := rfl
  pool := by rwa [Pairing.keysOf, List.flatMap_nil, untaken_nil]
  agree := .nil
  begun := List.forall_mem_nil _
  ids := rfl
  nextMatch := rfl
  stored := List.forall_mem_nil _
  others _ _ := ⟨rfl, rfl⟩
  challenges := rfl
  seats _ _ := rfl

/-- A pair that becomes a match does not stand in the way of the pairs behind it. -/
theorem cons {chessMatch : Match α} (head : Settled before [pairing] [chessMatch] middle)
    (tail : Settled middle pairs chessMatches after) :
    Settled before (pairing :: pairs) (chessMatch :: chessMatches) after where
  quiet := tail.quiet
  settings := tail.settings.trans head.settings
  now := tail.now.trans head.now
  roles := tail.roles.trans head.roles
  pool := by
    have taken : Pairing.keysOf (pairing :: pairs) = Pairing.keysOf [pairing] ++ Pairing.keysOf pairs := by
      simp [Pairing.keysOf]
    rw [taken, untaken_append, ← Arbiter.clients_eq head.pool]
    exact tail.pool
  agree := by
    obtain _ | ⟨agrees, _⟩ := head.agree
    exact .cons agrees tail.agree
  begun := by
    refine List.forall_mem_cons.mpr ⟨head.begun _ (List.mem_singleton_self _), ?_⟩
    rw [← head.settings]
    exact tail.begun
  ids := by
    have first : [chessMatch.id] = [⟨before.nextMatch⟩] := head.ids
    rw [List.map_cons, List.cons.inj first |>.1, tail.ids, head.nextMatch]
    rfl
  nextMatch := by
    rw [tail.nextMatch, head.nextMatch, List.length_cons, List.length_cons, List.length_nil]
    omega
  stored := by
    refine List.forall_mem_cons.mpr ⟨?_, tail.stored⟩
    have first : [chessMatch.id] = [⟨before.nextMatch⟩] := head.ids
    have older : chessMatch.id ∉ chessMatches.map (·.id) := by
      rw [tail.ids, head.nextMatch, List.cons.inj first |>.1]
      simp
    rw [(tail.others _ older).1]
    exact head.stored _ (List.mem_singleton_self _)
  others id outside := by
    obtain ⟨other, outside⟩ : id ≠ chessMatch.id ∧ id ∉ chessMatches.map (·.id) := by
      simpa using outside
    obtain ⟨found, clock⟩ := tail.others id outside
    obtain ⟨found', clock'⟩ := head.others id (by simpa using other)
    exact ⟨found.trans found', clock.trans clock'⟩
  challenges := tail.challenges.trans head.challenges
  seats key outside := by
    have apart : key ∉ Pairing.keysOf [pairing] ∧ key ∉ Pairing.keysOf pairs := by
      simpa [Pairing.keysOf] using outside
    exact (tail.seats key apart.2).trans (head.seats key apart.1)

/-- Who is in no pair is as free as before. -/
theorem free_iff (settled : Settled before pairs chessMatches after) {key : ClientKey}
    (unpaired : key ∉ Pairing.keysOf pairs) : after.Free key ↔ before.Free key := by
  have role : after.tableRole key = before.tableRole key := by
    rw [Arbiter.tableRole, Arbiter.tableRole, settled.roles]
  rw [Arbiter.Free, Arbiter.Free, Registry.canStart_iff, Registry.canStart_iff, role,
    settled.seats key unpaired]

end Settled

variable [Scalar α]

namespace Arbiter

variable {arbiter : Arbiter α} {pairing : Pairing α} {clients : List QueuedClient}

/-- The arbiter after the clients of a pair have left, and their match has been entered. -/
def seated (arbiter : Arbiter α) (pool : WaitingPool) (pairing : Pairing α) : Arbiter α :=
  ({ arbiter with pool := pool }.drafted.absorb (arbiter.registry.register
    (arbiter.tableRoles (arbiter.draft pairing.first pairing.second))
    (arbiter.draft pairing.first pairing.second) arbiter.now)).2

theorem canSeat_draft {first second : QueuedClient} (differ : first.key ≠ second.key)
    (firstFree : arbiter.Free first.key) (secondFree : arbiter.Free second.key) :
    arbiter.registry.canSeat (arbiter.tableRoles (arbiter.draft first second))
      (arbiter.draft first second) = true := by
  have order := arbiter.participants_draft first second
  refine (Registry.canSeat_iff ..).mpr ⟨?_, ?_⟩
  · have distinct : (arbiter.draft first second).participants.Nodup :=
      order.nodup_iff.mpr (by simpa using differ)
    simpa [Match.participants] using distinct
  · intro key plays
    rw [tableRoles_eq plays]
    rcases List.mem_pair.mp (order.mem_iff.mp plays) with rfl | rfl
    · exact (Registry.canStart_iff ..).mp firstFree
    · exact (Registry.canStart_iff ..).mp secondFree

theorem finishPair_step {stage : PairStage} (unfinished : stage.result? = none) :
    arbiter.finishPair pairing stage =
      (arbiter.pairStep pairing stage).2.finishPair pairing (arbiter.pairStep pairing stage).1 := by
  rw [finishPair]
  split
  · next ended =>
    rw [unfinished] at ended
    cases ended
  · rfl

theorem finishPair_done (result : Except SchedulerError Unit) :
    arbiter.finishPair pairing (.done result) = (result, arbiter) := by
  rw [finishPair]
  rfl

/-- Two waiting clients that may start a match leave the pool, and their match is entered. -/
theorem processPair_of_free (quiet : arbiter.Quiet) (represents : Represents arbiter.pool clients)
    (first : pairing.first ∈ clients) (second : pairing.second ∈ clients)
    (differ : pairing.first.key ≠ pairing.second.key) (firstFree : arbiter.Free pairing.first.key)
    (secondFree : arbiter.Free pairing.second.key) :
    ∃ pool, arbiter.processPair pairing = (.ok (), arbiter.seated pool pairing) ∧
      Represents pool (untaken pairing.keys clients) := by
  obtain ⟨halfway, firstLeft, without⟩ := leave_of_mem represents first
  have waits : pairing.second ∈ untaken [pairing.first.key] clients :=
    mem_untaken.mpr ⟨second, fun same => differ (List.mem_singleton.mp same).symm⟩
  have lineup : Represents ({ arbiter with pool := halfway } : Arbiter α).pool
      (untaken [pairing.first.key] clients) := without
  obtain ⟨pool, secondLeft, after⟩ := leave_of_mem lineup waits
  refine ⟨pool, ?_, ?_⟩
  · have checkFirst : arbiter.pairStep pairing .checkFirst = (.checkSecond, arbiter) := by
      simp only [pairStep, canStart_of_quiet quiet]
      exact congrArg (·, arbiter) (if_pos firstFree)
    have checkSecond : arbiter.pairStep pairing .checkSecond = (.takeFirst, arbiter) := by
      simp only [pairStep, canStart_of_quiet quiet]
      exact congrArg (·, arbiter) (if_pos secondFree)
    have takeFirst : arbiter.pairStep pairing .takeFirst =
        (.takeSecond pairing.first, { arbiter with pool := halfway }) := by
      simp only [pairStep, firstLeft, PairStage.taken]
    have takeSecond : ({ arbiter with pool := halfway } : Arbiter α).pairStep pairing
        (.takeSecond pairing.first) =
          (.seat pairing.first pairing.second, { arbiter with pool := pool }) := by
      simp only [pairStep, secondLeft, PairStage.taken]
    have taken : ({ arbiter with pool := pool } : Arbiter α).Quiet := quiet
    have seat := pairStep_seat_of_free taken pairing (canSeat_draft differ firstFree secondFree)
    rw [processPair, finishPair_step rfl, checkFirst, finishPair_step rfl, checkSecond,
      finishPair_step rfl, takeFirst, finishPair_step rfl, takeSecond, finishPair_step rfl, seat,
      finishPair_done]
    rfl
  · rwa [← untaken_append] at after

omit [Scalar α] in
/-- Those that may start a match, each asked in turn. -/
theorem available_of_quiet (quiet : arbiter.Quiet) (clients : List QueuedClient) :
    arbiter.available clients = (clients.filter fun client => arbiter.Free client.key, arbiter) := by
  induction clients with
  | nil => rfl
  | cons client rest ih =>
    simp only [available, canStart_of_quiet quiet, ih, List.filter_cons, decide_eq_true_eq]
    rfl

theorem settled_seated (quiet : arbiter.Quiet) {pool : WaitingPool}
    (left : Represents pool (untaken pairing.keys arbiter.pool.clients)) :
    Settled arbiter [pairing] [arbiter.draft pairing.first pairing.second]
      (arbiter.seated pool pairing) where
  quiet := quiet
  settings := rfl
  now := rfl
  roles := rfl
  pool := by
    rw [Pairing.keysOf, List.flatMap_singleton]
    exact left
  agree := .cons (participants_draft ..) .nil
  begun := by
    refine List.forall_mem_singleton.mpr ?_
    rw [draft]
    cases arbiter.draws.headD true <;> exact ⟨rfl, rfl⟩
  ids := by
    rw [List.map_singleton, draft, Match.startDrawn_id]
    rfl
  nextMatch := rfl
  stored := by
    refine List.forall_mem_singleton.mpr ?_
    exact (Registry.match?_of_insert rfl _).trans (if_pos rfl)
  others id outside := by
    have other : (arbiter.draft pairing.first pairing.second).id ≠ id := by
      simpa [eq_comm] using outside
    exact ⟨(Registry.match?_of_insert rfl _).trans (if_neg other),
      (lookup_insert _ _ _ _).trans (if_neg other)⟩
  challenges := rfl
  seats key outside := by
    have apart : key ∉ (arbiter.draft pairing.first pairing.second).participants := by
      rw [(participants_draft ..).mem_iff]
      simpa [Pairing.keysOf, Pairing.keys] using outside
    exact (Registry.seats_seat ..).trans (if_neg fun plays => apart plays.1)

/-- The pairs are of clients that wait and may start a match, and no client is in two of them. -/
structure Ready (arbiter : Arbiter α) (pairs : List (Pairing α)) : Prop where
  quiet : arbiter.Quiet
  lineup : Represents arbiter.pool arbiter.pool.clients
  distinct : (Pairing.keysOf pairs).Nodup
  waiting : ∀ pairing ∈ pairs,
    pairing.first ∈ arbiter.pool.clients ∧ pairing.second ∈ arbiter.pool.clients
  free : ∀ key ∈ Pairing.keysOf pairs, arbiter.Free key

/-- The first of the pairs becomes a match, and the others are as ready as before. -/
theorem Ready.head {pairs : List (Pairing α)} (ready : arbiter.Ready (pairing :: pairs)) :
    ∃ after, arbiter.processPair pairing = (.ok (), after) ∧
      Settled arbiter [pairing] [arbiter.draft pairing.first pairing.second] after ∧
      after.Ready pairs := by
  obtain ⟨quiet, lineup, distinct, waiting, free⟩ := ready
  have keys : Pairing.keysOf (pairing :: pairs) = pairing.keys ++ Pairing.keysOf pairs := rfl
  rw [keys] at distinct free
  obtain ⟨own, distinct, apart⟩ := List.nodup_append.mp distinct
  obtain ⟨⟨first, second⟩, waiting⟩ := List.forall_mem_cons.mp waiting
  obtain ⟨firstFree, secondFree, free⟩ : arbiter.Free pairing.first.key ∧
      arbiter.Free pairing.second.key ∧ ∀ key ∈ Pairing.keysOf pairs, arbiter.Free key := by
    simpa [Pairing.keys, forall_and, or_imp] using free
  obtain ⟨pool, processed, left⟩ := processPair_of_free quiet lineup first second
    (by simpa [Pairing.keys] using own) firstFree secondFree
  have settled := settled_seated quiet left
  refine ⟨_, processed, settled, settled.quiet, ?_, distinct, ?_, ?_⟩
  · rw [clients_eq left]
    exact left
  · intro other member
    -- the clients of the other pairs have not left
    have stays (client : QueuedClient) (own : client.key ∈ other.keys)
        (waits : client ∈ arbiter.pool.clients) :
        client ∈ (arbiter.seated pool pairing).pool.clients := by
      rw [clients_eq left]
      refine mem_untaken.mpr ⟨waits, fun taken => ?_⟩
      exact apart _ taken _ (List.mem_flatMap.mpr ⟨other, member, own⟩) rfl
    obtain ⟨first, second⟩ := waiting other member
    exact ⟨stays _ List.mem_cons_self first,
      stays _ (List.mem_cons_of_mem _ List.mem_cons_self) second⟩
  · intro key member
    refine (settled.free_iff ?_).mpr (free key member)
    rw [Pairing.keysOf, List.flatMap_singleton]
    exact fun taken => apart key taken key member rfl

/-- Pairs that are ready all become matches. -/
theorem Ready.processPairs {pairs : List (Pairing α)} (ready : arbiter.Ready pairs) :
    (arbiter.processPairs pairs).1 = pairs.length ∧
      ∃ chessMatches, Settled arbiter pairs chessMatches (arbiter.processPairs pairs).2 := by
  induction pairs generalizing arbiter with
  | nil => exact ⟨rfl, [], .nil ready.quiet ready.lineup⟩
  | cons pairing rest ih =>
    obtain ⟨after, processed, settled, readyRest⟩ := ready.head
    obtain ⟨count, chessMatches, tail⟩ := ih readyRest
    simp only [Arbiter.processPairs, processed]
    refine ⟨?_, _, settled.cons tail⟩
    rw [count]
    rfl

/-- Each of the pairs succeeds when its turn comes. -/
theorem Ready.answer {front back : List (Pairing α)}
    (ready : arbiter.Ready (front ++ pairing :: back)) :
    ((arbiter.processPairs front).2.processPair pairing).1 = .ok () := by
  induction front generalizing arbiter with
  | nil =>
    obtain ⟨after, processed, _⟩ := ready.head
    exact congrArg Prod.fst processed
  | cons other rest ih =>
    obtain ⟨after, processed, _, readyRest⟩ := ready.head
    simp only [Arbiter.processPairs, processed]
    exact ih readyRest

end Arbiter

end ChessArbiter
