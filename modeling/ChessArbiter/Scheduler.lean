import ChessArbiter.Arbiter
import ChessArbiter.Pairing

/-! # The scheduler

A pass takes the waiting clients that may start a match, pairs them, and turns each pair into a
match. Others act between the calls that this takes, so a pair may have become stale: whoever was
taken out of the pool in vain is put back. The calls are the steps of `PairStage`, one for each, so
that anything may be imagined to happen between two of them.
-/

namespace ChessArbiter

/-- Why a pair did not become a match. -/
inductive SchedulerError where
  | unavailable (key : ClientKey)
  | queue (cause : PoolError)
  | registry (cause : RegistryError)
deriving DecidableEq

def SchedulerError.message : SchedulerError → String
  | .unavailable key => "Client " ++ key ++ " cannot start a match"
  | .queue cause => "Queue error: " ++ cause.clientMessage
  | .registry cause => "Match error: " ++ cause.message

/-- What is left to do for a pair. -/
inductive PairStage where
  | checkFirst
  | checkSecond
  | takeFirst
  | takeSecond (first : QueuedClient)
  | seat (first second : QueuedClient)
  | putBack (clients : List QueuedClient) (error : SchedulerError)
  | done (result : Except SchedulerError Unit)

namespace PairStage

/-- A bound on the steps that are left. -/
def remaining : PairStage → Nat
  | .checkFirst => 8
  | .checkSecond => 7
  | .takeFirst => 6
  | .takeSecond _ => 5
  | .seat _ _ => 4
  | .putBack clients _ => clients.length + 1
  | .done _ => 0

/-- The result of a stage at which nothing is left to do. -/
def result? : PairStage → Option (Except SchedulerError Unit)
  | .done result => some result
  | _ => none

/-- The stage after a client has been taken out of the pool, or has not been. -/
def taken (result : Except PoolError QueuedClient) (held : List QueuedClient)
    (next : QueuedClient → PairStage) : PairStage :=
  match result with
  | .ok client => next client
  | .error error => .putBack held (.queue error)

end PairStage

namespace Arbiter

variable {α : Type} [Scalar α]

/-- One step for a pair. -/
def pairStep (pairing : Pairing α) (stage : PairStage) (arbiter : Arbiter α) :
    PairStage × Arbiter α :=
  match stage with
  | .checkFirst =>
    let (free, arbiter) := arbiter.canStart pairing.first.key
    (if free then .checkSecond else .done (.error (.unavailable pairing.first.key)), arbiter)
  | .checkSecond =>
    let (free, arbiter) := arbiter.canStart pairing.second.key
    (if free then .takeFirst else .done (.error (.unavailable pairing.second.key)), arbiter)
  | .takeFirst =>
    let (result, arbiter) := arbiter.leave pairing.first.key
    (.taken result [] .takeSecond, arbiter)
  | .takeSecond first =>
    let (result, arbiter) := arbiter.leave pairing.second.key
    (.taken result [first] (.seat first), arbiter)
  | .seat first second =>
    let (id, arbiter) := arbiter.newId
    let (draw, arbiter) := arbiter.draw
    let chessMatch :=
      Match.startDrawn id first.key second.key draw arbiter.settings.timeControl arbiter.now
    match arbiter.add chessMatch with
    | (.ok (), arbiter) => (.done (.ok ()), arbiter)
    | (.error error, arbiter) => (.putBack [first, second] (.registry error), arbiter)
  | .putBack [] error => (.done (.error error), arbiter)
  | .putBack (client :: rest) error => (.putBack rest error, (arbiter.requeue client).2)
  | .done result => (.done result, arbiter)

theorem remaining_pairStep (pairing : Pairing α) {stage : PairStage} (arbiter : Arbiter α)
    (unfinished : stage.result? = none) :
    (arbiter.pairStep pairing stage).1.remaining < stage.remaining := by
  cases stage with
  | checkFirst => simp only [pairStep]; split <;> simp [PairStage.remaining]
  | checkSecond => simp only [pairStep]; split <;> simp [PairStage.remaining]
  | takeFirst => simp only [pairStep, PairStage.taken]; split <;> simp [PairStage.remaining]
  | takeSecond first => simp only [pairStep, PairStage.taken]; split <;> simp [PairStage.remaining]
  | seat first second => simp only [pairStep]; split <;> simp [PairStage.remaining]
  | putBack clients error => cases clients <;> simp [pairStep, PairStage.remaining]
  | done result => cases unfinished

/-- Takes the steps for a pair to their end. -/
def finishPair (pairing : Pairing α) (stage : PairStage) (arbiter : Arbiter α) :
    Except SchedulerError Unit × Arbiter α :=
  match _ : stage.result? with
  | some result => (result, arbiter)
  | none =>
    let next := arbiter.pairStep pairing stage
    finishPair pairing next.1 next.2
termination_by stage.remaining
decreasing_by exact remaining_pairStep pairing arbiter (by assumption)

/-- Turns a pair into a match. -/
def processPair (pairing : Pairing α) (arbiter : Arbiter α) :
    Except SchedulerError Unit × Arbiter α :=
  finishPair pairing .checkFirst arbiter

/-- Those of the clients that may start a match, each asked in turn. -/
def available (arbiter : Arbiter α) : List QueuedClient → List QueuedClient × Arbiter α
  | [] => ([], arbiter)
  | client :: rest =>
    let (free, arbiter) := arbiter.canStart client.key
    let (others, arbiter) := arbiter.available rest
    (if free then client :: others else others, arbiter)

/-- Turns pairs into matches and counts those that succeed. -/
def processPairs (arbiter : Arbiter α) : List (Pairing α) → Nat × Arbiter α
  | [] => (0, arbiter)
  | pairing :: rest =>
    let (result, arbiter) := arbiter.processPair pairing
    let (created, arbiter) := arbiter.processPairs rest
    (if result.isOk then created + 1 else created, arbiter)

/-- One pass over the waiting clients, with the number of matches that it creates. -/
def tick (arbiter : Arbiter α) : Nat × Arbiter α :=
  let (clients, arbiter) := arbiter.available arbiter.pool.clients
  if clients.length < 2 then (0, arbiter)
  else arbiter.processPairs (findPairs arbiter.settings.threshold clients arbiter.now)

end Arbiter

end ChessArbiter
