import ChessArbiter.Scheduler
import ChessArbiter.Session.Command
import ChessArbiter.Session.Names
import ChessArbiter.Session.Timer

/-! # Sessions

A session is an arbiter with a wall clock that is moved by hand, a timer, the names of its matches and
what its listener has heard.
After every command the alarms that are due ring, each at its millisecond and each as a call of its
own; what they publish is heard in the same report, but the command's answer comes first.
-/

namespace ChessArbiter

/-- A notice and the millisecond of the timer at which it was published. -/
structure Dispatch where
  time : Nat
  notice : Notice Float

structure Session where
  arbiter : Arbiter Float
  clock : ManualClock
  timer : Timer
  names : MatchNames
  /-- Somebody listens to notices. -/
  listening : Bool
  /-- What has been heard since the last report. -/
  heard : List Dispatch
  /-- The last state in which a notice showed each match. -/
  shown : Std.ExtTreeMap MatchId (Match Float)

/-- What a command answers, and what can be seen after it. -/
structure Report where
  answer : Answer
  active : Nat
  queue : List ClientKey
  dispatches : List Dispatch
  names : MatchNames

namespace Session

/-- The listener hears a notice; a match that it shows comes into view. -/
def hear (session : Session) (notice : Notice Float) : Session :=
  let heard := { session with heard := session.heard ++ [⟨session.timer.time, notice⟩] }
  match notice.match? with
  | some chessMatch =>
    { heard with
      names := session.names.see chessMatch.id
      shown := session.shown.insert chessMatch.id chessMatch }
  | none => heard

/-- The session after the arbiter has acted: the timer takes its orders and the listener, where there
is one, hears the notices. -/
def settle (session : Session) (arbiter : Arbiter Float) : Session :=
  let ordered :=
    { session with
      arbiter := { arbiter with notices := [], alarms := [] }
      timer := arbiter.alarms.foldl Timer.obey session.timer }
  if session.listening then arbiter.notices.foldl hear ordered else ordered

/-- At most so many alarms ring, as long as the next one is one of those that may. -/
def ringWhile (precedence : Precedence) (rings : PendingAlarm → Bool) : Nat → Session → Session
  | 0, session => session
  | count + 1, session =>
    match session.timer.ring? precedence rings with
    | none => session
    | some (alarm, timer) =>
      let ringing := { session with timer := timer }
      ringWhile precedence rings count
        (ringing.settle (ringing.arbiter.expire alarm.id alarm.generation))

/-- The timer's time passes up to a millisecond, and the alarms ring that may. No alarm sets another,
so that there are no more rings than pending alarms. -/
def passTo (session : Session) (limit : Nat) (precedence : Precedence)
    (rings : PendingAlarm → Bool) : Session :=
  let rung := session.ringWhile precedence rings session.timer.pending.length
  { rung with timer := { rung.timer with time := max rung.timer.time limit } }

/-- The timer's time passes up to a millisecond, and what is due by then rings. -/
def passUntil (session : Session) (limit : Nat) (precedence : Precedence) : Session :=
  session.passTo limit precedence fun alarm => alarm.due ≤ limit

/-- The timer's time passes up to a millisecond. Of the alarms that are due at that very millisecond,
only those ring that were set before the given number of others. -/
def passBefore (session : Session) (limit count : Nat) : Session :=
  session.passTo limit .rank fun alarm =>
    alarm.due < limit || (alarm.due == limit && alarm.rank < count)

/-- The alarms ring that are due now. -/
def ringDue (session : Session) : Session :=
  session.passUntil session.timer.time .rank

/-- So many passes of the scheduler, one at once and the others at intervals, and what rings between
them. The wait for the next pass is set before the alarms of the new matches, so that of the alarms of
its millisecond those that are older ring before it. -/
def passes (tick : Nat) : Nat → Session → Session
  | 0, session => session
  | count + 1, session =>
    let passed := session.settle session.arbiter.tick.2
    match count with
    | 0 => passed
    | _ => passes tick count (passed.passBefore (passed.timer.time + tick) session.timer.count)

/-- The scheduler runs for so many milliseconds. -/
def run (session : Session) (millis : Nat) : Session :=
  let tick := session.arbiter.settings.tick
  let passed := passes tick (millis / tick + 1) session
  passed.passUntil (session.timer.time + millis) .rank

/-- The session with the wall clock set, and the arbiter's time with it. -/
def withClock (session : Session) (clock : ManualClock) : Session :=
  { session with
    clock := clock
    arbiter := { session.arbiter with now := clock.now } }

/-- The session after the wall clock has moved. -/
def moveClock (session : Session) (millis : Int) : Session :=
  session.withClock (session.clock.advance millis)

/-- What the wall clock shows. -/
def clockAnswer (session : Session) : Answer :=
  .clock session.arbiter.now.toMillis

/-- The answer to a call of the arbiter, and the session after it. -/
def call {β : Type} (session : Session) (answer : β → Answer) (result : β × Arbiter Float) :
    Answer × Session :=
  (answer result.1, session.settle result.2)

/-- The match that an amendment starts from: the stored one, or the last that was shown. -/
def draft (session : Session) (id : MatchId) : Match Float :=
  (session.arbiter.registry.match? id).getD <|
    session.shown[id]?.getD (Match.start id "" "" .blitz session.arbiter.now)

/-- Enters a new match. Its identity comes into view even if it is refused. -/
def addMatch (session : Session) (white black : ClientKey) (control : TimeControl)
    (amendment : Amendment Float) (reused : Option String) : Answer × Session :=
  let (fresh, arbiter) := session.arbiter.newId
  let id := (reused.bind session.names.find?).getD fresh
  match (Match.start id white black control arbiter.now).amend amendment with
  | .error error => (.refused (.chess error), session)
  | .ok chessMatch =>
    let seen := { session with names := session.names.see id }
    seen.call
      (fun
        | .ok () => .entered id
        | .error error => .refused (.registry error))
      (arbiter.add chessMatch)

/-- Writes an amended match over the stored one. -/
def setMatch (session : Session) (id : MatchId) (amendment : Amendment Float) :
    Answer × Session :=
  match (session.draft id).amend amendment with
  | .error error => (.refused (.chess error), session)
  | .ok chessMatch =>
    session.call
      (fun
        | .ok written => .chessMatch (some written)
        | .error error => .refused (.registry error))
      (session.arbiter.set chessMatch)

/-- The match comes into view with the answer that shows it. -/
def reveal (session : Session) (chessMatch : Option (Match Float)) : Answer × Session :=
  (.chessMatch chessMatch,
    match chessMatch with
    | some chessMatch => { session with names := session.names.see chessMatch.id }
    | none => session)

/-- The waiting clients with the seconds that each has waited. -/
def snapshot (session : Session) : Answer :=
  .clients (session.arbiter.pool.clients.map fun client =>
    (client, client.waited session.arbiter.now))

/-- The answer to a command, and the session before any alarm rings. -/
def perform (session : Session) (command : Command) : Answer × Session :=
  let arbiter := session.arbiter
  let named := session.names.matchOf
  match command with
  | .setRole key role => (.done, session.settle (arbiter.setRole key role))
  | .closeSink => (.done, { session with listening := false })
  | .challenge challenge => session.call (.ofResult .registry) (arbiter.challenge challenge)
  | .accept challenged challenger =>
    session.call (.ofResult .registry) (arbiter.accept challenged challenger)
  | .decline challenged challenger =>
    session.call (.ofResult .registry) (arbiter.decline challenged challenger)
  | .revoke challenger challenged =>
    session.call (.ofResult .registry) (arbiter.revoke challenger challenged)
  | .challenges challenger => (.challenges (arbiter.registry.challengesOf challenger), session)
  | .openChallenge challenger challenged =>
    (.challenge (arbiter.registry.challenge? challenger challenged), session)
  | .addMatch white black control amendment reused =>
    session.addMatch white black control amendment reused
  | .move name (.ok request) =>
    session.call (.ofResult .registry) (arbiter.move (named name) request)
  | .move _ (.error error) => (.refused (.chess error), session)
  | .setMatch name amendment => session.setMatch (named name) amendment
  | .removeMatch name => session.call (.ofResult .registry) (arbiter.remove (named name))
  | .resign name key => session.call (.ofResult .registry) (arbiter.resign (named name) key)
  | .expire name generation => (.done, session.settle (arbiter.expire (named name) generation))
  | .showMatch name => session.reveal (arbiter.registry.match? (named name))
  | .matchOf key => session.reveal (arbiter.registry.matchOf? key)
  | .canStart key => session.call .flag (arbiter.canStart key)
  | .enqueue profile => session.call (.ofResult .queue) (arbiter.join profile)
  | .leave key =>
    session.call
      (fun
        | .ok client => .client client
        | .error error => .refused (.queue error))
      (arbiter.leave key)
  | .requeue client => session.call (.ofResult .queue) (arbiter.requeue client)
  | .snapshot => (session.snapshot, session)
  | .queueState key =>
    (.queueState arbiter.pool.size arbiter.pool.isEmpty (arbiter.pool.contains key), session)
  | .tick => session.call .count arbiter.tick
  | .run millis => (.done, session.run millis)
  | .clock millis =>
    let moved := session.moveClock millis
    (moved.clockAnswer, moved)
  | .setClock millis =>
    let moved := session.withClock (.set millis)
    (moved.clockAnswer, moved)
  | .sleep millis => (.done, session.passUntil (session.timer.time + millis) .identity)
  | .advance millis =>
    let moved := session.moveClock millis
    (moved.clockAnswer, moved.passUntil (moved.timer.time + millis) .identity)

/-- The report on a command, and the session after it. -/
def step (session : Session) (command : Command) : Report × Session :=
  let (answer, performed) := session.perform command
  let after := performed.ringDue
  ({ answer := answer
     active := after.arbiter.registry.active.size
     queue := after.arbiter.pool.clients.map (·.key)
     dispatches := after.heard
     names := after.names },
    { after with heard := [] })

/-- The reports on a sequence of commands. -/
def reports : Session → List Command → List Report
  | _, [] => []
  | session, command :: rest =>
    let (report, after) := session.step command
    report :: reports after rest

/-- A session in which nothing has happened. -/
def start (settings : Settings Float) (clock : ManualClock) (draws : List Bool)
    (cues : Std.ExtTreeMap ClientKey (List Cue)) : Session :=
  { arbiter :=
      { settings := settings
        now := clock.now
        registry := .empty
        pool := .empty
        roles := ∅
        cues := cues
        draws := draws
        nextMatch := 1
        notices := []
        alarms := [] }
    clock := clock
    timer := .start
    names := .empty
    listening := true
    heard := []
    shown := ∅ }

end Session

end ChessArbiter
