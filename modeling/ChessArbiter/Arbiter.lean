import ChessArbiter.Pool
import ChessArbiter.Registry.Challenges
import ChessArbiter.Settings

/-! # The arbiter

The arbiter joins the registry and the waiting pool to what they depend on: the time, the role
table, the colours still to be drawn and the identities still to be given. Each call is one atomic
step. What calls publish and ask of the timer is kept in order until it is collected. The time may be any
instant; where it comes from, and whether it ever goes back, is no business of the arbiter.

Others may come and go while the arbiter asks for a client's role. What they do then is laid down in
advance, as one `Cue` for each time the role is asked.
-/

namespace ChessArbiter

/-- What happens when a client's role is asked: who leaves and who joins the waiting pool, and what
is answered in place of the role table. -/
structure Cue where
  leaving : List ClientKey
  joining : List ClientProfile
  role : Option Role

structure Arbiter (α : Type) where
  settings : Settings α
  now : Instant
  registry : Registry α
  pool : WaitingPool
  roles : Std.ExtTreeMap ClientKey Role
  cues : Std.ExtTreeMap ClientKey (List Cue)
  /-- The draws of colours to come; when there are none left, the first client is white. -/
  draws : List Bool
  /-- The number of the next new match. -/
  nextMatch : Nat
  /-- The notices published and not yet collected. -/
  notices : List (Notice α)
  /-- The orders to the timer not yet collected. -/
  alarms : List (Alarm α)

namespace Arbiter

variable {α : Type}

/-- The arbiter after an operation of the registry. -/
def absorb {β : Type} (arbiter : Arbiter α) (step : Step α β) : β × Arbiter α :=
  (step.answer, { arbiter with
    registry := step.registry
    notices := arbiter.notices ++ step.notices
    alarms := arbiter.alarms ++ step.alarms })

/-- The next draw. -/
def draw (arbiter : Arbiter α) : Bool × Arbiter α :=
  match arbiter.draws with
  | [] => (true, arbiter)
  | draw :: rest => (draw, { arbiter with draws := rest })

/-- A draw where the given condition asks for one. -/
def drawIf (arbiter : Arbiter α) (needed : Bool) : Bool × Arbiter α :=
  if needed then arbiter.draw else (true, arbiter)

/-- The identity of a new match. -/
def newId (arbiter : Arbiter α) : MatchId × Arbiter α :=
  (⟨arbiter.nextMatch⟩, { arbiter with nextMatch := arbiter.nextMatch + 1 })

/-- A client joins the waiting pool now. -/
def join (arbiter : Arbiter α) (profile : ClientProfile) : Except PoolError Unit × Arbiter α :=
  match arbiter.pool.add ⟨profile, arbiter.now⟩ with
  | .ok pool => (.ok (), { arbiter with pool := pool })
  | .error error => (.error error, arbiter)

/-- A client leaves the waiting pool. -/
def leave (arbiter : Arbiter α) (key : ClientKey) : Except PoolError QueuedClient × Arbiter α :=
  match arbiter.pool.remove key with
  | .ok (node, pool) => (.ok node.client, { arbiter with pool := pool })
  | .error error => (.error error, arbiter)

/-- A client returns to the place in the waiting pool that its time of joining gives it. -/
def requeue (arbiter : Arbiter α) (client : QueuedClient) : Except PoolError Unit × Arbiter α :=
  match arbiter.pool.insert client with
  | .ok pool => (.ok (), { arbiter with pool := pool })
  | .error error => (.error error, arbiter)

/-- The role that the table gives a client; a client that it does not know is a player. -/
def tableRole (arbiter : Arbiter α) (key : ClientKey) : Role :=
  arbiter.roles[key]?.getD .player

def setRole (arbiter : Arbiter α) (key : ClientKey) (role : Role) : Arbiter α :=
  { arbiter with roles := arbiter.roles.insert key role }

/-- The comings and goings of a cue, those that fail ignored. -/
def play (arbiter : Arbiter α) (cue : Cue) : Arbiter α :=
  let left := cue.leaving.foldl (fun arbiter key => (arbiter.leave key).2) arbiter
  cue.joining.foldl (fun arbiter profile => (arbiter.join profile).2) left

/-- Asks for a client's role. -/
def askRole (arbiter : Arbiter α) (key : ClientKey) : Role × Arbiter α :=
  match arbiter.cues[key]? with
  | some (cue :: rest) =>
    let after := { arbiter with cues := arbiter.cues.insert key rest }.play cue
    (cue.role.getD (after.tableRole key), after)
  | _ => (arbiter.tableRole key, arbiter)

/-- Asks for the roles of a match's participants, white first. -/
def askRoles (arbiter : Arbiter α) (chessMatch : Match α) : (ClientKey → Role) × Arbiter α :=
  let (white, arbiter) := arbiter.askRole chessMatch.white
  let (black, arbiter) := arbiter.askRole chessMatch.black
  (fun key => if key = chessMatch.white then white else black, arbiter)

/-- Whether a client may enter a new match. -/
def canStart (arbiter : Arbiter α) (key : ClientKey) : Bool × Arbiter α :=
  let (role, arbiter) := arbiter.askRole key
  (arbiter.registry.canStart key role, arbiter)

def challenge (arbiter : Arbiter α) (challenge : Challenge) :
    Except RegistryError Unit × Arbiter α :=
  let (role, arbiter) := arbiter.askRole challenge.challenger
  arbiter.absorb (arbiter.registry.challenge (fun _ => role) challenge)

def decline (arbiter : Arbiter α) (challenged challenger : ClientKey) :
    Except RegistryError Unit × Arbiter α :=
  arbiter.absorb (arbiter.registry.decline challenged challenger)

def revoke (arbiter : Arbiter α) (challenger challenged : ClientKey) :
    Except RegistryError Unit × Arbiter α :=
  arbiter.absorb (arbiter.registry.revoke challenger challenged)

/-- Takes a match out of the registry. -/
def remove (arbiter : Arbiter α) (id : MatchId) : Except RegistryError Unit × Arbiter α :=
  arbiter.absorb (arbiter.registry.remove id)

variable [Scalar α]

/-- Accepts a challenge. Only an open challenge is worth a draw and a look at the roles. -/
def accept (arbiter : Arbiter α) (challenged challenger : ClientKey) :
    Except RegistryError Unit × Arbiter α :=
  match arbiter.registry.challenge? challenger challenged with
  | none => (.error .challengeNotFound, arbiter)
  | some challenge =>
    let (id, arbiter) := arbiter.newId
    let (draw, arbiter) := arbiter.drawIf challenge.requested.isNone
    let (roles, arbiter) := arbiter.askRoles (Match.ofChallenge id challenge draw arbiter.now)
    arbiter.absorb (arbiter.registry.accept roles challenged challenger id draw arbiter.now)

/-- Enters a match. -/
def add (arbiter : Arbiter α) (chessMatch : Match α) : Except RegistryError Unit × Arbiter α :=
  let (roles, arbiter) := arbiter.askRoles chessMatch
  arbiter.absorb (arbiter.registry.add roles chessMatch arbiter.now)

def move (arbiter : Arbiter α) (id : MatchId) (request : MoveRequest) :
    Except RegistryError Unit × Arbiter α :=
  arbiter.absorb
    (arbiter.registry.move arbiter.settings.minimumDeduction id request arbiter.now)

/-- Writes a match over the stored one. -/
def set (arbiter : Arbiter α) (chessMatch : Match α) :
    Except RegistryError (Match α) × Arbiter α :=
  arbiter.absorb (arbiter.registry.set chessMatch arbiter.now)

def resign (arbiter : Arbiter α) (id : MatchId) (key : ClientKey) :
    Except RegistryError Unit × Arbiter α :=
  arbiter.absorb (arbiter.registry.resign id key arbiter.now)

/-- The clock of a match rings. -/
def expire (arbiter : Arbiter α) (id : MatchId) (generation : Nat) : Arbiter α :=
  (arbiter.absorb (arbiter.registry.expire id generation arbiter.now)).2

end Arbiter

end ChessArbiter
