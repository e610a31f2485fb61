import ChessArbiter.Session.Basic
import ChessArbiter.Wire.Notices
import ChessArbiter.Proofs.Lookup
import ChessArbiter.Proofs.Concat
import ChessArbiter.Proofs.Registry.Lookup
import ChessArbiter.Proofs.Registry.Run
import ChessArbiter.Proofs.Registry.Effect
import ChessArbiter.Proofs.Registry.Lifecycle
import ChessArbiter.Proofs.Registry.Seats
import ChessArbiter.Proofs.Registry.Clocks
import ChessArbiter.Proofs.Registry.Challenges
import ChessArbiter.Proofs.Registry.Refusal
import ChessArbiter.Proofs.Registry.Entry
import ChessArbiter.Proofs.Pool.Represents
import ChessArbiter.Proofs.Pool.Traversal
import ChessArbiter.Proofs.Pool.Lineup
import ChessArbiter.Proofs.Pairing.Weight
import ChessArbiter.Proofs.Pairing.Greedy
import ChessArbiter.Proofs.Arbiter.Acts
import ChessArbiter.Proofs.Scheduler.Interleaving
import ChessArbiter.Proofs.Arbiter.Reachable
import ChessArbiter.Proofs.Scheduler.Seating
import ChessArbiter.Proofs.Scheduler.Pass
import ChessArbiter.Proofs.Chess.Ways
import ChessArbiter.Proofs.Chess.Consistent
import ChessArbiter.Proofs.Chess.Game
import ChessArbiter.Proofs.Chess.Reserve
import ChessArbiter.Proofs.Chess.Repetition
import ChessArbiter.Proofs.Registry.MatchEffect
import ChessArbiter.Proofs.Match.ClockAccount
import ChessArbiter.Proofs.Registry.Accounting
import ChessArbiter.Proofs.Registry.FlagFall
import ChessArbiter.Proofs.Registry.Deadline
import ChessArbiter.Proofs.Registry.Verdict
import ChessArbiter.Proofs.Registry.History
import ChessArbiter.Proofs.Registry.ChallengeLifecycle
import ChessArbiter.Proofs.Text.Blank
import ChessArbiter.Proofs.Chess.Replay
import ChessArbiter.Proofs.Chess.Length
import ChessArbiter.Proofs.Registry.Record
import ChessArbiter.Proofs.Chess.Orderly
import ChessArbiter.Proofs.Chess.Proper
import ChessArbiter.Proofs.Chess.Checks
import ChessArbiter.Proofs.Chess.PlacementText
import ChessArbiter.Proofs.Chess.RoundTrip
import ChessArbiter.Proofs.Registry.Independence
import ChessArbiter.Proofs.Registry.Availability
import ChessArbiter.Proofs.Pool.JoinOrder
import ChessArbiter.Proofs.Scheduler.JoinOrder
import ChessArbiter.Proofs.Chess.Notation
import ChessArbiter.Proofs.Registry.Notation
import ChessArbiter.Proofs.Chess.Kings
import ChessArbiter.Proofs.Chess.Material
import ChessArbiter.Proofs.Pairing.Stable
import ChessArbiter.Proofs.Registry.Acceptance
import ChessArbiter.Proofs.Chess.DeadPosition
import ChessArbiter.Proofs.Json.RoundTrip
import ChessArbiter.Proofs.Time.Calendar
import ChessArbiter.Proofs.Time.Timestamp
import ChessArbiter.Proofs.Wire.RoundTrip
import ChessArbiter.Proofs.Chess.Counters
import ChessArbiter.Proofs.Text.Spelling
import ChessArbiter.Proofs.Chess.MoveGrammar
import ChessArbiter.Proofs.Pairing.Closest
import ChessArbiter.Proofs.Chess.Plies
import ChessArbiter.Proofs.TimeControl
import ChessArbiter.Proofs.Registry.Bounds
