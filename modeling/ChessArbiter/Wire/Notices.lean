import ChessArbiter.Decimal.Notation
import ChessArbiter.Notice
import ChessArbiter.Wire.Records

/-! # The wire forms of matches and notices

These are written and never read. The identity of a match is written by a function that the caller
gives.
-/

namespace ChessArbiter

/-- A number in decimal notation; one that is not finite has no JSON form and is `null`. -/
def Json.ofFloat (x : Float) : Json :=
  if x.isNaN || x.isInf then .null else .number (Decimal.finite x)

namespace Match

def toJson (identity : MatchId → String) (chessMatch : Match Float) : Json :=
  .record [
    ("match_id", .ofString (identity chessMatch.id)),
    ("position", .ofString chessMatch.position.fen),
    ("white_client_key", .ofString chessMatch.white),
    ("white_time_remaining_sec", .ofFloat chessMatch.whiteTime),
    ("black_client_key", .ofString chessMatch.black),
    ("black_time_remaining_sec", .ofFloat chessMatch.blackTime),
    ("time_control", Encoding.encode chessMatch.timeControl),
    ("last_move_time", Encoding.encode chessMatch.lastMove),
    ("result", Encoding.encode chessMatch.result),
    ("generation", .ofNat chessMatch.generation),
    ("move_history", .array (chessMatch.history.map .ofString))]

end Match

namespace Notice

/-- The fields of a notice besides its kind. -/
def fields (identity : MatchId → String) : Notice Float → List (String × Json)
  | .matchCreated chessMatch => [("chess_match", chessMatch.toJson identity)]
  | .matchUpdated chessMatch => [("chess_match", chessMatch.toJson identity)]
  | .matchEnded chessMatch => [("chess_match", chessMatch.toJson identity)]
  | .matchCreationFailed chessMatch reason =>
    [("chess_match", chessMatch.toJson identity), ("reason", .ofString reason)]
  | .challengeCreated challenge => [("challenge", Encoding.encode challenge)]
  | .challengeDenied challenge => [("challenge", Encoding.encode challenge)]
  | .challengeRevoked challenge => [("challenge", Encoding.encode challenge)]
  | .challengeAccepted challenge => [("challenge", Encoding.encode challenge)]
  | .challengeRequestFailed challenge reason =>
    [("challenge", Encoding.encode challenge), ("reason", .ofString reason)]
  | .moveFailure id move reason participants => [
      ("match_id", .ofString (identity id)),
      ("chess_move", .ofString move),
      ("reason", .ofString reason),
      ("participants", .array (participants.map .ofString))]

def toJson (identity : MatchId → String) (notice : Notice Float) : Json :=
  .record (("type", .ofString notice.kind) :: notice.fields identity)

end Notice

end ChessArbiter
