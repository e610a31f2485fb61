import ChessArbiter.Json.Codec
import ChessArbiter.Time.Timestamp
import ChessArbiter.Chess.MoveRequest
import ChessArbiter.Challenge
import ChessArbiter.Match.Result

/-! # The wire forms of records and enumerations

Field names and their order belong to the form. Only the promotion of a move request may be missing,
and then is read as `null`.
-/

namespace ChessArbiter

instance : Encoding MoveRequest where
  encode request := .record [
    ("from_square", .ofString request.source),
    ("to_square", .ofString request.target),
    ("promotion_piece", .optional (request.promotion.map .ofString))]
  decode? value := do
    match ← value.fields? ["from_square", "to_square", "promotion_piece"] with
    | [some source, some target, promotion] =>
      let source ← source.string?
      let target ← target.string?
      match promotion with
      | none | some .null => some ⟨source, target, none⟩
      | some promotion => some ⟨source, target, some (← promotion.string?)⟩
    | _ => none

instance : Encoding TimeControl where
  encode control := .record [
    ("initial_time_sec", .ofNat control.initial.toNat),
    ("increment_sec", .ofNat control.increment.toNat),
    ("time_after_moves_count", .ofNat control.extraAfter.toNat),
    ("sec_after_moves", .ofNat control.extra.toNat)]
  decode? value := do
    match ← value.record? ["initial_time_sec", "increment_sec", "time_after_moves_count",
      "sec_after_moves"] with
    | [initial, increment, extraAfter, extra] =>
      some ⟨← initial.natural32?, ← increment.natural32?, ← extraAfter.natural32?,
        ← extra.natural32?⟩
    | _ => none

instance : Encoding Challenge where
  encode challenge := .record [
    ("challenger_key", .ofString challenge.challenger),
    ("challenged_key", .ofString challenge.challenged),
    ("is_challenger_white", .bool challenge.asksWhite),
    ("is_challenger_black", .bool challenge.asksBlack),
    ("time_control", Encoding.encode challenge.timeControl)]
  decode? value := do
    match ← value.record? ["challenger_key", "challenged_key", "is_challenger_white",
      "is_challenger_black", "time_control"] with
    | [challenger, challenged, asksWhite, asksBlack, timeControl] =>
      some ⟨← challenger.string?, ← challenged.string?, ← asksWhite.bool?, ← asksBlack.bool?,
        ← Encoding.decode? timeControl⟩
    | _ => none

instance : Encoding ClientProfile where
  encode profile := .record [
    ("client_key", .ofString profile.key),
    ("elo", .ofInt profile.elo.toInt),
    ("win_streak", .ofInt profile.winStreak.toInt),
    ("loss_streak", .ofInt profile.lossStreak.toInt)]
  decode? value := do
    match ← value.record? ["client_key", "elo", "win_streak", "loss_streak"] with
    | [key, elo, winStreak, lossStreak] =>
      some ⟨← key.string?, ← elo.integer32?, ← winStreak.integer32?, ← lossStreak.integer32?⟩
    | _ => none

instance : Encoding Instant where
  encode instant := .ofString instant.toText
  decode? value := value.string?.bind fun text => Timestamp.read? text.toList

instance : Encoding QueuedClient where
  encode client := .record [
    ("profile", Encoding.encode client.profile),
    ("joined_at", Encoding.encode client.joinedAt)]
  decode? value := do
    match ← value.record? ["profile", "joined_at"] with
    | [profile, joinedAt] => some ⟨← Encoding.decode? profile, ← Encoding.decode? joinedAt⟩
    | _ => none

namespace Role

def all : List Role :=
  [.player, .bot]

def name : Role → String
  | .player => "Player"
  | .bot => "Bot"

end Role

instance : Encoding Role where
  encode role := .ofString role.name
  decode? := Json.enumerated? Role.all Role.name

namespace ChallengeResolution

def all : List ChallengeResolution :=
  [.accepted, .declined, .revoked]

def name : ChallengeResolution → String
  | .accepted => "Accepted"
  | .declined => "Declined"
  | .revoked => "Revoked"

end ChallengeResolution

instance : Encoding ChallengeResolution where
  encode resolution := .ofString resolution.name
  decode? := Json.enumerated? ChallengeResolution.all ChallengeResolution.name

namespace MatchResult

def all : List MatchResult :=
  [.inProgress, .win .white .checkmate, .win .black .checkmate, .win .white .timeout,
    .win .black .timeout, .win .white .resignation, .win .black .resignation, .draw .stalemate,
    .draw .insufficientMaterial, .draw .fiftyMoveRule, .draw .threefoldRepetition]

def name : MatchResult → String
  | .inProgress => "InProgress"
  | .win .white .checkmate => "WhiteWinsByCheckmate"
  | .win .black .checkmate => "BlackWinsByCheckmate"
  | .win .white .timeout => "WhiteWinsByTimeout"
  | .win .black .timeout => "BlackWinsByTimeout"
  | .win .white .resignation => "WhiteWinsByResignation"
  | .win .black .resignation => "BlackWinsByResignation"
  | .draw .stalemate => "DrawByStalemate"
  | .draw .insufficientMaterial => "DrawByInsufficientMaterial"
  | .draw .fiftyMoveRule => "DrawByFiftyMoveRule"
  | .draw .threefoldRepetition => "DrawByThreefoldRepetition"

end MatchResult

instance : Encoding MatchResult where
  encode result := .ofString result.name
  decode? := Json.enumerated? MatchResult.all MatchResult.name

end ChessArbiter
