import ChessArbiter.TimeControl
import ChessArbiter.Decimal.Notation

/-! # Settings

Every setting has a default. A variable of the environment replaces it where its text can be read
and its value makes sense: the interval between passes is positive and the least deduction is not
negative. Any other text is ignored.
-/

namespace ChessArbiter

inductive LogLevel where
  | error
  | warn
  | info
  | debug
  | trace
deriving DecidableEq

namespace LogLevel

def name : LogLevel → String
  | .error => "ERROR"
  | .warn => "WARN"
  | .info => "INFO"
  | .debug => "DEBUG"
  | .trace => "TRACE"

/-- The levels from the most severe, which has number 1. -/
def all : List LogLevel :=
  [.error, .warn, .info, .debug, .trace]

/-- A level's number, or its name in any case. -/
def read? (text : List Char) : Option LogLevel :=
  match Text.natural64? text with
  | some number => if number = 0 then none else all[number - 1]?
  | none => all.find? fun level => Text.lowerAscii level.name.toList == Text.lowerAscii text

end LogLevel

structure Settings (α : Type) where
  /-- The milliseconds between two passes over the waiting clients. -/
  tick : Nat
  /-- The greatest weight at which two clients are paired. -/
  threshold : α
  /-- The least time in seconds that a move costs. -/
  minimumDeduction : α
  /-- The time control of matches between paired clients. -/
  timeControl : TimeControl
  logLevel : LogLevel

namespace Settings

def standard : Settings Float :=
  { tick := 1000
    threshold := 100.0
    minimumDeduction := 0.1
    timeControl := .blitz
    logLevel := .info }

/-- The value of a variable that can be read and is accepted, else the default. -/
def setting {β : Type} (environment : String → Option String) (name : String)
    (read? : List Char → Option β) (accepted : β → Bool) (default : β) : β :=
  (((environment name).bind fun text => read? text.toList).filter accepted).getD default

/-- The settings in an environment. -/
def ofEnvironment (environment : String → Option String) : Settings Float :=
  { tick := setting environment "ARBITER_MATCHMAKING_TICK_MS" Text.natural64? (0 < ·)
      standard.tick
    threshold := setting environment "ARBITER_PAIRING_WEIGHT_THRESHOLD" Decimal.read?
      (fun _ => true) standard.threshold
    minimumDeduction := setting environment "ARBITER_MINIMUM_MOVE_DEDUCTION_SECS" Decimal.read?
      (0 ≤ ·) standard.minimumDeduction
    timeControl := setting environment "ARBITER_MATCHMAKING_TIME_CONTROL" TimeControl.read?
      (fun _ => true) standard.timeControl
    logLevel := setting environment "ARBITER_LOG_LEVEL" LogLevel.read? (fun _ => true)
      standard.logLevel }

end Settings

end ChessArbiter
