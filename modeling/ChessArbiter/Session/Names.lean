import ChessArbiter.Match.Basic
import ChessArbiter.Text.Numeral

/-! # Names of matches

Matches are named `m1`, `m2` and so on in the order in which they first come into view. A match that
has not come into view has no name, and a name that has not been given stands for no match.
-/

namespace ChessArbiter

/-- The matches that have been named, the first one first. -/
structure MatchNames where
  named : List MatchId

namespace MatchNames

def empty : MatchNames :=
  ⟨[]⟩

/-- The identity that no match has. -/
def nobody : MatchId :=
  ⟨0⟩

/-- The names after a match has come into view. -/
def see (names : MatchNames) (id : MatchId) : MatchNames :=
  if id ∈ names.named then names else ⟨names.named ++ [id]⟩

/-- The name of a match. -/
def nameOf (names : MatchNames) (id : MatchId) : String :=
  match names.named.findIdx? (· == id) with
  | some index => String.ofList ('m' :: Text.digits (index + 1))
  | none => "unknown"

/-- The match that has a name. -/
def find? (names : MatchNames) (name : String) : Option MatchId :=
  names.named.find? fun id => names.nameOf id == name

/-- The match that has a name, or the identity that no match has. -/
def matchOf (names : MatchNames) (name : String) : MatchId :=
  (names.find? name).getD nobody

end MatchNames

end ChessArbiter
