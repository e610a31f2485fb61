import ChessArbiter.Proofs.Concat
import ChessArbiter.Proofs.Registry.Challenges

/-! # Histories of the registry

A history is what calls on the empty registry leave behind, in whatever order they are made. Other than
in a run an identity may be given to several matches; on the other hand each call may be held to a rule
about the registry that it finds. What no fresh identity is needed for is proved of histories, whatever
their rule.
-/

namespace ChessArbiter

variable {α : Type} [Scalar α]

/-- What calls on the empty registry have done, and the registry that they leave. The rule allows each
of the calls on the registry that it finds. -/
inductive History (rule : Registry α → Call α → Prop) (minimum : α) :
    List (Event α) → Registry α → Prop
  | start : History rule minimum [] .empty
  | call {events : List (Event α)} {registry : Registry α}
      (history : History rule minimum events registry) (call : Call α)
      (allowed : rule registry call) :
      History rule minimum (events ++ [registry.event minimum call])
        (registry.perform minimum call).registry

variable {rule : Registry α → Call α → Prop} {minimum : α} {events : List (Event α)}
  {registry : Registry α}

namespace History

theorem keyed (history : History rule minimum events registry) : registry.Keyed := by
  induction history with
  | start =>
    intro id stored found
    rw [Registry.match?_empty] at found
    cases found
  | call _ call _ ih => exact (Registry.effect_perform ih).keyed ih

theorem populated (history : History rule minimum events registry) : registry.Populated := by
  induction history with
  | start => exact Registry.populated_empty
  | call _ call _ ih => exact (Registry.challengeEffect_perform ih).populated ih

end History

end ChessArbiter
