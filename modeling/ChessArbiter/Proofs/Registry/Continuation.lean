import ChessArbiter.Proofs.Registry.MatchEffect

/-! # Histories that go on

A clock whose match was written since it was set carries an older generation than the stored one. No
write of a match lets it fall behind again, so such a clock has no effect any more, however the history
goes on. Only a match that is entered under the same identity counts its generations from its own.
-/

namespace ChessArbiter

variable {α : Type} [Scalar α] {minimum : α} {registry : Registry α} {id : MatchId} {generation : Nat}

/-- What is stored under the identity, where anything is, carries a later generation. -/
def Registry.Superseded (registry : Registry α) (id : MatchId) (generation : Nat) : Prop :=
  ∀ stored, registry.match? id = some stored → generation < stored.generation

theorem Registry.Superseded.expire (superseded : registry.Superseded id generation) (now : Instant) :
    registry.expire id generation now = .still registry :=
  expire_of_stale now fun stored found => (superseded stored found).ne'

/-- A call leaves a generation superseded unless it enters a match under the identity. -/
theorem MatchEffect.superseded {call : Call α} {step : Step α (Except RegistryError Unit)}
    (effect : MatchEffect minimum registry call step id)
    (others : ∀ chessMatch, (.created, chessMatch) ∈ step.stages → chessMatch.id ≠ id)
    (superseded : registry.Superseded id generation) : step.registry.Superseded id generation := by
  intro next found
  cases effect with
  | untouched kept => exact superseded next (kept ▸ found)
  | entered chessMatch own _ _ _ told =>
    have created : (.created, chessMatch) ∈ step.stages := told ▸ List.mem_singleton_self _
    exact (others chessMatch created own).elim
  | written stored draft foundStored _ _ stores =>
    cases stores.symm.trans found
    exact Nat.lt_succ_of_lt (superseded stored foundStored)
  | closed _ _ _ _ absent => cases absent.symm.trans found

namespace History

variable {rule : Registry α → Call α → Prop} {events : List (Event α)}

/-- In every history, one clock runs for each stored match and for no other, and carries the stored
generation. -/
theorem clocked (history : History rule minimum events registry) : registry.Clocked := by
  induction history with
  | start => exact Registry.clocked_empty
  | call history call _ ih => exact (Registry.effect_perform history.keyed).clocked ih

/-- A generation that was superseded once stays so in every history that goes on from there and enters
no match under the identity. -/
theorem superseded_of_continued {before later : List (Event α)} {event : Event α}
    (history : History rule minimum (before ++ event :: later) registry)
    (others : ∀ chessMatch ∈ entered later, chessMatch.id ≠ id)
    (superseded : event.step.registry.Superseded id generation) :
    registry.Superseded id generation := by
  generalize whole : before ++ event :: later = events at history
  induction history generalizing later with
  | start =>
    have filled := List.append_ne_nil_of_right_ne_nil before (List.cons_ne_nil event later)
    exact (filled whole).elim
  | @call events registry history call _ ih =>
    rcases cut_concat whole with ⟨-, rfl, -⟩ | ⟨rest, rfl, earlier⟩
    · exact superseded
    · rw [entered_concat, List.forall_mem_append] at others
      refine (history.matchEffect call id).superseded ?_ (ih others.1 earlier)
      intro chessMatch created
      exact others.2 chessMatch (Event.mem_entered.mpr created)

end History

end ChessArbiter
