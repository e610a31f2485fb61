import Mathlib.Data.List.Basic

/-! # Lists that grow at their end

What happens is listed in its order, so a step of a run adds one element behind all others. What was
known of the shorter list is asked of the longer one.
-/

namespace ChessArbiter

variable {β γ : Type}

/-- A list with one element more is cut at that element or where the shorter list is cut. -/
theorem cut_concat {before after items : List β} {item last : β}
    (whole : before ++ item :: after = items ++ [last]) :
    (before = items ∧ item = last ∧ after = []) ∨
      ∃ rest, after = rest ++ [last] ∧ before ++ item :: rest = items := by
  rcases List.eq_nil_or_concat after with rfl | ⟨rest, final, rfl⟩
  · obtain ⟨same, own⟩ := List.append_inj' whole rfl
    exact .inl ⟨same, List.singleton_inj.mp own, rfl⟩
  · rw [List.concat_eq_append, ← List.cons_append, ← List.append_assoc] at whole
    obtain ⟨same, own⟩ := List.append_inj' whole rfl
    obtain rfl := List.singleton_inj.mp own
    exact .inr ⟨rest, List.concat_eq_append, same⟩

theorem getLast?_filterMap_concat (f : β → Option γ) (items : List β) (last : β) :
    ((items ++ [last]).filterMap f).getLast? = (f last).or (items.filterMap f).getLast? := by
  rw [List.filterMap_append, List.getLast?_append]
  cases found : f last with
  | none => simp only [List.filterMap_cons, found, List.filterMap_nil, List.getLast?_nil]
  | some value => simp only [List.filterMap_cons, found, List.filterMap_nil, List.getLast?_singleton]

end ChessArbiter
