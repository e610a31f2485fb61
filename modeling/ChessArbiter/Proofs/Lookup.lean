import Std.Data.ExtTreeMap

/-! # Looking things up in a map

The keys of the maps used here are equal as soon as they compare as equal, so a look-up after a write
asks whether the two keys are the same.
-/

namespace ChessArbiter

variable {κ β : Type} [Ord κ] [Std.TransOrd κ] [Std.LawfulEqOrd κ] [DecidableEq κ]

theorem lookup_insert (map : Std.ExtTreeMap κ β) (key other : κ) (value : β) :
    (map.insert key value)[other]? = if key = other then some value else map[other]? := by
  simp only [Std.ExtTreeMap.getElem?_insert, Std.LawfulEqOrd.compare_eq_iff_eq]

theorem lookup_erase (map : Std.ExtTreeMap κ β) (key other : κ) :
    (map.erase key)[other]? = if key = other then none else map[other]? := by
  simp only [Std.ExtTreeMap.getElem?_erase, Std.LawfulEqOrd.compare_eq_iff_eq]

/-- Erasing a key again changes nothing. -/
theorem erase_erase_self (map : Std.ExtTreeMap κ β) (key : κ) :
    (map.erase key).erase key = map.erase key := by
  apply Std.ExtTreeMap.ext_getElem?
  intro other
  rw [lookup_erase, lookup_erase]
  split <;> rfl

omit [Std.LawfulEqOrd κ] [DecidableEq κ] in
theorem contains_eq_false_iff (map : Std.ExtTreeMap κ β) (key : κ) :
    map.contains key = false ↔ map[key]? = none := by
  rw [Std.ExtTreeMap.contains_eq_isSome_getElem?, Option.isSome_eq_false_iff, Option.isNone_iff_eq_none]

omit [Std.LawfulEqOrd κ] [DecidableEq κ] in
/-- The values of a map in the order of their keys. -/
theorem values_eq (map : Std.ExtTreeMap κ β) : map.values = map.toList.map (·.2) := by
  obtain ⟨inner⟩ := map
  induction inner using Std.ExtDTreeMap.inductionOn with
  | mk inner =>
    show inner.inner.values = (Std.DTreeMap.Internal.Impl.Const.toList inner.inner).map (·.2)
    rw [Std.DTreeMap.Internal.Impl.values_eq_map_snd,
      Std.DTreeMap.Internal.Impl.Const.toList_eq_toListModel_map, List.map_map]
    rfl

/-- A value that tells its own key is listed once where it is stored, and not at all elsewhere. -/
theorem filter_values (map : Std.ExtTreeMap κ β) (keyOf : β → κ)
    (own : ∀ key value, map[key]? = some value → keyOf value = key) (key : κ) :
    map.values.filter (keyOf · = key) = map[key]?.toList := by
  have stored : ∀ entry ∈ map.toList, map[entry.1]? = some entry.2 := fun _ member =>
    Std.ExtTreeMap.mem_toList_iff_getElem?_eq_some.mp member
  have byKey : map.toList.filter (fun entry => keyOf entry.2 = key) =
      map.toList.filter (fun entry => entry.1 = key) := by
    apply List.filter_congr
    intro entry member
    rw [own _ _ (stored entry member)]
  rw [values_eq, List.filter_map, Function.comp_def, byKey]
  cases found : map[key]? with
  | none =>
    have none : map.toList.filter (fun entry => entry.1 = key) = [] := by
      apply List.filter_eq_nil_iff.mpr
      intro entry member same
      cases (stored entry member).symm.trans (of_decide_eq_true same ▸ found)
    rw [none]
    rfl
  | some value =>
    have distinct : map.toList.Nodup := by
      refine Std.ExtTreeMap.distinct_keys_toList.imp fun differ same => differ ?_
      rw [same]
      exact Std.ReflCmp.compare_self
    have one : (map.toList.filter (fun entry => entry.1 = key)).Perm [(key, value)] := by
      refine (List.perm_ext_iff_of_nodup (distinct.filter _) (List.pairwise_singleton _ _)).mpr ?_
      rintro ⟨other, listed⟩
      rw [List.mem_filter, Std.ExtTreeMap.mem_toList_iff_getElem?_eq_some, List.mem_singleton,
        decide_eq_true_iff, Prod.mk.injEq]
      constructor
      · rintro ⟨there, rfl⟩
        exact ⟨rfl, Option.some.inj (there.symm.trans found)⟩
      · rintro ⟨rfl, rfl⟩
        exact ⟨found, rfl⟩
    rw [List.perm_singleton.mp one]
    rfl
end ChessArbiter
