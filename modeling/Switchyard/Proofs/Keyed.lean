import Mathlib.Data.List.Basic

/-!
# Lists of keys and values

Under a key stands the value of its first entry. What stands there after an entry was put in front, after
those of a key were taken out or given another value, and after all values were changed.
-/

namespace Switchyard

variable {κ β : Type} [BEq κ] [LawfulBEq κ]

/-- Nothing is taken out of a list in which the key is not found. -/
theorem filter_of_lookup_none {pairs : List (κ × β)} {key : κ} (missing : pairs.lookup key = none) :
    pairs.filter (·.1 != key) = pairs := by
  rw [List.filter_eq_self]
  intro pair mem
  have different := List.lookup_eq_none_iff.mp missing pair mem
  simpa [bne_comm] using different

variable [DecidableEq κ]

theorem lookup_pair_cons (pairs : List (κ × β)) (key other : κ) (value : β) :
    ((key, value) :: pairs).lookup other = if other = key then some value else pairs.lookup other := by
  rw [List.lookup_cons]
  by_cases same : other = key
  · simp [same]
  · simp [same, beq_false_of_ne same]

theorem lookup_filter_ne (pairs : List (κ × β)) (key other : κ) :
    (pairs.filter (·.1 != key)).lookup other = if other = key then none else pairs.lookup other := by
  induction pairs with
  | nil => simp
  | cons pair pairs ih =>
    obtain ⟨k, value⟩ := pair
    rw [List.filter_cons, lookup_pair_cons]
    by_cases removed : k = key
    · rw [if_neg (by simpa using removed), ih]
      split
      case isTrue => rfl
      case isFalse different => rw [if_neg fun same => different (same.trans removed)]
    · rw [if_pos (by simpa using removed), lookup_pair_cons, ih]
      by_cases same : other = k
      · rw [if_pos same, if_neg fun gone => removed (same.symm.trans gone), if_pos same]
      · rw [if_neg same, if_neg same]

theorem lookup_map_put (pairs : List (κ × β)) (key other : κ) (new : β) :
    (pairs.map fun pair => if pair.1 = key then (key, new) else pair).lookup other =
      if other = key then (pairs.lookup key).map fun _ => new else pairs.lookup other := by
  induction pairs with
  | nil => simp
  | cons pair pairs ih =>
    obtain ⟨k, value⟩ := pair
    rw [List.map_cons, lookup_pair_cons, lookup_pair_cons]
    by_cases put : k = key
    · rw [if_pos put, lookup_pair_cons, ih, if_pos put.symm, put]
      split <;> rfl
    · rw [if_neg put, lookup_pair_cons, ih, if_neg (Ne.symm put)]
      by_cases same : other = k
      · rw [if_pos same, if_neg fun new => put (same.symm.trans new), if_pos same]
      · rw [if_neg same, if_neg same]

theorem lookup_map_values (pairs : List (κ × β)) (change : β → β) (key : κ) :
    (pairs.map fun pair => (pair.1, change pair.2)).lookup key = (pairs.lookup key).map change := by
  induction pairs with
  | nil => rfl
  | cons pair pairs ih =>
    obtain ⟨k, value⟩ := pair
    rw [List.map_cons, lookup_pair_cons, lookup_pair_cons, ih]
    split <;> rfl

end Switchyard
