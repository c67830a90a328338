import Mathlib.Tactic.Common
import ScriptMachine.Stack

/-!
Stacks, slot by slot.

Every operation on a stack is described by its length and by the values that can
be looked up afterwards.
-/

namespace ScriptMachine.Stack

variable {α : Type} (s : Stack α) (value : α) (i n : Nat)

lemma get?_eq_none_iff {s : Stack α} : s.get? i = none ↔ s.length ≤ i := Array.getElem?_eq_none_iff

/-! ### Pushing and popping -/

lemma push_items : (s.push value).items = s.items.push value := by
  rw [push]
  split <;> rfl

@[simp] lemma length_push : (s.push value).length = s.length + 1 := by
  rw [length, push_items, Array.size_push]
  rfl

lemma get?_push : (s.push value).get? i = if i = s.length then some value else s.get? i := by
  rw [get?, push_items, Array.getElem?_push]
  rfl

lemma get?_push_of_lt (h : i < s.length) : (s.push value).get? i = s.get? i := by
  rw [get?_push, if_neg (Nat.ne_of_lt h)]

@[simp] lemma length_pop : s.pop.2.length = s.length - 1 := Array.size_pop

lemma get?_pop_of_lt (h : i < s.length - 1) : s.pop.2.get? i = s.get? i := by
  rw [pop, get?, get?, Array.getElem?_pop]
  exact if_pos h

lemma pop_fst : s.pop.1 = s.get? (s.length - 1) := Array.back?_eq_getElem?

/-- What was pushed is popped again. The stack may have grown. -/
lemma pop_push :
    (s.push value).pop = (some value, { s with capacity := (s.push value).capacity }) := by
  rw [push]
  split <;> simp [pop]

@[simp] lemma footprint_pop [Footprint α] : s.pop.2.footprint = s.footprint := rfl

/-! ### Truncating -/

@[simp] lemma length_truncate : (s.truncate n).length = min n s.length := Array.size_shrink

lemma get?_truncate_of_lt (h : i < n) : (s.truncate n).get? i = s.get? i := by
  rw [truncate, get?, get?, Array.shrink_eq_take]
  grind

/-! ### Storing -/

lemma length_set_of_lt [Inhabited α] (h : n < s.length) : (s.set n value).2.length = s.length := by
  rw [set, if_pos (show n < s.items.size from h)]
  exact Array.size_setIfInBounds

@[simp] lemma footprint_set [Inhabited α] [Footprint α] :
    (s.set n value).2.footprint = s.footprint := by
  rw [set]
  split
  · rfl
  · split <;> rfl

/-- Storing over a value leaves all other slots alone. -/
lemma get?_set_of_lt [Inhabited α] (h : n < s.length) (hne : i ≠ n) :
    (s.set n value).2.get? i = s.get? i := by
  rw [set, if_pos (show n < s.items.size from h)]
  exact Array.getElem?_setIfInBounds_ne (Ne.symm hne)

/-- Storing at one index leaves the slots alone that are there and have another
one. -/
lemma get?_set_of_ne [Inhabited α] (hne : i ≠ n) (hlt : i < s.length) :
    (s.set n value).2.get? i = s.get? i := by
  rw [set]
  split
  · exact Array.getElem?_setIfInBounds_ne (Ne.symm hne)
  · split
    · have hlt' : i < (s.items ++ Array.replicate (n - s.items.size) default).size := by
        rw [Array.size_append]
        exact Nat.lt_add_right _ hlt
      rw [get?, Array.getElem?_push_lt hlt', Array.getElem_append_left hlt]
      exact (Array.getElem?_eq_getElem hlt).symm
    · rfl

@[simp] lemma capacity_set [Inhabited α] : (s.set n value).2.capacity = s.capacity := by
  rw [set]
  split
  · rfl
  · split <;> rfl

/-- Storing below the capacity extends the stack up to the index. -/
lemma length_set_of_room [Inhabited α] (h : n < s.capacity) :
    (s.set n value).2.length = max s.length (n + 1) := by
  by_cases hlt : n < s.length
  · rw [length_set_of_lt s value n hlt, Nat.max_eq_left hlt]
  · rw [set, if_neg (show ¬ n < s.items.size from hlt), if_pos h, length, Array.size_push,
      Array.size_append, Array.size_replicate]
    change s.length + (n - s.length) + 1 = _
    omega

/-- Places that are skipped hold the default value. -/
lemma get?_set_of_room [Inhabited α] (h : n < s.capacity) (hi : i < max s.length (n + 1)) :
    (s.set n value).2.get? i = some (if i = n then value else (s.get? i).getD default) := by
  by_cases hlt : n < s.length
  · rw [set, if_pos (show n < s.items.size from hlt), get?, Array.getElem?_setIfInBounds]
    have hsize : i < s.items.size := by
      rw [Nat.max_eq_left hlt] at hi
      exact hi
    by_cases heq : n = i
    · rw [if_pos heq, if_pos (heq ▸ hsize), if_pos heq.symm]
    · rw [if_neg heq, if_neg (Ne.symm heq), get?, Array.getElem?_eq_getElem hsize, Option.getD_some]
  · rw [set, if_neg (show ¬ n < s.items.size from hlt), if_pos h, get?, Array.getElem?_push,
      Array.getElem?_append, Array.size_append, Array.size_replicate]
    have hle : s.items.size ≤ n := Nat.le_of_not_lt hlt
    have hin : i < n + 1 := by
      rw [length, Nat.max_eq_right (by omega)] at hi
      exact hi
    by_cases heq : i = n
    · rw [if_pos (by omega), if_pos heq]
    · rw [if_neg (by omega), if_neg heq, get?]
      by_cases hold : i < s.items.size
      · rw [if_pos hold, Array.getElem?_eq_getElem hold, Option.getD_some]
      · rw [if_neg hold, Array.getElem?_eq_none (Nat.le_of_not_lt hold), Option.getD_none,
          Array.getElem?_replicate, if_pos (by omega)]

end ScriptMachine.Stack
