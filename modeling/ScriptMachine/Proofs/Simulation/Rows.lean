import Mathlib.Data.List.Forall2
import Mathlib.Tactic.Common
import ScriptMachine.Stack

/-!
Rows of related elements.

`ArrayRel R` relates arrays that hold related elements at every index, and
`Stack.Rel R` stacks of one capacity with such items. All operations on stacks
keep stacks related; they give related values and make the same decisions.
-/

namespace ScriptMachine

variable {α : Type} {R : α → α → Prop}

/-- Arrays with related elements at every index. -/
def ArrayRel (R : α → α → Prop) (xs ys : Array α) : Prop :=
  ∀ i : Nat, Option.Rel R xs[i]? ys[i]?

/-- Each element of the first of two related lists has a partner. -/
lemma exists_partner {α β : Type} {R : α → β → Prop} {l : List α} {l' : List β} {x : α}
    (h : List.Forall₂ R l l') (hx : x ∈ l) : ∃ y ∈ l', R x y := by
  induction h with
  | nil => cases hx
  | cons hxy _ ih =>
      rcases List.mem_cons.mp hx with rfl | hx
      · exact ⟨_, .head _, hxy⟩
      · obtain ⟨y, hy, hrel⟩ := ih hx
        exact ⟨y, .tail _ hy, hrel⟩

namespace ArrayRel

variable {xs ys xs' ys' : Array α} {x y : α}

lemma size_eq (h : ArrayRel R xs ys) : xs.size = ys.size := by
  have hle : ∀ {xs ys : Array α} {R : α → α → Prop}, ArrayRel R xs ys → xs.size ≤ ys.size := by
    intro xs ys R h
    by_contra hlt
    have hrel := h ys.size
    rw [Array.getElem?_eq_none (Nat.le_refl _), Array.getElem?_eq_getElem (by omega)] at hrel
    cases hrel
  have hflip : ArrayRel (fun b a => R a b) ys xs := by
    intro i
    have hrel := h i
    revert hrel
    generalize xs[i]? = a, ys[i]? = b
    rintro (hab | _)
    · exact .some hab
    · exact .none
  exact Nat.le_antisymm (hle h) (hle hflip)

lemma empty : ArrayRel R #[] #[] := fun _ => .none

lemma replicate (n : Nat) (h : R x y) : ArrayRel R (Array.replicate n x) (Array.replicate n y) := by
  intro i
  simp only [Array.getElem?_replicate]
  split
  · exact .some h
  · exact .none

lemma push (h : ArrayRel R xs ys) (hxy : R x y) : ArrayRel R (xs.push x) (ys.push y) := by
  intro i
  rw [Array.getElem?_push, Array.getElem?_push, h.size_eq]
  split
  · exact .some hxy
  · exact h i

lemma append (h : ArrayRel R xs ys) (h' : ArrayRel R xs' ys') : ArrayRel R (xs ++ xs') (ys ++ ys') := by
  intro i
  rw [Array.getElem?_append, Array.getElem?_append, h.size_eq]
  split
  · exact h i
  · exact h' _

lemma pop (h : ArrayRel R xs ys) : ArrayRel R xs.pop ys.pop := by
  intro i
  rw [Array.getElem?_pop, Array.getElem?_pop, h.size_eq]
  split
  · exact h i
  · exact .none

lemma back? (h : ArrayRel R xs ys) : Option.Rel R xs.back? ys.back? := by
  rw [Array.back?_eq_getElem?, Array.back?_eq_getElem?, h.size_eq]
  exact h _

lemma shrink (h : ArrayRel R xs ys) (n : Nat) : ArrayRel R (xs.shrink n) (ys.shrink n) := by
  intro i
  rw [Array.shrink_eq_take, Array.shrink_eq_take, Array.getElem?_extract, Array.getElem?_extract,
    h.size_eq]
  split
  · exact h _
  · exact .none

lemma setIfInBounds (h : ArrayRel R xs ys) (i : Nat) (hxy : R x y) :
    ArrayRel R (xs.setIfInBounds i x) (ys.setIfInBounds i y) := by
  intro j
  rw [Array.getElem?_setIfInBounds, Array.getElem?_setIfInBounds, h.size_eq]
  split
  · split
    · exact .some hxy
    · exact .none
  · exact h j

lemma modify {f g : α → α} (h : ArrayRel R xs ys) (i : Nat) (hfg : ∀ x y, R x y → R (f x) (g y)) :
    ArrayRel R (xs.modify i f) (ys.modify i g) := by
  intro j
  rw [Array.getElem?_modify, Array.getElem?_modify]
  split
  · have hrel := h j
    revert hrel
    generalize xs[j]? = a, ys[j]? = b
    rintro (hab | _)
    · exact .some (hfg _ _ hab)
    · exact .none
  · exact h j

lemma mono {S : α → α → Prop} (h : ArrayRel R xs ys)
    (hsub : ∀ x ∈ xs, ∀ y ∈ ys, R x y → S x y) : ArrayRel S xs ys := by
  intro i
  have hrel := h i
  cases hx : xs[i]? with
  | none =>
      rw [hx] at hrel
      cases hy : ys[i]? with
      | none => exact .none
      | some y => rw [hy] at hrel; cases hrel
  | some x =>
      rw [hx] at hrel
      cases hy : ys[i]? with
      | none => rw [hy] at hrel; cases hrel
      | some y =>
          rw [hy] at hrel
          cases hrel with
          | some hxy =>
              exact .some (hsub x (Array.mem_of_getElem? hx) y (Array.mem_of_getElem? hy) hxy)

lemma refl_of (h : ∀ x ∈ xs, R x x) : ArrayRel R xs xs := by
  intro i
  cases hx : xs[i]? with
  | none => exact .none
  | some x => exact .some (h x (Array.mem_of_getElem? hx))

/-- An array whose elements are images. -/
lemma eq_map (h : ArrayRel R xs ys) {f : α → α} (hf : ∀ x y, R x y → y = f x) : ys = xs.map f := by
  refine Array.ext_getElem? fun i => ?_
  rw [Array.getElem?_map]
  have hrel := h i
  generalize xs[i]? = a, ys[i]? = b at hrel
  cases hrel with
  | none => rfl
  | some hxy => exact congrArg some (hf _ _ hxy)

lemma toList (h : ArrayRel R xs ys) : List.Forall₂ R xs.toList ys.toList := by
  refine List.forall₂_iff_get.mpr ⟨by simpa using h.size_eq, fun i hx hy => ?_⟩
  have hrel := h i
  rw [Array.length_toList] at hx hy
  rw [Array.getElem?_eq_getElem hx, Array.getElem?_eq_getElem hy] at hrel
  cases hrel with
  | some hxy => exact hxy

end ArrayRel

/-! ### Stacks -/

/-- Stacks of one capacity with related items. -/
structure Stack.Rel (R : α → α → Prop) (s t : Stack α) : Prop where
  items : ArrayRel R s.items t.items
  capacity : s.capacity = t.capacity

namespace Stack.Rel

variable {s t : Stack α} {x y : α}

lemma length_eq (h : Stack.Rel R s t) : s.length = t.length := h.items.size_eq

lemma empty : Stack.Rel R (.empty : Stack α) .empty := ⟨.empty, rfl⟩

lemma get? (h : Stack.Rel R s t) (i : Nat) : Option.Rel R (s.get? i) (t.get? i) := h.items i

lemma peek? (h : Stack.Rel R s t) (distance : Nat) :
    Option.Rel R (s.peek? distance) (t.peek? distance) := by
  unfold Stack.peek?
  rw [h.items.size_eq]
  split
  · exact h.items _
  · exact .none

lemma push (h : Stack.Rel R s t) (hxy : R x y) : Stack.Rel R (s.push x) (t.push y) := by
  unfold Stack.push
  rw [h.items.size_eq, h.capacity]
  split
  · exact ⟨h.items.push hxy, rfl⟩
  · exact ⟨h.items.push hxy, rfl⟩

lemma top (h : Stack.Rel R (s.push x) (t.push y)) : R x y := by
  have hitems : ∀ (s : Stack α) (x : α), (s.push x).items = s.items.push x := by
    intro s x
    unfold Stack.push
    split <;> rfl
  have hback := h.items.back?
  rw [hitems, hitems, Array.back?_push, Array.back?_push] at hback
  cases hback with
  | some hxy => exact hxy

lemma pop (h : Stack.Rel R s t) :
    Option.Rel R s.pop.1 t.pop.1 ∧ Stack.Rel R s.pop.2 t.pop.2 :=
  ⟨h.items.back?, h.items.pop, h.capacity⟩

lemma truncate (h : Stack.Rel R s t) (n : Nat) : Stack.Rel R (s.truncate n) (t.truncate n) :=
  ⟨h.items.shrink n, h.capacity⟩

lemma reset (h : Stack.Rel R s t) : Stack.Rel R s.reset t.reset := ⟨.empty, h.capacity⟩

lemma set [Inhabited α] (h : Stack.Rel R s t) (i : Nat) (hxy : R x y)
    (hdefault : R default default) :
    (s.set i x).1 = (t.set i y).1 ∧ Stack.Rel R (s.set i x).2 (t.set i y).2 := by
  obtain ⟨xs, n⟩ := s
  obtain ⟨ys, m⟩ := t
  obtain ⟨hitems, rfl⟩ := h
  unfold Stack.set
  dsimp only at hitems ⊢
  rw [hitems.size_eq]
  split
  · exact ⟨rfl, hitems.setIfInBounds i hxy, rfl⟩
  · split
    · exact ⟨rfl, (hitems.append (.replicate _ hdefault)).push hxy, rfl⟩
    · exact ⟨rfl, hitems, rfl⟩

lemma mono {S : α → α → Prop} (h : Stack.Rel R s t)
    (hsub : ∀ x ∈ s.toList, ∀ y ∈ t.toList, R x y → S x y) : Stack.Rel S s t :=
  ⟨h.items.mono fun x hx y hy => hsub x (Array.mem_toList_iff.mpr hx) y (Array.mem_toList_iff.mpr hy),
    h.capacity⟩

lemma refl_of (h : ∀ x ∈ s.toList, R x x) : Stack.Rel R s s :=
  ⟨.refl_of fun x hx => h x (Array.mem_toList_iff.mpr hx), rfl⟩

lemma eq_map (h : Stack.Rel R s t) {f : α → α} (hf : ∀ x y, R x y → y = f x) :
    t = ⟨s.items.map f, s.capacity⟩ := by
  obtain ⟨ys, m⟩ := t
  rw [Stack.mk.injEq]
  exact ⟨h.items.eq_map hf, h.capacity.symm⟩

lemma toList (h : Stack.Rel R s t) : List.Forall₂ R s.toList t.toList := h.items.toList

lemma footprint_eq [Footprint α] (h : Stack.Rel R s t) : s.footprint = t.footprint := by
  unfold Stack.footprint
  rw [h.capacity]

end Stack.Rel

end ScriptMachine
