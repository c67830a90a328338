import ScriptMachine.Proofs.Simulation.Run

/-!
Live handles.

A handle is live if it names an object of its own kind. `Heap.Held` collects the
handles that can be followed to from some others, `Heap.Whole` says that all of
these are live.

* `Heap.Whole.tied`: a heap stands for itself, as far as handles are live;
* `Whole.tied`: so does a machine, even if it collects at other times;
* `Heap.Tied.live`, `Tied.live`: what stands for something is live.
-/

namespace ScriptMachine

/-- The handles of a frame. -/
def Frame.handles (frame : Frame) : List Handle :=
  [(.closure, frame.closure.id), (.function, frame.function.id)]

namespace Heap

variable {w : World} {h h' : Heap} {j j' : Journal} {first : List Handle} {x y : Handle}

/-- An object of the kind that the handle means is there. -/
def Live (h : Heap) (x : Handle) : Prop := (h.get? (⟨x.2⟩ : Ref x.1)).isSome = true

/-- The handles that can be followed to from the given ones. -/
inductive Held (h : Heap) (first : List Handle) : Handle → Prop
  | root {x : Handle} (mem : x ∈ first) : Held h first x
  | child {x y : Handle} (parent : Held h first x) (mem : y ∈ h.handles x.1 x.2) : Held h first y

/-- All handles that can be followed to are live. -/
def Whole (h : Heap) (first : List Handle) : Prop := ∀ x, h.Held first x → h.Live x

/-- What is held from two lists is held from one of them. -/
lemma Whole.append {second : List Handle} (hw : h.Whole first) (hw' : h.Whole second) :
    h.Whole (first ++ second) := by
  intro x hx
  have hsplit : h.Held first x ∨ h.Held second x := by
    induction hx with
    | root mem => exact (List.mem_append.mp mem).imp .root .root
    | child _ mem ih => exact ih.imp (.child · mem) (.child · mem)
  exact hsplit.elim (hw x) (hw' x)

/-- A list of live handles that holds what its objects hold. -/
def Closed (h : Heap) (l : List Handle) : Prop :=
  ∀ x ∈ l, h.Live x ∧ ∀ y ∈ h.handles x.1 x.2, y ∈ l

instance (h : Heap) (l : List Handle) : Decidable (h.Closed l) :=
  inferInstanceAs (Decidable (∀ x ∈ l, (h.get? (⟨x.2⟩ : Ref x.1)).isSome = true ∧
    ∀ y ∈ h.handles x.1 x.2, y ∈ l))

/-- Nothing leads out of a closed list. -/
lemma Closed.whole {l : List Handle} (hl : h.Closed l) (hfirst : first ⊆ l) : h.Whole first := by
  intro x hx
  have hmem : x ∈ l := by
    induction hx with
    | root mem => exact hfirst mem
    | child _ mem ih => exact (hl _ ih).2 _ mem
  exact (hl x hmem).1

/-- An object that is as it was holds what it held. -/
lemma Intact.handles_eq {k : Kind} {a : ObjectId} (hi : Intact a h h') (hs : h.Sound) :
    h'.handles k a = h.handles k a := by
  unfold Heap.handles
  rw [hi.get?]
  cases hget : h.get? (⟨a⟩ : Ref k) with
  | none => rfl
  | some content =>
      cases k with
      | array =>
          refine List.flatMap_congr fun i hmem => ?_
          rw [hi.elementAt hs hget (List.mem_range.mp hmem)]
      | _ => rfl

/-- If the objects that can be followed to are as they were, handles stay live. -/
lemma Whole.intact (hw : h.Whole first) (hs : h.Sound)
    (hi : ∀ x, h.Held first x → Intact x.2 h h') : h'.Whole first := by
  intro x hx
  have hheld : h.Held first x := by
    induction hx with
    | root mem => exact .root mem
    | child _ mem ih => exact .child ih ((hi _ ih).handles_eq hs ▸ mem)
  rw [Live, (hi x hheld).get?]
  exact hw x hheld

/-! ### A heap that stands for itself -/

/-- The world in which the handles that can be followed to stand for themselves. -/
def ownWorld (h : Heap) (first : List Handle) (twin : Prop) : World where
  rel k a b := a = b ∧ h.Held first (k, a)
  body a b x y := (a = b ∧ h.Held first (.closure, a)) ∧ h.HasBody a x ∧ h.HasBody b y
  twin := twin

/-- An object stands for itself, if the handles in it do. -/
lemma pair_self {k : Kind} {a : ObjectId} (hlive : h.Live (k, a))
    (hrel : ∀ l c, (l, c) ∈ h.handles k a → w.rel l c c) : Pair w k h a h a := by
  obtain ⟨content, hget⟩ := Option.isSome_iff_exists.mp hlive
  rw [handles_eq hget] at hrel
  refine ⟨content, content, hget, hget, ?_, ?_⟩
  · by_cases hk : k = .array
    · subst hk
      rfl
    · rw [handlesIn_eq hk] at hrel
      exact .refl_of hrel
  · cases k with
    | string => exact fun _ _ => rfl
    | array =>
        refine fun i hi => .refl_of fun l c hmem => hrel l c ?_
        exact List.mem_flatMap.mpr ⟨i, List.mem_range.mpr hi, hmem⟩
    | _ => trivial

/-- A heap stands for itself, as far as handles are live. -/
lemma Whole.tied {twin : Prop} (hw : h.Whole first) (hs : h.Sound) (hi : h.Idle)
    (hj : twin → j = j') (hgranted : ¬ twin → h.memory.Granted) :
    Tied (h.ownWorld first twin) h j h j' where
  sound := ⟨hs, hs⟩
  idle := ⟨hi, hi⟩
  functional hab hac := hab.1.symm.trans hac.1
  injective hac hbc := hac.1.trans hbc.1.symm
  pairs := by
    rintro k a b ⟨rfl, hx⟩
    exact pair_self (hw _ hx) fun l c hmem => ⟨rfl, .child hx hmem⟩
  bodies := .rfl
  twin htw := ⟨rfl, hj htw, And.left⟩
  granted htw := ⟨hgranted htw, hgranted htw⟩

/-! ### Handles that stand for others -/

lemma Tied.exists_child (ht : Tied w h j h' j') {k : Kind} {a b : ObjectId} (hr : w.rel k a b)
    (hmem : y ∈ h.handles k a) : ∃ c, w.rel y.1 y.2 c := by
  obtain ⟨content, content', hget, -, hcontent, hmemory⟩ := ht.pairs hr
  rw [handles_eq hget] at hmem
  by_cases hk : k = .array
  · subst hk
    obtain ⟨i, hi, hhandle⟩ := List.mem_flatMap.mp hmem
    exact (hmemory i (List.mem_range.mp hi)).exists_handle hhandle
  · rw [handlesIn_eq hk] at hmem
    exact hcontent.exists_handle hmem

/-- What can be followed to from related handles is related. -/
lemma Tied.held (ht : Tied w h j h' j') (hfirst : ∀ x ∈ first, ∃ b, w.rel x.1 x.2 b)
    (hx : h.Held first x) : ∃ b, w.rel x.1 x.2 b := by
  induction hx with
  | root mem => exact hfirst _ mem
  | child _ mem ih =>
      obtain ⟨b, hr⟩ := ih
      exact ht.exists_child hr mem

lemma Tied.live (ht : Tied w h j h' j') {b : ObjectId} (hr : w.rel x.1 x.2 b) : h.Live x := by
  obtain ⟨content, -, hget, -⟩ := ht.pairs hr
  exact Option.isSome_of_eq_some hget

lemma Tied.whole (ht : Tied w h j h' j') (hfirst : ∀ x ∈ first, ∃ b, w.rel x.1 x.2 b) :
    h.Whole first := by
  intro x hx
  obtain ⟨b, hr⟩ := ht.held hfirst hx
  exact ht.live hr

end Heap

namespace Machine

variable {w : World} {p : Phase} {m m' : Machine} {j j' : Journal} {x : Handle}

/-- The handles that a machine holds apart from those of its frames. -/
def holdings (m : Machine) : List Handle :=
  m.stack.toList.flatMap Value.handles ++ m.classes.toList.flatMap Value.handles ++
    m.natives.toList.flatMap Value.handles ++ m.globals.handles ++
    m.openUpvalues.map fun ref => (.upvalue, ref.id)

/-- A machine stands for itself, whenever it collects. -/
lemma tied_self (twin : Prop) {first : List Handle} (hs : m.heap.Sound) (hi : m.heap.Idle)
    (hw : m.heap.Whole first) (hfirst : m.holdings ⊆ first) (hgranted : ¬ twin → m.heap.memory.Granted)
    (config : Config) (threshold : Nat) (j j' : Journal)
    (htwin : twin → j = j' ∧ m.config = config ∧ m.threshold = threshold) :
    Tied .stray (m.heap.ownWorld first twin) m j
      { m with config := config, threshold := threshold } j' := by
  have hrel : ∀ {k a}, (k, a) ∈ m.holdings → (m.heap.ownWorld first twin).rel k a a :=
    fun hmem => ⟨rfl, .root (hfirst hmem)⟩
  simp only [holdings, List.mem_append] at hrel
  exact {
    heap := hw.tied hs hi (fun htw => (htwin htw).1) hgranted
    globals := .refl_of fun k a hmem => hrel (.inl (.inr hmem))
    stack := Content.rows_refl_of (fun _ => Value.Rel.refl_of) fun k a hmem =>
      hrel (.inl (.inl (.inl (.inl hmem))))
    classes := Content.rows_refl_of (fun _ => Value.Rel.refl_of) fun k a hmem =>
      hrel (.inl (.inl (.inl (.inr hmem))))
    natives := Content.rows_refl_of (fun _ => Value.Rel.refl_of) fun k a hmem =>
      hrel (.inl (.inl (.inr hmem)))
    upvalues := List.forall₂_same.mpr fun ref hmem => hrel (.inr (List.mem_map.mpr ⟨ref, hmem, rfl⟩))
    frames := fun _ => ⟨rfl, rfl⟩
    names := rfl
    console := rfl
    twin := fun htw => (htwin htw).2 }

/-- What a machine holds stands for something. -/
lemma Tied.holding (ht : Tied p w m j m' j') (hx : x ∈ m.holdings) : ∃ b, w.rel x.1 x.2 b := by
  have hvalues : ∀ {s s' : Stack Value}, Stack.Rel (Value.Rel w) s s' →
      x ∈ s.toList.flatMap Value.handles → ∃ b, w.rel x.1 x.2 b := fun hs hmem =>
    Content.rows_exists_handle (fun _ _ _ _ => Value.Rel.exists_handle) hs hmem
  simp only [holdings, List.mem_append] at hx
  rcases hx with (((hx | hx) | hx) | hx) | hx
  · exact hvalues ht.stack hx
  · exact hvalues ht.classes hx
  · exact hvalues ht.natives hx
  · exact ht.globals.exists_handle hx
  · obtain ⟨ref, hmem, rfl⟩ := List.mem_map.mp hx
    obtain ⟨ref', -, hr⟩ := exists_partner ht.upvalues hmem
    exact ⟨_, hr⟩

/-- What the frames of a run hold stands for something. -/
lemma Tied.framed (ht : Tied .running w m j m' j')
    (hx : x ∈ (m.frame :: m.frames).flatMap Frame.handles) : ∃ b, w.rel x.1 x.2 b := by
  obtain ⟨f, hf, hmem⟩ := List.mem_flatMap.mp hx
  have hframes : List.Forall₂ (Frame.Rel w) (m.frame :: m.frames) (m'.frame :: m'.frames) :=
    .cons ht.frames.1 ht.frames.2
  obtain ⟨f', -, hrel⟩ := exists_partner hframes hf
  obtain ⟨hclosure, hfunction⟩ := Tied.frame_refs ht.heap hrel
  simp only [Frame.handles, List.mem_cons, List.not_mem_nil, or_false] at hmem
  rcases hmem with rfl | rfl
  · exact ⟨_, hclosure⟩
  · exact ⟨_, hfunction⟩

end Machine

end ScriptMachine
