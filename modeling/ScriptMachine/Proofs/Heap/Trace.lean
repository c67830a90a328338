import ScriptMachine.Proofs.Heap.Collection

/-!
A trace, one object at a time.

A `Scan` is what a trace has in hand between two of its steps: the heap, and the
children of the object taken last that are still to be marked. A step takes the
first object off the gray list or marks one child (`Scan.Step`), and a run of
steps collects the objects that are put on the gray list (`Scan.Run`). Nothing
is assumed about the heap: its objects may refer to themselves, to each other and
to objects that are gone, and the gray list may hold anything.

* `Scan.Step.tricolor`: a step keeps the invariant that a marked object is gray,
  or has no child left to be marked but the pending ones;
* `Scan.Run.once`: no object is put on the gray list twice, or with a mark;
* `Scan.run_trace`, `gray_trace`: a trace is a run of steps, and when it is over
  nothing is gray.

Main result: `Tricolor.trace_once`.
-/

namespace ScriptMachine

namespace Heap

variable {h h' : Heap} {id : ObjectId}

lemma Remarked.object? (hr : Remarked h h') (id : ObjectId) : h'.object? id = h.object? id := by
  have hsame := congrArg (Option.map Entry.object) (hr.find? id)
  simpa [Heap.object?, Option.map_map, Function.comp_def, Entry.unmarked] using hsame

/-- Whatever is marked and no leaf is gray, or all its children that are there are
marked. -/
def Tricolor (h : Heap) : Prop :=
  ∀ id object, h.Marked id → h.object? id = some object → object.isLeaf = false →
    id ∈ h.gray ∨ ∀ child ∈ h.children id, h.contains child = true → h.Marked child

/-- The state of a trace: the heap, and the ids that are about to be marked. -/
structure Scan where
  heap : Heap
  pending : List ObjectId

namespace Scan

variable {s s' s'' : Scan} {pushed : Option ObjectId} {ids later : List ObjectId}

/-- One step of a trace. A new round begins when nothing is pending: the first
gray object is taken off the list, and its children become pending. Else the
first pending id is marked. The label is the id that this puts on the gray list,
if there is one. -/
inductive Step : Scan → Option ObjectId → Scan → Prop
  | pop {h : Heap} {id : ObjectId} {gray : List ObjectId} (first : h.gray = id :: gray) :
      Step ⟨h, []⟩ none ⟨{ h with gray := gray }, h.children id⟩
  | push {h : Heap} {child : ObjectId} {rest : List ObjectId}
      (longer : (h.mark child).gray = child :: h.gray) :
      Step ⟨h, child :: rest⟩ (some child) ⟨h.mark child, rest⟩
  | pass {h : Heap} {child : ObjectId} {rest : List ObjectId}
      (same : (h.mark child).gray = h.gray) :
      Step ⟨h, child :: rest⟩ none ⟨h.mark child, rest⟩

/-- Steps one after the other, with all ids that they put on the gray list. -/
inductive Run : Scan → List ObjectId → Scan → Prop
  | refl (s : Scan) : Run s [] s
  | step {s s' s'' : Scan} {pushed : Option ObjectId} {later : List ObjectId}
      (first : Step s pushed s') (rest : Run s' later s'') : Run s (pushed.toList ++ later) s''

/-- The invariant of a trace between two steps. -/
def Tricolor (s : Scan) : Prop :=
  ∀ id object, s.heap.Marked id → s.heap.object? id = some object → object.isLeaf = false →
    id ∈ s.heap.gray ∨ ∀ child ∈ s.heap.children id, s.heap.contains child = true →
      s.heap.Marked child ∨ child ∈ s.pending

lemma tricolor_nil : Tricolor ⟨h, []⟩ ↔ h.Tricolor := by
  simp [Tricolor, Heap.Tricolor]

/-! ### One step -/

/-- Marking a pending id is a step. -/
lemma exists_step_mark (h : Heap) (child : ObjectId) (rest : List ObjectId) :
    ∃ pushed, Step ⟨h, child :: rest⟩ pushed ⟨h.mark child, rest⟩ := by
  rcases mark_cases h child with ⟨heq, -⟩ | ⟨entry, -, -, heq⟩
  · exact ⟨none, .pass (by rw [heq])⟩
  · cases hleaf : entry.object.isLeaf with
    | true => exact ⟨none, .pass (by simp [heq, hleaf])⟩
    | false => exact ⟨some child, .push (by simp [heq, hleaf])⟩

namespace Step

lemma remarked (hs : Step s pushed s') : Remarked s.heap s'.heap := by
  cases hs with
  | pop first => exact ⟨rfl, rfl, rfl⟩
  | push longer => exact remarked_mark _ _
  | pass same => exact remarked_mark _ _

/-- Marks are not taken away. -/
lemma marked (hs : Step s pushed s') (hid : s.heap.Marked id) : s'.heap.Marked id := by
  cases hs with
  | pop first => exact hid
  | push longer => exact marked_mark.mpr (.inl hid)
  | pass same => exact marked_mark.mpr (.inl hid)

/-- Only an object without a mark is put on the gray list, and it gets one. -/
lemma unmarked (hs : Step s (some id) s') :
    s.heap.contains id = true ∧ ¬ s.heap.Marked id ∧ s'.heap.Marked id := by
  cases hs with
  | @push h _ rest longer =>
      rcases mark_cases h id with ⟨heq, -⟩ | ⟨entry, hfind, hfalse, -⟩
      · rw [heq] at longer
        exact absurd longer.symm (List.cons_ne_self _ _)
      · have hlive : h.contains id = true := by simp [Heap.contains, hfind]
        refine ⟨hlive, ?_, marked_mark.mpr (.inr ⟨rfl, hlive⟩)⟩
        rintro ⟨entry', hfind', hmarked⟩
        rw [hfind] at hfind'
        cases hfind'
        simp [hfalse] at hmarked

/-- After a step the invariant is as before. The children of an object that is
taken off the gray list are pending, and an object that gets its mark turns gray
unless it is a leaf. -/
lemma tricolor (hs : Step s pushed s') (htricolor : s.Tricolor) : s'.Tricolor := by
  -- marking a pending id, whether it turns gray or not
  have hmark : ∀ {h : Heap} {child : ObjectId} {rest : List ObjectId},
      Tricolor ⟨h, child :: rest⟩ → Tricolor ⟨h.mark child, rest⟩ := by
    intro h child rest hold id object hid hobject hleaf
    have hr := remarked_mark h child
    dsimp only at *
    rw [hr.object?] at hobject
    rw [hr.children]
    have hgray : ∀ other ∈ h.gray, other ∈ (h.mark child).gray := by
      intro other hother
      obtain ⟨pushed, hstep⟩ := exists_step_mark h child rest
      cases hstep with
      | push longer => exact longer ▸ List.mem_cons_of_mem _ hother
      | pass same => exact same ▸ hother
    by_cases hbefore : h.Marked id
    · refine (hold id object hbefore hobject hleaf).imp (hgray id) fun hall other hother hlive => ?_
      rw [hr.contains] at hlive
      rcases hall other hother hlive with hmarked | hpending
      · exact .inl (marked_mark.mpr (.inl hmarked))
      · rcases List.mem_cons.mp hpending with rfl | hrest
        · exact .inl (marked_mark.mpr (.inr ⟨rfl, hlive⟩))
        · exact .inr hrest
    · -- it is the id that was just marked
      rcases marked_mark.mp hid with hmarked | ⟨rfl, -⟩
      · exact absurd hmarked hbefore
      · refine .inl ?_
        rcases mark_cases h id with ⟨heq, -⟩ | ⟨entry, hfind, -, heq⟩
        · rw [heq] at hid
          exact absurd hid hbefore
        · have hentry : entry.object = object := by simpa [Heap.object?, hfind] using hobject
          simp [heq, hentry, hleaf]
  cases hs with
  | @pop h top gray first =>
      intro id object hid hobject hleaf
      rcases htricolor id object hid hobject hleaf with hgray | hall
      · rw [show Heap.gray _ = _ from first] at hgray
        rcases List.mem_cons.mp hgray with rfl | hgray
        · exact .inr fun child hchild _ => .inr hchild
        · exact .inl hgray
      · refine .inr fun child hchild hlive => ?_
        exact .inl ((hall child hchild hlive).resolve_right List.not_mem_nil)
  | push longer => exact hmark htricolor
  | pass same => exact hmark htricolor

/-- There is only one way to go on. -/
lemma deterministic {pushed' : Option ObjectId} (hs : Step s pushed s')
    (hs' : Step s pushed' s'') : s' = s'' := by
  cases hs with
  | pop first =>
      cases hs' with
      | pop first' =>
          rw [first] at first'
          cases first'
          rfl
  | push longer => cases hs' <;> rfl
  | pass same => cases hs' <;> rfl

end Step

/-! ### Whole runs -/

namespace Run

lemma remarked (hr : Run s ids s') : Remarked s.heap s'.heap := by
  induction hr with
  | refl s => exact .refl s.heap
  | step first rest ih => exact first.remarked.trans ih

lemma marked (hr : Run s ids s') (hid : s.heap.Marked id) : s'.heap.Marked id := by
  induction hr with
  | refl s => exact hid
  | step first rest ih => exact ih (first.marked hid)

lemma tricolor (hr : Run s ids s') (htricolor : s.Tricolor) : s'.Tricolor := by
  induction hr with
  | refl s => exact htricolor
  | step first rest ih => exact ih (first.tricolor htricolor)

/-- No id is put on the gray list twice, and none that was marked in the beginning.
An id that is put there has its mark from then on, which keeps it from being put
there again. -/
lemma once (hr : Run s ids s') : ids.Nodup ∧ ∀ id ∈ ids,
    s.heap.contains id = true ∧ ¬ s.heap.Marked id ∧ s'.heap.Marked id := by
  induction hr with
  | refl s => simp
  | @step s s₁ s₂ pushed later first rest ih =>
      obtain ⟨hnodup, hlater⟩ := ih
      have hkept : ∀ id ∈ later,
          s.heap.contains id = true ∧ ¬ s.heap.Marked id ∧ s₂.heap.Marked id := by
        intro id hid
        obtain ⟨hlive, hunmarked, hmarked⟩ := hlater id hid
        rw [first.remarked.contains] at hlive
        exact ⟨hlive, fun hbefore => hunmarked (first.marked hbefore), hmarked⟩
      cases pushed with
      | none => exact ⟨hnodup, hkept⟩
      | some top =>
          obtain ⟨hlive, hunmarked, hmarked⟩ := first.unmarked
          refine ⟨List.nodup_cons.mpr ⟨fun hin => (hlater top hin).2.1 hmarked, hnodup⟩, ?_⟩
          exact List.forall_mem_cons.mpr ⟨⟨hlive, hunmarked, rest.marked hmarked⟩, hkept⟩

lemma trans (hr : Run s ids s') (hr' : Run s' later s'') : Run s (ids ++ later) s'' := by
  induction hr with
  | refl s => exact hr'
  | step first rest ih =>
      rw [List.append_assoc]
      exact .step first (ih hr')

/-- A run that has come to its end passes through every state that can be reached. -/
lemma extend {last : Scan} {all : List ObjectId} (hr : Run s ids s') (hall : Run s all last)
    (hend : ∀ pushed s, ¬ Step last pushed s) : ∃ later, Run s' later last := by
  induction hr generalizing all with
  | refl s => exact ⟨all, hall⟩
  | step first rest ih =>
      cases hall with
      | refl s => exact absurd first (hend _ _)
      | step first' rest' =>
          cases first.deterministic first'
          exact ih rest'

end Run

/-! ### Tracing -/

lemma run_markAll (ids : List ObjectId) (h : Heap) :
    ∃ pushed, Run ⟨h, ids⟩ pushed ⟨h.markAll ids, []⟩ := by
  induction ids generalizing h with
  | nil => exact ⟨[], .refl _⟩
  | cons id ids ih =>
      obtain ⟨pushed, hstep⟩ := exists_step_mark h id ids
      obtain ⟨later, hrun⟩ := ih (h.mark id)
      exact ⟨_, .step hstep hrun⟩

/-- A round takes one object off the gray list and marks its children. -/
lemma run_traceFor (fuel : Nat) (h : Heap) :
    ∃ pushed, Run ⟨h, []⟩ pushed ⟨traceFor fuel h, []⟩ := by
  induction fuel generalizing h with
  | zero => exact ⟨[], .refl _⟩
  | succ fuel ih =>
      rw [traceFor]
      cases hgray : h.gray with
      | nil => exact ⟨[], .refl _⟩
      | cons id gray =>
          obtain ⟨pushed, hround⟩ := run_markAll (h.children id) { h with gray := gray }
          obtain ⟨later, hrest⟩ := ih (({ h with gray := gray } : Heap).markAll (h.children id))
          exact ⟨_, .step (.pop hgray) (hround.trans hrest)⟩

lemma run_trace (h : Heap) : ∃ pushed, Run ⟨h, []⟩ pushed ⟨h.trace, []⟩ := run_traceFor _ h

end Scan

/-- With fuel for all gray and all unmarked objects, the gray list is emptied. The
sum of the two goes down with every round: an object that turns gray is no longer
unmarked. -/
lemma gray_traceFor {fuel : Nat} (hfuel : h.gray.length + h.unmarkedCount ≤ fuel) :
    (traceFor fuel h).gray = [] := by
  induction fuel generalizing h with
  | zero =>
      have hzero : h.gray.length = 0 := by omega
      exact List.eq_nil_of_length_eq_zero hzero
  | succ fuel ih =>
      rw [traceFor]
      cases hgray : h.gray with
      | nil => exact hgray
      | cons id gray =>
          refine ih ?_
          calc _ ≤ gray.length + h.unmarkedCount := markAll_measure _ _
            _ ≤ fuel := by
                rw [hgray, List.length_cons] at hfuel
                omega

lemma gray_trace (h : Heap) : h.trace.gray = [] :=
  gray_traceFor (Nat.add_le_add_left (unmarkedCount_le h) _)

/-- A heap without marks is in order. -/
lemma tricolor_of_unmarked
    (hmarks : ∀ id entry, h.find? id = some entry → entry.marked = false) : h.Tricolor := by
  rintro id object ⟨entry, hfind, hmarked⟩
  simp [hmarks id entry hfind] at hmarked

/-- Marking the roots of a trace keeps a heap in order. -/
lemma Tricolor.markAll (hs : h.Tricolor) (ids : List ObjectId) : (h.markAll ids).Tricolor := by
  obtain ⟨pushed, hrun⟩ := Scan.run_markAll ids h
  refine Scan.tricolor_nil.mp (hrun.tricolor fun id object hid hobject hleaf => ?_)
  exact (hs id object hid hobject hleaf).imp_right fun hall child hchild hlive =>
    .inl (hall child hchild hlive)

/-- Let every marked object that is no leaf be gray, or have its children marked. Then a trace
ends, and nothing is gray any more: whatever state it has reached, it goes on to
its end. On the way it changes marks and the gray list only; each time nothing is
pending, that is before every round and in the end, the same is true again; and
an object is put on the gray list at most once, and only if it has no mark. -/
theorem Tricolor.trace_once (hs : h.Tricolor) :
    h.trace.gray = [] ∧ ∀ s pushed, Scan.Run ⟨h, []⟩ pushed s →
      (∃ later, Scan.Run s later ⟨h.trace, []⟩) ∧
      Remarked h s.heap ∧ (s.pending = [] → s.heap.Tricolor) ∧ pushed.Nodup ∧
      (∀ id ∈ pushed, h.contains id = true ∧ ¬ h.Marked id ∧ s.heap.Marked id) ∧
      ∀ id s', Scan.Step s (some id) s' →
        s'.heap.gray = id :: s.heap.gray ∧ ¬ s.heap.Marked id ∧ id ∉ pushed := by
  have hgray := gray_trace h
  have hend : ∀ pushed s, ¬ Scan.Step ⟨h.trace, []⟩ pushed s := by
    rintro pushed s ⟨⟩
    simp_all
  obtain ⟨all, hall⟩ := Scan.run_trace h
  refine ⟨hgray, fun s pushed hrun => ?_⟩
  obtain ⟨hnodup, hpushed⟩ := hrun.once
  refine ⟨hrun.extend hall hend, hrun.remarked, fun hnil => ?_, hnodup, hpushed,
    fun id s' hstep => ?_⟩
  · have htricolor := hrun.tricolor (Scan.tricolor_nil.mpr hs)
    cases s
    cases hnil
    exact Scan.tricolor_nil.mp htricolor
  · have hunmarked := hstep.unmarked.2.1
    refine ⟨?_, hunmarked, fun hin => hunmarked (hpushed id hin).2.2⟩
    cases hstep with
    | push longer => exact longer

/-- Two stacks that hold each other, one of which also holds itself and an object
that is gone. With the first of them as root, only the other one is put on the
gray list. -/
theorem Tricolor.trace_once_cycle :
    ∃ h : Heap, h.children ⟨0, 0⟩ = [⟨0, 0⟩, ⟨1, 0⟩, ⟨7, 0⟩] ∧ h.children ⟨1, 0⟩ = [⟨0, 0⟩] ∧
      h.contains ⟨7, 0⟩ = false ∧ h.gray = [⟨0, 0⟩] ∧ h.Tricolor ∧ h.trace.gray = [] ∧
      ∃ pushed, Scan.Run ⟨h, []⟩ pushed ⟨h.trace, []⟩ ∧ pushed.Nodup ∧ ⟨0, 0⟩ ∉ pushed ∧
        h.trace.Tricolor := by
  let first : Object := .stack ⟨#[.stack ⟨⟨0, 0⟩⟩, .stack ⟨⟨1, 0⟩⟩, .stack ⟨⟨7, 0⟩⟩], 4⟩
  let second : Object := .stack ⟨#[.stack ⟨⟨0, 0⟩⟩], 4⟩
  let h : Heap := ⟨⟨1024, #[], [], 0, 0, fun _ => true⟩,
    #[⟨0, some ⟨⟨0, 16, 200⟩, false, false, first⟩⟩,
      ⟨0, some ⟨⟨0, 232, 200⟩, false, false, second⟩⟩], [], []⟩
  have hs : (h.markAll [⟨0, 0⟩]).Tricolor :=
    (tricolor_of_unmarked (unmarked_of_all rfl)).markAll _
  have hroot : (h.markAll [⟨0, 0⟩]).Marked ⟨0, 0⟩ := ⟨_, rfl, rfl⟩
  refine ⟨h.markAll [⟨0, 0⟩], rfl, rfl, rfl, rfl, hs, ?_⟩
  -- the trace below is reasoned about, not evaluated
  generalize h.markAll [⟨0, 0⟩] = h at hs hroot ⊢
  obtain ⟨hgray, hruns⟩ := hs.trace_once
  obtain ⟨pushed, hrun⟩ := (hruns _ _ (.refl _)).1
  obtain ⟨-, -, htricolor, hnodup, hpushed, -⟩ := hruns _ _ hrun
  exact ⟨hgray, pushed, hrun, hnodup, fun hin => (hpushed _ hin).2.1 hroot, htricolor rfl⟩

end Heap

end ScriptMachine
