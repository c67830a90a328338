import ScriptMachine.Proofs.Machine.Upvalues
import ScriptMachine.Proofs.Simulation.Containers

/-!
Machines that stand for each other.

`Machine.Tied` relates the heaps of two machines and everything that refers to
their objects. Such machines may collect at different times: what they can reach
survives both ways.

* `Tied.tighten`: only what can be reached needs to be related;
* `Snug.collectIfNeeded`: a collection on one side, on both or on none;
* `Snug.alloc`: two new objects, after collections.
-/

namespace ScriptMachine

variable {w w' : World}

/-- Frames of related closures at one place. Their functions are those of the
closures. -/
structure Frame.Rel (w : World) (f f' : Frame) : Prop where
  body : ∃ x x', w.body f.closure.id f'.closure.id x x' ∧ x.closure.function = f.function ∧
    x'.closure.function = f'.function
  ip : f.ip = f'.ip
  base : f.base = f'.base

lemma Frame.Rel.le {f f' : Frame} (hf : f.Rel w f') (hle : w ≤ w') : f.Rel w' f' := by
  obtain ⟨⟨x, x', hbody, hx, hx'⟩, hip, hbase⟩ := hf
  exact ⟨⟨x, x', hle.body hbody, hx, hx'⟩, hip, hbase⟩

namespace Machine

/-- What is known of the frames of a machine. -/
inductive Phase
  /-- Nothing. -/
  | stray
  /-- The machine does not run, there are none. -/
  | idle
  /-- They are those of a run. -/
  | running

variable {p : Phase} {m m₁ m' m₁' : Machine} {j j₁ j' j₁' : Journal} {α β α' β' : Type}

/-- The frames of machines that stand for each other: the running one, and the
suspended ones. -/
def FramesRel (w : World) : Phase → Frame → List Frame → Frame → List Frame → Prop
  | .stray, f, fs, f', fs' => w.twin → f = f' ∧ fs = fs'
  | .idle, f, fs, f', fs' => (f = .dangling ∧ fs = []) ∧ f' = .dangling ∧ fs' = []
  | .running, f, fs, f', fs' => f.Rel w f' ∧ List.Forall₂ (Frame.Rel w) fs fs'

/-- Machines that stand for each other. Their settings differ, unless they are
twins. -/
structure Tied (p : Phase) (w : World) (m : Machine) (j : Journal) (m' : Machine) (j' : Journal) :
    Prop where
  heap : Heap.Tied w m.heap j m'.heap j'
  globals : m.globals.Rel w m'.globals
  stack : Stack.Rel (Value.Rel w) m.stack m'.stack
  classes : Stack.Rel (Value.Rel w) m.classes m'.classes
  natives : Stack.Rel (Value.Rel w) m.natives m'.natives
  upvalues : List.Forall₂ (Ref.Rel w) m.openUpvalues m'.openUpvalues
  frames : FramesRel w p m.frame m.frames m'.frame m'.frames
  names : m.nativeNames = m'.nativeNames
  console : m.console = m'.console
  twin : w.twin → m.config = m'.config ∧ m.threshold = m'.threshold

/-! ### Frames -/

/-- The closures and the functions of related frames are related. -/
lemma Tied.frame_refs (ht : Heap.Tied w m.heap j m'.heap j') {f f' : Frame} (hf : f.Rel w f') :
    f.closure.Rel w f'.closure ∧ f.function.Rel w f'.function := by
  obtain ⟨⟨x, x', hbody, hx, hx'⟩, -, -⟩ := hf
  obtain ⟨hrel, hleft, hright⟩ := ht.bodies.mp hbody
  obtain ⟨c, c', hc, hc', hclosure, -⟩ := ht.pairs hrel
  obtain rfl := Option.some.inj (hleft.1.symm.trans hc)
  obtain rfl := Option.some.inj (hright.1.symm.trans hc')
  exact ⟨hrel, hx ▸ hx' ▸ hclosure.function⟩

/-- Only the members of related lists matter. -/
lemma forall₂_mem {R S : α → β → Prop} {l : List α} {l' : List β} (h : List.Forall₂ R l l')
    (hsub : ∀ x ∈ l, ∀ y ∈ l', R x y → S x y) : List.Forall₂ S l l' := by
  induction h with
  | nil => exact .nil
  | cons hxy _ ih =>
      refine .cons (hsub _ (.head _) _ (.head _) hxy) (ih fun x hx y hy => ?_)
      exact hsub x (.tail _ hx) y (.tail _ hy)

lemma frame_eq (ht : Heap.Tied w m.heap j m'.heap j') (htw : w.twin) {f f' : Frame}
    (hf : f.Rel w f') : f = f' := by
  obtain ⟨hclosure, hfunction⟩ := Tied.frame_refs ht hf
  obtain ⟨closure, function, ip, base⟩ := f
  obtain ⟨closure', function', ip', base'⟩ := f'
  obtain ⟨-, hip, hbase⟩ := hf
  rw [Frame.mk.injEq]
  exact ⟨ht.ref_eq htw hclosure, ht.ref_eq htw hfunction, hip, hbase⟩

lemma forall₂_eq {R : α → α → Prop} {l l' : List α} (h : List.Forall₂ R l l')
    (hR : ∀ x y, R x y → x = y) : l = l' := by
  have heq : List.Forall₂ Eq l l' := h.imp hR
  rwa [List.forall₂_eq_eq_eq] at heq

/-- Twins are one machine. -/
lemma Tied.machine_eq (ht : Tied p w m j m' j') (htw : w.twin) : m = m' ∧ j = j' := by
  have hstack : ∀ {s s' : Stack Value}, Stack.Rel (Value.Rel w) s s' → s = s' :=
    ht.heap.content_eq htw (k := .stack)
  have hglobals : m.globals = m'.globals := ht.heap.content_eq htw (k := .table) ht.globals
  have hupvalues := forall₂_eq ht.upvalues fun _ _ hr => ht.heap.ref_eq htw hr
  have hframes : m.frame = m'.frame ∧ m.frames = m'.frames := by
    have hf := ht.frames
    cases p with
    | stray => exact hf htw
    | idle => exact ⟨hf.1.1.trans hf.2.1.symm, hf.1.2.trans hf.2.2.symm⟩
    | running =>
        exact ⟨frame_eq ht.heap htw hf.1, forall₂_eq hf.2 fun _ _ => frame_eq ht.heap htw⟩
  obtain ⟨hheap, hj, -⟩ := ht.heap.twin htw
  refine ⟨?_, hj⟩
  cases m
  cases m'
  rw [Machine.mk.injEq]
  exact ⟨hheap, hglobals, (ht.twin htw).1, (ht.twin htw).2, hframes.2, hframes.1, hstack ht.stack,
    hupvalues, hstack ht.classes, hstack ht.natives, ht.names, ht.console⟩

lemma FramesRel.le {f f' : Frame} {fs fs' : List Frame} (hf : FramesRel w p f fs f' fs')
    (hle : w ≤ w') : FramesRel w' p f fs f' fs' := by
  cases p with
  | stray => exact fun htw => hf (hle.twin.mp htw)
  | idle => exact hf
  | running => exact ⟨hf.1.le hle, hf.2.imp fun _ _ hrel => hrel.le hle⟩

/-- The heaps change, and more may be related. -/
lemma Tied.withHeap (ht : Tied p w m j m' j') (hle : w ≤ w') {h h' : Heap}
    (hheap : Heap.Tied w' h j₁ h' j₁') :
    Tied p w' { m with heap := h } j₁ { m' with heap := h' } j₁' where
  heap := hheap
  globals := ht.globals.le hle
  stack := Content.Rel.le (k := .stack) ht.stack hle
  classes := Content.Rel.le (k := .stack) ht.classes hle
  natives := Content.Rel.le (k := .stack) ht.natives hle
  upvalues := ht.upvalues.imp fun _ _ hr => hle.rel hr
  frames := FramesRel.le ht.frames hle
  names := ht.names
  console := ht.console
  twin htw := ht.twin (hle.twin.mp htw)

lemma Tied.journal (ht : Tied p w m j m' j') (hj : w.twin → j₁ = j₁') : Tied p w m j₁ m' j₁' :=
  ht.withHeap w.le_refl (ht.heap.journal hj)

/-! ### Roots -/

/-- The world of what two machines can reach. -/
def held (w : World) (m m' : Machine) : World := Heap.within w m.heap m.roots m'.heap m'.roots

/-- What stands among the roots is held. -/
lemma Tied.keeps (ht : Tied p w m j m' j') {left right : List Handle}
    (hleft : ∀ x ∈ left, x.2 ∈ m.roots) (hright : ∀ x ∈ right, x.2 ∈ m'.roots) :
    w.Keeps (held w m m') left right := by
  intro k a b ha hb hrel
  obtain ⟨hlive, hlive'⟩ := (ht.heap.pairs hrel).live
  exact ⟨hrel, .root (hleft _ ha) hlive, .root (hright _ hb) hlive'⟩

lemma ids_of_handles {l : List Value} {x : Handle} (hx : x ∈ l.flatMap Value.handles) :
    x.2 ∈ l.filterMap Value.id? := by
  obtain ⟨v, hv, hmem⟩ := List.mem_flatMap.mp hx
  have hid : x.2 ∈ v.id?.toList := by
    rw [← v.map_handles]
    exact List.mem_map_of_mem hmem
  exact List.mem_filterMap.mpr ⟨v, hv, Option.mem_toList.mp hid⟩

section Members

variable {id : ObjectId}

lemma mem_roots : id ∈ m.roots ↔ id ∈ m.stack.toList.filterMap Value.id? ∨
    id ∈ (m.frame :: m.frames).map (·.closure.id) ∨ id ∈ m.classes.toList.filterMap Value.id? ∨
    id ∈ m.natives.toList.filterMap Value.id? ∨ id ∈ m.globals.children ∨
    id ∈ m.openUpvalues.map Ref.id := by
  simp [roots, or_assoc]

lemma roots_of_stack {x : Handle} (hx : x ∈ m.stack.toList.flatMap Value.handles) :
    x.2 ∈ m.roots := mem_roots.mpr (.inl (ids_of_handles hx))

lemma roots_of_frame {f : Frame} (hf : f ∈ m.frame :: m.frames) : f.closure.id ∈ m.roots :=
  mem_roots.mpr (.inr (.inl (List.mem_map_of_mem hf)))

lemma roots_of_classes {x : Handle} (hx : x ∈ m.classes.toList.flatMap Value.handles) :
    x.2 ∈ m.roots := mem_roots.mpr (.inr (.inr (.inl (ids_of_handles hx))))

lemma roots_of_natives {x : Handle} (hx : x ∈ m.natives.toList.flatMap Value.handles) :
    x.2 ∈ m.roots := mem_roots.mpr (.inr (.inr (.inr (.inl (ids_of_handles hx)))))

lemma roots_of_globals {x : Handle} (hx : x ∈ m.globals.handles) : x.2 ∈ m.roots := by
  refine mem_roots.mpr (.inr (.inr (.inr (.inr (.inl ?_)))))
  rw [← m.globals.map_handles]
  exact List.mem_map_of_mem hx

lemma roots_of_upvalues {r : Ref .upvalue} (hr : r ∈ m.openUpvalues) : r.id ∈ m.roots :=
  mem_roots.mpr (.inr (.inr (.inr (.inr (.inr (List.mem_map_of_mem hr))))))

end Members

/-! ### Collections -/

/-- A frame whose closure is held. -/
lemma Tied.frame_held (ht : Tied p w m j m' j') {f f' : Frame} (hf : f.Rel w f')
    (hmem : f ∈ m.frame :: m.frames) (hmem' : f' ∈ m'.frame :: m'.frames) :
    f.Rel (held w m m') f' := by
  obtain ⟨⟨x, x', hbody, hx⟩, hip, hbase⟩ := hf
  obtain ⟨hlive, hlive'⟩ := (ht.heap.pairs (ht.heap.bodies.mp hbody).1).live
  exact ⟨⟨x, x', ⟨hbody, .root (roots_of_frame hmem) hlive, .root (roots_of_frame hmem') hlive'⟩, hx⟩,
    hip, hbase⟩

lemma Tied.upvalues_held (ht : Tied p w m j m' j') :
    List.Forall₂ (Ref.Rel (held w m m')) m.openUpvalues m'.openUpvalues := by
  refine forall₂_mem ht.upvalues fun r hmem r' hmem' hrel => ?_
  obtain ⟨hlive, hlive'⟩ := (ht.heap.pairs hrel).live
  exact ⟨hrel, .root (roots_of_upvalues hmem) hlive, .root (roots_of_upvalues hmem') hlive'⟩

lemma Tied.frames_held (ht : Tied p w m j m' j') :
    FramesRel (held w m m') p m.frame m.frames m'.frame m'.frames := by
  have hf := ht.frames
  cases p with
  | stray => exact hf
  | idle => exact hf
  | running =>
      refine ⟨ht.frame_held hf.1 (.head _) (.head _), ?_⟩
      refine forall₂_mem hf.2 fun f hmem f' hmem' hrel => ?_
      exact ht.frame_held hrel (.tail _ hmem) (.tail _ hmem')

/-- Objects go away that neither machine can reach. -/
lemma Tied.prune (ht : Tied p w m j m' j') {h h' : Heap} (hp : Heap.Pruned m.roots m.heap h)
    (hp' : Heap.Pruned m'.roots m'.heap h') {threshold threshold' : Nat}
    (htwin : w.twin → h = h' ∧ threshold = threshold' ∧ j₁ = j₁') :
    Tied p (held w m m') { m with heap := h, threshold := threshold } j₁
      { m' with heap := h', threshold := threshold' } j₁' where
  heap := ht.heap.prune hp hp' fun htw => ⟨(htwin htw).1, (htwin htw).2.2⟩
  globals := ht.globals.mono (ht.keeps (fun _ => roots_of_globals) fun _ => roots_of_globals)
  stack := Content.rows_mono (fun _ _ => Value.Rel.mono) ht.stack
    (ht.keeps (fun _ => roots_of_stack) fun _ => roots_of_stack)
  classes := Content.rows_mono (fun _ _ => Value.Rel.mono) ht.classes
    (ht.keeps (fun _ => roots_of_classes) fun _ => roots_of_classes)
  natives := Content.rows_mono (fun _ _ => Value.Rel.mono) ht.natives
    (ht.keeps (fun _ => roots_of_natives) fun _ => roots_of_natives)
  upvalues := ht.upvalues_held
  frames := ht.frames_held
  names := ht.names
  console := ht.console
  twin htw := ⟨(ht.twin htw).1, (htwin htw).2.1⟩

/-- Machines that stand for each other, in a world of what they can reach. -/
structure Snug (p : Phase) (w : World) (m : Machine) (j : Journal) (m' : Machine) (j' : Journal) :
    Prop where
  tied : Tied p w m j m' j'
  spans : Heap.Spans w m.heap m.roots m'.heap m'.roots

/-- Only what can be reached needs to be related. -/
lemma Tied.tighten (ht : Tied p w m j m' j') : Snug p (held w m m') m j m' j' where
  tied := by
    obtain ⟨hs, hs'⟩ := ht.heap.sound
    obtain ⟨hi, hi'⟩ := ht.heap.idle
    exact ht.prune (Heap.pruned_refl hs hi) (Heap.pruned_refl hs' hi') fun htw =>
      ⟨(ht.heap.twin htw).1, (ht.twin htw).2, (ht.heap.twin htw).2.1⟩
  spans := Heap.spans_within

/-- Machines that differ in heap and threshold only. -/
def Refilled (m m₁ : Machine) : Prop :=
  ∃ heap threshold, m₁ = { m with heap := heap, threshold := threshold }

lemma Refilled.trans {m₂ : Machine} (h : Refilled m m₁) (h' : Refilled m₁ m₂) : Refilled m m₂ := by
  obtain ⟨heap, threshold, rfl⟩ := h
  obtain ⟨heap', threshold', rfl⟩ := h'
  exact ⟨heap', threshold', rfl⟩

/-- A collection, if there is one, frees what the machine cannot reach. -/
lemma collectIfNeeded_prunes (hs : m.heap.Sound) (hi : m.heap.Idle) (j : Journal) :
    (collectIfNeeded m j).Ends
      (fun _ m₁ => ∃ heap threshold, Heap.Pruned m.roots m.heap heap ∧
        m₁ = { m with heap := heap, threshold := threshold })
      (fun _ _ => False) fun fault => fault = .thresholdOverflow := by
  refine (collectIfNeeded_ends hs hi j).imp_done ?_
  rintro _ m₁ (rfl | ⟨heap, freed, threshold, hc, rfl⟩)
  · exact ⟨m₁.heap, m₁.threshold, Heap.pruned_refl hs hi, rfl⟩
  · exact ⟨heap, threshold, hc.pruned, rfl⟩

/-- What both machines can reach survives their collections. -/
lemma Snug.prune (hs : Snug p w m j m' j') {h h' : Heap} (hp : Heap.Pruned m.roots m.heap h)
    (hp' : Heap.Pruned m'.roots m'.heap h') {threshold threshold' : Nat}
    (htwin : w.twin → h = h' ∧ threshold = threshold' ∧ j₁ = j₁') :
    Snug p w { m with heap := h, threshold := threshold } j₁
      { m' with heap := h', threshold := threshold' } j₁' where
  tied := by
    have ht := hs.tied.prune hp hp' htwin
    rwa [held, hs.tied.heap.within_eq hs.spans] at ht
  spans := hp.spans hp' hs.tied.heap.sound hs.spans

/-- Two machines that collect, each if it wants to. -/
lemma Snug.collectIfNeeded (hs : Snug p w m j m' j') :
    Agree (fun _ m₁ j₁ _ m₁' j₁' => Snug p w m₁ j₁ m₁' j₁' ∧ Refilled m m₁ ∧ Refilled m' m₁')
      (Snug p w) (collectIfNeeded m j) (collectIfNeeded m' j') := by
  have hends := collectIfNeeded_prunes hs.tied.heap.sound.1 hs.tied.heap.idle.1 j
  have hends' := collectIfNeeded_prunes hs.tied.heap.sound.2 hs.tied.heap.idle.2 j'
  have htwin : w.twin → Machine.collectIfNeeded m j = Machine.collectIfNeeded m' j' := by
    intro htw
    obtain ⟨rfl, rfl⟩ := hs.tied.machine_eq htw
    rfl
  cases hrun : Machine.collectIfNeeded m j with
  | aborted fault => exact .left (.inr (hends.of_aborted hrun)) _
  | raised error m₁ j₁ => exact (hends.of_raised hrun).elim
  | done _ m₁ j₁ =>
      cases hrun' : Machine.collectIfNeeded m' j' with
      | aborted fault => exact .right _ (.inr (hends'.of_aborted hrun'))
      | raised error m₁' j₁' => exact (hends'.of_raised hrun').elim
      | done _ m₁' j₁' =>
          obtain ⟨heap, threshold, hp, rfl⟩ := hends.of_done hrun
          obtain ⟨heap', threshold', hp', rfl⟩ := hends'.of_done hrun'
          refine .done ⟨hs.prune hp hp' fun htw => ?_, ⟨_, _, rfl⟩, ⟨_, _, rfl⟩⟩
          have heq := htwin htw
          rw [hrun, hrun', Outcome.done.injEq, Machine.mk.injEq] at heq
          obtain ⟨-, ⟨hheap, -, -, hthreshold, -⟩, hj⟩ := heq
          exact ⟨hheap, hthreshold, hj⟩

lemma alike_collectIfNeeded :
    Alike (Snug p) w (fun _ => Eq) Machine.collectIfNeeded Machine.collectIfNeeded :=
  .of_match fun _ _ _ _ _ _ hs =>
    hs.collectIfNeeded.imp (fun _ _ _ _ _ _ hdone => ⟨hdone.1, rfl⟩) fun _ _ _ _ => id

/-! ### New objects -/

/-- Machines with one more pair of related objects, which are reached if the
machines keep a reference to them. -/
def Grown {k : Kind} (p : Phase) (w : World) (m m' : Machine) (r : Ref k) (m₁ : Machine)
    (j₁ : Journal) (r' : Ref k) (m₁' : Machine) (j₁' : Journal) : Prop :=
  Refilled m m₁ ∧ Refilled m' m₁' ∧ ∃ w', w ≤ w' ∧ Tied p w' m₁ j₁ m₁' j₁' ∧ r.Rel w' r' ∧
    Heap.Spans w' m₁.heap (r.id :: m₁.roots) m₁'.heap (r'.id :: m₁'.roots)

lemma sim_of_grown {k : Kind} {o o' : Outcome Machine (Ref k)}
    (ho : Agree (Grown p w m m') (Snug p w) o o') : Sim (Tied p) w (fun w' => Ref.Rel w') o o' :=
  ho.imp (fun _ _ _ _ _ _ ⟨_, _, w', hle, ht, hr, _⟩ => ⟨w', hle, ht, hr⟩)
    fun _ _ _ _ hs => ⟨w, w.le_refl, hs.tied⟩

lemma Snug.join {k : Kind} {action action' : Action Heap (Ref k)} (hs : Snug p w m j m' j')
    (h : Agree (Heap.Joined w m.heap m'.heap) (Heap.Unmoved w m.heap m'.heap)
      (action m.heap j) (action' m'.heap j')) :
    Agree (Grown p w m m') (Snug p w) (onHeap action m j) (onHeap action' m' j') := by
  refine Agree.on h ?_ ?_
  · rintro r h₁ j₁ r' h₁' j₁' ⟨w', hle, ht, hr, hspans⟩
    exact ⟨⟨_, _, rfl⟩, ⟨_, _, rfl⟩, w', hle, hs.tied.withHeap hle ht, hr, hspans _ _ hs.spans⟩
  · rintro h₁ j₁ h₁' j₁' ⟨rfl, rfl, hj⟩
    exact ⟨hs.tied.journal hj, hs.spans⟩

/-- Two new objects, after collections. -/
lemma Snug.collect_join {k : Kind} {action action' : Action Heap (Ref k)}
    (hs : Snug p w m j m' j')
    (h : ∀ {h j h' j'}, Heap.Tied w h j h' j' →
      Agree (Heap.Joined w h h') (Heap.Unmoved w h h') (action h j) (action' h' j')) :
    Agree (Grown p w m m') (Snug p w) ((do Machine.collectIfNeeded; onHeap action) m j)
      ((do Machine.collectIfNeeded; onHeap action') m' j') := by
  refine hs.collectIfNeeded.bind ?_
  rintro _ m₁ j₁ _ m₁' j₁' ⟨hs₁, hm, hm'⟩
  refine (hs₁.join (h hs₁.tied.heap)).imp ?_ fun _ _ _ _ => id
  rintro r m₂ j₂ r' m₂' j₂' ⟨hm₁, hm₁', hgrown⟩
  exact ⟨hm.trans hm₁, hm'.trans hm₁', hgrown⟩

lemma Snug.alloc {k : Kind} {c c' : k.Content} (hs : Snug p w m j m' j')
    (hc : Content.Rel w k c c') (hb : Content.Bare k c) :
    Agree (Grown p w m m') (Snug p w) (Machine.alloc k c m j) (Machine.alloc k c' m' j') :=
  hs.collect_join fun ht => ht.alloc hc hb

/-! ### Parts of the state -/

variable {V : World → α → β → Prop} {v v' : Value}

lemma Tied.withStack (ht : Tied p w m j m' j') {s s' : Stack Value}
    (hs : Stack.Rel (Value.Rel w) s s') : Tied p w { m with stack := s } j { m' with stack := s' } j' :=
  { ht with stack := hs }

lemma alike_onHeap {action : Action Heap α} {action' : Action Heap β}
    (h : Alike Heap.Tied w V action action') :
    Alike (Tied p) w V (onHeap action) (onHeap action') := by
  intro w₁ hle m j m' j' ht
  refine Agree.on (h w₁ hle m.heap j m'.heap j' ht.heap) ?_ ?_
  · rintro v h₁ j₁ v' h₁' j₁' ⟨w₂, hle', ht', hv⟩
    exact ⟨w₂, hle', ht.withHeap hle' ht', hv⟩
  · rintro h₁ j₁ h₁' j₁' ⟨w₂, hle', ht'⟩
    exact ⟨w₂, hle', ht.withHeap hle' ht'⟩

lemma alike_onGlobals {action : Action Table α} {action' : Action Table β}
    (h : ∀ w₁ t j t' j', w ≤ w₁ → Table.Tied w₁ t j t' j' →
      Match (Table.Tied w₁) (V w₁) (action t j) (action' t' j')) :
    Alike (Tied p) w V (onGlobals action) (onGlobals action') := by
  refine .of_match fun w₁ m j m' j' hle ht => ?_
  have hglobals : Table.Tied w₁ m.globals j m'.globals j' :=
    ⟨ht.globals, fun htw => (ht.heap.twin htw).2.1⟩
  have hnew : ∀ {t j₁ t' j₁'}, Table.Tied w₁ t j₁ t' j₁' →
      Tied p w₁ { m with globals := t } j₁ { m' with globals := t' } j₁' := fun ht' =>
    { ht.journal ht'.2 with globals := ht'.1 }
  refine Agree.on (h w₁ _ _ _ _ hle hglobals) ?_ ?_
  · rintro v t j₁ v' t' j₁' ⟨ht', hv⟩
    exact ⟨hnew ht', hv⟩
  · intro t j₁ t' j₁' ht'
    exact hnew ht'

lemma alike_onStack {f : Stack Value → α × Stack Value} {f' : Stack Value → β × Stack Value}
    (h : ∀ w₁ s s', w ≤ w₁ → Stack.Rel (Value.Rel w₁) s s' →
      V w₁ (f s).1 (f' s').1 ∧ Stack.Rel (Value.Rel w₁) (f s).2 (f' s').2) :
    Alike (Tied p) w V (onStack f) (onStack f') := by
  refine .of_match fun w₁ m j m' j' hle ht => ?_
  obtain ⟨hv, hs⟩ := h w₁ m.stack m'.stack hle ht.stack
  exact .done (ht.withStack hs) hv

/-! ### The operand stack -/

lemma alike_push (hv : v.Rel w v') : Alike (Tied p) w (fun _ => Eq) (push v) (push v') :=
  alike_onStack fun _ _ _ hle hs => ⟨rfl, hs.push (hv.le hle)⟩

lemma alike_pop : Alike (Tied p) w (fun w₁ => Value.Rel w₁) pop pop :=
  alike_onStack fun _ _ _ _ hs => ⟨rel_getD hs.pop.1, hs.pop.2⟩

lemma alike_truncate (count : Nat) :
    Alike (Tied p) w (fun _ => Eq) (truncate count) (truncate count) :=
  alike_onStack fun _ _ _ _ hs => ⟨rfl, hs.truncate count⟩

/-- Another value in a slot. -/
lemma alike_store (slot : Nat) (hv : v.Rel w v') :
    Alike (Tied p) w (fun _ => Eq) (onStack fun stack => ((), (stack.set slot v).2))
      (onStack fun stack => ((), (stack.set slot v').2)) :=
  alike_onStack fun _ _ _ hle hs => ⟨rfl, (hs.set slot (hv.le hle) Value.rel_null).2⟩

lemma alike_setPeek (distance : Nat) (hv : v.Rel w v') :
    Alike (Tied p) w (fun _ => Eq) (setPeek distance v) (setPeek distance v') := by
  refine .get_bind fun w₁ m j m' j' hle ht => ?_
  rw [ht.stack.length_eq]
  exact .ite .rfl (.abort .wordOverflow (by decide)) (alike_store _ (hv.le hle))

/-! ### Code -/

/-- Names, with their keys, that stand for each other. -/
def NameRel (w : World) (name name' : Ref .string × Key) : Prop :=
  name.1.Rel w name'.1 ∧ name.2.Rel w name'.2

/-- Related states of running machines, wherever in the code they are. -/
structure Steered (S : World → Machine → Journal → Machine → Journal → Prop) : Prop where
  tied : ∀ {w m j m' j'}, S w m j m' j' → Tied .running w m j m' j'
  jump : ∀ {w m j m' j'} ip, S w m j m' j' →
    S w { m with frame := { m.frame with ip := ip } } j
      { m' with frame := { m'.frame with ip := ip } } j'

lemma steered_tied : Steered (Tied .running) where
  tied := id
  jump _ ht := { ht with frames := ⟨⟨ht.frames.1.body, rfl, ht.frames.1.base⟩, ht.frames.2⟩ }

lemma steered_snug : Steered (Snug .running) where
  tied := Snug.tied
  jump ip hs := ⟨steered_tied.jump ip hs.tied, hs.spans⟩

namespace Steered

variable {S : World → Machine → Journal → Machine → Journal → Prop}

lemma jumpTo (hS : Steered S) (ip : Nat) :
    Alike S w (fun _ => Eq) (Machine.jumpTo ip) (Machine.jumpTo ip) :=
  .of_match fun _ _ _ _ _ _ hs => .done (hS.jump ip hs) rfl

lemma skip (hS : Steered S) (offset : Nat) :
    Alike S w (fun _ => Eq) (Machine.skip offset) (Machine.skip offset) := by
  refine .get_bind fun w₁ m j m' j' _ hs => ?_
  rw [(hS.tied hs).frames.1.ip]
  exact hS.jumpTo _

lemma running (hS : Steered S) : Alike S w Function.Rel Machine.running Machine.running := by
  refine .get_bind fun w₁ m j m' j' _ hs => ?_
  have ht := hS.tied hs
  exact .lift (ht.heap.read (Tied.frame_refs ht.heap ht.frames.1).2)
    fun _ _ _ hle hf => Content.Rel.le (k := .function) hf hle

lemma fetch (hS : Steered S) : Alike S w (fun _ => Eq) Machine.fetch Machine.fetch := by
  refine hS.running.bind fun w₁ f f' _ hf => .get_bind fun w₂ m j m' j' _ hs => ?_
  rw [hf.code, (hS.tied hs).frames.1.ip]
  dsimp only
  split
  · exact (hS.jumpTo _).bind fun _ _ _ _ _ => .pure fun _ _ => rfl
  · exact .abort .outOfRange (by decide)

lemma fetchNat (hS : Steered S) : Alike S w (fun _ => Eq) Machine.fetchNat Machine.fetchNat :=
  hS.fetch.bind fun _ _ _ _ hword => .pure fun _ _ => congrArg UInt16.toNat hword

lemma fetchConstant (hS : Steered S) :
    Alike S w (fun w₁ => Value.Rel w₁) Machine.fetchConstant Machine.fetchConstant := by
  refine hS.fetchNat.bind fun w₁ index _ _ hindex => hS.running.bind fun w₂ f f' _ hf => ?_
  subst hindex
  exact .pure fun w₃ hle => (rel_getD (hf.constants.get? index)).le hle

lemma fetchName (hS : Steered S) :
    Alike S w NameRel Machine.fetchName Machine.fetchName := by
  refine hS.fetchConstant.bind fun w₁ v v' _ hv => ?_
  cases hv with
  | @scalar s s' hs =>
      cases hs with
      | str hr =>
          refine .get_bind fun w₂ m j m' j' hle hs => ?_
          refine .lift_bind ((hS.tied hs).heap.read (hle.rel hr)) fun record record' hrecord => ?_
          obtain rfl : record = record' := hrecord
          exact .pure fun w₃ hle' => ⟨hle'.rel (hle.rel hr), rfl, .str (hle'.rel (hle.rel hr))⟩
      | array _ => exact .abort .badInstruction (by decide)
      | plain _ bare =>
          cases s with
          | str _ => cases bare
          | _ => exact .abort .badInstruction (by decide)
  | _ => exact .abort .badInstruction (by decide)

lemma peek (hS : Steered S) (distance : Nat) :
    Alike S w (fun w₁ => Value.Rel w₁) (Machine.peek distance) (Machine.peek distance) :=
  .get_bind fun _ _ _ _ _ _ hs => .pure fun _ hle =>
    (rel_getD ((hS.tied hs).stack.peek? distance)).le hle

end Steered

/-! ### Actions that may collect -/

/-- Machines that stand for each other, in some world. -/
def Linked (p : Phase) (twin : Prop) (m : Machine) (j : Journal) (m' : Machine) (j' : Journal) :
    Prop :=
  ∃ w : World, (w.twin ↔ twin) ∧ Tied p w m j m' j'

lemma Tied.linked (ht : Tied p w' m j m' j') (hle : w ≤ w') : Linked p w.twin m j m' j' :=
  ⟨w', hle.twin, ht⟩

/-- Two actions that may collect. Before them, only what can be reached may be
related. They leave machines that `T` relates, unless they raise an error. -/
def MayCollect (T : World → Machine → Journal → Machine → Journal → Prop) (w : World)
    (V : World → α → β → Prop) (first : Action Machine α) (first' : Action Machine β) : Prop :=
  ∀ w₁, w ≤ w₁ → ∀ m j m' j', Snug .running w₁ m j m' j' →
    Agree (fun v m₁ j₁ v' m₁' j₁' => ∃ w₂, w₁ ≤ w₂ ∧ T w₂ m₁ j₁ m₁' j₁' ∧ V w₂ v v')
      (Linked .running w₁.twin) (first m j) (first' m' j')

namespace MayCollect

variable {V' : World → α' → β' → Prop} {first : Action Machine α} {first' : Action Machine β}
  {next : α → Action Machine α'} {next' : β → Action Machine β'}
  {T : World → Machine → Journal → Machine → Journal → Prop}

lemma of_sim (h : ∀ w₁ m j m' j', w ≤ w₁ → Snug .running w₁ m j m' j' →
    Sim (Tied .running) w₁ V (first m j) (first' m' j')) :
    MayCollect (Tied .running) w V first first' :=
  fun w₁ hle m j m' j' hs => Agree.imp (h w₁ m j m' j' hle hs) (fun _ _ _ _ _ _ => id)
    fun _ _ _ _ ⟨_, hle', ht⟩ => ht.linked hle'

lemma of_alike (h : Alike (Tied .running) w V first first') :
    MayCollect (Tied .running) w V first first' :=
  of_sim fun w₁ m j m' j' hle hs => h w₁ hle m j m' j' hs.tied

/-- An action that may collect, after one that does not drop anything. -/
lemma after (h : Alike (Snug .running) w V first first')
    (hnext : ∀ w₁ v v', w ≤ w₁ → V w₁ v v' → MayCollect T w₁ V' (next v) (next' v')) :
    MayCollect T w V' (first >>= next) (first' >>= next') := by
  intro w₁ hle m j m' j' hs
  have hfirst := Agree.imp (h w₁ hle m j m' j' hs) (fun _ _ _ _ _ _ => id)
    fun _ _ _ _ ⟨_, hle', hs'⟩ => hs'.tied.linked hle'
  refine hfirst.bind ?_
  rintro v m₁ j₁ v' m₁' j₁' ⟨w₂, hle', hs₁, hv⟩
  refine (hnext w₂ v v' (World.le_trans hle hle') hv w₂ w₂.le_refl m₁ j₁ m₁' j₁' hs₁).imp ?_ ?_
  · rintro u m₂ j₂ u' m₂' j₂' ⟨w₃, hle'', hdone⟩
    exact ⟨w₃, World.le_trans hle' hle'', hdone⟩
  · rintro m₂ j₂ m₂' j₂' ⟨w₃, htw, ht⟩
    exact ⟨w₃, htw.trans hle'.twin, ht⟩

/-- An action that may collect, and then one that does not. -/
lemma bind (h : MayCollect (Tied .running) w V first first')
    (hnext : ∀ w₁ v v', w ≤ w₁ → V w₁ v v' → Alike (Tied .running) w₁ V' (next v) (next' v')) :
    MayCollect (Tied .running) w V' (first >>= next) (first' >>= next') := by
  intro w₁ hle m j m' j' hs
  refine (h w₁ hle m j m' j' hs).bind ?_
  rintro v m₁ j₁ v' m₁' j₁' ⟨w₂, hle', ht, hv⟩
  have hsim := hnext w₂ v v' (World.le_trans hle hle') hv w₂ w₂.le_refl m₁ j₁ m₁' j₁' ht
  refine Agree.imp hsim ?_ fun _ _ _ _ ⟨_, hle'', ht'⟩ => ht'.linked (World.le_trans hle' hle'')
  rintro u m₂ j₂ u' m₂' j₂' ⟨w₃, hle'', hdone⟩
  exact ⟨w₃, World.le_trans hle' hle'', hdone⟩

lemma get_bind {next : Machine → Action Machine α'} {next' : Machine → Action Machine β'}
    (hnext : ∀ w₁ m j m' j', w ≤ w₁ → Snug .running w₁ m j m' j' →
      MayCollect T w₁ V' (next m) (next' m')) :
    MayCollect T w V' (get >>= next) (get >>= next') :=
  fun w₁ hle m j m' j' hs => hnext w₁ m j m' j' hle hs w₁ w₁.le_refl m j m' j' hs

lemma lift_bind {r : Result α} {r' : Result β} {U : α → β → Prop} (hr : Result.Rel U r r')
    (hnext : ∀ v v', U v v' → MayCollect T w V' (next v) (next' v')) :
    MayCollect T w V' ((liftM r : Action Machine α) >>= next)
      ((liftM r' : Action Machine β) >>= next') := by
  intro w₁ hle m j m' j' hs
  cases hr with
  | ok value => exact hnext _ _ value w₁ hle m j m' j' hs
  | error failure live =>
      cases failure with
      | error error => exact .raised error (hs.tied.linked w₁.le_refl)
      | fault fault => exact .aborted fun heq => live (by rw [heq])

lemma ite {c : Prop} [Decidable c] {other : Action Machine α} {other' : Action Machine β}
    (h : MayCollect T w V first first') (h' : MayCollect T w V other other') :
    MayCollect T w V (if c then first else other) (if c then first' else other') := by
  split
  · exact h
  · exact h'

lemma join {k : Kind} {action action' : Action Heap (Ref k)}
    (h : ∀ w₁ h j h' j', w ≤ w₁ → Heap.Tied w₁ h j h' j' →
      Agree (Heap.Joined w₁ h h') (Heap.Unmoved w₁ h h') (action h j) (action' h' j')) :
    MayCollect (Tied .running) w (fun w₁ => Ref.Rel w₁) (onHeap action) (onHeap action') :=
  of_sim fun w₁ _ _ _ _ hle hs => sim_of_grown (hs.join (h w₁ _ _ _ _ hle hs.tied.heap))

lemma alloc {k : Kind} {c c' : k.Content} (hc : Content.Rel w k c c') (hb : Content.Bare k c) :
    MayCollect (Tied .running) w (fun w₁ => Ref.Rel w₁) (Machine.alloc k c) (Machine.alloc k c') :=
  after alike_collectIfNeeded fun _ _ _ hle _ =>
    join fun _ _ _ _ _ hle' ht => ht.alloc (hc.le (World.le_trans hle hle')) hb

end MayCollect

end Machine

end ScriptMachine
