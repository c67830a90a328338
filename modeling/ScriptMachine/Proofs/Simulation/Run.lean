import ScriptMachine.Proofs.Machine.Instructions
import ScriptMachine.Proofs.Simulation.Instructions

/-!
Runs of machines that stand for each other.

* `Tied.reset`: the end of a run;
* `Tied.start`: the beginning of a script;
* `Linked.trace_eq`: the lines of a trace;
* `Tied.runFunction`: a function that is run as a script.
-/

namespace ScriptMachine.Machine

variable {w : World} {p : Phase} {m m₁ m' m₁' : Machine} {j j₁ j' j₁' : Journal}
  {host host' : Host} {t : Prop}

/-! ### The beginning and the end -/

lemma Tied.reset (ht : Tied p w m j m' j') :
    ∃ m₁ m₁', reset m j = .done () m₁ j ∧ reset m' j' = .done () m₁' j' ∧
      Tied .idle w m₁ j m₁' j' := by
  obtain ⟨m₁, m₁', hrun, hrun', ht₁⟩ := ht.closeUpvalues 0
  refine ⟨_, _, Action.bind_of_done hrun, Action.bind_of_done hrun', ?_⟩
  exact { ht₁ with stack := ht₁.stack.reset, frames := ⟨⟨rfl, rfl⟩, rfl, rfl⟩ }

/-- A new object has the content that it was made with. -/
lemma alloc_get? {k : Kind} {content : k.Content} (hs : m.heap.Sound) (hi : m.heap.Idle)
    (hb : Content.Bare k content) (j : Journal) :
    (alloc k content m j).Ends (fun r m₁ => m₁.heap.get? r = some content) (fun _ _ => True)
      fun _ => True := by
  refine ((collectIfNeeded_prunes hs hi j).imp (fun _ _ => id) (fun _ _ => False.elim)
    fun _ _ => trivial).bind ?_
  rintro _ m₁ j₁ ⟨heap, threshold, hp, rfl⟩
  rw [onHeap_apply]
  have halloc := hp.sound.alloc hb j₁
  dsimp only
  cases hrun : Heap.alloc k content heap j₁ with
  | done r h₂ j₂ =>
      rw [hrun] at halloc
      exact halloc.1.2
  | raised error h₂ j₂ => trivial
  | aborted fault => trivial

/-- What follows the first push of a script. -/
def enter (function : Ref .function) : Action Machine Unit := do
  let closure ← alloc .closure ⟨function, #[]⟩
  onStack fun stack => ((), stack.reset)
  push (.closure closure)
  modify fun m => { m with frame := ⟨closure, function, 0, 0⟩ }

lemma Snug.enter (hs : Snug .idle w m j m' j') {f f' : Ref .function} (hf : f.Rel w f') :
    Agree (fun _ m₁ j₁ _ m₁' j₁' => Linked .running w.twin m₁ j₁ m₁' j₁') (Linked .idle w.twin)
      (enter f m j) (enter f' m' j') := by
  obtain ⟨hsound, hsound'⟩ := hs.tied.heap.sound
  obtain ⟨hidle, hidle'⟩ := hs.tied.heap.idle
  have hclosure : Content.Rel w .closure ⟨f, #[]⟩ ⟨f', #[]⟩ := ⟨hf, .empty⟩
  have hbare : ∀ f, Content.Bare .closure ⟨f, #[]⟩ := fun _ => trivial
  have halloc := ((hs.alloc hclosure (hbare f)).and_left (alloc_get? hsound hidle (hbare f) j)).and_right
    (alloc_get? hsound' hidle' (hbare f') j')
  refine Agree.bind (halloc.imp (fun _ _ _ _ _ _ => id) ?_) ?_
  · exact fun _ _ _ _ hs => hs.tied.linked w.le_refl
  · rintro r m₁ j₁ r' m₁' j₁' ⟨⟨⟨-, -, w', hle, ht, hr, -⟩, hget⟩, hget'⟩
    refine .done (Tied.linked ?_ hle)
    obtain ⟨x, x', hbody, -⟩ := ht.heap.body hr
    obtain ⟨-, hx, hx'⟩ := ht.heap.bodies.mp hbody
    -- the bodies are those of the new closures
    have hfunction := congrArg Closure.function (Option.some.inj (hx.1.symm.trans hget))
    have hfunction' := congrArg Closure.function (Option.some.inj (hx'.1.symm.trans hget'))
    obtain ⟨⟨-, hframes⟩, -, hframes'⟩ := ht.frames
    refine { ht with
      stack := ht.stack.reset.push (.closure hr)
      frames := ⟨⟨⟨x, x', hbody, ?_⟩, rfl, rfl⟩, ?_⟩ }
    · exact ⟨hfunction, hfunction'⟩
    · rw [hframes, hframes']
      exact .nil

/-- A script begins with one frame, that of a new closure of its function. -/
lemma Tied.start (ht : Tied .idle w m j m' j') {f f' : Ref .function} (hf : f.Rel w f') :
    Agree (fun _ m₁ j₁ _ m₁' j₁' => Linked .running w.twin m₁ j₁ m₁' j₁') (Linked .idle w.twin)
      (start f m j) (start f' m' j') := by
  have hs := (ht.withStack (ht.stack.push (.function hf))).tighten
  have hv := hs.tied.stack.top
  cases hv with
  | function hr => exact hs.enter hr

/-! ### Traces -/

lemma Tied.traceLine?_eq (ht : Heap.Tied w m.heap j m'.heap j') {f f' : Frame} (hf : f.Rel w f') :
    traceLine? m.heap f = traceLine? m'.heap f' := by
  obtain ⟨function, function', hget, hget', hfunction, -⟩ := ht.pairs (frame_refs ht hf).2
  have hline : ∀ ip, function.chunk.line? ip = function'.chunk.line? ip := by
    intro ip
    unfold Code.Chunk.line?
    rw [hfunction.lines]
  rw [traceLine?, traceLine?, hget, hget', Option.map_some, Option.map_some, hf.ip, hline,
    hfunction.name]

lemma traceLine?_dangling {h : Heap} (hs : h.Sound) : traceLine? h .dangling = none := by
  have hget : h.get? Frame.dangling.function = none := by
    rw [Heap.get?, Heap.object?, show Frame.dangling.function.id = .dangling from rfl,
      Heap.find?_dangling hs]
    rfl
  rw [traceLine?, hget, Option.map_none]

lemma filterMap_eq {α β γ : Type} {R : α → β → Prop} {l : List α} {l' : List β}
    (h : List.Forall₂ R l l') {f : α → Option γ} {g : β → Option γ}
    (hfg : ∀ x y, R x y → f x = g y) : l.filterMap f = l'.filterMap g := by
  induction h with
  | nil => rfl
  | cons hxy _ ih => rw [List.filterMap_cons, List.filterMap_cons, hfg _ _ hxy, ih]

/-- Linked machines write one trace, unless they have frames of which nothing is
known. -/
lemma Linked.trace_eq (hl : Linked p t m j m' j') (hp : p ≠ .stray) : m.trace = m'.trace := by
  obtain ⟨w, -, ht⟩ := hl
  have hf := ht.frames
  unfold trace
  cases p with
  | stray => exact absurd rfl hp
  | idle =>
      obtain ⟨⟨hframe, hframes⟩, hframe', hframes'⟩ := hf
      rw [hframe, hframes, hframe', hframes', List.filterMap_cons, List.filterMap_cons,
        traceLine?_dangling ht.heap.sound.1, traceLine?_dangling ht.heap.sound.2]
      rfl
  | running =>
      exact filterMap_eq (.cons hf.1 hf.2) fun _ _ => Tied.traceLine?_eq ht.heap

/-! ### Runs -/

/-- What is known of the frames after a run. -/
def Ending.phase : Ending → Phase
  | .outOfFuel => .running
  | _ => .idle

/-- The steps of scripts of related functions. -/
lemma Tied.startRun (ht : Tied .idle w m j m' j') (hhost : host.Agrees w.twin host')
    {f f' : Ref .function} (hf : f.Rel w f') (fuel : Nat) :
    Agree (fun status m₁ j₁ status' m₁' j₁' => Linked .running w.twin m₁ j₁ m₁' j₁' ∧ status = status')
      (fun m₁ j₁ m₁' j₁' => ∃ q, q ≠ .stray ∧ Linked q w.twin m₁ j₁ m₁' j₁')
      ((Machine.start f >>= fun _ => (runFor host fuel : Action Machine Status)) m j)
      ((Machine.start f' >>= fun _ => (runFor host' fuel : Action Machine Status)) m' j') := by
  refine Agree.bind ((ht.start hf).imp (fun _ _ _ _ _ _ => id) ?_) ?_
  · exact fun _ _ _ _ hl => ⟨.idle, nofun, hl⟩
  · intro _ m₁ j₁ _ m₁' j₁' hl
    refine Agree.imp (hl.runFor hhost fuel) (fun _ _ _ _ _ _ => id) ?_
    exact fun _ _ _ _ hl => ⟨.running, nofun, hl⟩

/-- Related functions, run as scripts, end alike. -/
lemma Tied.runFunction (ht : Tied p w m j m' j') (hhost : host.Agrees w.twin host')
    {f f' : Ref .function} (hf : f.Rel w f') (fuel : Nat) :
    Agree (fun ending m₁ j₁ ending' m₁' j₁' => ending = ending' ∧
        Linked ending.phase w.twin m₁ j₁ m₁' j₁') (fun _ _ _ _ => False)
      (runFunction host fuel f m j) (runFunction host' fuel f' m' j') := by
  obtain ⟨m₁, m₁', hreset, hreset', ht₁⟩ := ht.reset
  rw [runFunction_of_reset hreset, runFunction_of_reset hreset']
  have hrun := ht₁.startRun hhost hf fuel
  generalize (Machine.start f >>= fun _ => (runFor host fuel : Action Machine Status)) m₁ j = o,
    (Machine.start f' >>= fun _ => (runFor host' fuel : Action Machine Status)) m₁' j' = o' at hrun
  cases hrun with
  | @done status m₂ j₂ status' m₂' j₂' related =>
      obtain ⟨⟨w₂, htw, ht₂⟩, rfl⟩ := related
      cases status with
      | running => exact .done ⟨rfl, w₂, htw, ht₂⟩
      | finished =>
          obtain ⟨m₃, m₃', hreset₃, hreset₃', ht₃⟩ := ht₂.reset
          dsimp only
          rw [Action.bind_of_done hreset₃, Action.bind_of_done hreset₃']
          exact .done ⟨rfl, w₂, htw, ht₃⟩
  | @raised error m₂ j₂ m₂' j₂' related =>
      obtain ⟨q, hq, hl⟩ := related
      have htrace := hl.trace_eq hq
      obtain ⟨w₂, htw, ht₂⟩ := hl
      have hnoted : Tied q w₂ m₂ (j₂.note (.runFailed error.display)) m₂'
          (j₂'.note (.runFailed error.display)) :=
        ht₂.journal fun htw => by rw [(ht₂.heap.twin htw).2.1]
      obtain ⟨m₃, m₃', hreset₃, hreset₃', ht₃⟩ := hnoted.reset
      dsimp only
      rw [Action.bind_of_done hreset₃, Action.bind_of_done hreset₃', htrace]
      exact .done ⟨rfl, w₂, htw, ht₃⟩
  | aborted live => exact .aborted live
  | left exhausted => exact .left exhausted _
  | right _ exhausted => exact .right _ exhausted

end ScriptMachine.Machine
