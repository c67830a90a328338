import ScriptMachine.Proofs.Simulation.Live

/-!
Sessions: what becomes of a machine that runs one function after the other.

Between two runs the host may change the heap, as long as it leaves alone what the
machine can reach, and it may define native functions and collect. A function may
be run if all handles that can be followed to from it are live.

* `Sane`: a machine that stands for itself, so that nothing it holds is stale;
* `Session`: the machines of a session, between the runs and during them;
* `Session.never_stale`: all that they hold is live, and they never look for an
  object in vain.
-/

namespace ScriptMachine

lemma Host.builtin_agrees (now : Double) (twin : Prop) :
    (builtin now).Agrees twin (builtin now) :=
  ⟨rfl, fun _ _ _ _ _ => .abort .outOfRange (by decide)⟩

namespace Agree

variable {σ α : Type} {D : α → σ → Journal → α → σ → Journal → Prop}
  {E : σ → Journal → σ → Journal → Prop} {o : Outcome σ α}

/-- An outcome that agrees with itself. -/
lemma not_stale (h : Agree D E o o) : o ≠ .aborted .staleReference := by
  rintro rfl
  cases h with
  | aborted live => exact live rfl
  | left exhausted => exact exhausted.ne_stale rfl
  | right _ exhausted => exact exhausted.ne_stale rfl

lemma self_done {v : α} {s : σ} {j : Journal} (h : Agree D E o o) (ho : o = .done v s j) :
    D v s j v s j := by
  subst ho
  cases h with
  | done related => exact related

lemma self_raised {error : Error} {s : σ} {j : Journal} (h : Agree D E o o)
    (ho : o = .raised error s j) : E s j s j := by
  subst ho
  cases h with
  | raised _ related => exact related

end Agree

namespace Machine

variable {p : Phase} {m m' : Machine} {j j' : Journal}

/-! ### Machines that stand for themselves -/

/-- A machine that stands for itself. -/
def Sane (p : Phase) (m : Machine) : Prop := ∀ j, Linked p True m j m j

lemma sane_of_linked (hl : Linked p True m j m j) : Sane p m := by
  obtain ⟨w, htw, ht⟩ := hl
  exact fun _ => ⟨w, htw, ht.journal fun _ => rfl⟩

/-- The handles that a machine holds. It has frames only as long as it runs. -/
def handles (m : Machine) : Phase → List Handle
  | .running => m.holdings ++ (m.frame :: m.frames).flatMap Frame.handles
  | _ => m.holdings

lemma Sane.whole (hm : Sane p m) : m.heap.Whole (m.handles p) := by
  obtain ⟨w, -, ht⟩ := hm .silent
  refine ht.heap.whole fun x hx => ?_
  cases p with
  | running =>
      rcases List.mem_append.mp hx with hx | hx
      · exact ht.holding hx
      · exact ht.framed hx
  | stray => exact ht.holding hx
  | idle => exact ht.holding hx

/-- A machine that does not run stands for itself, if all that it holds is live. -/
lemma sane_of_whole (hs : m.heap.Sound) (hi : m.heap.Idle) (hw : m.heap.Whole m.holdings)
    (hframes : m.frame = .dangling ∧ m.frames = []) : Sane .idle m := by
  intro j
  have ht := tied_self True hs hi hw (List.Subset.refl _) (fun h => (h trivial).elim) m.config
    m.threshold j j fun _ => ⟨rfl, rfl, rfl⟩
  exact ⟨_, .rfl, { ht with frames := ⟨hframes, hframes⟩ }⟩

lemma Sane.idle (hm : Sane .idle m) :
    m.heap.Sound ∧ m.heap.Idle ∧ m.frame = .dangling ∧ m.frames = [] := by
  obtain ⟨w, -, ht⟩ := hm .silent
  exact ⟨ht.heap.sound.1, ht.heap.idle.1, ht.frames.1⟩

/-! ### Between runs -/

/-- The host changes the heap and leaves alone what the machine can reach. -/
lemma Sane.withHeap (hm : Sane .idle m) {heap : Heap} (hs : heap.Sound) (hi : heap.Idle)
    (hintact : ∀ x, m.heap.Held m.holdings x → Heap.Intact x.2 m.heap heap) :
    Sane .idle { m with heap := heap } := by
  obtain ⟨hsound, -, hframes⟩ := hm.idle
  exact sane_of_whole hs hi (hm.whole.intact hsound hintact) hframes

lemma Sane.settings (hm : Sane p m) (config : Config) (threshold : Nat) (console : Console) :
    Sane p { m with config := config, threshold := threshold, console := console } := by
  intro j
  obtain ⟨w, htw, ht⟩ := hm j
  exact ⟨w, htw, { ht with console := rfl, twin := fun _ => ⟨rfl, rfl⟩ }⟩

lemma Sane.collectGarbage (hm : Sane p m) {sweep : Sweep}
    (hrun : Machine.collectGarbage m j = .done sweep m' j') : Sane p m' := by
  obtain ⟨w, htw, ht⟩ := hm j
  obtain ⟨heap, freed, threshold, hc, rfl⟩ :=
    (collectGarbage_ends ht.heap.sound.1 ht.heap.idle.1 j).of_done hrun
  refine sane_of_linked (j := j') ⟨held w m m, htw, ?_⟩
  exact ht.prune hc.pruned hc.pruned fun _ => ⟨rfl, rfl, rfl⟩

lemma alike_defineNative {w : World} (native : Native) :
    Alike (Tied p) w (fun _ => Eq) (defineNative native) (defineNative native) := by
  have hnative : Content.Rel w .native native native := rfl
  refine (alike_onHeap (Heap.alike_alloc hnative trivial)).bind fun w₁ r r' _ hr => ?_
  refine (alike_onHeap (Heap.alike_insertText native.name true)).bind fun w₂ s s' hle hs => ?_
  refine .get_bind fun w₃ m j m' j' hle' ht => ?_
  rw [ht.natives.length_eq]
  have hr := hle'.rel (hle.rel hr)
  refine Alike.bind (V := fun _ => Eq) (.of_match fun w₄ m j m' j' hle ht => .done ?_ rfl) ?_
  · exact { ht with
      natives := ht.natives.push (.native (hle.rel hr))
      names := congrArg ((native.name, _) :: ·) ht.names }
  · intro w₄ _ _ hle _
    refine .get_bind fun w₅ m j m' j' hle₅ ht => ?_
    have hs := hle₅.rel (hle.rel (hle'.rel hs))
    refine .lift_bind (ht.heap.read hs) fun record record' hrecord => ?_
    obtain rfl : record = record' := hrecord
    have hkey : Key.Rel w₅ ⟨record.hash, .str s⟩ ⟨record.hash, .str s'⟩ := ⟨rfl, .str hs⟩
    exact (alike_insertGlobal hkey (.native (hle₅.rel (hle.rel hr)))).bind
      fun _ _ _ _ _ => .pure fun _ _ => rfl

lemma alike_defineNatives {w : World} (natives : List Native) :
    Alike (Tied p) w (fun _ => Eq) (defineNatives natives) (defineNatives natives) := by
  induction natives generalizing w with
  | nil => exact .pure fun _ _ => rfl
  | cons native natives ih => exact (alike_defineNative native).bind fun _ _ _ _ _ => ih

/-- A machine without objects stands for itself. -/
lemma linked_of_bare {config : Config} {grants : Nat → Bool} {t : Prop}
    (hbare : bare config grants = .ok m) (hgranted : ¬ t → ∀ length, grants length = true)
    (j : Journal) : Linked .idle t m j m j := by
  rw [bare] at hbare
  cases hheap : Heap.create config.pageSize grants with
  | error failure => rw [hheap] at hbare; cases hbare
  | ok heap =>
      rw [hheap] at hbare
      cases hglobals : Table.withCapacity config.globalsCapacity with
      | error failure => rw [hglobals] at hbare; cases hbare
      | ok globals =>
          rw [hglobals] at hbare
          cases hbare
          -- nothing is related to anything: there are no objects yet
          refine ⟨⟨fun _ _ _ => False, fun _ _ _ _ => False, t⟩, .rfl, ?_, ?_, .empty, .empty, .empty,
            .nil, ⟨⟨rfl, rfl⟩, rfl, rfl⟩, rfl, rfl, fun _ => ⟨rfl, rfl⟩⟩
          · have hsound := Heap.sound_of_create hheap
            have hidle := Heap.idle_of_create hheap
            refine ⟨⟨hsound, hsound⟩, ⟨hidle, hidle⟩, False.elim, False.elim, False.elim,
              ⟨False.elim, fun h => h.1⟩, fun _ => ⟨rfl, rfl, False.elim⟩, fun htw => ?_⟩
            obtain ⟨memory, hmemory, rfl⟩ := Heap.eq_of_create hheap
            unfold Memory.Allocator.create at hmemory
            split at hmemory
            · cases hmemory
              exact ⟨hgranted htw, hgranted htw⟩
            · cases hmemory
          · have hblank := Table.Rel.withCapacity
              (w := ⟨fun _ _ _ => False, fun _ _ _ _ => False, t⟩) config.globalsCapacity
            rw [hglobals] at hblank
            cases hblank with
            | ok hrel => exact hrel

/-- A new machine stands for itself. -/
lemma linked_of_create {config : Config} {grants : Nat → Bool} {t : Prop}
    (hcreate : create config grants j = .ok (m, j'))
    (hgranted : ¬ t → ∀ length, grants length = true) : Linked .idle t m j' m j' := by
  rw [create] at hcreate
  cases hbare : bare config grants with
  | error failure => rw [hbare] at hcreate; cases hcreate
  | ok empty =>
      rw [hbare] at hcreate
      obtain ⟨w, htw, ht⟩ := linked_of_bare hbare hgranted j
      obtain rfl := propext htw
      have hsim := alike_defineNatives (w := w) Native.builtins w w.le_refl _ _ _ _ ht
      cases hrun : defineNatives Native.builtins empty j with
      | done value m₁ j₁ =>
          obtain ⟨w', hle, ht', -⟩ := hsim.self_done hrun
          simp only [bind, Except.bind, hrun] at hcreate
          cases hcreate
          exact ht'.linked hle
      | raised error m₁ j₁ =>
          simp only [bind, Except.bind, hrun] at hcreate
          cases hcreate
      | aborted fault =>
          simp only [bind, Except.bind, hrun] at hcreate
          cases hcreate

/-! ### Sessions -/

/-- The machines of a session: between the runs, and after each instruction of a
run. -/
inductive Session : Phase → Machine → Prop
  | create {config : Config} {grants : Nat → Bool} {journal journal' : Journal} {m : Machine}
      (created : create config grants journal = .ok (m, journal')) : Session .idle m
  | settings {p : Phase} {m : Machine} (past : Session p m) (config : Config) (threshold : Nat)
      (console : Console) :
      Session p { m with config := config, threshold := threshold, console := console }
  | host {m : Machine} {heap : Heap} (past : Session .idle m) (sound : heap.Sound) (idle : heap.Idle)
      (spared : ∀ x, m.heap.Held m.holdings x → Heap.Intact x.2 m.heap heap) :
      Session .idle { m with heap := heap }
  | defineNative {m m' : Machine} {native : Native} {journal : Journal} (past : Session .idle m)
      (run : (defineNative native m journal).state? = some m') : Session .idle m'
  | collectGarbage {m m' : Machine} {sweep : Sweep} {journal journal' : Journal}
      (past : Session .idle m) (run : collectGarbage m journal = .done sweep m' journal') :
      Session .idle m'
  | runFunction {m m' : Machine} {now : Double} {fuel : Nat} {function : Ref .function}
      {ending : Ending} {journal journal' : Journal} (past : Session .idle m)
      (live : m.heap.Whole [(.function, function.id)])
      (run : runFunction (.builtin now) fuel function m journal = .done ending m' journal') :
      Session ending.phase m'
  | start {m m' : Machine} {function : Ref .function} {journal journal' : Journal}
      (past : Session .idle m) (live : m.heap.Whole [(.function, function.id)])
      (run : (do reset; start function) m journal = .done () m' journal') : Session .running m'
  | step {m m' : Machine} {now : Double} {journal : Journal} (past : Session .running m)
      (run : (step (.builtin now) m journal).state? = some m') : Session .running m'

/-- Functions that may be run stand for themselves. -/
lemma Sane.tied (hm : Sane .idle m) {function : Ref .function}
    (hw : m.heap.Whole [(.function, function.id)]) (j : Journal) :
    ∃ w : World, (w.twin ↔ True) ∧ Tied .stray w m j m j ∧ function.Rel w function := by
  obtain ⟨hs, hi, -⟩ := hm.idle
  have ht := tied_self True hs hi (hw.append hm.whole) (List.subset_append_right _ _)
    (fun h => (h trivial).elim) m.config m.threshold j j fun _ => ⟨rfl, rfl, rfl⟩
  exact ⟨_, .rfl, ht, rfl, .root (List.mem_append_left _ (.head _))⟩

lemma Sane.runFunction (hm : Sane .idle m) {function : Ref .function}
    (hw : m.heap.Whole [(.function, function.id)]) (now : Double) (fuel : Nat) (j : Journal) :
    Agree (fun ending m₁ j₁ _ m₁' j₁' => Linked ending.phase True m₁ j₁ m₁' j₁')
      (fun _ _ _ _ => False) (Machine.runFunction (.builtin now) fuel function m j)
      (Machine.runFunction (.builtin now) fuel function m j) := by
  obtain ⟨w, htw, ht, hf⟩ := hm.tied hw j
  rw [← propext htw]
  exact (ht.runFunction (Host.builtin_agrees now _) hf fuel).imp (fun _ _ _ _ _ _ => And.right)
    fun _ _ _ _ => id

lemma Sane.start (hm : Sane .idle m) {function : Ref .function}
    (hw : m.heap.Whole [(.function, function.id)])
    (hrun : (do reset; Machine.start function) m j = .done () m' j') : Sane .running m' := by
  obtain ⟨w, htw, ht, hf⟩ := hm.tied hw j
  obtain ⟨m₁, m₁', hreset, -, ht₁⟩ := ht.reset
  obtain ⟨rfl, -⟩ := ht₁.machine_eq (htw.mpr trivial)
  rw [Action.bind_of_done hreset] at hrun
  have hstart := (ht₁.start hf).self_done hrun
  rw [propext htw] at hstart
  exact sane_of_linked hstart

lemma sane_of_match {α : Type} {o : Outcome Machine α} (h : Match (Linked p True) Eq o o)
    (hstate : o.state? = some m) : Sane p m := by
  cases o with
  | done v m₁ j₁ =>
      cases hstate
      exact sane_of_linked (Agree.self_done h rfl).1
  | raised error m₁ j₁ =>
      cases hstate
      exact sane_of_linked (Agree.self_raised h rfl)
  | aborted fault => cases hstate

/-- The machines of a session stand for themselves. -/
lemma Session.sane (hs : Session p m) : Sane p m := by
  induction hs with
  | create created =>
      exact sane_of_linked (linked_of_create created fun h => (h trivial).elim)
  | settings _ config threshold console ih => exact ih.settings config threshold console
  | host _ sound idle spared ih => exact ih.withHeap sound idle spared
  | @defineNative m m' native journal _ run ih =>
      obtain ⟨w, htw, ht⟩ := ih journal
      have hsim := alike_defineNative (w := w) native w w.le_refl _ _ _ _ ht
      refine sane_of_match (Agree.imp hsim ?_ ?_) run
      · rintro _ _ _ _ _ _ ⟨w', hle, ht', heq⟩
        exact ⟨⟨w', hle.twin.trans htw, ht'⟩, heq⟩
      · rintro _ _ _ _ ⟨w', hle, ht'⟩
        exact ⟨w', hle.twin.trans htw, ht'⟩
  | collectGarbage _ run ih => exact ih.collectGarbage run
  | runFunction _ live run ih => exact sane_of_linked ((ih.runFunction live _ _ _).self_done run)
  | start _ live run ih => exact ih.start live run
  | step _ run ih => exact sane_of_match ((ih _).step (Host.builtin_agrees _ _)) run

/-- No handle is ever stale. At every moment of a session, whatever the machine
holds and whatever can be followed to from there names an object of its kind, so
neither an instruction nor a run looks for an object that is not there. -/
theorem Session.never_stale (hs : Session p m) :
    m.heap.Whole (m.handles p) ∧
    (p = .running → ∀ now journal,
      Machine.step (.builtin now) m journal ≠ .aborted .staleReference) ∧
    (p = .idle → ∀ now fuel (function : Ref .function) journal,
      m.heap.Whole [(.function, function.id)] →
      Machine.runFunction (.builtin now) fuel function m journal ≠ .aborted .staleReference) := by
  refine ⟨hs.sane.whole, ?_, ?_⟩
  · rintro rfl now journal
    exact ((hs.sane journal).step (Host.builtin_agrees now _)).not_stale
  · rintro rfl now fuel function journal hw
    exact (hs.sane.runFunction hw now fuel journal).not_stale

/-- The host adds an object. -/
lemma Session.alloc (hs : Session .idle m) {k : Kind} {content : k.Content} {r : Ref k}
    (hb : Content.Bare k content)
    (hrun : onHeap (Heap.alloc k content) m j = .done r m' j') : Session .idle m' := by
  obtain ⟨hsound, hidle, -⟩ := hs.sane.idle
  have halloc := hsound.alloc hb j
  rw [onHeap_apply] at hrun
  cases hheap : Heap.alloc k content m.heap j with
  | done r₁ heap j₁ =>
      rw [hheap] at hrun halloc
      cases hrun
      obtain ⟨hfresh, -⟩ := halloc.1
      refine hs.host hfresh.sound (hidle.onlyAt hfresh.only hfresh.unmarked) fun x hx => ?_
      obtain ⟨content, hget⟩ := Option.isSome_iff_exists.mp (hs.sane.whole x hx)
      exact hfresh.intact (Heap.contains_of_get? hget)
  | raised error heap j₁ => rw [hheap] at hrun; cases hrun
  | aborted fault => rw [hheap] at hrun; cases hrun

/-- A function that captures two variables, and the function of the closure that
captures them. -/
def capturingScript : Action Machine (Ref .function × Ref .function) := do
  let inner ← onHeap (Heap.alloc .function ⟨"inner", 0, 3, .empty⟩)
  let words := [Opcode.pushNull.toWord, Opcode.pushNull.toWord,
    Opcode.closure.toWord, 0, 1, 1, 1, 2, 1, 1]
  let script ← onHeap (Heap.alloc .function
    ⟨"", 0, 0, ⟨words.toArray, .empty, #[], .ofList [.function inner]⟩⟩)
  return (script, inner)

lemma Session.capturing (hs : Session .idle m) {refs : Ref .function × Ref .function}
    (hrun : capturingScript m j = .done refs m' j') : Session .idle m' := by
  obtain ⟨inner, m₁, j₁, halloc, hrun⟩ := Action.exists_of_bind_done hrun
  obtain ⟨script, m₂, j₂, halloc', hrun⟩ := Action.exists_of_bind_done hrun
  cases hrun
  exact (hs.alloc (k := .function) trivial halloc).alloc (k := .function) trivial halloc'

/-- Two variables are captured while a script runs. -/
theorem Session.never_stale_captured : ∃ m, Session .running m ∧ m.openUpvalues.length = 2 ∧
    m.heap.Whole (m.handles .running) ∧
    Machine.step (.builtin ⟨0⟩) m .silent ≠ .aborted .staleReference := by
  have hrun : ((Machine.create ⟨4096, 65536, 2, 8, .stress⟩ (fun _ => true) .silent).toOption.bind
      fun new => (capturingScript new.1 new.2).done?.bind fun made =>
        (Machine.runFunction (.builtin ⟨0⟩) 3 made.1.1 made.2.1 made.2.2).done?.map fun ran => decide
          (made.2.1.heap.Closed [(.function, made.1.1.id), (.function, made.1.2.id)] ∧
            ran.1 = .outOfFuel ∧ ran.2.1.openUpvalues.length = 2)) = some true := by decide +kernel
  obtain ⟨⟨m, j⟩, hcreate, hrun⟩ := Option.bind_eq_some_iff.mp hrun
  obtain ⟨⟨⟨script, inner⟩, m₁, j₁⟩, hscript, hrun⟩ := Option.bind_eq_some_iff.mp hrun
  obtain ⟨⟨ending, m₂, j₂⟩, hran, hrun⟩ := Option.map_eq_some_iff.mp hrun
  obtain ⟨hclosed, rfl, hcount⟩ := of_decide_eq_true hrun
  have hs : Session .idle m := .create (Outcome.eq_of_toOption hcreate)
  have hrunning : Session .running m₂ := (hs.capturing (Outcome.eq_of_done? hscript)).runFunction
    (hclosed.whole (by simp)) (Outcome.eq_of_done? hran)
  have hlive := hrunning.never_stale
  exact ⟨m₂, hrunning, hcount, hlive.1, hlive.2.1 rfl _ _⟩

end Machine

end ScriptMachine
