import ScriptMachine.Proofs.Machine.Frames

/-!
The closures and functions of the calls in progress.

A frame names the closure that it runs and the function of this closure. Closures and
functions never change, and those of the frames are not freed: the closures are roots of
every collection, and a closure holds its function. So they are there as long as the frame
is.

* `Heap.Firm`: closures and functions stay as they are;
* `Frame.Runs`: what a frame runs is there;
* `Anchored`: calls run what they ran, and a call that was entered runs something;
* `anchors_step`: so it is after every instruction;
* `start_opens`: a script that is started runs something.
-/

namespace ScriptMachine

open ScriptMachine.Action

/-! ### Closures and functions stay as they are -/

namespace Heap

variable {h h₁ : Heap} {k l : Kind} {a : ObjectId}

/-- The heap stays sound and idle, and the objects of a kind as they are. There may be more
of them. -/
def Preserves (l : Kind) (h h₁ : Heap) : Prop :=
  h.Sound → h.Idle → h₁.Sound ∧ h₁.Idle ∧
    ∀ (ref : Ref l) (content : l.Content), h.get? ref = some content → h₁.get? ref = some content

instance : IsPreorder Heap (Preserves l) where
  refl h hs hi := ⟨hs, hi, fun _ _ => id⟩
  trans h h₁ h₂ hl hl₁ hs hi := by
    obtain ⟨hs₁, hi₁, hsame⟩ := hl hs hi
    obtain ⟨hs₂, hi₂, hsame₁⟩ := hl₁ hs₁ hi₁
    exact ⟨hs₂, hi₂, fun ref content hget => hsame₁ ref content (hsame ref content hget)⟩

lemma Steady.preserves (hsteady : Steady l h h₁) : Preserves l h h₁ := by
  intro hs hi
  obtain ⟨hs₁, hi₁, hspares⟩ := hsteady hs hi
  exact ⟨hs₁, hi₁, fun ref _ hget => (hspares.get? ref).trans hget⟩

lemma Fresh.preserves (hf : Fresh a h h₁) : Preserves l h h₁ := fun _ hi =>
  ⟨hf.sound, hi.onlyAt hf.only hf.unmarked, fun _ _ hget =>
    (hf.intact (contains_of_get? hget)).get?.trans hget⟩

lemma preserves_alloc {content : k.Content} (hv : (Object.ofContent k content).Valid) :
    (alloc k content).Within (Preserves l) := by
  refine Within.bind (fun h journal => ?_) fun _ => within_pure _
  refine Outcome.ends_of_imp fun hs => ?_
  exact ((hs.toTidy.insert _ false journal).leaves (refl_of (Preserves l) h)
    fun _ _ hi => (hi.added hs hv).isFresh.preserves).imp (fun _ _ hl => hl hs)
      (fun _ _ hl => hl hs) fun _ => id

/-- No primitive of the heap replaces a closure or a function. -/
lemma Primitive.preserves {α : Type} {action : Action Heap α} (hp : Primitive action)
    (hl : l = .closure ∨ l = .function) : action.Within (Preserves l) := by
  have hsteady : ∀ {action : Action Heap α}, action.Within (Steady l) →
      action.Within (Preserves l) := fun h => h.imp fun _ _ => Steady.preserves
  have hother : ∀ {k : Kind}, k ≠ .function → k ≠ .closure → k ≠ l := by
    rintro k hfunction hclosure rfl
    exact hl.elim hclosure hfunction
  cases hp with
  | alloc content valid other => exact preserves_alloc valid
  | insertText text pinned => exact hsteady (within_insertText (hother nofun nofun) text pinned)
  | onContent ref action plain other =>
      exact hsteady (within_onContent (hother other.2.1 other.2.2) plain ref action)
  | replace ref f plain other =>
      exact hsteady (within_of_alters (hother other.2.1 other.2.2) fun _ journal hs =>
        hs.alters_replace plain ref f journal)
  | arraySet ref index scalar =>
      exact hsteady (within_arraySet (hother nofun nofun) ref index scalar)
  | arrayPush ref scalar => exact hsteady (within_arrayPush (hother nofun nofun) ref scalar)
  | arrayPop ref => exact hsteady (within_arrayPop (hother nofun nofun) ref)
  | copyArray ref => exact hsteady (within_copyArray (hother nofun nofun) ref)
  | resize id => exact hsteady (within_resize id)

/-- Closures and functions stay as they are. -/
structure Firm (h h₁ : Heap) : Prop where
  closures : Preserves .closure h h₁
  functions : Preserves .function h h₁

instance : IsPreorder Heap Firm where
  refl h := ⟨refl_of (Preserves .closure) h, refl_of (Preserves .function) h⟩
  trans _ _ _ hf hf₁ := ⟨trans_of (Preserves .closure) hf.closures hf₁.closures,
    trans_of (Preserves .function) hf.functions hf₁.functions⟩

lemma within_firm {α : Type} {action : Action Heap α}
    (h : ∀ {l : Kind}, l = .closure ∨ l = .function → action.Within (Preserves l)) :
    action.Within Firm := by
  intro heap journal
  have hclosures := h (.inl rfl) heap journal
  have hfunctions := h (.inr rfl) heap journal
  cases hrun : action heap journal with
  | done value heap₁ journal₁ => exact ⟨hclosures.of_done hrun, hfunctions.of_done hrun⟩
  | raised error heap₁ journal₁ => exact ⟨hclosures.of_raised hrun, hfunctions.of_raised hrun⟩
  | aborted fault => trivial

instance : Respects Firm := ⟨fun hp => within_firm hp.preserves⟩

/-- An object of another kind gets another content. -/
lemma Altered.firm {ref : Ref k} (ha : Altered ref h h₁) (hclosure : k ≠ .closure)
    (hfunction : k ≠ .function) : Firm h h₁ :=
  ⟨(ha.steady hclosure).preserves, (ha.steady hfunction).preserves⟩

lemma firm_setChar (ref : Ref .string) (index : Nat) (byte : UInt8) :
    (setChar ref index byte).Within Firm := by
  refine within_firm fun hl => (within_setChar ?_ ref index byte).imp fun _ _ => Steady.preserves
  rcases hl with rfl | rfl <;> decide

lemma firm_putUpvalue {ref : Ref .upvalue} {old : Upvalue} (hget : h.get? ref = some old)
    (new : Upvalue) : Firm h (h.put ref new) := by
  -- Both parts have soundness as a hypothesis, without which nothing is known of the change.
  have hfirm : h.Sound → Firm h (h.put ref new) := fun hs =>
    (hs.altered_put hget fun _ _ => trivial).firm nofun nofun
  exact ⟨fun hs => (hfirm hs).closures hs, fun hs => (hfirm hs).functions hs⟩

end Heap

/-- The host supplies functions that leave closures and functions as they are. -/
def Host.Sparing (host : Host) : Prop := host.Respects Heap.Firm

lemma Host.builtin_sparing (now : Double) : (builtin now).Sparing := fun _ _ => within_abort _

/-! ### What frames run -/

/-- What a frame runs is there: its closure, with its function, which has the given content. -/
structure Frame.Runs (h : Heap) (frame : Frame) (f : Function) : Prop where
  closure : ∃ closure : Closure, h.get? frame.closure = some closure ∧
    closure.function = frame.function
  function : h.get? frame.function = some f

/-- The position in the code does not matter. -/
lemma Frame.Runs.moved {h : Heap} {frame : Frame} {f : Function} (hr : frame.Runs h f) (ip : Nat) :
    Runs h { frame with ip := ip } f := ⟨hr.closure, hr.function⟩

lemma Heap.Firm.runs {h h₁ : Heap} {frame : Frame} {f : Function} (hf : Firm h h₁) (hs : h.Sound)
    (hi : h.Idle) (hr : frame.Runs h f) : frame.Runs h₁ f := by
  obtain ⟨closure, hclosure, hfunction⟩ := hr.closure
  exact ⟨⟨closure, (hf.closures hs hi).2.2 _ _ hclosure, hfunction⟩,
    (hf.functions hs hi).2.2 _ _ hr.function⟩

namespace Machine

variable {host : Host} {m m₁ m₂ : Machine} {α β : Type} {f : Function} {frame : Frame}

/-- The closures of the calls in progress. -/
def closures (m : Machine) : List (Ref .closure) := m.frame.closure :: m.frames.map Frame.closure

lemma mem_roots_of_mem_closures {ref : Ref .closure} (hmem : ref ∈ m.closures) :
    ref.id ∈ m.roots := by
  have hids : m.frame.closure.id :: m.frames.reverse.map (·.closure.id) ⊆ m.roots := by
    intro id hid
    simp only [roots, List.append_assoc, List.mem_append]
    exact .inr (.inl hid)
  refine hids ?_
  rcases List.mem_cons.mp hmem with rfl | hmem
  · exact .head _
  · obtain ⟨frame, hframe, rfl⟩ := List.mem_map.mp hmem
    exact .tail _ (List.mem_map.mpr ⟨frame, List.mem_reverse.mpr hframe, rfl⟩)

/-- The calls in progress run what they ran, and a call that was entered runs something. -/
structure Anchored (m m₁ : Machine) : Prop where
  sound : m₁.heap.Sound
  idle : m₁.heap.Idle
  runs : ∀ frame : Frame, frame.closure ∈ m.closures → ∀ f, frame.Runs m.heap f →
    frame.Runs m₁.heap f
  entered : m.frames.length < m₁.frames.length →
    m.frames.length ≠ mostFrames ∧ ∃ f, m₁.frame.Runs m₁.heap f

/-- What calls run is there, in a heap on which later operations can rely. -/
def Anchors (m m₁ : Machine) : Prop := m.heap.Sound → m.heap.Idle → Anchored m m₁

/-- The calls in progress are the same, and what they run is there. -/
structure Abides (m m₁ : Machine) : Prop extends SameCalls m m₁ where
  anchors : Anchors m m₁

lemma SameCalls.closures_eq (h : SameCalls m m₁) : m₁.closures = m.closures := by
  rw [closures, closures, h.frames, h.frame]

lemma anchors_of_heap (hheap : m₁.heap = m.heap) (hframes : m₁.frames.length ≤ m.frames.length) :
    Anchors m m₁ := by
  intro hs hi
  refine ⟨hheap ▸ hs, hheap ▸ hi, fun _ _ _ hr => hheap ▸ hr, fun hmore => ?_⟩
  exact absurd hframes (Nat.not_le.mpr hmore)

lemma SameCalls.abides (h : SameCalls m m₁) (hheap : m₁.heap = m.heap) : Abides m m₁ :=
  ⟨h, anchors_of_heap hheap (Nat.le_of_eq (congrArg List.length h.frames))⟩

/-- As long as the calls in progress are the same, they keep what they run. -/
lemma Abides.followed_by (h : Abides m m₁) (h₁ : Anchors m₁ m₂) : Anchors m m₂ := by
  intro hs hi
  have ha := h.anchors hs hi
  have ha₁ := h₁ ha.sound ha.idle
  refine ⟨ha₁.sound, ha₁.idle, fun frame hmem f hr => ?_, ?_⟩
  · exact ha₁.runs frame (h.toSameCalls.closures_eq ▸ hmem) f (ha.runs frame hmem f hr)
  · rw [← h.frames]
    exact ha₁.entered

/-- The running frame goes on with what it runs. -/
lemma Abides.runs (h : Abides m m₁) (hs : m.heap.Sound) (hi : m.heap.Idle)
    (hr : m.frame.Runs m.heap f) : m₁.frame.Runs m₁.heap f := by
  rw [h.frame]
  exact ((h.anchors hs hi).runs _ (.head _) f hr).moved _

instance : IsPreorder Machine Abides where
  refl m := (SameCalls.refl m).abides rfl
  trans _ _ _ h h₁ := ⟨h.toSameCalls.trans h₁.toSameCalls, h.followed_by h₁.anchors⟩

lemma onHeaps_of_firm {h h₁ : Heap} (hf : Heap.Firm h h₁) : OnHeaps Abides h h₁ := by
  rintro m rfl
  refine ⟨⟨rfl, rfl⟩, fun hs hi => ?_⟩
  obtain ⟨hs₁, hi₁, -⟩ := hf.closures hs hi
  exact ⟨hs₁, hi₁, fun _ _ _ => hf.runs hs hi, fun hmore => absurd hmore (Nat.lt_irrefl _)⟩

/-- The closures of the frames are roots, and each holds its function. -/
lemma anchored_of_collected {heap : Heap} {freed : List ObjectId} {threshold : Nat}
    (hc : Heap.Collected m.roots freed m.heap heap) :
    Anchored m { m with heap := heap, threshold := threshold } := by
  refine ⟨hc.sound, hc.idle, fun frame hmem f hr => ?_, fun hmore => absurd hmore (Nat.lt_irrefl _)⟩
  obtain ⟨closure, hclosure, hfunction⟩ := hr.closure
  -- The closure is marked as a root, and from there its function.
  have hreach : Heap.Reach m.heap m.roots frame.closure.id :=
    .root (mem_roots_of_mem_closures hmem) (Heap.contains_of_get? hclosure)
  have hchild : Heap.Reach m.heap m.roots frame.function.id := by
    refine hreach.child ?_ (Heap.contains_of_get? hr.function)
    obtain ⟨entry, hfind, hobject⟩ := Heap.get?_eq_some_iff.mp hclosure
    simp only [Heap.children, hfind, hobject]
    exact hfunction ▸ .head _
  exact ⟨⟨closure, (hc.intact (.inr hreach)).get?.trans hclosure, hfunction⟩,
    (hc.intact (.inr hchild)).get?.trans hr.function⟩

/-! ### Instructions -/

lemma abides_collectGarbage : collectGarbage.Within Abides := by
  intro m journal
  have hstill := loose_collectGarbage (R := Still) m journal
  have hcalls : ∀ {m₁ : Machine}, Still m m₁ → SameCalls m m₁ :=
    fun h => ⟨h.frames, by rw [h.frame]⟩
  cases hrun : collectGarbage m journal with
  | done sweep m₁ journal₁ =>
      refine ⟨hcalls (hstill.of_done hrun), fun hs hi => ?_⟩
      obtain ⟨heap, freed, threshold, hc, rfl⟩ := (collectGarbage_ends hs hi journal).of_done hrun
      exact anchored_of_collected hc
  | raised error m₁ journal₁ =>
      refine ⟨hcalls (hstill.of_raised hrun), fun hs hi => ?_⟩
      exact ((collectGarbage_ends hs hi journal).of_raised hrun).elim
  | aborted fault => trivial

lemma abides_list (m : Machine) (refs : List (Ref .upvalue)) :
    Abides m { m with openUpvalues := refs } := SameCalls.abides ⟨rfl, rfl⟩ rfl

lemma abides_put {h : Heap} {ref : Ref .upvalue} {old : Upvalue} (hget : h.get? ref = some old)
    (new : Upvalue) : OnHeaps Abides h (h.put ref new) :=
  onHeaps_of_firm (Heap.firm_putUpvalue hget new)

instance : Follows Abides where
  of_eq hheap _ hframes hframe := SameCalls.abides ⟨hframes, by rw [hframe]⟩ hheap
  primitive hp := (Heap.Respects.primitive hp : Within Heap.Firm _).imp fun _ _ => onHeaps_of_firm
  collectGarbage := abides_collectGarbage
  capture slot := by
    refine within_capture_of ?_ abides_list
    exact (within_collectIfNeeded_of abides_collectGarbage).bind fun _ =>
      within_heap ((Heap.within_firm fun _ => Heap.preserves_alloc (by trivial)).imp
        fun _ _ => onHeaps_of_firm)
  of_movedTo _ _ := SameCalls.abides ⟨rfl, rfl⟩ rfl

lemma abides_closeUpvalues (slot : Nat) : (closeUpvalues slot).Within Abides :=
  within_closeUpvalues_of abides_put abides_list slot

/-- Instructions that call nothing stay in their frame. -/
lemma abides_execute (op : Opcode) (hcall : op ≠ .call) (hinvoke : op ≠ .invoke) :
    (execute host op).Within Abides := by
  by_cases hclose : op = .closeUpvalue
  · subst hclose
    exact within_closeTop_of abides_closeUpvalues
  by_cases hupvalue : op = .setUpvalue
  · subst hupvalue
    exact within_setUpvalue_of abides_put
  by_cases hindex : op = .setIndex
  · subst hindex
    exact fun m journal => setIndex_ends (M := Abides) (fun ref i byte _ =>
      (Heap.firm_setChar ref i byte).imp fun _ _ => onHeaps_of_firm) journal
  exact within_staying op hclose hupvalue hindex hcall hinvoke

/-- What comes first stays in its frame. -/
lemma anchors_bind {first : Action Machine α} {next : α → Action Machine β}
    (h : first.Within Abides) (hnext : ∀ value, (next value).Within Anchors) :
    (first >>= next).Within Anchors := by
  intro m journal
  refine Outcome.Ends.bind ((h m journal).imp (fun _ _ h => h) (fun _ _ h => h.anchors) fun _ => id)
    fun value m₁ journal₁ hfirst => ?_
  exact (hnext value m₁ journal₁).imp (fun _ _ => hfirst.followed_by)
    (fun _ _ => hfirst.followed_by) fun _ => id

lemma anchors_of_abides {action : Action Machine α} (h : action.Within Abides) :
    action.Within Anchors := h.imp fun _ _ => Abides.anchors

/-- A closure is entered if it is there with its function, and if there is room for a
frame. -/
lemma callClosure_opens (ref : Ref .closure) (count : Nat) (m : Machine) (journal : Journal) :
    (callClosure ref count m journal).Ends
      (fun _ m₁ => m₁.heap = m.heap ∧ m.frames.length ≠ mostFrames ∧ ∃ f, m₁.frame.Runs m₁.heap f)
      (fun _ m₁ => m₁ = m) fun _ => True := by
  rw [callClosure, get_bind]
  cases hclosure : m.heap.get? ref with
  | none =>
      rw [Heap.read_of_none hclosure]
      trivial
  | some closure =>
      rw [Heap.read_of_get? hclosure, lift_ok, pure_bind]
      cases hfunction : m.heap.get? closure.function with
      | none =>
          rw [Heap.read_of_none hfunction]
          trivial
      | some f =>
          rw [Heap.read_of_get? hfunction, lift_ok, pure_bind]
          refine Outcome.Ends.bind ((within_lift _ m journal).imp (fun _ _ h => h)
            (fun _ _ => Eq.symm) fun _ => id) ?_
          rintro _ _ journal₁ rfl
          by_cases hfull : m.frames.length = mostFrames
          · rw [if_pos hfull]
            rfl
          rw [if_neg hfull]
          by_cases hshort : m.stack.length < count + 1
          · rw [if_pos hshort]
            trivial
          rw [if_neg hshort]
          exact ⟨rfl, hfull, f, ⟨closure, hclosure, rfl⟩, hfunction⟩

lemma anchors_callClosure (ref : Ref .closure) (count : Nat) :
    (callClosure ref count).Within Anchors := by
  intro m journal
  refine (callClosure_opens ref count m journal).imp ?_ ?_ fun _ => id
  · rintro _ m₁ ⟨hheap, hroom, hruns⟩ hs hi
    exact ⟨hheap ▸ hs, hheap ▸ hi, fun _ _ _ hr => hheap ▸ hr, fun _ => ⟨hroom, hruns⟩⟩
  · rintro _ _ rfl
    exact anchors_of_heap rfl (Nat.le_refl _)

lemma anchors_callClass (ref : Ref .cls) (count : Nat) : (callClass ref count).Within Anchors := by
  refine anchors_bind (within_alloc (by trivial) (by decide)) fun inst =>
    anchors_bind (within_setPeek count _) fun _ => anchors_bind within_get fun m =>
      anchors_bind (within_lift _) fun cls => ?_
  split
  · exact anchors_callClosure _ count
  · exact anchors_of_abides (within_lift _)

lemma anchors_callValue (hhost : host.Sparing) (callee : Value) (count : Nat) :
    (callValue host callee count).Within Anchors := by
  have hrespects : host.Respects (OnHeaps Abides) :=
    fun number arguments => (hhost number arguments).imp fun _ _ => onHeaps_of_firm
  cases callee with
  | closure ref => exact anchors_callClosure ref count
  | native ref => exact anchors_of_abides (within_callNative hrespects ref count)
  | cls ref => exact anchors_callClass ref count
  | _ =>
      exact anchors_of_abides (within_get.bind fun _ => (within_lift _).bind fun _ =>
        within_raise _)

lemma anchors_call (hhost : host.Sparing) : (call host).Within Anchors :=
  anchors_bind within_fetchNat fun count => anchors_bind (within_peek count) fun callee =>
    anchors_callValue hhost callee count

lemma anchors_invoke (hhost : host.Sparing) : (invoke host).Within Anchors := by
  refine anchors_bind within_fetchName fun name => anchors_bind within_fetchNat fun count =>
    anchors_bind (within_peek count) fun value => anchors_bind (within_asInstance _ _) fun ref =>
      anchors_bind within_get fun m => anchors_bind (within_lift _) fun inst =>
        anchors_bind (within_lift _) fun found => ?_
  cases found with
  | some field =>
      exact anchors_bind (within_setPeek count field) fun _ => anchors_callValue hhost field count
  | none => exact anchors_bind (within_lift _) fun _ => anchors_callValue hhost _ count

lemma anchors_ret : ret.Within Anchors := by
  refine anchors_bind within_pop fun value => anchors_bind within_get fun m =>
    anchors_bind (abides_closeUpvalues _) fun _ => anchors_bind (within_truncate _) fun _ => ?_
  intro m journal
  rw [get_bind]
  cases hframes : m.frames with
  | nil => exact anchors_of_heap rfl (Nat.le_refl _)
  | cons frame frames =>
      refine anchors_of_heap rfl ?_
      rw [hframes]
      exact Nat.le_succ _

/-- What frames run stays, as long as they are there. -/
lemma anchors_step (hhost : host.Sparing) : (step host).Within Anchors := by
  intro m journal
  have hfirst : Abides m (m.movedTo (m.frame.ip + 1)) := Steers.of_movedTo m _
  refine step_ends (fun hop journal => ?_) (fun op hret hop journal => ?_) journal
  · exact (anchors_ret _ journal).imp (fun _ _ => hfirst.followed_by)
      (fun _ _ => hfirst.followed_by) fun _ => id
  · have hexecute : (execute host op).Within Anchors := by
      by_cases hcall : op = .call
      · subst hcall
        exact anchors_call hhost
      by_cases hinvoke : op = .invoke
      · subst hinvoke
        exact anchors_invoke hhost
      exact anchors_of_abides (abides_execute op hcall hinvoke)
    exact (hexecute _ journal).imp (fun _ _ => hfirst.followed_by) (fun _ _ => hfirst.followed_by)
      fun _ => id

/-- A new object is there, among the same calls. -/
lemma alloc_ends {k : Kind} {content : k.Content} (hb : Content.Bare k content) (hs : m.heap.Sound)
    (hi : m.heap.Idle) (journal : Journal) :
    (alloc k content m journal).Ends
      (fun ref m₁ => m₁.heap.Sound ∧ m₁.heap.Idle ∧ m₁.frames = m.frames ∧
        m₁.heap.get? ref = some content)
      (fun _ _ => True) fun _ => True := by
  refine Outcome.Ends.bind ((within_collectIfNeeded (M := Abides) m journal).imp (fun _ _ h => h)
    (fun _ _ _ => trivial) fun _ => id) fun _ m₁ journal₁ habides => ?_
  have ha := habides.anchors hs hi
  refine Outcome.Ends.imp (ends_onHeap (ha.sound.alloc hb journal₁)) ?_ (fun _ _ _ => trivial)
    fun _ _ => trivial
  rintro ref _ ⟨heap, rfl, ⟨hfresh, hget⟩, -⟩
  exact ⟨hfresh.sound, ha.idle.onlyAt hfresh.only hfresh.unmarked, habides.frames, hget⟩

/-- A script starts as a closure of its function, if that is there. -/
lemma start_opens (hs : m.heap.Sound) (hi : m.heap.Idle) (function : Ref .function)
    (journal : Journal) :
    (start function m journal).Ends
      (fun _ m₁ => m₁.heap.Sound ∧ m₁.heap.Idle ∧ m₁.frames = m.frames ∧
        ∀ f, m₁.heap.get? m₁.frame.function = some f → m₁.frame.Runs m₁.heap f)
      (fun _ _ => True) fun _ => True := by
  have hpush : push (.function function) m journal =
      .done () { m with stack := m.stack.push (.function function) } journal := rfl
  rw [start, bind_of_done hpush]
  refine (alloc_ends (by trivial) (by exact hs) (by exact hi) journal).bind ?_
  rintro closure m₁ journal₁ ⟨hs₁, hi₁, hframes, hget⟩
  exact ⟨hs₁, hi₁, hframes, fun f hf => ⟨⟨_, hget, rfl⟩, hf⟩⟩

end Machine

end ScriptMachine
