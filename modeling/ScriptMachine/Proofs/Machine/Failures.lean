import ScriptMachine.Proofs.Machine.Closing
import ScriptMachine.Proofs.Raising

/-!
What instructions leave that raise errors.

An instruction that raises an error, unless it is for want of memory, has changed
nothing but what belongs to the run. It may have collected and made new objects
before, but those that are still there are as they were.

* `Heap.Undisturbed`: an object with its block and its bytes is as it was;
* `Unharmed`: what an error leaves of a machine;
* `fails_execute`, `fails_step`: instructions that raise errors;
* `runFor_raised`, `runFunction_failed`: a run that fails does so in one of its steps.
-/

namespace ScriptMachine

open ScriptMachine.Action

namespace Heap

variable {h h₁ h₂ : Heap} {a : ObjectId} {roots freed : List ObjectId}

/-! ### Objects that stay as they are -/

/-- An object with its block and its bytes is as it was. -/
structure Undisturbed (id : ObjectId) (h h₁ : Heap) : Prop where
  found : h₁.find? id = h.find? id
  cells : ∀ entry, h.find? id = some entry → ∀ i < entry.block.size, h₁.cell id i = h.cell id i

instance (id : ObjectId) : IsPreorder Heap (Undisturbed id) where
  refl _ := ⟨rfl, fun _ _ _ _ => rfl⟩
  trans _ _ _ hu hu' := ⟨hu'.found.trans hu.found, fun entry hfind i hi =>
    (hu'.cells entry (hu.found.trans hfind) i hi).trans (hu.cells entry hfind i hi)⟩

lemma Undisturbed.intact (hu : Undisturbed a h h₁) : Intact a h h₁ :=
  ⟨congrArg (Option.map Entry.object) hu.found, hu.cells⟩

lemma Undisturbed.contains (hu : Undisturbed a h h₁) : h₁.contains a = h.contains a := hu.intact.contains

lemma OnlyAt.undisturbed {c : ObjectId} (ho : OnlyAt c h h₁) (hne : a ≠ c) : Undisturbed a h h₁ :=
  ⟨ho.others a hne, fun entry hfind => ho.cells a entry hne hfind⟩

/-- What is still there after a collection is as it was. -/
lemma Collected.undisturbed (hc : Collected roots freed h h₁) (hlive : h₁.contains a = true) :
    Undisturbed a h h₁ := by
  have hkept : Kept h roots a := by
    by_contra hdead
    rw [contains, hc.dropped a hdead] at hlive
    cases hlive
  refine ⟨hc.kept a hkept, fun entry hfind => hc.cells a entry ?_⟩
  rw [hc.kept a hkept, hfind]

/-- Objects that are live at once are in different slots. -/
lemma occupants_le_one {ids : List ObjectId} (hnodup : ids.Nodup)
    (hlive : ∀ id ∈ ids, h.contains id = true) (i : UInt32) : occupants i ids ≤ 1 := by
  rw [occupants, List.countP_eq_length_filter]
  have hfound : ∀ id ∈ ids.filter (·.index == i), (∃ entry, h.find? id = some entry) ∧ id.index = i := by
    intro id hmem
    obtain ⟨hmem, hindex⟩ := List.mem_filter.mp hmem
    exact ⟨Option.isSome_iff_exists.mp (hlive id hmem), eq_of_beq hindex⟩
  have hnodup' : (ids.filter (·.index == i)).Nodup := List.Pairwise.filter _ hnodup
  generalize ids.filter (·.index == i) = found at hfound hnodup'
  rcases found with _ | ⟨id, _ | ⟨id', rest⟩⟩
  · exact Nat.zero_le 1
  · exact Nat.le_refl 1
  · obtain ⟨⟨entry, hfind⟩, hindex⟩ := hfound id (.head _)
    obtain ⟨⟨entry', hfind'⟩, hindex'⟩ := hfound id' (.tail _ (.head _))
    have heq := eq_of_index hfind hfind' (hindex'.trans hindex.symm)
    exact absurd (heq ▸ .head _) (List.nodup_cons.mp hnodup').1

/-- An object that is made after a collection does not get the id of one that was
freed by it. -/
lemma Collected.fresh_id (hc : Collected roots freed h h₁) (hf : Fresh a h₁ h₂)
    (hlive : h₂.contains a = true) : h.contains a = false := by
  by_contra hold
  rw [Bool.not_eq_false] at hold
  have hgone : h₁.contains a = false := by
    rw [contains, hf.fresh]
    rfl
  have hfreed := (hc.freed a).mpr ⟨hold, hgone⟩
  have hone := occupants_le_one hc.nodup (fun id hmem => ((hc.freed id).mp hmem).1) a.index
  -- the slot was freed once, so that it is in its next generation
  have haged : Aged freed h h₂ := fun i n hn => aged_nil.mp hf.only.aged i _ (hc.aged i n hn)
  have hlt := haged.frees_lt hold hfreed
  have hfrees := haged.frees_of_contains hold
  have := frees_eq_of_contains (Nat.le_of_lt hlt) hold hlive (by
    rw [UInt32.size]
    omega)
  omega

/-- What was there and still is stays as it was. -/
def Lasting (h h₁ : Heap) : Prop :=
  ∀ id, h.contains id = true → h₁.contains id = true → Undisturbed id h h₁

lemma Lasting.refl (h : Heap) : Lasting h h := fun id _ _ => refl_of (Undisturbed id) h

lemma Collected.lasting (hc : Collected roots freed h h₁) : Lasting h h₁ := fun _ _ => hc.undisturbed

/-- An object changes that was not there at first. -/
lemma Lasting.onlyAt (hl : Lasting h h₁) (ho : OnlyAt a h₁ h₂) (hnew : h.contains a = false) :
    Lasting h h₂ := by
  intro id hlive hlive₂
  have hne : id ≠ a := by
    rintro rfl
    rw [hnew] at hlive
    cases hlive
  have hlast := ho.undisturbed hne
  exact trans_of (Undisturbed id) (hl id hlive (hlast.contains ▸ hlive₂)) hlast

end Heap

namespace Machine

variable {m m₁ m' : Machine} {now : Double} {P : Machine → Machine → Prop} [IsPreorder Machine P]
  {S : Machine → Machine → Prop} [Steers S]

/-! ### What an error leaves -/

/-- What an error leaves of a machine, apart from what belongs to the run: variables,
registries, and objects that are still there. -/
structure Unharmed (m m' : Machine) : Prop where
  globals : m'.globals = m.globals
  openUpvalues : m'.openUpvalues = m.openUpvalues
  classes : m'.classes = m.classes
  natives : m'.natives = m.natives
  nativeNames : m'.nativeNames = m.nativeNames
  lasting : m.heap.Lasting m'.heap

lemma Untouched.followed_by (h : Untouched m m₁) (h' : Unharmed m₁ m') : Unharmed m m' where
  globals := h'.globals.trans h.globals
  openUpvalues := h'.openUpvalues.trans h.openUpvalues
  classes := h'.classes.trans h.classes
  natives := h'.natives.trans h.natives
  nativeNames := h'.nativeNames.trans h.nativeNames
  lasting := h.heap ▸ h'.lasting

lemma Unharmed.followed_by (h : Unharmed m m₁) (h' : Untouched m₁ m') : Unharmed m m' where
  globals := h'.globals.trans h.globals
  openUpvalues := h'.openUpvalues.trans h.openUpvalues
  classes := h'.classes.trans h.classes
  natives := h'.natives.trans h.natives
  nativeNames := h'.nativeNames.trans h.nativeNames
  lasting := h'.heap ▸ h.lasting

lemma unharmed_of_lasting {heap : Heap} {threshold : Nat} (hlasting : m.heap.Lasting heap) :
    Unharmed m { m with heap := heap, threshold := threshold } := ⟨rfl, rfl, rfl, rfl, rfl, hlasting⟩

lemma Untouched.unharmed (h : Untouched m m') : Unharmed m m' :=
  h.followed_by (unharmed_of_lasting (.refl m'.heap))

/-- What an error may leave of a machine that is ready. -/
def Harmless (m m' : Machine) : Prop := m.Ready → Unharmed m m'

lemma Untouched.harmless (h : Untouched m m') : Harmless m m' := fun _ => h.unharmed

section Sequences

variable {α β : Type} {first : Action Machine α} {next : α → Action Machine β}

lemma fails_of_untouched (h : first.FailsWithin Untouched) : first.FailsWithin Harmless :=
  h.imp fun _ _ => Untouched.harmless

/-- What comes first touches only what belongs to the run. -/
lemma harmless_bind (h : first.Within Untouched) (hnext : ∀ value, (next value).FailsWithin Harmless) :
    (first >>= next).FailsWithin Harmless := by
  intro m journal
  refine Outcome.Ends.bind ((h m journal).imp (fun _ _ h => h) (fun _ _ h _ => h.harmless) fun _ => id)
    fun value m₁ journal₁ hfirst => ?_
  exact (hnext value m₁ journal₁).imp (fun _ _ => id)
    (fun _ _ hraised hkind hr => hfirst.followed_by (hraised hkind (hfirst.ready hr))) fun _ => id

/-- What comes first raises no error. -/
lemma starved_ends {journal : Journal} {done : α → Machine → Prop} {raised : Error → Machine → Prop}
    (hstarved : first.Starved) (h : (first m journal).Ends done (fun _ _ => True) fun _ => True) :
    (first m journal).Ends done (fun error m' => error.kind ≠ .memory → raised error m')
      fun _ => True := by
  have hraised := hstarved m journal
  cases hrun : first m journal with
  | done value m₁ journal₁ => exact h.of_done hrun
  | raised error m₁ journal₁ => exact fun hkind => (hraised.of_raised hrun hkind).elim
  | aborted fault => trivial

/-- An action that is looked at on machines that are ready only. -/
lemma fails_of_ready (h : ∀ m journal, m.Ready → (first m journal).Ends (fun _ _ => True)
      (fun error m' => error.kind ≠ .memory → Unharmed m m') fun _ => True) :
    first.FailsWithin Harmless := by
  intro m journal
  cases hrun : first m journal with
  | raised error m' journal' => exact fun hkind hr => (h m journal hr).of_raised hrun hkind
  | _ => trivial

/-- What comes last touches only what belongs to the run if it raises an error. -/
lemma harmless_of_ends (hstarved : first.Starved)
    (h : ∀ m journal, m.Ready →
      (first m journal).Ends (fun _ m₁ => Unharmed m m₁) (fun _ _ => True) fun _ => True)
    (hnext : ∀ value, (next value).FailsWithin Untouched) : (first >>= next).FailsWithin Harmless := by
  refine fails_of_ready fun m journal hr => ?_
  refine (starved_ends hstarved (h m journal hr)).bind fun value m₁ journal₁ hfirst => ?_
  exact (hnext value m₁ journal₁).imp (fun _ _ => id)
    (fun _ _ hraised hkind => hfirst.followed_by (hraised hkind)) fun _ => id

end Sequences

/-! ### Elementary actions -/

lemma starved_onHeap {α : Type} {action : Action Heap α} (h : action.Starved) :
    (onHeap action).Starved := h.on

lemma fails_onHeap {α : Type} {action : Action Heap α} (h : action.FailsWithin Eq) :
    (onHeap action).FailsWithin P := by
  refine FailsWithin.on h fun m heap heq => ?_
  rw [← show m.heap = heap from heq]
  exact refl_of P m

lemma within_onHeap_eq {α : Type} {action : Action Heap α} (h : action.Within Eq) :
    (onHeap action).Within Untouched := by
  refine Within.on h fun m heap heq => ?_
  rw [← show m.heap = heap from heq]
  exact refl_of Untouched m

lemma starved_onStack {α : Type} (f : Stack Value → α × Stack Value) : (onStack f).Starved :=
  fun _ _ => trivial

lemma starved_push (value : Value) : (push value).Starved := starved_onStack _

lemma starved_pop : pop.Starved := starved_onStack _

lemma starved_peek (distance : Nat) : (peek distance).Starved :=
  starved_get.bind fun _ => starved_pure _

lemma starved_setPeek (distance : Nat) (value : Value) : (setPeek distance value).Starved := by
  refine starved_get.bind fun m => FailsWithin.ite ((starved_abort _).bind fun _ => ?_) ?_
  all_goals exact starved_onStack _

lemma starved_truncate (count : Nat) : (truncate count).Starved := starved_onStack _

lemma starved_fetch : fetch.Starved := fun m journal =>
  (fetch_ends m journal).imp (fun _ _ _ => trivial) (fun _ _ => False.elim) fun _ => id

lemma starved_fetchNat : fetchNat.Starved := starved_fetch.bind fun _ => starved_pure _

lemma starved_fetchConstant : fetchConstant.Starved :=
  starved_fetchNat.bind fun _ => (starved_get.bind fun m => starved_lift (m.heap.calm_read _)).bind
    fun _ => starved_pure _

lemma starved_fetchName : fetchName.Starved := by
  refine starved_fetchConstant.bind fun value => ?_
  split
  · exact starved_get.bind fun m => (starved_lift (m.heap.calm_read _)).bind fun _ => starved_pure _
  · exact starved_abort _

lemma starved_upvalue (index : Nat) : (upvalue index).Starved := fun m journal =>
  (upvalue_ends m index journal).imp (fun _ _ _ => trivial) (fun _ _ => False.elim) fun _ => id

lemma starved_collectIfNeeded : collectIfNeeded.Starved := by
  have hcollect : collectGarbage.Starved := by
    refine starved_get.bind fun _ => (starved_note _).bind fun _ => starved_get.bind fun m =>
      (starved_onHeap (Heap.starved_collect _)).bind fun sweep => starved_get.bind fun m => ?_
    refine FailsWithin.ite ((starved_abort _).bind fun _ => ?_) ?_
    all_goals
      exact (starved_modify _).bind fun _ => (starved_note _).bind fun _ => starved_pure sweep
  exact starved_get.bind fun _ =>
    FailsWithin.ite (hcollect.bind fun _ => starved_pure _) (starved_pure _)

lemma starved_alloc {k : Kind} (content : k.Content) : (alloc k content).Starved :=
  starved_collectIfNeeded.bind fun _ => starved_onHeap (Heap.starved_alloc content)

/-! ### Captured variables -/

lemma calm_openSlot (h : Heap) (ref : Ref .upvalue) : Result.Calm (openSlot h ref) := by
  refine (h.calm_read ref).bind fun content => ?_
  cases content <;> exact Result.calm_ok _

lemma calm_splitAtSlot (h : Heap) (slot : Nat) (refs : List (Ref .upvalue)) :
    Result.Calm (splitAtSlot h slot refs) := by
  induction refs with
  | nil => exact Result.calm_ok _
  | cons ref refs ih =>
      refine (calm_openSlot h ref).bind fun i => ?_
      split
      · exact ih.bind fun _ => Result.calm_ok _
      · exact Result.calm_ok _

lemma starved_capture (slot : Nat) : (capture slot).Starved := by
  refine starved_get.bind fun m => (starved_lift (calm_splitAtSlot _ _ _)).bind fun cut => ?_
  obtain ⟨below, above⟩ := cut
  have hnew : (do
      let ref ← alloc .upvalue (.opened slot)
      modify fun m => { m with openUpvalues := below ++ ref :: above }
      return ref : Action Machine (Ref .upvalue)).Starved :=
    (starved_alloc (k := .upvalue) _).bind fun ref => (starved_modify _).bind fun _ => starved_pure ref
  cases above with
  | nil => exact hnew
  | cons ref rest =>
      refine (starved_lift (calm_openSlot _ _)).bind fun named => ?_
      dsimp only
      split
      · exact starved_pure _
      · exact hnew

lemma starved_captureMany (count : Nat) (refs : Array (Ref .upvalue)) :
    (captureMany count refs).Starved := by
  induction count generalizing refs with
  | zero => exact starved_pure refs
  | succ count ih =>
      refine starved_fetch.bind fun isLocal => starved_fetchNat.bind fun index => ?_
      refine FailsWithin.ite (starved_get.bind fun _ => ?_) ?_
      · exact (starved_capture _).bind fun ref => ih (refs.push ref)
      · exact (starved_upvalue index).bind fun ref => ih (refs.push ref)

lemma starved_closeAll (stack : Stack Value) (refs : List (Ref .upvalue)) :
    (closeAll stack refs).Starved := by
  induction refs with
  | nil => exact starved_pure ()
  | cons ref refs ih =>
      have hone : (closeOne stack ref).Starved := by
        refine starved_get.bind fun h => (starved_lift (h.calm_read ref)).bind fun content => ?_
        cases content with
        | opened slot => exact starved_modify _
        | closed value => exact starved_pure ()
      exact hone.bind fun _ => ih

lemma starved_closeUpvalues (slot : Nat) : (closeUpvalues slot).Starved :=
  starved_get.bind fun _ => (starved_lift (calm_splitAtSlot _ _ _)).bind fun _ =>
    (starved_modify _).bind fun _ => starved_onHeap (starved_closeAll _ _)

/-! ### Variables, properties and classes -/

lemma starved_defineGlobal : defineGlobal.Starved :=
  starved_fetchName.bind fun _ => starved_pop.bind fun _ =>
    Starved.on (Table.starved_insert _ _) |>.bind fun _ => starved_pure ()

lemma fails_setGlobal : setGlobal.FailsWithin S := by
  refine within_fetchName.bind_fails fun name => within_get.bind_fails fun m =>
    (within_lift _).bind_fails fun found => ?_
  cases found with
  | some value =>
      exact (within_peek 0).bind_fails fun _ => (Starved.on (Table.starved_insert _ _)).fails.bind
        fun _ => starved_pure ()
  | none => exact (within_notDefined _).fails

/-- A name that is not there is found out by removing it. -/
lemma fails_deleteGlobal : deleteGlobal.FailsWithin S := by
  refine within_fetchName.bind_fails fun name => ?_
  intro m journal
  have hremove := m.globals.remove_ends name.2.hash journal
  have hglobals : (onGlobals (Table.remove name.2.hash) m journal).Ends
      (fun value m' => value = none → m' = m) (fun _ _ => False) fun _ => True := by
    rw [onGlobals, Action.on]
    dsimp only
    cases hrun : Table.remove name.2.hash m.globals journal with
    | done value t journal' => exact fun hnone => hremove.of_done hrun hnone ▸ rfl
    | raised error t journal' => exact hremove.of_raised hrun
    | aborted fault => trivial
  refine hglobals.unraised.bind fun value m' journal' hnone => ?_
  cases value with
  | some value => trivial
  | none =>
      obtain rfl := hnone rfl
      exact (within_notDefined (P := S) name.1).fails m' journal'

lemma starved_setUpvalue : setUpvalue.Starved := by
  refine starved_fetchNat.bind fun index => (starved_upvalue index).bind fun ref =>
    (starved_peek 0).bind fun value => starved_get.bind fun m =>
      (starved_lift (m.heap.calm_read ref)).bind fun content => ?_
  cases content with
  | opened slot => exact starved_onStack _
  | closed old => exact starved_onHeap (starved_modify _)

lemma fails_setProperty : setProperty.FailsWithin S :=
  within_fetchName.bind_fails fun _ => (within_peek 0).bind_fails fun _ =>
    (within_peek 1).bind_fails fun _ => (within_asInstance _ _).bind_fails fun ref =>
      (starved_onHeap (Heap.starved_onContent ref (Starved.on (Table.starved_insert _ _)))).fails.bind
        fun _ => (starved_onHeap (Heap.starved_resize _)).bind fun _ => starved_pop.bind fun _ =>
          starved_setPeek 0 _

lemma starved_makeClosure : makeClosure.Starved := by
  refine starved_fetchConstant.bind fun value => ?_
  split
  · exact starved_get.bind fun m => (starved_lift (m.heap.calm_read _)).bind fun _ =>
      (starved_captureMany _ _).bind fun _ => (starved_alloc (k := .closure) _).bind fun _ =>
        starved_push _
  · exact starved_abort _

lemma starved_defineClass : defineClass.Starved :=
  starved_fetchName.bind fun _ => (starved_alloc (k := .cls) _).bind fun _ =>
    (starved_modify _).bind fun _ => starved_push _

lemma starved_defineMethod : defineMethod.Starved := by
  refine starved_fetchName.bind fun name => (starved_peek 1).bind fun cls =>
    (starved_peek 0).bind fun method => ?_
  split
  case h_1 ref method =>
    have hrest : (do
        onHeap (Heap.resize ref.id)
        let _ ← pop : Action Machine Unit).Starved :=
      (starved_onHeap (Heap.starved_resize _)).bind fun _ => starved_pop.bind fun _ => starved_pure ()
    refine (starved_onHeap (Heap.starved_onContent ref (Starved.on (Table.starved_insert _ _)))).bind
      fun _ => starved_get.bind fun m => (starved_lift (m.heap.calm_text _)).bind fun text =>
        FailsWithin.ite ?_ hrest
    exact starved_get.bind fun m => (starved_lift (m.heap.calm_read ref)).bind fun _ =>
      (starved_onHeap (starved_modify _)).bind fun _ => hrest
  case h_2 => exact starved_abort _

/-! ### Calls -/

/-- Native functions that are built in only read. -/
lemma within_callNative_builtin (ref : Ref .native) (count : Nat) :
    (callNative (.builtin now) ref count).Within Untouched := by
  have hcall : ∀ routine arguments, (Native.call (.builtin now) routine arguments).Within Eq := by
    intro routine arguments
    cases routine with
    | builtin builtin =>
        cases builtin with
        | clock => exact within_pure _
        | _ => exact within_get.bind fun _ => within_lift _
    | host number => exact within_abort _
  refine within_get.bind fun m => (within_lift _).bind fun native => (within_lift _).bind fun _ => ?_
  refine Within.ite ((within_abort _).bind fun _ => ?_) ?_
  all_goals
    exact (within_onHeap_eq (hcall _ _)).bind fun _ => (within_truncate _).bind fun _ =>
      within_setPeek 0 _

/-- Collecting, if it is time to, does no harm. -/
lemma Ready.collects (hr : m.Ready) (journal : Journal) :
    (Machine.collectIfNeeded m journal).Ends (fun _ m' => Unharmed m m') (fun _ _ => True)
      fun _ => True := by
  refine (collectIfNeeded_ends hr.sound hr.idle journal).imp ?_ (fun _ _ _ => trivial)
    fun _ _ => trivial
  rintro _ m' (rfl | ⟨heap, freed, threshold, hc, rfl⟩)
  · exact (refl_of Untouched m').unharmed
  · exact unharmed_of_lasting hc.lasting

/-- A new object was not there before, under its id, even if there is a collection
at first. -/
lemma Ready.makes (hr : m.Ready) {k : Kind} {content : k.Content} (hb : Content.Bare k content)
    (journal : Journal) :
    (alloc k content m journal).Ends
      (fun ref m' => Unharmed m m' ∧ m'.heap.Sound ∧ m.heap.contains ref.id = false)
      (fun _ _ => True) fun _ => True := by
  refine Outcome.Ends.bind ((collectIfNeeded_ends hr.sound hr.idle journal).imp (fun _ _ h => h)
    (fun _ _ _ => trivial) fun _ _ => trivial) fun _ m₁ journal₁ hcollect => ?_
  have hs : m₁.heap.Sound := by
    rcases hcollect with rfl | ⟨heap, freed, threshold, hc, rfl⟩
    · exact hr.sound
    · exact hc.sound
  refine (ends_onHeap (hs.alloc hb journal₁)).imp ?_ (fun _ _ _ => trivial) fun _ _ => trivial
  rintro ref m₂ ⟨heap₂, rfl, ⟨hfresh, hget⟩, -⟩
  rcases hcollect with rfl | ⟨heap, freed, threshold, hc, rfl⟩
  · have hnew : m₁.heap.contains ref.id = false := by
      rw [Heap.contains, hfresh.fresh]
      rfl
    exact ⟨unharmed_of_lasting ((Heap.Lasting.refl _).onlyAt hfresh.only hnew), hfresh.sound, hnew⟩
  · have hnew := hc.fresh_id hfresh (Heap.contains_of_get? hget)
    exact ⟨unharmed_of_lasting (hc.lasting.onlyAt hfresh.only hnew), hfresh.sound, hnew⟩

lemma fails_callClass (ref : Ref .cls) (count : Nat) : (callClass ref count).FailsWithin Harmless := by
  refine harmless_of_ends (starved_alloc (k := .inst) _) (fun m journal hr => ?_) fun inst => ?_
  · have hmakes : (alloc .inst (.create ref) m journal).Ends _ _ _ :=
      hr.makes (k := .inst) trivial journal
    exact hmakes.imp_done fun _ _ h => h.1
  · refine Within.fails ((within_setPeek count _).bind fun _ => within_get.bind fun m =>
      (within_lift _).bind fun cls => ?_)
    split
    · exact within_callClosure _ count
    · exact within_lift _

lemma fails_callValue (callee : Value) (count : Nat) :
    (callValue (.builtin now) callee count).FailsWithin Harmless := by
  cases callee with
  | closure ref => exact fails_of_untouched (within_callClosure ref count).fails
  | native ref => exact fails_of_untouched (within_callNative_builtin ref count).fails
  | cls ref => exact fails_callClass ref count
  | _ =>
      exact fails_of_untouched (Within.fails
        (within_get.bind fun _ => (within_lift _).bind fun _ => within_raise _))

lemma fails_call : (call (.builtin now)).FailsWithin Harmless :=
  harmless_bind within_fetchNat fun count => harmless_bind (within_peek count) fun callee =>
    fails_callValue callee count

lemma fails_invoke : (invoke (.builtin now)).FailsWithin Harmless := by
  refine harmless_bind within_fetchName fun name => harmless_bind within_fetchNat fun count =>
    harmless_bind (within_peek count) fun value => harmless_bind (within_asInstance _ _) fun ref =>
      harmless_bind within_get fun m => harmless_bind (within_lift _) fun inst =>
        harmless_bind (within_lift _) fun found => ?_
  cases found with
  | some field =>
      exact harmless_bind (within_setPeek count field) fun _ => fails_callValue field count
  | none => exact harmless_bind (within_lift _) fun _ => fails_callValue _ count

/-! ### Containers -/

lemma fails_add : add.FailsWithin P := by
  refine (within_peek 0).bind_fails fun b => (within_peek 1).bind_fails fun a =>
    within_get.bind_fails fun m => (within_lift _).bind_fails fun sum => ?_
  cases sum with
  | scalar scalar => exact starved_pop.fails.bind fun _ => starved_setPeek 0 _
  | text text =>
      exact starved_collectIfNeeded.fails.bind fun _ =>
        (starved_onHeap (Heap.starved_insertText text false)).bind fun _ =>
          starved_pop.bind fun _ => starved_setPeek 0 _

lemma fails_newTable : newTable.FailsWithin P :=
  within_fetchCapacity.bind_fails fun _ => (within_lift _).bind_fails fun _ =>
    (starved_alloc (k := .table) _).fails.bind fun _ => starved_setPeek 0 _

lemma fails_newStack : newStack.FailsWithin P :=
  within_fetchCapacity.bind_fails fun _ => (within_lift _).bind_fails fun _ =>
    (starved_alloc (k := .stack) _).fails.bind fun _ => starved_setPeek 0 _

lemma fails_newVector : newVector.FailsWithin P :=
  within_fetchCapacity.bind_fails fun _ => (within_lift _).bind_fails fun _ =>
    (starved_alloc (k := .vector) _).fails.bind fun _ => starved_setPeek 0 _

/-- Filling an array changes no other object. -/
lemma fillArray_ends (ref : Ref .array) (kind : ArrayKind) (values : List Value) (index : Nat)
    {h : Heap} (hs : h.Sound) (journal : Journal) :
    (fillArray ref kind values index h journal).Ends (fun _ _ => True)
      (fun _ h' => Heap.OnlyAt ref.id h h') fun _ => True := by
  induction values generalizing index h journal with
  | nil => trivial
  | cons value values ih =>
      rw [fillArray]
      cases value.scalar?.bind kind.coerce with
      | some scalar =>
          refine Outcome.Ends.bind (Outcome.Ends.imp (hs.alters_arraySet ref index scalar)
            (fun _ _ h => h) (fun _ _ h => h.only) fun _ => id) fun _ h₁ journal₁ haltered => ?_
          exact (ih (index + 1) haltered.sound journal₁).imp (fun _ _ => id)
            (fun _ _ => haltered.only.trans) fun _ => id
      | none =>
          have hraise : (do
              let type ← (← get).typeName value
              raise (.elementMismatch kind.name type) : Action Heap Unit).Within Eq :=
            within_get.bind fun _ => (within_lift _).bind fun _ => within_raise _
          exact (hraise h journal).imp (fun _ _ _ => trivial) (fun _ _ heq => heq ▸ .refl ref.id h)
            fun _ => id

/-- An element that does not fit is found out when the array is there already. -/
lemma fails_newArray : newArray.FailsWithin Harmless := by
  refine harmless_bind within_fetch fun word => ?_
  cases ArrayKind.ofWord? word with
  | none => exact (starved_abort _).fails
  | some kind =>
      refine harmless_bind within_fetchNat fun count => harmless_bind within_get fun m => ?_
      have hfill : ∀ start, (do
          let ref ← alloc .array ⟨kind, 0, count⟩
          let values := (← get).stack.toList.drop start
          onHeap (fillArray ref kind values 0)
          truncate start
          push (.scalar (.array ref)) : Action Machine Unit).FailsWithin Harmless := by
        refine fun start => fails_of_ready fun m journal hr => ?_
        have hbare : Content.Bare .array ⟨kind, 0, count⟩ := rfl
        refine (starved_ends (starved_alloc _) (hr.makes hbare journal)).bind ?_
        rintro ref m₁ journal₁ ⟨hunharmed, hs, hnew⟩
        rw [get_bind]
        refine Outcome.Ends.bind ((ends_onHeap (fillArray_ends ref kind _ 0 hs journal₁)).imp
          (fun _ _ _ => trivial) ?_ fun _ => id) fun _ m₂ journal₂ _ => ?_
        -- a value of another kind was met: only the new array was written to
        · rintro error m₂ ⟨heap, rfl, honly⟩ -
          exact { hunharmed with lasting := hunharmed.lasting.onlyAt honly hnew }
        · have hend : (truncate start >>= fun _ => push (.scalar (.array ref))).Starved :=
            (starved_truncate start).bind fun _ => starved_push _
          exact (hend m₂ journal₂).imp (fun _ _ => id) (fun _ _ hraised hkind => (hraised hkind).elim)
            fun _ => id
      simp only [alloc, bind_assoc] at hfill
      exact FailsWithin.ite (harmless_bind (within_abort _) fun _ => hfill _) (hfill _)

lemma fails_setIndex : setIndex.FailsWithin P := by
  refine (within_peek 0).bind_fails fun value => (within_peek 1).bind_fails fun index =>
    (within_peek 2).bind_fails fun container =>
      (fails_onHeap (Container.fails_setIndex container index value)).bind fun _ =>
        starved_get.bind fun m => ?_
  refine FailsWithin.ite ((starved_abort _).bind fun _ => ?_) ?_
  all_goals exact (starved_truncate _).bind fun _ => starved_push value

lemma fails_pushValue : pushValue.FailsWithin Untouched :=
  within_pop.bind_fails fun value => (within_peek 0).bind_fails fun container =>
    fails_onHeap (Container.fails_push container value)

lemma fails_popValue : popValue.FailsWithin P :=
  (within_peek 0).bind_fails fun container =>
    (fails_onHeap (Container.fails_pop container)).bind fun _ => starved_setPeek 0 _

lemma fails_copy : copy.FailsWithin Harmless :=
  harmless_of_ends starved_collectIfNeeded (fun _ journal hr => hr.collects journal) fun _ =>
    (within_peek 0).bind_fails fun value =>
      (fails_onHeap (Container.fails_copy value)).bind fun _ => starved_setPeek 0 _

lemma fails_remove : remove.FailsWithin Untouched :=
  within_pop.bind_fails fun index => (within_peek 0).bind_fails fun container =>
    (fails_onHeap (Container.fails_remove container index)).bind fun _ => starved_setPeek 0 _

/-! ### Instructions -/

lemma starved_closeTop : closeTop.Starved := by
  refine starved_get.bind fun m => FailsWithin.ite ((starved_abort _).bind fun _ => ?_) ?_
  all_goals
    exact (starved_closeUpvalues _).bind fun _ => starved_pop.bind fun _ => starved_pure ()

lemma starved_ret : ret.Starved := by
  refine starved_pop.bind fun result => starved_get.bind fun m =>
    (starved_closeUpvalues _).bind fun _ => (starved_truncate _).bind fun _ =>
      starved_get.bind fun m => ?_
  split
  · exact (starved_modify _).bind fun _ => (starved_push result).bind fun _ => starved_pure _
  · exact starved_pure _

/-- An instruction that raises an error, unless it is for want of memory, has changed
nothing but what belongs to the run. -/
lemma fails_execute (op : Opcode) : (execute (.builtin now) op).FailsWithin Harmless := by
  by_cases hquiet : isQuiet op = true
  · exact fails_of_untouched (within_quiet op hquiet).fails
  cases op with
  | defineGlobal => exact starved_defineGlobal.fails
  | setGlobal => exact fails_of_untouched fails_setGlobal
  | deleteGlobal => exact fails_of_untouched fails_deleteGlobal
  | setUpvalue => exact starved_setUpvalue.fails
  | setProperty => exact fails_of_untouched fails_setProperty
  | add => exact fails_of_untouched fails_add
  | call => exact fails_call
  | invoke => exact fails_invoke
  | closure => exact starved_makeClosure.fails
  | closeUpvalue => exact starved_closeTop.fails
  | defineClass => exact starved_defineClass.fails
  | defineMethod => exact starved_defineMethod.fails
  | newTable => exact fails_of_untouched fails_newTable
  | newStack => exact fails_of_untouched fails_newStack
  | newVector => exact fails_of_untouched fails_newVector
  | newArray => exact fails_newArray
  | setIndex => exact fails_of_untouched fails_setIndex
  | pushValue => exact fails_of_untouched fails_pushValue
  | popValue => exact fails_of_untouched fails_popValue
  | copy => exact fails_copy
  | remove => exact fails_of_untouched fails_remove
  | _ => exact absurd rfl hquiet

lemma fails_step : (step (.builtin now)).FailsWithin Harmless := by
  intro m journal
  have hfetch : Untouched m (m.movedTo (m.frame.ip + 1)) := of_run m _ _ _ _
  have hafter : ∀ (error : Error) m', (error.kind ≠ .memory → Harmless (m.movedTo (m.frame.ip + 1)) m') →
      error.kind ≠ .memory → Harmless m m' := fun _ _ hraised hkind hr =>
    hfetch.followed_by (hraised hkind (hfetch.ready hr))
  refine step_ends (fun _ journal => ?_) (fun op _ _ journal => ?_) journal
  · exact (starved_ret.fails _ journal).imp (fun _ _ => id) hafter fun _ => id
  · exact (fails_execute op _ journal).imp (fun _ _ => id) hafter fun _ => id

/-! ### Runs -/

/-- A run that raises an error does so in some step. -/
lemma runFor_raised {host : Host} {fuel : Nat} {error : Error} {journal journal' : Journal}
    (hrun : runFor host fuel m journal = .raised error m' journal') :
    ∃ count before journal₁, runFor host count m journal = .done .running before journal₁ ∧
      step host before journal₁ = .raised error m' journal' := by
  induction fuel generalizing m journal with
  | zero => cases hrun
  | succ fuel ih =>
      rw [runFor] at hrun
      cases hstep : step host m journal with
      | aborted fault => rw [hstep] at hrun; cases hrun
      | raised error₁ m₁ journal₁ =>
          rw [hstep] at hrun
          cases hrun
          exact ⟨0, m, journal, rfl, hstep⟩
      | done status m₁ journal₁ =>
          rw [hstep] at hrun
          cases status with
          | finished => cases hrun
          | running =>
              obtain ⟨count, before, journal₂, hcount, hlast⟩ := ih hrun
              refine ⟨count + 1, before, journal₂, ?_, hlast⟩
              rw [runFor, hstep]
              exact hcount

/-- A run that fails has raised an error and was cleaned up. -/
lemma runFunction_failed {host : Host} {fuel : Nat} {function : Ref .function} {error : Error}
    {trace : List String} {journal journal₁ journal' : Journal}
    (hreset : reset m journal = .done () m₁ journal₁)
    (hrun : runFunction host fuel function m journal = .done (.failed error trace) m' journal') :
    ∃ m₂ journal₂ journal₃, (start function >>= fun _ => (runFor host fuel : Action Machine Status))
        m₁ journal₁ = .raised error m₂ journal₂ ∧ reset m₂ journal₃ = .done () m' journal' := by
  rw [runFunction_of_reset hreset] at hrun
  split at hrun
  · obtain ⟨_, _, _, -, hlast⟩ := exists_of_bind_done hrun
    cases hlast
  · cases hrun
  · rename_i error₁ m₂ journal₂ hraised
    obtain ⟨_, m₃, journal₃, hreset₂, hlast⟩ := exists_of_bind_done hrun
    cases hlast
    exact ⟨m₂, journal₂, _, hraised, hreset₂⟩
  · cases hrun

end Machine

end ScriptMachine
