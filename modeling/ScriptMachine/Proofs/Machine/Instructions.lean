import ScriptMachine.Machine.Run
import ScriptMachine.Proofs.Machine.Upvalues

/-!
What instructions do, and what they do to captured variables.

Instructions consist of primitive operations on the heap, collections, and changes
of what belongs to a run. So a relation between machines holds across instructions
if it holds across these (`Tracks`). Every instruction leads from a machine that is
ready to another one along a trail. Only two instructions close upvalues, and
`boundary?` says from which slot on.

* `within_execute`: instructions that neither store into nor close upvalues;
* `retainsFrom_step`: one step, which stores into at most one upvalue;
* `leadsFrom_step`, `within_runFor`: one step, and any number of them;
* `Ready.runFunction`: a run that returns leaves no upvalue open.
-/

namespace ScriptMachine

open Heap (Respects Steady)
open ScriptMachine.Action

/-- The host supplies functions that leave upvalues alone. -/
def Host.Tame (host : Host) : Prop :=
  ∀ number arguments, (host.call number arguments).Within (Steady .upvalue)

/-- The host supplies functions across which a relation between heaps holds. -/
def Host.Respects (H : Heap → Heap → Prop) (host : Host) : Prop :=
  ∀ number arguments, (host.call number arguments).Within H

/-- A host without functions of its own. To call one is a fault. -/
def Host.builtin (now : Double) : Host := ⟨now, fun _ _ => Action.abort .outOfRange⟩

lemma Host.builtin_tame (now : Double) : (builtin now).Tame := fun _ _ => within_abort _

/-! ### Containers and native functions -/

section Heaps

variable {H : Heap → Heap → Prop} [Respects H]

namespace Container

lemma within_reserve (container : Value) : (reserve container).Within H := by
  rw [reserve]
  split
  · exact Respects.primitive (.resize _)
  · exact within_pure ()

lemma within_setText {ref : Ref .string} (hchar : ∀ i byte, (Heap.setChar ref i byte).Within H)
    (container index value : Value) : (setText container index value ref).Within H := by
  refine within_get.bind fun h => ?_
  split
  · refine (within_lift _).bind fun record => (within_lift _).bind fun i =>
      (within_lift _).bind fun old => ?_
    have hstore : ∀ byte : UInt8, (do
        let byte ← (ascii i byte : Result UInt8)
        let _ ← Heap.setChar ref i byte : Action Heap Unit).Within H :=
      fun byte => (within_lift _).bind fun byte =>
        (hchar i byte).bind fun _ => within_pure ()
    split
    · exact (within_lift _).bind fun _ => hstore _
    · exact hstore _
  · exact within_lift _

/-- A store into a container, given what storing a character does. -/
lemma within_setIndex {container : Value}
    (hchar : ∀ ref i byte, container = .scalar (.str ref) → (Heap.setChar ref i byte).Within H)
    (index value : Value) : (setIndex container index value).Within H := by
  refine within_get.bind fun h => ?_
  split
  case h_1 ref =>
    exact (within_lift _).bind fun _ => (within_lift _).bind fun _ => (within_lift _).bind fun _ =>
      (Respects.primitive (.arraySet ref _ _)).bind fun _ => within_reserve _
  case h_2 ref =>
    exact (within_lift _).bind fun _ => (within_lift _).bind fun _ => (within_lift _).bind fun _ =>
      (Respects.primitive (.onContent ref _ (by decide) (by decide))).bind fun _ => within_reserve _
  case h_3 ref =>
    exact (within_lift _).bind fun _ => (within_lift _).bind fun _ =>
      (Respects.primitive (.onContent ref _ (by decide) (by decide))).bind fun _ => within_reserve _
  case h_4 ref =>
    exact (within_lift _).bind fun _ =>
      (Respects.primitive (.onContent ref _ (by decide) (by decide))).bind fun _ => within_reserve _
  case h_5 ref => exact (within_setText (hchar ref · · rfl) _ _ _).bind fun _ => within_reserve _
  case h_6 => exact (within_lift _).bind fun _ => within_reserve _

lemma within_push (container value : Value) : (push container value).Within H := by
  refine within_get.bind fun h => ?_
  split
  case h_1 ref =>
    exact (within_lift _).bind fun _ => (within_lift _).bind fun _ =>
      (Respects.primitive (.arrayPush ref _)).bind fun _ => within_reserve _
  case h_2 ref =>
    exact (within_lift _).bind fun _ =>
      (Respects.primitive (.onContent ref _ (by decide) (by decide))).bind fun _ => within_reserve _
  case h_3 ref =>
    exact (Respects.primitive (.onContent ref _ (by decide) (by decide))).bind fun _ => within_reserve _
  case h_4 => exact (within_lift _).bind fun _ => within_reserve _

lemma within_popFrom (container : Value) : (popFrom container).Within H := by
  refine within_get.bind fun h => ?_
  split
  case h_1 ref => exact (Respects.primitive (.arrayPop ref)).bind fun _ => within_pure _
  case h_2 ref =>
    exact (Respects.primitive (.onContent ref _ (by decide) (by decide))).bind fun _ => within_pure _
  case h_3 ref => exact Respects.primitive (.onContent ref _ (by decide) (by decide))
  case h_4 => exact within_lift _

lemma within_pop (container : Value) : (pop container).Within H := by
  refine (within_popFrom container).bind fun value => ?_
  cases value with
  | some value => exact within_pure value
  | none => exact within_get.bind fun _ => (within_lift _).bind fun _ => within_raise _

lemma within_remove (container index : Value) : (remove container index).Within H := by
  refine within_get.bind fun h => ?_
  split
  · exact (within_lift _).bind fun _ =>
      (Respects.primitive (.onContent _ _ (by decide) (by decide))).bind fun _ => within_pure _
  · exact within_lift _

lemma within_copy (value : Value) : (copy value).Within H := by
  refine within_get.bind fun h => ?_
  split
  case h_1 ref =>
    exact (within_lift _).bind fun text =>
      (Respects.primitive (.insertText text false)).bind fun _ => within_pure _
  case h_2 ref => exact (Respects.primitive (.copyArray ref)).bind fun _ => within_pure _
  case h_6 => exact within_lift _
  all_goals
    exact (within_lift _).bind fun _ =>
      (Respects.primitive (.alloc _ (by trivial) (by decide))).bind fun _ => within_pure _

end Container

lemma Native.within_call {host : Host} (hhost : host.Respects H) (routine : Routine)
    (arguments : List Value) : (Native.call host routine arguments).Within H := by
  cases routine with
  | builtin builtin =>
      cases builtin with
      | clock => exact within_pure _
      | _ => exact within_get.bind fun _ => within_lift _
  | host number => exact hhost number arguments

end Heaps

namespace Machine

/-- Two machines that differ at most in what belongs to a run: the operands, the
calls in progress and what was printed. -/
structure Untouched (m m' : Machine) : Prop where
  heap : m'.heap = m.heap
  globals : m'.globals = m.globals
  openUpvalues : m'.openUpvalues = m.openUpvalues
  classes : m'.classes = m.classes
  natives : m'.natives = m.natives
  nativeNames : m'.nativeNames = m.nativeNames

instance : IsPreorder Machine Untouched where
  refl _ := ⟨rfl, rfl, rfl, rfl, rfl, rfl⟩
  trans _ _ _ h h' := ⟨h'.heap.trans h.heap, h'.globals.trans h.globals,
    h'.openUpvalues.trans h.openUpvalues, h'.classes.trans h.classes, h'.natives.trans h.natives,
    h'.nativeNames.trans h.nativeNames⟩

/-- The machine at another position in the code. -/
def movedTo (m : Machine) (ip : Nat) : Machine := { m with frame := { m.frame with ip := ip } }

@[simp] lemma movedTo_heap (m : Machine) (ip : Nat) : (m.movedTo ip).heap = m.heap := rfl

@[simp] lemma movedTo_stack (m : Machine) (ip : Nat) : (m.movedTo ip).stack = m.stack := rfl

/-- A relation that does not look at the position in the code. -/
class Steers (R : Machine → Machine → Prop) : Prop extends IsPreorder Machine R where
  of_movedTo : ∀ (m : Machine) (ip : Nat), R m (m.movedTo ip)

/-- A relation that does not look at the operands and at what was printed. -/
class Local (R : Machine → Machine → Prop) : Prop extends IsPreorder Machine R where
  of_local : ∀ {m m' : Machine}, Untouched m m' → m'.frames = m.frames → m'.frame = m.frame → R m m'

/-- A relation that looks at none of these. -/
class Bound (R : Machine → Machine → Prop) : Prop extends Local R, Steers R

/-- A relation that does not look at what belongs to a run. -/
class Coarse (R : Machine → Machine → Prop) : Prop extends IsPreorder Machine R where
  of_untouched : ∀ {m m' : Machine}, Untouched m m' → R m m'

/-- What a relation between machines says of two heaps, if nothing else differs. -/
def OnHeaps (R : Machine → Machine → Prop) (h h' : Heap) : Prop :=
  ∀ m : Machine, m.heap = h → R m { m with heap := h' }

/-- A relation that holds across what instructions consist of, as long as they stay in their
frame. -/
class Minds (R : Machine → Machine → Prop) : Prop extends IsPreorder Machine R where
  of_eq : ∀ {m m' : Machine}, m'.heap = m.heap → m'.openUpvalues = m.openUpvalues →
    m'.frames = m.frames → m'.frame = m.frame → R m m'
  primitive : ∀ {α : Type} {action : Action Heap α}, Heap.Primitive action →
    action.Within (OnHeaps R)
  collectGarbage : collectGarbage.Within R
  capture : ∀ slot, (capture slot).Within R

/-- Such a relation that does not look at the position in the code. -/
class Follows (R : Machine → Machine → Prop) : Prop extends Minds R, Steers R

/-- A relation that holds across what instructions consist of. -/
class Tracks (R : Machine → Machine → Prop) : Prop extends IsPreorder Machine R where
  of_eq : ∀ {m m' : Machine}, m'.heap = m.heap → m'.openUpvalues = m.openUpvalues → R m m'
  primitive : ∀ {α : Type} {action : Action Heap α}, Heap.Primitive action →
    action.Within (OnHeaps R)
  collectGarbage : collectGarbage.Within R
  capture : ∀ slot, (capture slot).Within R

variable {host : Host} {closes : Nat → Prop} {kept : Ref .upvalue → Prop}
  {P : Machine → Machine → Prop} [IsPreorder Machine P] {S : Machine → Machine → Prop} [Steers S]
  {L : Machine → Machine → Prop} [Local L] {B : Machine → Machine → Prop} [Bound B]
  {R : Machine → Machine → Prop} [Coarse R] {M : Machine → Machine → Prop} [Minds M]
  {F : Machine → Machine → Prop} [Follows F] {T : Machine → Machine → Prop} [Tracks T]
  {H : Heap → Heap → Prop} [Respects H]

instance : Bound R where
  of_local h _ _ := Coarse.of_untouched h
  of_movedTo _ _ := Coarse.of_untouched ⟨rfl, rfl, rfl, rfl, rfl, rfl⟩

instance : Coarse Untouched := ⟨id⟩

instance : Coarse T := ⟨fun h => Tracks.of_eq h.heap h.openUpvalues⟩

instance : Follows T where
  of_eq hheap hopen _ _ := Tracks.of_eq hheap hopen
  primitive := Tracks.primitive
  collectGarbage := Tracks.collectGarbage
  capture := Tracks.capture
  of_movedTo := Steers.of_movedTo

instance : Local M := ⟨fun h hframes hframe => Minds.of_eq h.heap h.openUpvalues hframes hframe⟩

instance : Bound F where
  of_local := Local.of_local
  of_movedTo := Steers.of_movedTo

instance : IsPreorder Heap (OnHeaps P) where
  refl h m hm := by
    subst hm
    exact refl_of P m
  trans h h₁ h₂ hfirst hnext m hm :=
    trans_of P (hfirst m hm) (hnext { m with heap := h₁ } rfl)

instance : Respects (OnHeaps M) := ⟨Minds.primitive⟩

lemma onHeaps_of_steady {h h' : Heap} (hsteady : Steady .upvalue h h') :
    OnHeaps (Retains kept closes) h h' := by
  rintro m rfl
  exact retains_of_steady hsteady rfl

instance : Tracks (Retains kept closes) where
  of_eq := retains_of_eq
  primitive hp := (Respects.primitive hp : Within (Steady .upvalue) _).imp fun _ _ => onHeaps_of_steady
  collectGarbage := within_collectGarbage
  capture := within_capture

lemma within_setChar (ref : Ref .string) (i : Nat) (byte : UInt8) :
    (Heap.setChar ref i byte).Within (OnHeaps (Retains kept closes)) :=
  (Heap.within_setChar (by decide) ref i byte).imp fun _ _ => onHeaps_of_steady

lemma respects_of_tame (htame : host.Tame) :
    host.Respects (OnHeaps (Retains kept closes)) :=
  fun number arguments => (htame number arguments).imp fun _ _ => onHeaps_of_steady

lemma Untouched.ready {m m' : Machine} (h : Untouched m m') (hr : m.Ready) : m'.Ready := by
  have hretains : Retains (fun _ => False) (fun _ => False) m m' := Coarse.of_untouched h
  exact hretains.leads.ready hr

/-- A change of the operands and of what was printed. -/
lemma of_operands (m : Machine) (stack : Stack Value) (console : Console) :
    L m { m with stack := stack, console := console } :=
  Local.of_local ⟨rfl, rfl, rfl, rfl, rfl, rfl⟩ rfl rfl

/-- A change of what belongs to a run. -/
lemma of_run (m : Machine) (frames : List Frame) (frame : Frame) (stack : Stack Value)
    (console : Console) :
    R m { m with frames := frames, frame := frame, stack := stack, console := console } :=
  Coarse.of_untouched ⟨rfl, rfl, rfl, rfl, rfl, rfl⟩

lemma within_onStack {α : Type} (f : Stack Value → α × Stack Value) : (onStack f).Within L :=
  fun m _ => of_operands m _ _

lemma within_storeField (ref : Ref .inst) (key : Key) (value : Value) :
    (storeField ref key value).Within H :=
  Respects.primitive (.onContent ref _ (by decide) (by decide))

lemma within_storeMethod (ref : Ref .cls) (key : Key) (value : Value) :
    (storeMethod ref key value).Within H :=
  Respects.primitive (.onContent ref _ (by decide) (by decide))

lemma within_fillArray (ref : Ref .array) (kind : ArrayKind) (values : List Value) (index : Nat) :
    (fillArray ref kind values index).Within H := by
  induction values generalizing index with
  | nil => exact within_pure ()
  | cons value values ih =>
      rw [fillArray]
      split
      · exact (Respects.primitive (.arraySet ref index _)).bind fun _ => ih (index + 1)
      · exact within_get.bind fun _ => (within_lift _).bind fun _ => within_raise _

/-! ### Elementary actions -/

lemma within_onGlobals {α : Type} (action : Action Table α) : (onGlobals action).Within M := by
  have hany : action.Within fun _ _ => True := by
    intro table journal
    cases action table journal <;> trivial
  exact hany.on fun _ _ _ => Minds.of_eq rfl rfl rfl rfl

lemma within_collectIfNeeded_of (hcollect : collectGarbage.Within P) :
    collectIfNeeded.Within P := by
  refine within_get.bind fun m => Within.ite ?_ (within_pure ())
  exact hcollect.bind fun _ => within_pure ()

lemma within_collectIfNeeded : collectIfNeeded.Within M :=
  within_collectIfNeeded_of Minds.collectGarbage

lemma within_heap {α : Type} {Q : Machine → Machine → Prop} {action : Action Heap α}
    (h : action.Within (OnHeaps Q)) : (onHeap action).Within Q := h.on fun m _ hheap => hheap m rfl

lemma within_primitive {α : Type} {action : Action Heap α} (hp : Heap.Primitive action) :
    (onHeap action).Within M := within_heap (Minds.primitive hp)

lemma within_alloc {k : Kind} {content : k.Content} (hv : (Object.ofContent k content).Valid)
    (hother : k ≠ .upvalue ∧ k ≠ .function) : (alloc k content).Within M :=
  within_collectIfNeeded.bind fun _ => within_primitive (.alloc content hv hother)

lemma within_push (value : Value) : (push value).Within L := within_onStack _

lemma within_pop : pop.Within L := within_onStack _

lemma within_peek (distance : Nat) : (peek distance).Within P :=
  within_get.bind fun _ => within_pure _

lemma within_setPeek (distance : Nat) (value : Value) :
    (setPeek distance value).Within L :=
  within_get.bind fun _ => Within.ite ((within_abort _).bind fun _ => within_onStack _)
    (within_onStack _)

lemma within_truncate (count : Nat) : (truncate count).Within L := within_onStack _

lemma within_jumpTo (ip : Nat) : (jumpTo ip).Within S :=
  within_modify fun m => Steers.of_movedTo m ip

lemma within_skip (offset : Nat) : (skip offset).Within S :=
  within_get.bind fun _ => within_jumpTo _

lemma within_running : running.Within P := within_get.bind fun _ => within_lift _

lemma within_fetch : fetch.Within S := by
  refine within_running.bind fun function => within_get.bind fun m => ?_
  dsimp only
  split
  · exact (within_jumpTo _).bind fun _ => within_pure _
  · exact within_abort _

lemma within_fetchNat : fetchNat.Within S :=
  within_fetch.bind fun _ => within_pure _

lemma within_fetchConstant : fetchConstant.Within S :=
  within_fetchNat.bind fun _ => within_running.bind fun _ => within_pure _

lemma within_fetchName : fetchName.Within S := by
  refine within_fetchConstant.bind fun value => ?_
  split
  · exact within_get.bind fun _ => (within_lift _).bind fun _ => within_pure _
  · exact within_abort _

/-- The code word at a position, of the running function. -/
def wordAt? (m : Machine) (ip : Nat) : Option UInt16 :=
  (m.heap.get? m.frame.function).bind fun (function : Function) => function.chunk.code[ip]?

lemma fetch_of_word {m : Machine} {word : UInt16} (hword : m.wordAt? m.frame.ip = some word)
    (journal : Journal) : fetch m journal = .done word (m.movedTo (m.frame.ip + 1)) journal := by
  obtain ⟨function, hget, hcode⟩ := Option.bind_eq_some_iff.mp hword
  rw [fetch, running, bind_assoc, get_bind, Heap.read_of_get? hget, lift_ok, pure_bind, get_bind,
    hcode]
  rfl

/-- Fetching a code word. -/
lemma fetch_ends (m : Machine) (journal : Journal) :
    (fetch m journal).Ends
      (fun word m' => m.wordAt? m.frame.ip = some word ∧ m' = m.movedTo (m.frame.ip + 1))
      (fun _ _ => False) fun _ => True := by
  cases hword : m.wordAt? m.frame.ip with
  | some word =>
      rw [fetch_of_word hword]
      exact ⟨rfl, rfl⟩
  | none =>
      rw [fetch, running, bind_assoc, get_bind]
      cases hget : m.heap.get? m.frame.function with
      | none =>
          rw [Heap.read_of_none hget]
          trivial
      | some function =>
          rw [wordAt?, hget, Option.bind_some] at hword
          rw [Heap.read_of_get? hget, lift_ok, pure_bind, get_bind, hword]
          trivial

lemma fetchNat_of_word {m : Machine} {word : UInt16} (hword : m.wordAt? m.frame.ip = some word)
    (journal : Journal) :
    fetchNat m journal = .done word.toNat (m.movedTo (m.frame.ip + 1)) journal := by
  rw [fetchNat, bind_of_done (fetch_of_word hword journal)]
  rfl

lemma fetchNat_ends (m : Machine) (journal : Journal) :
    (fetchNat m journal).Ends
      (fun number m' => ∃ word, m.wordAt? m.frame.ip = some word ∧ number = word.toNat ∧
        m' = m.movedTo (m.frame.ip + 1))
      (fun _ _ => False) fun _ => True :=
  (fetch_ends m journal).bind fun word _ _ h => ⟨word, h.1, rfl, h.2⟩

/-! ### Calls -/

lemma within_callClosure (ref : Ref .closure) (count : Nat) :
    (callClosure ref count).Within R := by
  refine within_get.bind fun m => (within_lift _).bind fun closure => (within_lift _).bind fun code =>
    (within_lift _).bind fun _ => ?_
  refine Within.ite ((within_raise _).bind fun _ => ?_) ?_
  all_goals
    refine Within.ite ((within_abort _).bind fun _ => ?_) ?_
    all_goals exact within_modify fun _ => of_run _ _ _ _ _

lemma within_callNative (hhost : host.Respects (OnHeaps M)) (ref : Ref .native) (count : Nat) :
    (callNative host ref count).Within M := by
  refine within_get.bind fun m => (within_lift _).bind fun native => (within_lift _).bind fun _ => ?_
  have hcall : ∀ arguments start, (do
      let result ← onHeap (Native.call host native.routine arguments)
      truncate start
      setPeek 0 result : Action Machine Unit).Within M := fun arguments start =>
    (within_heap (Native.within_call hhost native.routine arguments)).bind fun _ =>
      (within_truncate start).bind fun _ => within_setPeek 0 _
  exact Within.ite ((within_abort _).bind fun _ => hcall _ _) (hcall _ _)

lemma within_callClass (ref : Ref .cls) (count : Nat) :
    (callClass ref count).Within T := by
  refine (within_alloc (by trivial) (by decide)).bind fun inst => (within_setPeek count _).bind fun _ =>
    within_get.bind fun m => (within_lift _).bind fun cls => ?_
  split
  · exact within_callClosure _ count
  · exact within_lift _

lemma within_callValue (hhost : host.Respects (OnHeaps T)) (callee : Value) (count : Nat) :
    (callValue host callee count).Within T := by
  cases callee with
  | closure ref => exact within_callClosure ref count
  | native ref => exact within_callNative hhost ref count
  | cls ref => exact within_callClass ref count
  | _ => exact within_get.bind fun _ => (within_lift _).bind fun _ => within_raise _

/-! ### Variables -/

lemma within_getLocal : getLocal.Within B :=
  within_fetchNat.bind fun _ => within_get.bind fun _ => within_get.bind fun _ => within_push _

lemma within_setLocal : setLocal.Within B :=
  within_fetchNat.bind fun _ => within_get.bind fun _ => (within_peek 0).bind fun _ =>
    within_onStack _

lemma within_upvalue (index : Nat) : (upvalue index).Within P := by
  refine within_get.bind fun m => (within_lift _).bind fun closure => ?_
  split
  · exact within_pure _
  · exact within_abort _

lemma within_getUpvalue : getUpvalue.Within B := by
  refine within_fetchNat.bind fun index => (within_upvalue index).bind fun ref =>
    within_get.bind fun m => (within_lift _).bind fun content => ?_
  cases content with
  | opened slot => exact within_push _
  | closed value => exact within_push value

/-- A relation across the capture of a variable: a new upvalue is made and listed. -/
lemma within_capture_of {slot : Nat}
    (halloc : (alloc .upvalue (.opened slot)).Within P)
    (hlist : ∀ (m : Machine) refs, P m { m with openUpvalues := refs }) : (capture slot).Within P := by
  refine within_get.bind fun m => (within_lift _).bind fun cut => ?_
  obtain ⟨below, above⟩ := cut
  have hnew : (do
      let ref ← alloc .upvalue (.opened slot)
      modify fun m => { m with openUpvalues := below ++ ref :: above }
      return ref : Action Machine (Ref .upvalue)).Within P :=
    halloc.bind fun ref => Within.bind (within_modify fun m => hlist m _) fun _ => within_pure ref
  cases above with
  | nil => exact hnew
  | cons ref rest =>
      refine (within_lift _).bind fun named => ?_
      dsimp only
      split
      · exact within_pure _
      · exact hnew

lemma within_closeAll_of {G : Heap → Heap → Prop} [IsPreorder Heap G]
    (hput : ∀ {h : Heap} {ref : Ref .upvalue} {old : Upvalue}, h.get? ref = some old →
      ∀ new, G h (h.put ref new)) (stack : Stack Value) (refs : List (Ref .upvalue)) :
    (closeAll stack refs).Within G := by
  induction refs with
  | nil => exact within_pure ()
  | cons ref refs ih =>
      refine Within.bind (fun h journal => ?_) fun _ => ih
      rw [closeOne, get_bind]
      cases hget : h.get? ref with
      | none =>
          rw [Heap.read_of_none hget]
          trivial
      | some content =>
          rw [Heap.read_of_get? hget]
          cases content with
          | opened slot => exact hput hget _
          | closed value => exact refl_of G h

/-- A relation across closing: upvalues are taken from the list and get other contents. -/
lemma within_closeUpvalues_of (hput : ∀ {h : Heap} {ref : Ref .upvalue} {old : Upvalue},
      h.get? ref = some old → ∀ new, OnHeaps P h (h.put ref new))
    (hlist : ∀ (m : Machine) refs, P m { m with openUpvalues := refs }) (slot : Nat) :
    (closeUpvalues slot).Within P :=
  within_get.bind fun _ => (within_lift _).bind fun _ =>
    Within.bind (within_modify fun m => hlist m _) fun _ => within_heap (within_closeAll_of hput _ _)

lemma within_closeTop_of (hclose : ∀ slot, (closeUpvalues slot).Within L) : closeTop.Within L := by
  have hrest : ∀ slot, (do closeUpvalues slot; let _ ← pop : Action Machine Unit).Within L :=
    fun slot => (hclose slot).bind fun _ => within_pop.bind fun _ => within_pure ()
  exact within_get.bind fun _ => Within.ite ((within_abort _).bind fun _ => hrest _) (hrest _)

/-- A relation across a store into a captured variable: one upvalue gets another content. -/
lemma within_setUpvalue_of (hput : ∀ {h : Heap} {ref : Ref .upvalue} {old : Upvalue},
      h.get? ref = some old → ∀ new, OnHeaps B h (h.put ref new)) : setUpvalue.Within B := by
  refine within_fetchNat.bind fun index => (within_upvalue index).bind fun ref =>
    (within_peek 0).bind fun value m journal => ?_
  rw [get_bind]
  cases hget : m.heap.get? ref with
  | none =>
      rw [Heap.read_of_none hget]
      trivial
  | some content =>
      rw [Heap.read_of_get? hget]
      cases content with
      | opened slot => exact of_operands m _ _
      | closed old => exact hput hget _ m rfl

/-- The captured variable that the code word at a position numbers, in the running
closure. -/
def upvalueAt? (m : Machine) (ip : Nat) : Option (Ref .upvalue) :=
  (m.wordAt? ip).bind fun word => (m.heap.get? m.frame.closure).bind fun (closure : Closure) =>
    closure.upvalues[word.toNat]?

lemma upvalue_of_some {m : Machine} {index : Nat} {ref : Ref .upvalue}
    (href : ((m.heap.get? m.frame.closure).bind fun (closure : Closure) =>
      closure.upvalues[index]?) = some ref) (journal : Journal) :
    upvalue index m journal = .done ref m journal := by
  obtain ⟨closure, hget, hindex⟩ := Option.bind_eq_some_iff.mp href
  rw [upvalue, get_bind, Heap.read_of_get? hget, lift_ok, pure_bind, hindex]
  rfl

lemma upvalue_ends (m : Machine) (index : Nat) (journal : Journal) :
    (upvalue index m journal).Ends
      (fun ref m' => m' = m ∧ ((m.heap.get? m.frame.closure).bind fun (closure : Closure) =>
        closure.upvalues[index]?) = some ref)
      (fun _ _ => False) fun _ => True := by
  cases href : (m.heap.get? m.frame.closure).bind fun (closure : Closure) =>
      closure.upvalues[index]? with
  | some ref =>
      rw [upvalue_of_some href]
      exact ⟨rfl, rfl⟩
  | none =>
      rw [upvalue, get_bind]
      cases hget : m.heap.get? m.frame.closure with
      | none =>
          rw [Heap.read_of_none hget]
          trivial
      | some closure =>
          rw [hget, Option.bind_some] at href
          rw [Heap.read_of_get? hget, lift_ok, pure_bind, href]
          trivial

/-- Storing into a captured variable goes to the stack or to a closed upvalue. -/
lemma retainsFrom_setUpvalue {m : Machine}
    (hstore : ∀ ref, m.upvalueAt? m.frame.ip = some ref → ¬ kept ref) (journal : Journal) :
    RetainsFrom kept closes m (setUpvalue m journal) := by
  refine (fetchNat_ends m journal).unraised.bind ?_
  rintro index m₁ journal₁ ⟨word, hword, rfl, rfl⟩
  refine (upvalue_ends _ _ journal₁).unraised.bind ?_
  rintro ref m₂ journal₂ ⟨rfl, href⟩
  have href : ¬ kept ref := by
    refine hstore ref ?_
    rw [upvalueAt?, hword]
    exact href
  refine Retains.followed_by (of_run m _ _ _ _ : Retains kept closes m (m.movedTo (m.frame.ip + 1))) ?_
  refine Within.bind (within_peek 0) (fun value => within_retains fun m journal hr => ?_) _ _
  rw [get_bind]
  cases hget : m.heap.get? ref with
  | none =>
      rw [Heap.read_of_none hget]
      trivial
  | some content =>
      rw [Heap.read_of_get? hget]
      cases content with
      | opened slot => exact retains_of_eq rfl rfl
      | closed old =>
          have haltered : Heap.Altered ref m.heap (m.heap.put ref (.closed value)) :=
            hr.sound.altered_put hget fun _ _ => trivial
          refine Move.retains (.store hget (Heap.get?_put hget) (fun _ => Heap.get?_put_of_ne) rfl)
            (by simp) haltered.only.aged.frees_le haltered.sound (haltered.idle hr.idle)
            fun other _ hother _ => (Heap.get?_put_of_ne ?_).trans
          rintro rfl
          exact href hother

lemma within_notDefined {α : Type} (name : Ref .string) :
    (notDefined name : Action Machine α).Within P :=
  within_get.bind fun _ => (within_lift _).bind fun _ => within_raise _

lemma within_getGlobal : getGlobal.Within B := by
  refine within_fetchName.bind fun name => within_get.bind fun m => (within_lift _).bind fun found => ?_
  cases found with
  | some value => exact within_push value
  | none => exact within_notDefined _

lemma within_defineGlobal : defineGlobal.Within F :=
  within_fetchName.bind fun _ => within_pop.bind fun _ => (within_onGlobals _).bind fun _ =>
    within_pure ()

lemma within_setGlobal : setGlobal.Within F := by
  refine within_fetchName.bind fun name => within_get.bind fun m => (within_lift _).bind fun found => ?_
  cases found with
  | some value =>
      exact (within_peek 0).bind fun _ => (within_onGlobals _).bind fun _ => within_pure ()
  | none => exact within_notDefined _

lemma within_deleteGlobal : deleteGlobal.Within F := by
  refine within_fetchName.bind fun name => (within_onGlobals _).bind fun found => ?_
  cases found with
  | some value => exact within_pure ()
  | none => exact within_notDefined _

/-! ### Properties -/

lemma within_asInstance (value : Value) (name : Ref .string) :
    (asInstance value name).Within P := by
  cases value with
  | inst ref => exact within_pure ref
  | _ =>
      exact within_get.bind fun _ => (within_lift _).bind fun _ => (within_lift _).bind fun _ =>
        within_raise _

lemma within_getProperty : getProperty.Within B :=
  within_fetchName.bind fun _ => (within_peek 0).bind fun _ => (within_asInstance _ _).bind fun _ =>
    within_get.bind fun _ => (within_lift _).bind fun _ => within_setPeek 0 _

lemma within_setProperty : setProperty.Within F :=
  within_fetchName.bind fun _ => (within_peek 0).bind fun _ => (within_peek 1).bind fun _ =>
    (within_asInstance _ _).bind fun _ => (within_heap (within_storeField _ _ _)).bind fun _ =>
      (within_primitive (.resize _)).bind fun _ => within_pop.bind fun _ =>
        within_setPeek 0 _

lemma within_invoke (hhost : host.Respects (OnHeaps T)) : (invoke host).Within T := by
  refine within_fetchName.bind fun name => within_fetchNat.bind fun count =>
    (within_peek count).bind fun value => (within_asInstance _ _).bind fun ref =>
      within_get.bind fun m => (within_lift _).bind fun inst => (within_lift _).bind fun found => ?_
  cases found with
  | some field =>
      exact (within_setPeek count field).bind fun _ => within_callValue hhost field count
  | none => exact (within_lift _).bind fun _ => within_callValue hhost _ count

/-! ### Classes and closures -/

lemma within_defineClass : defineClass.Within F := by
  refine within_fetchName.bind fun _ => (within_alloc (by trivial) (by decide)).bind fun ref =>
    Within.bind ?_ fun _ => within_push (.cls ref)
  exact within_modify fun _ => Minds.of_eq rfl rfl rfl rfl

/-- An object that is looked up is replaced. -/
lemma onHeap_replace {k : Kind} (ref : Ref k) (f : k.Content → k.Content) :
    onHeap (Heap.replace ref f) = (do
      let content ← (← get).heap.read ref
      onHeap (modify (·.put ref (f content)))) := by
  funext m journal
  rw [onHeap_apply, Heap.replace, get_bind, get_bind]
  cases hget : m.heap.get? ref with
  | none =>
      rw [Heap.read_of_none hget]
      rfl
  | some content =>
      rw [Heap.read_of_get? hget]
      rfl

lemma within_defineMethod : defineMethod.Within F := by
  refine within_fetchName.bind fun name => (within_peek 1).bind fun cls =>
    (within_peek 0).bind fun method => ?_
  split
  case h_1 ref method =>
    have hrest : (do
        onHeap (Heap.resize ref.id)
        let _ ← pop : Action Machine Unit).Within F :=
      (within_primitive (.resize _)).bind fun _ => within_pop.bind fun _ => within_pure ()
    refine (within_heap (within_storeMethod _ _ _)).bind fun _ => within_get.bind fun m =>
      (within_lift _).bind fun text => Within.ite ?_ hrest
    have hinit : (onHeap (Heap.replace (k := .cls) ref fun (content : Class) =>
        { content with init := some method })).Within F :=
      within_primitive (.replace ref _ (by decide) (by decide))
    rw [onHeap_replace] at hinit
    simpa only [bind_assoc] using hinit.bind fun _ => hrest
  case h_2 => exact within_abort _

lemma within_captureMany (count : Nat) (refs : Array (Ref .upvalue)) :
    (captureMany count refs).Within F := by
  induction count generalizing refs with
  | zero => exact within_pure refs
  | succ count ih =>
      refine within_fetch.bind fun isLocal => within_fetchNat.bind fun index => ?_
      refine Within.ite (within_get.bind fun _ => ?_) ?_
      · exact Within.bind (Minds.capture _) fun ref => ih (refs.push ref)
      · exact (within_upvalue index).bind fun ref => ih (refs.push ref)

lemma within_makeClosure : makeClosure.Within F := by
  refine within_fetchConstant.bind fun value => ?_
  split
  · exact within_get.bind fun _ => (within_lift _).bind fun _ => (within_captureMany _ _).bind fun _ =>
      (within_alloc (by trivial) (by decide)).bind fun _ => within_push _
  · exact within_abort _

/-! ### Operators, jumps and containers -/

lemma within_binary (op : Heap → Value → Value → Result Value) :
    (binary op).Within L :=
  within_pop.bind fun _ => (within_peek 0).bind fun _ => within_get.bind fun _ =>
    (within_lift _).bind fun _ => within_setPeek 0 _

lemma within_unary (op : Heap → Value → Result Value) : (unary op).Within L :=
  (within_peek 0).bind fun _ => within_get.bind fun _ => (within_lift _).bind fun _ =>
    within_setPeek 0 _

lemma within_equality (op : Heap → Value → Value → Result Bool) (expected : Bool) :
    (equality op expected).Within L := within_binary _

lemma within_ordering (op : String) (accept : Ordering → Bool) :
    (ordering op accept).Within L := within_binary _

lemma within_add : add.Within M := by
  refine (within_peek 0).bind fun b => (within_peek 1).bind fun a => within_get.bind fun m =>
    (within_lift _).bind fun sum => ?_
  cases sum with
  | scalar scalar => exact within_pop.bind fun _ => within_setPeek 0 _
  | text text =>
      exact within_collectIfNeeded.bind fun _ =>
        (within_primitive (.insertText text false)).bind fun _ =>
          within_pop.bind fun _ => within_setPeek 0 _

lemma within_logical (op : Bool → Bool → Bool) : (logical op).Within L :=
  within_pop.bind fun _ => within_pop.bind fun _ => within_push _

lemma within_jumpIf (test : Value → Bool) : (jumpIf test).Within S :=
  within_fetchNat.bind fun offset => (within_peek 0).bind fun _ =>
    Within.ite (within_skip offset) (within_pure ())

lemma within_jumpCase : jumpCase.Within S :=
  within_fetchNat.bind fun _ => within_fetchNat.bind fun _ => (within_peek 0).bind fun _ =>
    within_skip _

lemma within_jumpList : jumpList.Within S := by
  refine within_fetchNat.bind fun index => within_running.bind fun function => ?_
  split
  · exact within_jumpTo _
  · exact within_abort _

lemma within_loop : loop.Within S :=
  within_fetchNat.bind fun _ => within_get.bind fun _ =>
    Within.ite ((within_abort _).bind fun _ => within_jumpTo _) (within_jumpTo _)

lemma within_call (hhost : host.Respects (OnHeaps T)) : (call host).Within T :=
  within_fetchNat.bind fun count => (within_peek count).bind fun callee =>
    within_callValue hhost callee count

lemma within_print : print.Within L := by
  refine within_pop.bind fun value => within_get.bind fun m => (within_lift _).bind fun text =>
    within_get.bind fun m => ?_
  refine Within.ite ((within_raise _).bind fun _ => ?_) ?_
  all_goals exact within_modify fun _ => of_operands _ _ _

lemma within_fetchCapacity : fetchCapacity.Within P := by
  refine (within_peek 0).bind fun value => ?_
  split
  · exact within_pure _
  · exact within_get.bind fun _ => (within_lift _).bind fun _ => within_raise _

lemma within_newTable : newTable.Within M :=
  within_fetchCapacity.bind fun _ => (within_lift _).bind fun _ =>
    (within_alloc (by trivial) (by decide)).bind fun _ => within_setPeek 0 _

lemma within_newStack : newStack.Within M :=
  within_fetchCapacity.bind fun _ => (within_lift _).bind fun _ =>
    (within_alloc (by trivial) (by decide)).bind fun _ => within_setPeek 0 _

lemma within_newVector : newVector.Within M :=
  within_fetchCapacity.bind fun _ => (within_lift _).bind fun _ =>
    (within_alloc (by trivial) (by decide)).bind fun _ => within_setPeek 0 _

lemma within_newArray : newArray.Within F := by
  refine within_fetch.bind fun word => ?_
  cases ArrayKind.ofWord? word with
  | none => exact within_abort _
  | some kind =>
      refine within_fetchNat.bind fun count => within_get.bind fun m => ?_
      have halloc : (onHeap (Heap.newArray kind count)).Within F := within_primitive
        (.alloc _ (show (Object.ofContent .array _).Valid from Nat.zero_le count) (by decide))
      refine Within.ite ((within_abort _).bind fun _ => ?_) ?_
      all_goals
        exact within_collectIfNeeded.bind fun _ => halloc.bind fun ref =>
          within_get.bind fun _ => (within_heap (within_fillArray ref kind _ 0)).bind fun _ =>
            (within_truncate _).bind fun _ => within_push _

lemma within_getIndex : getIndex.Within L :=
  (within_peek 0).bind fun _ => (within_peek 1).bind fun _ => within_get.bind fun _ =>
    (within_lift _).bind fun _ => within_pop.bind fun _ => within_setPeek 0 _

lemma peek_bind {α : Type} (distance : Nat) (next : Value → Action Machine α) (m : Machine)
    (journal : Journal) :
    (peek distance >>= next) m journal = next ((m.stack.peek? distance).getD .null) m journal := rfl

/-- A store into a string is left to the relation. -/
lemma setIndex_ends {m : Machine} (hchar : ∀ ref i byte, m.stack.peek? 2 = some (.scalar (.str ref)) →
      (Heap.setChar ref i byte).Within (OnHeaps M)) (journal : Journal) :
    (setIndex m journal).Ends (fun _ m' => M m m') (fun _ m' => M m m') fun _ => True := by
  rw [setIndex, peek_bind, peek_bind, peek_bind]
  have hstore : ∀ index value,
      (Container.setIndex ((m.stack.peek? 2).getD .null) index value).Within (OnHeaps M) := by
    refine Container.within_setIndex fun ref i byte href => hchar ref i byte ?_
    cases hpeek : m.stack.peek? 2 with
    | none => rw [hpeek] at href; cases href
    | some container => rw [hpeek] at href; exact congrArg some href
  refine Within.bind (within_heap (hstore _ _)) (fun _ => within_get.bind fun m' => ?_) m journal
  have hrest : ∀ count value, (do
      truncate count
      push value : Action Machine Unit).Within M := fun count value =>
    (within_truncate count).bind fun _ => within_push value
  exact Within.ite ((within_abort _).bind fun _ => hrest _ _) (hrest _ _)

lemma within_length : Machine.length.Within L := within_unary _

lemma within_pushValue : pushValue.Within M :=
  within_pop.bind fun value => (within_peek 0).bind fun container =>
    within_heap (Container.within_push container value)

lemma within_popValue : popValue.Within M :=
  (within_peek 0).bind fun container =>
    (within_heap (Container.within_pop container)).bind fun _ => within_setPeek 0 _

lemma within_copy : copy.Within M :=
  within_collectIfNeeded.bind fun _ => (within_peek 0).bind fun value =>
    (within_heap (Container.within_copy value)).bind fun _ => within_setPeek 0 _

lemma within_remove : remove.Within M :=
  within_pop.bind fun index => (within_peek 0).bind fun container =>
    (within_heap (Container.within_remove container index)).bind fun _ => within_setPeek 0 _

lemma within_each : each.Within L := by
  refine (within_peek 0).bind fun value => ?_
  split
  case h_1 cursor =>
    refine (within_peek 1).bind fun container => within_get.bind fun m =>
      (within_lift _).bind fun element => ?_
    refine Within.ite ((within_abort _).bind fun _ => ?_) ?_
    all_goals exact (within_setPeek 0 _).bind fun _ => within_push element
  case h_2 => exact within_abort _

/-! ### Instructions that close upvalues -/

lemma retainsFrom_closeTop {m : Machine} (hslot : closes (m.stack.length - 1)) (journal : Journal) :
    RetainsFrom kept closes m (closeTop m journal) := by
  rw [closeTop, get_bind]
  have hclose : (do
      closeUpvalues (m.stack.length - 1)
      let _ ← pop : Action Machine Unit).Within (Retains kept closes) :=
    (within_closeUpvalues hslot).bind fun _ => within_pop.bind fun _ => within_pure ()
  exact Within.ite ((within_abort _).bind fun _ => hclose) hclose m journal

lemma retainsFrom_ret {m : Machine} (hslot : closes m.frame.base) (journal : Journal) :
    RetainsFrom kept closes m (ret m journal) := by
  have hrun : pop m journal = .done _ { m with stack := m.stack.pop.2 } journal := rfl
  have hpop : Retains kept closes m { m with stack := m.stack.pop.2 } := of_run m _ _ _ _
  rw [ret, bind_of_done hrun, get_bind]
  refine hpop.followed_by (Within.bind (within_closeUpvalues hslot) (fun _ =>
    (within_truncate _).bind fun _ => within_get.bind fun m' => ?_) _ _)
  split
  · refine Within.bind ?_ fun _ => (within_push _).bind fun _ => within_pure _
    exact within_modify fun _ => of_run _ _ _ _ _
  · exact within_pure _

/-! ### All instructions -/

/-- Whether an instruction changes only what belongs to a run. -/
def isQuiet : Opcode → Bool
  | .defineGlobal | .setGlobal | .deleteGlobal | .setUpvalue | .setProperty | .add | .call | .invoke
  | .closure | .closeUpvalue | .defineClass | .defineMethod | .newTable | .newStack | .newVector
  | .newArray | .setIndex | .pushValue | .popValue | .copy | .remove => false
  | _ => true

/-- The quiet instructions, for any relation that reading and the stack respect. -/
lemma within_quiet (op : Opcode) (hop : isQuiet op = true) : (execute host op).Within B := by
  cases op with
  | constant => exact within_fetchConstant.bind fun value => within_push value
  | pushNull | pushTrue | pushFalse => exact within_push _
  | pop => exact within_pop.bind fun _ => within_pure ()
  | popMany =>
      exact within_fetchNat.bind fun _ => within_get.bind fun _ => within_truncate _
  | dup => exact (within_peek 0).bind fun value => within_push value
  | getLocal => exact within_getLocal
  | setLocal => exact within_setLocal
  | getGlobal => exact within_getGlobal
  | getUpvalue => exact within_getUpvalue
  | getProperty => exact within_getProperty
  | getNative | getClass =>
      exact within_fetchNat.bind fun _ => within_get.bind fun _ => within_push _
  | sub | mul | div | mod => exact within_binary _
  | eq | ne | strictEq | strictNe => exact within_equality _ _
  | lt | le | gt | ge => exact within_ordering _ _
  | and | or => exact within_logical _
  | neg | not | inc | dec =>
      rw [execute]
      exact within_unary _
  | jump => exact within_fetchNat.bind fun offset => within_skip offset
  | jumpIfFalse | jumpIfTrue | jumpIfNull | jumpIfNotNull => exact within_jumpIf _
  | jumpCase => exact within_jumpCase
  | jumpList => exact within_jumpList
  | loop => exact within_loop
  | ret => exact within_pure ()
  | print => exact within_print
  | getIndex => exact within_getIndex
  | length => exact within_length
  | each => exact within_each
  | _ => cases hop

/-- Instructions that stay in their frame, and neither close upvalues nor store into one or
into a container. -/
lemma within_staying (op : Opcode) (hclose : op ≠ .closeUpvalue) (hupvalue : op ≠ .setUpvalue)
    (hindex : op ≠ .setIndex) (hcall : op ≠ .call) (hinvoke : op ≠ .invoke) :
    (execute host op).Within F := by
  by_cases hquiet : isQuiet op = true
  · exact within_quiet op hquiet
  cases op with
  | defineGlobal => exact within_defineGlobal
  | setGlobal => exact within_setGlobal
  | deleteGlobal => exact within_deleteGlobal
  | setUpvalue => exact absurd rfl hupvalue
  | setProperty => exact within_setProperty
  | add => exact within_add
  | call => exact absurd rfl hcall
  | invoke => exact absurd rfl hinvoke
  | closure => exact within_makeClosure
  | closeUpvalue => exact absurd rfl hclose
  | defineClass => exact within_defineClass
  | defineMethod => exact within_defineMethod
  | newTable => exact within_newTable
  | newStack => exact within_newStack
  | newVector => exact within_newVector
  | newArray => exact within_newArray
  | setIndex => exact absurd rfl hindex
  | pushValue => exact within_pushValue
  | popValue => exact within_popValue
  | copy => exact within_copy
  | remove => exact within_remove
  | _ => exact absurd rfl hquiet

/-- Instructions that neither close upvalues nor store into one or into a container. -/
lemma within_execute (hhost : host.Respects (OnHeaps T)) (op : Opcode) (hclose : op ≠ .closeUpvalue)
    (hupvalue : op ≠ .setUpvalue) (hindex : op ≠ .setIndex) : (execute host op).Within T := by
  by_cases hcall : op = .call
  · subst hcall
    exact within_call hhost
  by_cases hinvoke : op = .invoke
  · subst hinvoke
    exact within_invoke hhost
  exact within_staying op hclose hupvalue hindex hcall hinvoke

/-- The next instruction. -/
def nextOpcode? (m : Machine) : Option Opcode :=
  (m.heap.get? m.frame.function).bind fun (function : Function) =>
    (function.chunk.code[m.frame.ip]?).bind Opcode.ofWord?

/-- The slot from which on the next instruction closes upvalues, if it closes
any. -/
def boundary? (m : Machine) : Option Nat :=
  match m.nextOpcode? with
  | some .closeUpvalue => some (m.stack.length - 1)
  | some .ret => some m.frame.base
  | _ => none

lemma nextOpcode?_eq (m : Machine) : m.nextOpcode? = (m.wordAt? m.frame.ip).bind Opcode.ofWord? := by
  rw [nextOpcode?, wordAt?, Option.bind_assoc]

/-- After its word is fetched, an instruction is carried out. -/
lemma step_of_fetch (host : Host) {m m₁ : Machine} {journal journal₁ : Journal} {word : UInt16} {op : Opcode}
    (hfetch : fetch m journal = .done word m₁ journal₁) (hop : Opcode.ofWord? word = some op) :
    ∃ journal₂, step host m journal =
      (if op = .ret then ret else do execute host op; return .running) m₁ journal₂ := by
  rw [step, bind_of_done hfetch, get_bind, note_bind, hop]
  cases op <;> exact ⟨_, rfl⟩

/-- A step carries out the next instruction behind its code word. -/
lemma step_of_next (host : Host) {m : Machine} {op : Opcode} (hop : m.nextOpcode? = some op)
    (journal : Journal) : ∃ journal', step host m journal =
      (if op = .ret then ret else do execute host op; return .running)
        (m.movedTo (m.frame.ip + 1)) journal' := by
  obtain ⟨word, hword, hop⟩ := Option.bind_eq_some_iff.mp (m.nextOpcode?_eq ▸ hop)
  exact step_of_fetch host (fetch_of_word hword journal) hop

/-- What a step does, from what each instruction does. -/
lemma step_ends {done : Status → Machine → Prop} {raised : Error → Machine → Prop} {m : Machine}
    (hret : m.nextOpcode? = some .ret → ∀ journal,
      (ret (m.movedTo (m.frame.ip + 1)) journal).Ends done raised fun _ => True)
    (hexecute : ∀ op, op ≠ .ret → m.nextOpcode? = some op → ∀ journal,
      (execute host op (m.movedTo (m.frame.ip + 1)) journal).Ends (fun _ => done .running) raised
        fun _ => True) (journal : Journal) :
    (step host m journal).Ends done raised fun _ => True := by
  cases hop : m.nextOpcode? with
  | some op =>
      obtain ⟨journal', hstep⟩ := step_of_next host hop journal
      rw [hstep]
      by_cases hend : op = .ret
      · subst hend
        exact hret hop journal'
      · rw [if_neg hend]
        exact (hexecute op hend hop journal').bind fun _ _ _ h => h
  | none =>
      rw [step]
      refine (fetch_ends m journal).unraised.bind ?_
      rintro word m₁ journal₁ ⟨hword, -⟩
      rw [nextOpcode?_eq, hword, Option.bind_some] at hop
      rw [get_bind, note_bind, hop]
      trivial

/-- The next instruction stores into an upvalue. -/
def StoresInto (m : Machine) (ref : Ref .upvalue) : Prop :=
  m.nextOpcode? = some .setUpvalue ∧ m.upvalueAt? (m.frame.ip + 1) = some ref

/-- One instruction closes upvalues from its boundary on, and it stores into at most
one. -/
lemma retainsFrom_step (htame : host.Tame) {m : Machine} (hstore : ∀ ref, m.StoresInto ref → ¬ kept ref)
    (journal : Journal) : RetainsFrom kept (· ∈ m.boundary?) m (step host m journal) := by
  have hfirst : Retains kept (· ∈ m.boundary?) m (m.movedTo (m.frame.ip + 1)) := of_run m _ _ _ _
  refine step_ends (fun hop journal => hfirst.followed_by ?_)
    (fun op hret hop journal => hfirst.followed_by ?_) journal
  · refine retainsFrom_ret ?_ journal
    rw [boundary?, hop]
    exact rfl
  · by_cases hclose : op = .closeUpvalue
    · subst hclose
      refine retainsFrom_closeTop ?_ journal
      rw [boundary?, hop]
      exact rfl
    · by_cases hset : op = .setUpvalue
      · subst hset
        exact retainsFrom_setUpvalue (fun ref href => hstore ref ⟨hop, href⟩) journal
      · by_cases hindex : op = .setIndex
        · subst hindex
          exact setIndex_ends (fun ref i byte _ => within_setChar ref i byte) journal
        · exact within_execute (respects_of_tame htame) op hclose hset hindex _ journal

/-- How an outcome leads on from a machine. -/
def LeadsFrom {α : Type} (closes : Nat → Prop) (m : Machine) (outcome : Outcome Machine α) : Prop :=
  outcome.Ends (fun _ m' => Leads closes m m') (fun _ m' => Leads closes m m') fun _ => True

/-- One instruction closes upvalues from its boundary on. -/
lemma leadsFrom_step (htame : host.Tame) (m : Machine) (journal : Journal) :
    LeadsFrom (· ∈ m.boundary?) m (step host m journal) :=
  (retainsFrom_step htame (fun _ _ => id) journal).imp (fun _ _ => Retains.leads)
    (fun _ _ => Retains.leads) fun _ => id

lemma within_step (htame : host.Tame) : (step host).Within (Leads fun _ => True) := by
  intro m journal
  exact (leadsFrom_step htame m journal).imp (fun _ _ h => h.mono fun _ _ => trivial)
    (fun _ _ h => h.mono fun _ _ => trivial) fun _ => id

/-! ### Runs -/

lemma within_runFor (htame : host.Tame) (fuel : Nat) :
    Within (Leads fun _ => True) (runFor host fuel : Action Machine Status) := by
  induction fuel with
  | zero => exact within_pure _
  | succ fuel ih =>
      intro m journal
      rw [runFor]
      have hstep := within_step htame m journal
      cases hrun : step host m journal with
      | done status m₁ journal₁ =>
          have hfirst := hstep.of_done hrun
          cases status with
          | running =>
              exact (ih m₁ journal₁).imp (fun _ _ => trans_of _ hfirst)
                (fun _ _ => trans_of _ hfirst) fun _ => id
          | finished => exact hfirst
      | raised error m₁ journal₁ => exact hstep.of_raised hrun
      | aborted fault => trivial

lemma within_start (function : Ref .function) : (start function).Within T := by
  refine (within_push _).bind fun _ => (within_alloc (by trivial) (by decide)).bind fun closure =>
    (within_onStack _).bind fun _ => (within_push _).bind fun _ => ?_
  exact within_modify fun _ => of_run _ _ _ _ _

/-- A run after what the last run left is cleaned up. -/
lemma runFunction_of_reset {m m₁ : Machine} {journal journal₁ : Journal}
    (hreset : reset m journal = .done () m₁ journal₁) (fuel : Nat) (function : Ref .function) :
    runFunction host fuel function m journal =
      match (start function >>= fun _ => (runFor host fuel : Action Machine Status)) m₁ journal₁ with
      | .done .finished m₂ journal₂ => (do reset; return Ending.finished) m₂ journal₂
      | .done .running m₂ journal₂ => .done .outOfFuel m₂ journal₂
      | .raised error m₂ journal₂ =>
          (do reset; return Ending.failed error m₂.trace) m₂ (journal₂.note (.runFailed error.display))
      | .aborted fault => .aborted fault :=
  bind_of_done hreset

/-- A run that returns leaves no upvalue open. -/
lemma Ready.runFunction {m : Machine} (hr : m.Ready) (htame : host.Tame) (fuel : Nat)
    (function : Ref .function) (journal : Journal) :
    (runFunction host fuel function m journal).Ends
      (fun ending m' => Leads (fun _ => True) m m' ∧ (ending ≠ .outOfFuel → m'.openUpvalues = []))
      (fun _ _ => False) fun _ => True := by
  obtain ⟨m₁, hreset, hl₁, -⟩ := hr.reset journal
  rw [runFunction_of_reset hreset]
  have hstart : (start function).Within (Leads fun _ => True) := within_leads (within_start function)
  have hwithin := (hstart.bind fun _ => within_runFor htame fuel) m₁ journal
  cases hrun : (start function >>= fun _ => (runFor host fuel : Action Machine Status)) m₁ journal with
  | aborted fault => trivial
  | done status m₂ journal₂ =>
      have hl₂ := trans_of (Leads fun _ => True) hl₁ (hwithin.of_done hrun)
      cases status with
      -- out of fuel: the run may go on, so nothing is reset
      | running => exact ⟨hl₂, fun h => absurd rfl h⟩
      | finished =>
          obtain ⟨m₃, hreset₃, hl₃, hnone⟩ := (hl₂.ready hr).reset journal₂
          dsimp only
          rw [bind_of_done hreset₃]
          exact ⟨trans_of (Leads fun _ => True) hl₂ hl₃, fun _ => hnone⟩
  | raised error m₂ journal₂ =>
      have hl₂ := trans_of (Leads fun _ => True) hl₁ (hwithin.of_raised hrun)
      obtain ⟨m₃, hreset₃, hl₃, hnone⟩ := (hl₂.ready hr).reset
        (journal₂.note (.runFailed error.display))
      dsimp only
      rw [bind_of_done hreset₃]
      exact ⟨trans_of (Leads fun _ => True) hl₂ hl₃, fun _ => hnone⟩

end Machine

end ScriptMachine
