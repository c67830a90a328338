import ScriptMachine.Proofs.Heap.Course
import ScriptMachine.Proofs.Machine.Reachable

/-!
What a machine does to its objects.

Whatever a machine does, its objects and its global variables change by turns: by a
change of the heap, by a collection that keeps what the global variables hold, or
by storing or removing a global variable. Only the store into a string writes a
string.

* `Turn`, `Course`: one turn, and any number of them;
* `keeps_execute`, `step_kept`: instructions and steps take turns;
* `Use.keeps`: so does everything else that a machine is used for;
* `turns_of_create`: a machine begins without objects and global variables.
-/

namespace ScriptMachine

open ScriptMachine.Action
open Relation (ReflTransGen)

/-- The host supplies functions that change objects as instructions do, and never a
string. -/
def Host.Orderly (host : Host) : Prop :=
  ∀ number arguments, (host.call number arguments).Keeps (Heap.Course fun _ => False)

lemma Host.builtin_orderly (now : Double) : (builtin now).Orderly := fun _ _ => keeps_abort _

namespace Machine

variable {m m₁ m₂ : Machine} {written : ObjectId → Prop} {strict : Prop} {host : Host}

/-! ### Turns -/

/-- What happens to the objects and the global variables of a machine at once. -/
inductive Turn (written : ObjectId → Prop) (strict : Prop) : Machine → Machine → Prop
  | heap {m m₁ : Machine} (change : Heap.Change written strict m.heap m₁.heap)
      (globals : m₁.globals = m.globals) : Turn written strict m m₁
  | collected {m m₁ : Machine} {roots freed : List ObjectId}
      (collected : Heap.Collected roots freed m.heap m₁.heap)
      (held : ∀ id ∈ m.globals.children, id ∈ roots) (globals : m₁.globals = m.globals) :
      Turn written strict m m₁
  | assigned {m m₁ : Machine} (updated : m.globals.Updated m.heap.Current m₁.globals)
      (heap : m₁.heap = m.heap) : Turn written strict m m₁
  /-- Something that has nothing to do with objects and global variables, though there may be
  other pages to be had than before. -/
  | other {m m₁ : Machine} (grants : Nat → Bool) (heap : m₁.heap = m.heap.granting grants)
      (globals : m₁.globals = m.globals) : Turn written strict m m₁

/-- Any number of turns. -/
def Turns (written : ObjectId → Prop) (strict : Prop) : Machine → Machine → Prop :=
  ReflTransGen (Turn written strict)

lemma Turn.sound_idle (ht : Turn written strict m m₁) (hs : m.heap.Sound) (hi : m.heap.Idle) :
    m₁.heap.Sound ∧ m₁.heap.Idle := by
  cases ht with
  | heap change => exact ⟨change.sound, change.idle hi⟩
  | collected collected => exact ⟨collected.sound, collected.idle⟩
  | assigned _ heap => exact heap ▸ ⟨hs, hi⟩
  | other grants heap => exact heap ▸ ⟨hs.granting grants, hi.unmarked, hi.gray⟩

lemma Turns.sound_idle (ht : Turns written strict m m₁) (hs : m.heap.Sound) (hi : m.heap.Idle) :
    m₁.heap.Sound ∧ m₁.heap.Idle := by
  induction ht with
  | refl => exact ⟨hs, hi⟩
  | tail _ turn ih => exact turn.sound_idle ih.1 ih.2

lemma Turn.relax (ht : Turn written True m m₁) : Turn written strict m m₁ := by
  cases ht with
  | heap change globals => exact .heap change.relax globals
  | collected collected held globals => exact .collected collected held globals
  | assigned updated heap => exact .assigned updated heap
  | other grants heap globals => exact .other grants heap globals

lemma Turns.mono {written' : ObjectId → Prop} (ht : Turns written strict m m₁)
    (hw : ∀ id, written id → written' id) : Turns written' strict m m₁ := by
  refine ReflTransGen.mono (fun _ _ turn => ?_) _ _ ht
  cases turn with
  | heap change globals => exact .heap (change.mono hw) globals
  | collected collected held globals => exact .collected collected held globals
  | assigned updated heap => exact .assigned updated heap
  | other grants heap globals => exact .other grants heap globals

/-- Any number of turns of a machine whose heap is in order. -/
def Course (written : ObjectId → Prop) (strict : Prop) (m m₁ : Machine) : Prop :=
  m.heap.Sound → m.heap.Idle → Turns written strict m m₁

instance : Lenient (Course written) where
  refl _ _ _ _ := .refl
  trans hc hc' hs hi := by
    have hturns := hc hs hi
    obtain ⟨hs', hi'⟩ := hturns.sound_idle hs hi
    exact hturns.trans (hc' hs' hi')
  relax hc hs hi := ReflTransGen.mono (fun _ _ => Turn.relax) _ _ (hc hs hi)

lemma course_of_eq (heap : m₁.heap = m.heap) (globals : m₁.globals = m.globals) :
    Course written strict m m₁ := fun _ _ => .single (.other m.heap.memory.grants heap globals)

lemma Course.of_movedTo {ip : Nat} (hc : Course written strict (m.movedTo ip) m₁) :
    Course written strict m m₁ :=
  have hmoved : Course written strict m (m.movedTo ip) := course_of_eq rfl rfl
  Lenient.trans hmoved hc

/-- An action may use that the heap before was in order. -/
lemma kept_of_sound {α : Type} {R : Prop → Machine → Machine → Prop} {outcome : Outcome Machine α}
    (hkept : m.heap.Sound → m.heap.Idle → outcome.Kept R m) :
    outcome.Kept (fun strict m m₁ => m.heap.Sound → m.heap.Idle → R strict m m₁) m :=
  Outcome.ends_of_imp fun hs => Outcome.ends_of_imp (hkept hs)

/-! ### Parts of the machine -/

/-- The heap takes its course. -/
lemma course_of_heap {heap : Heap} (hc : Heap.Course written strict m.heap heap) :
    Course written strict m { m with heap := heap } := by
  intro hs hi
  have hlift : ∀ {h h₁ : Heap}, Heap.Change written strict h h₁ →
      Turn written strict { m with heap := h } { m with heap := h₁ } := fun hc => .heap hc rfl
  exact ReflTransGen.lift (fun heap => { m with heap := heap }) (fun _ _ => hlift) _ _ (hc hs hi)

lemma kept_onHeap_of {α : Type} {action : Action Heap α} {heap : Heap} {journal : Journal}
    (h : (action heap journal).Kept (Heap.Course written) m.heap) :
    (onHeap action { m with heap := heap } journal).Kept (Course written) m := by
  refine Outcome.Ends.imp (ends_onHeap h) ?_ ?_ fun _ => id
  · rintro _ _ ⟨heap, rfl, hc⟩
    exact course_of_heap hc
  · rintro _ _ ⟨heap, rfl, hc⟩
    exact course_of_heap hc

lemma kept_onHeap {α : Type} {action : Action Heap α} {journal : Journal}
    (h : (action m.heap journal).Kept (Heap.Course written) m.heap) :
    (onHeap action m journal).Kept (Course written) m := kept_onHeap_of h

lemma keeps_onHeap {α : Type} {action : Action Heap α} (h : action.Keeps (Heap.Course written)) :
    (onHeap action).Keeps (Course written) := fun _ _ => kept_onHeap (h _ _)

lemma keeps_of_untouched {α : Type} {action : Action Machine α} (h : action.Within Untouched) :
    action.Keeps (Course written) :=
  h.keeps fun _ _ _ hu => course_of_eq hu.heap hu.globals

/-- Storing a global variable under a key that is current. -/
lemma kept_insertGlobal {key : Key} (hkey : m.heap.Current key) (value : Value) (journal : Journal) :
    (onGlobals (Table.insert key value) m journal).Kept (Course written) m := by
  have hends := hkey.insert_ends value m.globals journal
  unfold onGlobals Action.on
  dsimp only
  cases hrun : Table.insert key value m.globals journal with
  | done old globals journal' => exact fun _ _ => .single (.assigned (hends.of_done hrun) rfl)
  | raised error globals journal' => exact (hends.of_raised hrun).elim
  | aborted fault => trivial

lemma keeps_removeGlobal (hash : UInt64) :
    (onGlobals (Table.remove hash)).Keeps (Course written) := by
  intro m journal
  have hends := m.globals.remove_ends hash journal
  unfold onGlobals Action.on
  dsimp only
  cases hrun : Table.remove hash m.globals journal with
  | done old globals journal' => exact fun _ _ => .single (.assigned (.remove hrun) rfl)
  | raised error globals journal' => exact (hends.of_raised hrun).elim
  | aborted fault => trivial

/-! ### Collections -/

/-- What the global variables hold is among the roots. -/
lemma mem_roots_of_globals {id : ObjectId} (hmem : id ∈ m.globals.children) : id ∈ m.roots := by
  simp only [roots, List.mem_append]
  exact .inl (.inr hmem)

lemma course_of_collected {heap : Heap} {freed : List ObjectId} {threshold : Nat}
    (hc : Heap.Collected m.roots freed m.heap heap) :
    Course written strict m { m with heap := heap, threshold := threshold } :=
  fun _ _ => .single (.collected hc (fun _ => mem_roots_of_globals) rfl)

lemma keeps_collectGarbage : collectGarbage.Keeps (Course written) := by
  refine fun m journal => kept_of_sound fun hs hi => ?_
  refine (collectGarbage_ends hs hi journal).imp ?_ (fun _ _ h => h.elim) fun _ _ => trivial
  rintro _ _ ⟨heap, freed, threshold, hc, rfl⟩
  exact course_of_collected hc hs hi

lemma keeps_collectIfNeeded : collectIfNeeded.Keeps (Course written) := by
  refine keeps_get.bind fun m => Keeps.ite ?_ (keeps_pure ())
  exact keeps_collectGarbage.bind fun _ => keeps_pure ()

/-- An object whose table, if it has one, is empty. -/
lemma keeps_alloc {k : Kind} {content : k.Content} (hv : (Object.ofContent k content).Valid)
    (htable : ∀ t, (Object.ofContent k content).table? = some t → t.IsNew) :
    (alloc k content).Keeps (Course written) :=
  keeps_collectIfNeeded.bind fun _ => keeps_onHeap (Heap.keeps_alloc hv htable)

/-- An object of a kind that has no table. -/
lemma keeps_allocBare {k : Kind} {content : k.Content} (hv : (Object.ofContent k content).Valid)
    (hnone : (Object.ofContent k content).table? = none) : (alloc k content).Keeps (Course written) :=
  keeps_alloc hv fun _ ht => by rw [hnone] at ht; cases ht

/-! ### Names -/

section Sequences

variable {α β : Type} {first : Action Machine α} {next : α → Action Machine β} {journal : Journal}

/-- What comes first touches only what belongs to the run. -/
lemma kept_untouched_bind (hfirst : first.Within Untouched)
    (hnext : ∀ value m₁ journal₁, m₁.heap = m.heap →
      (next value m₁ journal₁).Kept (Course written) m₁) :
    ((first >>= next) m journal).Kept (Course written) m :=
  kept_bind (keeps_of_untouched hfirst m journal) fun value m₁ journal₁ hrun =>
    hnext value m₁ journal₁ ((hfirst m journal).of_done hrun).heap

lemma current_of_read {name : Ref .string} {record : StringRecord} {h : Heap}
    (hread : h.read name = .ok record) : h.Current ⟨record.hash, .str name⟩ := by
  rw [Heap.Current, Heap.hash?, hread]
  rfl

/-- The key of a name is current. -/
lemma kept_fetchName_bind {next : Ref .string × Key → Action Machine β}
    (hnext : ∀ name key m₁ journal₁, m₁.heap.Current key →
      (next (name, key) m₁ journal₁).Kept (Course written) m₁) :
    ((fetchName >>= next) m journal).Kept (Course written) m := by
  rw [fetchName, bind_assoc]
  refine kept_untouched_bind within_fetchConstant fun value m₁ journal₁ _ => ?_
  split
  · rw [bind_assoc, get_bind, bind_assoc]
    refine kept_lift_bind fun record hread => ?_
    exact hnext _ _ m₁ journal₁ (current_of_read hread)
  · trivial

end Sequences

/-! ### Variables -/

lemma keeps_notDefined {α : Type} (name : Ref .string) :
    (notDefined name : Action Machine α).Keeps (Course written) :=
  keeps_of_untouched (within_notDefined name)

lemma keeps_defineGlobal : defineGlobal.Keeps (Course written) :=
  fun _ _ => kept_fetchName_bind fun _ _ _ _ hkey => kept_untouched_bind within_pop
    fun value _ journal₁ heap => kept_bind (kept_insertGlobal (heap ▸ hkey) value journal₁)
      fun _ _ _ _ => keeps_pure () _ _

lemma keeps_setGlobal : setGlobal.Keeps (Course written) := by
  refine fun _ _ => kept_fetchName_bind fun name key m journal hkey => ?_
  dsimp only
  rw [get_bind]
  refine kept_lift_bind fun found _ => ?_
  cases found with
  | some old =>
      exact kept_untouched_bind (within_peek 0) fun value _ journal₁ heap =>
        kept_bind (kept_insertGlobal (heap ▸ hkey) value journal₁) fun _ _ _ _ => keeps_pure () _ _
  | none => exact keeps_notDefined name m journal

lemma keeps_deleteGlobal : deleteGlobal.Keeps (Course written) := by
  refine (keeps_of_untouched within_fetchName).bind fun name => (keeps_removeGlobal _).bind fun old => ?_
  cases old with
  | some old => exact keeps_pure ()
  | none => exact keeps_notDefined _

/-- An upvalue gets another content. -/
lemma change_putUpvalue {h : Heap} (hs : h.Sound) {ref : Ref .upvalue} {old : Upvalue}
    (hget : h.get? ref = some old) (new : Upvalue) :
    Heap.Change written strict h (h.put ref new) :=
  hs.change_put (by decide) hget nofun (Nat.le_refl _)

lemma keeps_setUpvalue : setUpvalue.Keeps (Course written) := by
  refine (keeps_of_untouched within_fetchNat).bind fun index =>
    (keeps_of_untouched (within_upvalue index)).bind fun ref =>
      (keeps_of_untouched (within_peek 0)).bind fun value m journal => ?_
  rw [get_bind]
  refine kept_lift_bind fun content hread => ?_
  cases content with
  | opened slot => exact keeps_of_untouched (within_onStack _) m journal
  | closed old =>
      refine kept_onHeap (Heap.kept_of_sound fun hs _ => ?_)
      exact .single (change_putUpvalue hs (Heap.get?_of_read hread) _)

/-! ### Properties, classes and closures -/

section Growth

variable {α β : Type} {k : Kind} {ref : Ref k} {heap : Heap} {journal : Journal}

/-- An object gets another content, for which memory is reserved later. -/
lemma kept_revised_bind {first : Action Heap α} {next : α → Action Machine β}
    (hfirst : m.heap.Sound → (first m.heap journal).Ends
      (fun _ heap => Heap.Revised written ref m.heap heap) (fun _ _ => False) fun _ => True)
    (hnext : ∀ value heap journal₁, Heap.Revised written ref m.heap heap →
      (next value { m with heap := heap } journal₁).Kept (Course written) m) :
    ((onHeap first >>= next) m journal).Kept (Course written) m := by
  refine kept_of_sound fun hs hi => Outcome.Ends.bind ((ends_onHeap (hfirst hs)).imp (fun _ _ => id)
    (fun _ _ h => h.elim fun _ h => h.2.elim) fun _ => id) ?_
  rintro value _ journal₁ ⟨heap, rfl, he⟩
  exact (hnext value heap journal₁ he).imp (fun _ _ hc => hc hs hi) (fun _ _ hc => hc hs hi)
    fun _ => id

lemma kept_resize_bind {rest : Action Machine β} (he : Heap.Revised written ref m.heap heap)
    (hrest : rest.Keeps (Course written)) :
    ((do onHeap (Heap.resize ref.id); rest) { m with heap := heap } journal).Kept
      (Course written) m := by
  have hresize : (Heap.resize ref.id heap journal).Kept (Heap.Course written) m.heap :=
    (he.resize journal).imp (fun _ _ hc _ _ => hc) (fun _ _ hc _ _ => hc) fun _ => id
  exact kept_bind (kept_onHeap_of hresize) fun _ m₁ journal₁ _ => hrest m₁ journal₁

end Growth

lemma keeps_setProperty : setProperty.Keeps (Course written) := by
  refine fun _ _ => kept_fetchName_bind fun name key m journal hkey => ?_
  refine kept_untouched_bind (within_peek 0) fun value m₁ journal₁ heap₁ => ?_
  refine kept_untouched_bind (within_peek 1) fun target m₂ journal₂ heap₂ => ?_
  refine kept_untouched_bind (within_asInstance target name) fun ref m₃ journal₃ heap₃ => ?_
  have hkey₃ : m₃.heap.Current key := by rwa [heap₃, heap₂, heap₁]
  have hrest : (do let _ ← pop; setPeek 0 value : Action Machine Unit).Keeps (Course written) :=
    keeps_of_untouched (within_pop.bind fun _ => within_setPeek 0 value)
  exact kept_revised_bind (fun hs => Heap.revised_insertOn hs (by decide) ref (fun _ => rfl)
    (fun _ _ => rfl) hkey₃ value journal₃) fun _ _ _ he => kept_resize_bind he hrest

lemma keeps_defineClass : defineClass.Keeps (Course written) := by
  refine (keeps_of_untouched within_fetchName).bind fun name => Keeps.bind (keeps_alloc trivial ?_)
    fun ref => Keeps.bind (keeps_modify fun _ => ?_) fun _ => keeps_of_untouched (within_push _)
  · rintro t ⟨⟩
    exact Table.isNew_empty
  · exact course_of_eq rfl rfl

lemma keeps_defineMethod : defineMethod.Keeps (Course written) := by
  refine fun _ _ => kept_fetchName_bind fun name key m journal hkey => ?_
  refine kept_untouched_bind (within_peek 1) fun target m₁ journal₁ heap₁ => ?_
  refine kept_untouched_bind (within_peek 0) fun value m₂ journal₂ heap₂ => ?_
  have hkey₂ : m₂.heap.Current key := by rwa [heap₂, heap₁]
  split
  case h_1 ref method =>
    have hrest : (do let _ ← pop : Action Machine Unit).Keeps (Course written) :=
      keeps_of_untouched (within_pop.bind fun _ => within_pure ())
    refine kept_revised_bind (fun hs => Heap.revised_insertOn hs (by decide) ref (fun _ => rfl)
      (fun _ _ => rfl) hkey₂ _ journal₂) fun _ heap journal₃ he => ?_
    -- From here on the class may be short of room, so nothing before the reservation
    -- may raise an error: what is read can only be missing, which is a fault.
    rw [get_bind]
    refine ends_lift_bind (heap.calm_text name) fun text _ => ?_
    split
    · rw [get_bind]
      refine ends_lift_bind (heap.calm_read ref) fun cls hread => ?_
      exact kept_resize_bind (he.put (by decide) (Heap.get?_of_read hread) rfl) hrest
    · exact kept_resize_bind he hrest
  case h_2 => trivial

lemma keeps_capture (slot : Nat) : (capture slot).Keeps (Course written) := by
  refine keeps_get.bind fun m => (keeps_lift _).bind fun cut => ?_
  obtain ⟨below, above⟩ := cut
  have hnew : (do
      let ref ← alloc .upvalue (.opened slot)
      modify fun m => { m with openUpvalues := below ++ ref :: above }
      return ref : Action Machine (Ref .upvalue)).Keeps (Course written) := by
    refine (keeps_allocBare (k := .upvalue) trivial rfl).bind fun ref =>
      Keeps.bind (keeps_modify fun _ => ?_) fun _ => keeps_pure ref
    exact course_of_eq rfl rfl
  cases above with
  | nil => exact hnew
  | cons ref rest =>
      refine (keeps_lift _).bind fun named => ?_
      dsimp only
      split
      · exact keeps_pure _
      · exact hnew

lemma keeps_captureMany (count : Nat) (refs : Array (Ref .upvalue)) :
    (captureMany count refs).Keeps (Course written) := by
  induction count generalizing refs with
  | zero => exact keeps_pure refs
  | succ count ih =>
      refine (keeps_of_untouched within_fetch).bind fun isLocal =>
        (keeps_of_untouched within_fetchNat).bind fun index => ?_
      refine Keeps.ite (keeps_get.bind fun _ => ?_) ?_
      · exact (keeps_capture _).bind fun ref => ih (refs.push ref)
      · exact (keeps_of_untouched (within_upvalue index)).bind fun ref => ih (refs.push ref)

lemma keeps_makeClosure : makeClosure.Keeps (Course written) := by
  refine (keeps_of_untouched within_fetchConstant).bind fun value => ?_
  split
  · exact keeps_get.bind fun _ => (keeps_lift _).bind fun _ => (keeps_captureMany _ _).bind fun _ =>
      (keeps_allocBare (k := .closure) trivial rfl).bind fun _ => keeps_of_untouched (within_push _)
  · exact keeps_abort _

lemma keeps_closeAll (stack : Stack Value) (refs : List (Ref .upvalue)) :
    (closeAll stack refs).Keeps (Heap.Course written) := by
  induction refs with
  | nil => exact keeps_pure ()
  | cons ref refs ih =>
      refine Keeps.bind (fun h journal => ?_) fun _ => ih
      rw [closeOne, get_bind]
      refine kept_lift_bind fun content hread => ?_
      cases content with
      | opened slot =>
          refine Heap.kept_of_sound fun hs _ => ?_
          exact .single (change_putUpvalue hs (Heap.get?_of_read hread) _)
      | closed value => exact keeps_pure () h journal

lemma keeps_closeUpvalues (slot : Nat) : (closeUpvalues slot).Keeps (Course written) := by
  refine keeps_get.bind fun m => (keeps_lift _).bind fun split =>
    Keeps.bind (keeps_modify fun _ => ?_) fun _ => keeps_onHeap (keeps_closeAll _ _)
  exact course_of_eq rfl rfl

lemma keeps_closeTop : closeTop.Keeps (Course written) := by
  have hrest : ∀ slot, (do closeUpvalues slot; let _ ← pop : Action Machine Unit).Keeps
      (Course written) := fun slot => (keeps_closeUpvalues slot).bind fun _ =>
    (keeps_of_untouched within_pop).bind fun _ => keeps_pure ()
  exact keeps_get.bind fun _ => Keeps.ite ((keeps_abort _).bind fun _ => hrest _) (hrest _)

lemma keeps_ret : ret.Keeps (Course written) := by
  refine (keeps_of_untouched within_pop).bind fun result => keeps_get.bind fun m =>
    (keeps_closeUpvalues _).bind fun _ => (keeps_of_untouched (within_truncate _)).bind fun _ =>
      keeps_get.bind fun m' => ?_
  split
  · refine Keeps.bind (keeps_modify fun _ => ?_) fun _ =>
      (keeps_of_untouched (within_push result)).bind fun _ => keeps_pure _
    exact course_of_eq rfl rfl
  · exact keeps_pure _

/-! ### Calls -/

lemma keeps_nativeCall (horderly : host.Orderly) (routine : Routine) (arguments : List Value) :
    (Native.call host routine arguments).Keeps (Heap.Course written) := by
  cases routine with
  | builtin builtin =>
      cases builtin with
      | clock => exact keeps_pure _
      | _ => exact keeps_get.bind fun _ => keeps_lift _
  | host number =>
      have hmono : ∀ {strict} {h h₁ : Heap}, Heap.Course (fun _ => False) strict h h₁ →
          Heap.Course written strict h h₁ := fun hc hs hi => (hc hs hi).mono fun _ => False.elim
      exact fun h journal => (horderly number arguments h journal).imp (fun _ _ => hmono)
        (fun _ _ => hmono) fun _ => id

lemma keeps_callNative (horderly : host.Orderly) (ref : Ref .native) (count : Nat) :
    (callNative host ref count).Keeps (Course written) := by
  have hcall : ∀ routine arguments start, (do
      let result ← onHeap (Native.call host routine arguments)
      truncate start
      setPeek 0 result : Action Machine Unit).Keeps (Course written) := fun routine arguments start =>
    (keeps_onHeap (keeps_nativeCall horderly routine arguments)).bind fun result =>
      keeps_of_untouched ((within_truncate start).bind fun _ => within_setPeek 0 result)
  exact keeps_get.bind fun _ => (keeps_lift _).bind fun _ => (keeps_lift _).bind fun _ =>
    Keeps.ite ((keeps_abort _).bind fun _ => hcall _ _ _) (hcall _ _ _)

lemma keeps_callClass (ref : Ref .cls) (count : Nat) :
    (callClass ref count).Keeps (Course written) := by
  refine Keeps.bind (keeps_alloc trivial ?_) fun inst =>
    (keeps_of_untouched (within_setPeek count _)).bind fun _ => keeps_get.bind fun m =>
      (keeps_lift _).bind fun cls => ?_
  · rintro t ⟨⟩
    exact Table.isNew_empty
  · split
    · exact keeps_of_untouched (within_callClosure _ count)
    · exact keeps_lift _

lemma keeps_callValue (horderly : host.Orderly) (callee : Value) (count : Nat) :
    (callValue host callee count).Keeps (Course written) := by
  cases callee with
  | closure ref => exact keeps_of_untouched (within_callClosure ref count)
  | native ref => exact keeps_callNative horderly ref count
  | cls ref => exact keeps_callClass ref count
  | _ => exact keeps_get.bind fun _ => (keeps_lift _).bind fun _ => keeps_raise _

lemma keeps_call (horderly : host.Orderly) : (call host).Keeps (Course written) :=
  (keeps_of_untouched within_fetchNat).bind fun count =>
    (keeps_of_untouched (within_peek count)).bind fun callee => keeps_callValue horderly callee count

lemma keeps_invoke (horderly : host.Orderly) : (invoke host).Keeps (Course written) := by
  refine (keeps_of_untouched within_fetchName).bind fun name =>
    (keeps_of_untouched within_fetchNat).bind fun count =>
      (keeps_of_untouched (within_peek count)).bind fun value =>
        (keeps_of_untouched (within_asInstance _ _)).bind fun ref => keeps_get.bind fun m =>
          (keeps_lift _).bind fun inst => (keeps_lift _).bind fun found => ?_
  cases found with
  | some field =>
      exact (keeps_of_untouched (within_setPeek count field)).bind fun _ =>
        keeps_callValue horderly field count
  | none => exact (keeps_lift _).bind fun _ => keeps_callValue horderly _ count

/-! ### Containers -/

lemma keeps_add : add.Keeps (Course written) := by
  refine (keeps_of_untouched (within_peek 0)).bind fun b =>
    (keeps_of_untouched (within_peek 1)).bind fun a => keeps_get.bind fun m =>
      (keeps_lift _).bind fun sum => ?_
  cases sum with
  | scalar scalar => exact keeps_of_untouched (within_pop.bind fun _ => within_setPeek 0 _)
  | text text =>
      exact keeps_collectIfNeeded.bind fun _ =>
        (keeps_onHeap (Heap.keeps_insertText text false)).bind fun _ =>
          keeps_of_untouched (within_pop.bind fun _ => within_setPeek 0 _)

lemma keeps_newTable : newTable.Keeps (Course written) := by
  refine (keeps_of_untouched within_fetchCapacity).bind fun capacity m journal => ?_
  refine kept_lift_bind fun table htable => ?_
  have halloc : (alloc .table table).Keeps (Course written) := by
    refine keeps_alloc trivial ?_
    rintro t ⟨⟩
    exact ⟨capacity, htable⟩
  exact (halloc.bind fun _ => keeps_of_untouched (within_setPeek 0 _)) m journal

lemma keeps_newStack : newStack.Keeps (Course written) :=
  (keeps_of_untouched within_fetchCapacity).bind fun _ => (keeps_lift _).bind fun _ =>
    (keeps_allocBare (k := .stack) trivial rfl).bind fun _ => keeps_of_untouched (within_setPeek 0 _)

lemma keeps_newVector : newVector.Keeps (Course written) :=
  (keeps_of_untouched within_fetchCapacity).bind fun _ => (keeps_lift _).bind fun _ =>
    (keeps_allocBare (k := .vector) trivial rfl).bind fun _ => keeps_of_untouched (within_setPeek 0 _)

lemma keeps_fillArray (ref : Ref .array) (kind : ArrayKind) (values : List Value) (index : Nat) :
    (fillArray ref kind values index).Keeps (Heap.Course written) := by
  induction values generalizing index with
  | nil => exact keeps_pure ()
  | cons value values ih =>
      rw [fillArray]
      split
      · exact (Heap.keeps_arraySet ref index _).bind fun _ => ih (index + 1)
      · exact keeps_get.bind fun _ => (keeps_lift _).bind fun _ => keeps_raise _

lemma keeps_newArray : newArray.Keeps (Course written) := by
  refine (keeps_of_untouched within_fetch).bind fun word => ?_
  cases ArrayKind.ofWord? word with
  | none => exact keeps_abort _
  | some kind =>
      refine (keeps_of_untouched within_fetchNat).bind fun count => keeps_get.bind fun m => ?_
      have halloc : (Heap.newArray kind count).Keeps (Heap.Course written) :=
        Heap.keeps_alloc (show (Object.ofContent .array _).Valid from Nat.zero_le count) nofun
      refine Keeps.ite ((keeps_abort _).bind fun _ => ?_) ?_
      all_goals
        exact keeps_collectIfNeeded.bind fun _ => (keeps_onHeap halloc).bind fun ref =>
          keeps_get.bind fun _ => (keeps_onHeap (keeps_fillArray ref kind _ 0)).bind fun _ =>
            keeps_of_untouched ((within_truncate _).bind fun _ => within_push _)

lemma keeps_pushValue : pushValue.Keeps (Course written) :=
  (keeps_of_untouched within_pop).bind fun _ => (keeps_of_untouched (within_peek 0)).bind fun _ =>
    keeps_onHeap (Container.keeps_push _ _)

lemma keeps_popValue : popValue.Keeps (Course written) :=
  (keeps_of_untouched (within_peek 0)).bind fun _ =>
    (keeps_onHeap (Container.keeps_pop _)).bind fun _ => keeps_of_untouched (within_setPeek 0 _)

lemma keeps_copy : copy.Keeps (Course written) :=
  keeps_collectIfNeeded.bind fun _ => (keeps_of_untouched (within_peek 0)).bind fun _ =>
    (keeps_onHeap (Container.keeps_copy _)).bind fun _ => keeps_of_untouched (within_setPeek 0 _)

lemma keeps_remove : remove.Keeps (Course written) :=
  (keeps_of_untouched within_pop).bind fun _ => (keeps_of_untouched (within_peek 0)).bind fun _ =>
    (keeps_onHeap (Container.keeps_remove _ _)).bind fun _ => keeps_of_untouched (within_setPeek 0 _)

/-- Everything but the store into a container, which may be a string. -/
lemma keeps_execute (horderly : host.Orderly) (op : Opcode) (hop : op ≠ .setIndex) :
    (execute host op).Keeps (Course written) := by
  by_cases hquiet : isQuiet op = true
  · exact keeps_of_untouched (within_quiet op hquiet)
  cases op with
  | defineGlobal => exact keeps_defineGlobal
  | setGlobal => exact keeps_setGlobal
  | deleteGlobal => exact keeps_deleteGlobal
  | setUpvalue => exact keeps_setUpvalue
  | setProperty => exact keeps_setProperty
  | add => exact keeps_add
  | call => exact keeps_call horderly
  | invoke => exact keeps_invoke horderly
  | closure => exact keeps_makeClosure
  | closeUpvalue => exact keeps_closeTop
  | defineClass => exact keeps_defineClass
  | defineMethod => exact keeps_defineMethod
  | newTable => exact keeps_newTable
  | newStack => exact keeps_newStack
  | newVector => exact keeps_newVector
  | newArray => exact keeps_newArray
  | setIndex => exact absurd rfl hop
  | pushValue => exact keeps_pushValue
  | popValue => exact keeps_popValue
  | copy => exact keeps_copy
  | remove => exact keeps_remove
  | _ => exact absurd rfl hquiet

/-! ### Stores into strings -/

/-- The string into which a store goes, if it is another one afterwards. -/
def Overwritten (m m₁ : Machine) (id : ObjectId) : Prop :=
  m.stack.peek? 2 = some (.scalar (.str ⟨id⟩)) ∧
    m₁.heap.get? (⟨id⟩ : Ref .string) ≠ m.heap.get? (⟨id⟩ : Ref .string)

/-- The next instruction stores into a string and makes it another one. -/
def Overwrites (m m₁ : Machine) (id : ObjectId) : Prop :=
  m.nextOpcode? = some .setIndex ∧ m.Overwritten m₁ id

/-- A store into a container writes over that container only if it is a string. -/
lemma storeIndex_kept (index value : Value) (m : Machine) (journal : Journal) :
    (onHeap (Container.setIndex ((m.stack.peek? 2).getD .null) index value) m journal).Kept
      (fun strict m m₁ => Course (m.Overwritten m₁) strict m m₁) m := by
  by_cases htext : ∃ ref, m.stack.peek? 2 = some (.scalar (.str ref))
  · obtain ⟨ref, hpeek⟩ := htext
    have hcourse : ∀ {strict heap},
        Heap.Course (Heap.Rewrites ref m.heap heap) strict m.heap heap →
        Course (m.Overwritten { m with heap := heap }) strict m { m with heap := heap } := by
      refine fun hc hs hi => (course_of_heap hc hs hi).mono ?_
      rintro _ ⟨rfl, hne⟩
      exact ⟨hpeek, hne⟩
    rw [hpeek]
    refine (ends_onHeap (Container.setIndex_text_kept ref index value m.heap journal)).imp ?_ ?_
      fun _ => id
    · rintro _ _ ⟨heap, rfl, hc⟩
      exact hcourse hc
    · rintro _ _ ⟨heap, rfl, hc⟩
      exact hcourse hc
  · have hne : ∀ ref, (m.stack.peek? 2).getD .null ≠ .scalar (.str ref) := by
      intro ref heq
      cases hpeek : m.stack.peek? 2 with
      | none => rw [hpeek] at heq; cases heq
      | some container =>
          rw [hpeek] at heq
          exact htext ⟨ref, hpeek.trans (congrArg some heq)⟩
    have hnone : ∀ {strict m₁}, Course (fun _ => False) strict m m₁ →
        Course (m.Overwritten m₁) strict m m₁ := fun hc hs hi => (hc hs hi).mono fun _ => False.elim
    exact (kept_onHeap (Container.keeps_setIndex hne index value m.heap journal)).imp
      (fun _ _ => hnone) (fun _ _ => hnone) fun _ => id

/-- After a store the value takes the place of the operands. -/
lemma within_replaceOperands (value : Value) : (do
    let length := (← get).stack.length
    if length < 3 then Action.abort .wordOverflow
    truncate (length - 3)
    push value : Action Machine Unit).Within Untouched :=
  within_get.bind fun _ => Within.ite ((within_abort _).bind fun _ => (within_truncate _).bind
    fun _ => within_push value) ((within_truncate _).bind fun _ => within_push value)

lemma setIndex_kept (m : Machine) (journal : Journal) : (setIndex m journal).Kept
    (fun strict m m₁ => Course (m.Overwritten m₁) strict m m₁) m := by
  -- What follows the store leaves the heap as it is.
  have hafter : ∀ {strict m₁ m₂}, Course (m.Overwritten m₁) True m m₁ → Untouched m₁ m₂ →
      Course (m.Overwritten m₂) strict m m₂ := by
    intro strict m₁ m₂ hc hu hs hi
    refine Turns.mono ((Lenient.relax hc hs hi).tail
      (.other m₁.heap.memory.grants hu.heap hu.globals)) ?_
    rintro id ⟨hpeek, hne⟩
    exact ⟨hpeek, hu.heap ▸ hne⟩
  rw [setIndex, peek_bind, peek_bind, peek_bind]
  refine Outcome.Ends.bind (storeIndex_kept _ _ m journal) fun _ m₁ journal₁ hc => ?_
  exact (within_replaceOperands _ m₁ journal₁).imp (fun _ _ => hafter hc) (fun _ _ => hafter hc)
    fun _ => id

/-- The global variables are the same, and so are all tables of objects. -/
structure SameTables (m m₁ : Machine) : Prop where
  globals : m₁.globals = m.globals
  heap : ∀ id, m₁.heap.table? id = m.heap.table? id

lemma setIndex_tables {ref : Ref .string} (hs : m.heap.Sound)
    (hpeek : m.stack.peek? 2 = some (.scalar (.str ref))) (journal : Journal) :
    (setIndex m journal).Ends (fun _ => SameTables m) (fun _ => SameTables m) fun _ => True := by
  have hstore : ∀ index value, (onHeap (Container.setIndex (.scalar (.str ref)) index value) m journal).Ends
      (fun _ => SameTables m) (fun _ => SameTables m) fun _ => True := by
    intro index value
    refine (ends_onHeap (Container.setIndex_text_tables hs ref index value journal)).imp ?_ ?_ fun _ => id
    · rintro _ _ ⟨heap, rfl, htables⟩
      exact ⟨rfl, htables⟩
    · rintro _ _ ⟨heap, rfl, htables⟩
      exact ⟨rfl, htables⟩
  rw [setIndex, peek_bind, peek_bind, peek_bind, hpeek]
  refine (hstore _ _).bind fun _ m₁ journal₁ htables => ?_
  have hrest : ∀ {m₂}, Untouched m₁ m₂ → SameTables m m₂ := fun hu =>
    ⟨hu.globals.trans htables.globals, fun id => hu.heap ▸ htables.heap id⟩
  exact (within_replaceOperands _ m₁ journal₁).imp (fun _ _ => hrest) (fun _ _ => hrest) fun _ => id

/-- A string that is a key can be stored into, and the tables do not notice. -/
lemma step_tables {id : ObjectId} (hs : m.heap.Sound) (hover : m.Overwrites m₁ id)
    {journal : Journal} (hrun : (step host m journal).state? = some m₁) : SameTables m m₁ := by
  obtain ⟨hop, hpeek, -⟩ := hover
  obtain ⟨journal', hstep⟩ := step_of_next host hop journal
  have hends : (step host m journal).Ends (fun _ => SameTables m) (fun _ => SameTables m)
      fun _ => True := by
    have hstore := setIndex_tables (m := m.movedTo (m.frame.ip + 1)) hs hpeek journal'
    rw [hstep, if_neg (by decide), execute]
    exact Outcome.Ends.bind (hstore.imp (fun _ _ h => ⟨h.globals, h.heap⟩)
      (fun _ _ h => ⟨h.globals, h.heap⟩) fun _ h => h) fun _ _ _ htables => htables
  exact hends.of_state? hrun

/-- An instruction takes turns, and writes no string but the one that it stores
into. -/
lemma step_kept (horderly : host.Orderly) (m : Machine) (journal : Journal) :
    (step host m journal).Kept (fun strict m m₁ => Course (m.Overwrites m₁) strict m m₁) m := by
  have hnone : ∀ {strict m₁}, Course (fun _ => False) strict (m.movedTo (m.frame.ip + 1)) m₁ →
      Course (m.Overwrites m₁) strict m m₁ := fun hc hs hi =>
    (hc.of_movedTo hs hi).mono fun _ => False.elim
  refine step_ends (fun _ journal => ?_) (fun op _ hop journal => ?_) journal
  · exact (keeps_ret _ journal).imp (fun _ _ => hnone) (fun _ _ => hnone) fun _ => id
  · by_cases hstore : op = .setIndex
    · subst hstore
      have hsome : ∀ {strict m₁}, Course ((m.movedTo (m.frame.ip + 1)).Overwritten m₁) strict
          (m.movedTo (m.frame.ip + 1)) m₁ → Course (m.Overwrites m₁) strict m m₁ := fun hc hs hi =>
        (hc.of_movedTo hs hi).mono fun _ hover => ⟨hop, hover⟩
      exact (setIndex_kept _ journal).imp (fun _ _ => hsome) (fun _ _ => hsome) fun _ => id
    · exact (keeps_execute horderly op hstore _ journal).imp (fun _ _ => hnone) (fun _ _ => hnone)
        fun _ => id

/-! ### Uses -/

lemma keeps_defineNative (native : Native) : (defineNative native).Keeps (Course written) := by
  have halloc : (Heap.alloc .native native).Keeps (Heap.Course written) :=
    Heap.keeps_alloc trivial nofun
  refine (keeps_onHeap halloc).bind fun ref =>
    (keeps_onHeap (Heap.keeps_insertText native.name true)).bind fun name => keeps_get.bind fun _ =>
      Keeps.bind (keeps_modify fun _ => ?_) fun _ m journal => ?_
  · exact course_of_eq rfl rfl
  · rw [get_bind]
    exact kept_lift_bind fun record hread => kept_bind
      (kept_insertGlobal (current_of_read hread) _ journal) fun _ m₁ journal₁ _ =>
        keeps_pure _ m₁ journal₁

lemma keeps_defineNatives (natives : List Native) :
    (defineNatives natives).Keeps (Course written) := by
  induction natives with
  | nil => exact keeps_pure ()
  | cons native natives ih => exact (keeps_defineNative native).bind fun _ => ih

lemma keeps_reset : reset.Keeps (Course written) := by
  refine (keeps_closeUpvalues 0).bind fun _ => keeps_modify fun _ => ?_
  exact course_of_eq rfl rfl

lemma keeps_start (function : Ref .function) : (start function).Keeps (Course written) := by
  refine (keeps_of_untouched (within_push _)).bind fun _ =>
    (keeps_allocBare (k := .closure) trivial rfl).bind fun closure =>
      (keeps_of_untouched (within_onStack _)).bind fun _ =>
        (keeps_of_untouched (within_push _)).bind fun _ => keeps_modify fun _ => ?_
  exact course_of_eq rfl rfl

/-- Whatever a program is loaded with and the machine is used for. -/
lemma Use.keeps {α : Type} {action : Action Machine α} (hu : Use Loading action) :
    action.Keeps (Course written) := by
  cases hu with
  | special loading =>
      cases loading with
      | function function =>
          have halloc : (Heap.alloc .function function).Keeps (Heap.Course written) :=
            Heap.keeps_alloc trivial nofun
          exact keeps_onHeap halloc
      | text text pinned => exact keeps_onHeap (Heap.keeps_insertText text pinned)
      | grant grants => exact fun _ _ _ _ => .single (.other grants rfl rfl)
  | defineNative native => exact keeps_defineNative native
  | settings config threshold console => exact keeps_modify fun _ => course_of_eq rfl rfl
  | collectGarbage => exact keeps_collectGarbage
  | start function => exact keeps_start function
  | reset => exact keeps_reset

/-- A machine without objects and global variables. -/
structure Blank (m : Machine) : Prop where
  sound : m.heap.Sound
  idle : m.heap.Idle
  find? : ∀ id, m.heap.find? id = none
  globals : m.globals.IsNew

lemma blank_of_bare {config : Config} {grants : Nat → Bool} (hbare : bare config grants = .ok m) :
    m.Blank := by
  obtain ⟨heap, hheap, hbare⟩ := Result.exists_of_bind_ok hbare
  obtain ⟨globals, hglobals, hbare⟩ := Result.exists_of_bind_ok hbare
  cases hbare
  exact ⟨Heap.sound_of_create hheap, Heap.idle_of_create hheap, Heap.find?_of_create hheap,
    ⟨_, hglobals⟩⟩

/-- A machine begins without objects and global variables, and then gets its native
functions. -/
lemma turns_of_create {config : Config} {grants : Nat → Bool} {journal journal' : Journal}
    (created : create config grants journal = .ok (m, journal')) :
    ∃ new : Machine, new.Blank ∧ Turns written True new m := by
  obtain ⟨new, hbare, hcreate⟩ := Result.exists_of_bind_ok created
  have hblank := blank_of_bare hbare
  refine ⟨new, hblank, ?_⟩
  have hkept : (defineNatives Native.builtins new journal).Kept (Course written) new :=
    keeps_defineNatives _ new journal
  cases hrun : defineNatives Native.builtins new journal with
  | done value m₁ journal₁ =>
      rw [hrun] at hcreate
      cases hcreate
      exact hkept.of_done hrun hblank.sound hblank.idle
  | raised error m₁ journal₁ => rw [hrun] at hcreate; cases hcreate
  | aborted fault => rw [hrun] at hcreate; cases hcreate

end Machine

end ScriptMachine
