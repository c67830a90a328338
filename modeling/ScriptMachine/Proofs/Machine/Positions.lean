import ScriptMachine.Proofs.Machine.Anchors
import ScriptMachine.Proofs.Machine.Constants

/-!
Where an instruction stands in the code when it raises an error.

An instruction fetches its operands before it does anything that can fail. Only the
instruction that makes a closure goes on fetching in between: for each variable it fetches
two words, and then it captures the variable.

* `Opcode.operands`: the operands of an instruction;
* `RaisesAfter`: errors are raised after so many words, among the same calls;
* `captureMany_ends`: captures, which fetch two words each;
* `Extent`: how far an instruction that raises an error has fetched;
* `step_extent`: that far it has come.
-/

namespace ScriptMachine

/-- The number of operands of an instruction. Behind the operand of `closure` stand the places of
the captured variables. -/
def Opcode.operands : Opcode → Nat
  | .jumpCase | .invoke | .newArray => 2
  | .constant | .popMany | .getLocal | .setLocal | .getGlobal | .defineGlobal | .setGlobal
  | .deleteGlobal | .getUpvalue | .setUpvalue | .getProperty | .setProperty | .getNative | .getClass
  | .jump | .jumpIfFalse | .jumpIfTrue | .jumpIfNull | .jumpIfNotNull | .jumpList | .loop | .call
  | .closure | .defineClass | .defineMethod => 1
  | _ => 0

namespace Machine

open ScriptMachine.Action

variable {host : Host} {m m₁ m₂ : Machine} {α β : Type} {count : Nat} {f : Function}

/-! ### Positions -/

/-- The calls in progress are the same, and the position in the code too. -/
structure Unmoved (m m₁ : Machine) : Prop where
  frames : m₁.frames = m.frames
  frame : m₁.frame = m.frame

/-- The calls in progress are the same, and so many words were fetched. -/
structure Advanced (count : Nat) (m m₁ : Machine) : Prop where
  frames : m₁.frames = m.frames
  frame : m₁.frame = { m.frame with ip := m.frame.ip + count }
  words : ∀ i < count, (m.wordAt? (m.frame.ip + i)).isSome

instance : IsPreorder Machine Unmoved where
  refl _ := ⟨rfl, rfl⟩
  trans _ _ _ h h₁ := ⟨h₁.frames.trans h.frames, h₁.frame.trans h.frame⟩

instance : Loose Unmoved := ⟨fun h => ⟨h.frames, h.frame⟩⟩

lemma unmoved_heap (action : Action Heap α) : action.Within (OnHeaps Unmoved) :=
  (within_any action).imp fun _ _ _ _ _ => ⟨rfl, rfl⟩

instance : Minds Unmoved where
  of_eq _ _ hframes hframe := ⟨hframes, hframe⟩
  primitive _ := unmoved_heap _
  collectGarbage := loose_collectGarbage
  capture := loose_capture

lemma Unmoved.advanced (h : Unmoved m m₁) : Advanced 0 m m₁ :=
  ⟨h.frames, h.frame, fun _ hi => absurd hi (Nat.not_lt_zero _)⟩

/-- Fetching goes on in the same code. -/
lemma Advanced.trans {next : Nat} (h : Advanced count m m₁) (h₁ : Advanced next m₁ m₂)
    (hcode : ∀ ip, m₁.wordAt? ip = m.wordAt? ip) : Advanced (count + next) m m₂ := by
  refine ⟨h₁.frames.trans h.frames, ?_, fun i hi => ?_⟩
  · rw [h₁.frame, h.frame, Nat.add_assoc]
  · by_cases hlt : i < count
    · exact h.words i hlt
    · have hword := h₁.words (i - count) (by omega)
      rw [hcode, h.frame] at hword
      rwa [show m.frame.ip + i = m.frame.ip + count + (i - count) by omega]

lemma advanced_of_word {word : UInt16} (hword : m.wordAt? m.frame.ip = some word) :
    Advanced 1 m (m.movedTo (m.frame.ip + 1)) := by
  refine ⟨rfl, rfl, fun i hi => ?_⟩
  rw [Nat.lt_one_iff.mp hi, Nat.add_zero, hword]
  rfl

/-- After its first word, an instruction raises errors where its rest does. -/
lemma Advanced.behind {word : UInt16} (h : Advanced count (m.movedTo (m.frame.ip + 1)) m₁)
    (hword : m.wordAt? m.frame.ip = some word) : Advanced (count + 1) m m₁ := by
  rw [Nat.add_comm]
  exact (advanced_of_word hword).trans h fun _ => rfl

/-! ### Errors after operands -/

/-- If the action raises an error, it has fetched so many words. -/
def RaisesAfter (count : Nat) (action : Action Machine α) : Prop :=
  ∀ m journal, (action m journal).Ends (fun _ _ => True) (fun _ m₁ => Advanced count m m₁)
    fun _ => True

/-- The action looks something up and raises no error. -/
def Looks (action : Action Machine α) : Prop :=
  ∀ m journal, (action m journal).Ends (fun _ m₁ => m₁ = m) (fun _ _ => False) fun _ => True

lemma looks_read {k : Kind} (h : Heap) (ref : Ref k) :
    Looks (liftM (h.read ref) : Action Machine k.Content) := by
  intro m journal
  cases hget : h.get? ref with
  | none =>
      rw [Heap.read_of_none hget]
      trivial
  | some content =>
      rw [Heap.read_of_get? hget]
      rfl

lemma Looks.bind {first : Action Machine α} {next : α → Action Machine β} (h : Looks first)
    (hnext : ∀ value, Looks (next value)) : Looks (first >>= next) := by
  intro m journal
  refine (h m journal).bind ?_
  rintro value _ journal₁ rfl
  exact hnext value _ journal₁

lemma looks_pure (value : α) : Looks (pure value : Action Machine α) := fun _ _ => rfl

lemma looks_get : Looks get := fun _ _ => rfl

lemma looks_running : Looks running := looks_get.bind fun _ => looks_read _ _

section Operands

variable {first : Action Machine α} {next : α → Action Machine β}

lemma raises_of_unmoved (h : first.Within Unmoved) : RaisesAfter 0 first := fun m journal =>
  (h m journal).imp (fun _ _ _ => trivial) (fun _ _ => Unmoved.advanced) fun _ => id

lemma raises_bind (h : first.Within Unmoved) (hnext : ∀ value, RaisesAfter 0 (next value)) :
    RaisesAfter 0 (first >>= next) := by
  intro m journal
  refine Outcome.Ends.bind ((h m journal).imp (fun _ _ h => h) (fun _ _ => Unmoved.advanced)
    fun _ => id) fun value m₁ journal₁ hfirst => ?_
  refine (hnext value m₁ journal₁).imp (fun _ _ => id) (fun _ m₂ h => ?_) fun _ => id
  exact Unmoved.advanced (trans_of Unmoved hfirst ⟨h.frames, h.frame⟩)

lemma raises_look (h : Looks first) (hnext : ∀ value, RaisesAfter count (next value)) :
    RaisesAfter count (first >>= next) := by
  intro m journal
  refine (h m journal).unraised.bind ?_
  rintro value _ journal₁ rfl
  exact hnext value _ journal₁

lemma raises_fetch {next : UInt16 → Action Machine β}
    (hnext : ∀ word, RaisesAfter count (next word)) :
    RaisesAfter (count + 1) (fetch >>= next) := by
  intro m journal
  refine (fetch_ends m journal).unraised.bind ?_
  rintro word _ journal₁ ⟨hword, rfl⟩
  exact (hnext word _ journal₁).imp (fun _ _ => id) (fun _ _ h => h.behind hword) fun _ => id

lemma raises_fetchNat {next : Nat → Action Machine β}
    (hnext : ∀ number, RaisesAfter count (next number)) :
    RaisesAfter (count + 1) (fetchNat >>= next) := by
  rw [fetchNat, bind_assoc]
  exact raises_fetch fun word => hnext word.toNat

lemma raises_fetchConstant {next : Value → Action Machine β}
    (hnext : ∀ value, RaisesAfter count (next value)) :
    RaisesAfter (count + 1) (fetchConstant >>= next) := by
  simp only [fetchConstant, bind_assoc]
  exact raises_fetchNat fun _ => raises_look looks_running fun _ => hnext _

lemma raises_fetchName {next : Ref .string × Key → Action Machine β}
    (hnext : ∀ name, RaisesAfter count (next name)) :
    RaisesAfter (count + 1) (fetchName >>= next) := by
  rw [fetchName, bind_assoc]
  refine raises_fetchConstant fun value => raises_look ?_ hnext
  split
  · exact looks_get.bind fun _ => (looks_read _ _).bind fun _ => looks_pure _
  · exact fun _ _ => trivial

end Operands

/-! ### Instructions -/

/-- An instruction without operands does not move in the code. -/
lemma unmoved_execute (op : Opcode) (hop : op.operands = 0) : (execute host op).Within Unmoved := by
  cases op with
  | pushNull | pushTrue | pushFalse => exact within_push _
  | pop => exact within_pop.bind fun _ => within_pure ()
  | dup => exact (within_peek 0).bind fun value => within_push value
  | add => exact within_add
  | sub | mul | div | mod => exact within_binary _
  | eq | ne | strictEq | strictNe => exact within_equality _ _
  | lt | le | gt | ge => exact within_ordering _ _
  | and | or => exact within_logical _
  | neg | not | inc | dec =>
      rw [execute]
      exact within_unary _
  | closeUpvalue => exact within_closeTop_of loose_closeUpvalues
  | ret => exact within_pure ()
  | print => exact within_print
  | newTable => exact within_newTable
  | newStack => exact within_newStack
  | newVector => exact within_newVector
  | getIndex => exact within_getIndex
  | setIndex => exact fun m journal => setIndex_ends (fun _ _ _ _ => unmoved_heap _) journal
  | length => exact within_length
  | pushValue => exact within_pushValue
  | popValue => exact within_popValue
  | copy => exact within_copy
  | remove => exact within_remove
  | each => exact within_each
  | _ => cases hop

lemma raises_callClosure (ref : Ref .closure) (count : Nat) :
    RaisesAfter 0 (callClosure ref count) := fun m journal =>
  (callClosure_opens ref count m journal).imp (fun _ _ _ => trivial)
    (fun _ _ h => Unmoved.advanced (h ▸ refl_of Unmoved m)) fun _ => id

lemma raises_callClass (ref : Ref .cls) (count : Nat) : RaisesAfter 0 (callClass ref count) := by
  refine raises_bind (loose_alloc (k := .inst) _) fun _ =>
    raises_bind (within_setPeek count _) fun _ => raises_bind within_get fun _ =>
      raises_bind (within_lift _) fun _ => ?_
  split
  · exact raises_callClosure _ count
  · exact raises_of_unmoved (within_lift _)

lemma raises_callValue (callee : Value) (count : Nat) :
    RaisesAfter 0 (callValue host callee count) := by
  cases callee with
  | closure ref => exact raises_callClosure ref count
  | native ref =>
      exact raises_of_unmoved (within_callNative (fun _ _ => unmoved_heap _) ref count)
  | cls ref => exact raises_callClass ref count
  | _ =>
      exact raises_of_unmoved (within_get.bind fun _ => (within_lift _).bind fun _ =>
        within_raise _)

lemma raises_invoke : RaisesAfter 2 (invoke host) := by
  refine raises_fetchName fun name => raises_fetchNat fun count =>
    raises_bind (within_peek count) fun _ => raises_bind (within_asInstance _ _) fun _ =>
      raises_bind within_get fun _ => raises_bind (within_lift _) fun _ =>
        raises_bind (within_lift _) fun found => ?_
  cases found with
  | some field =>
      exact raises_bind (within_setPeek count field) fun _ => raises_callValue field count
  | none => exact raises_bind (within_lift _) fun _ => raises_callValue _ count

lemma raises_skip (offset : Nat) : RaisesAfter 0 (skip offset) := fun _ _ => trivial

lemma raises_jumpIf (test : Value → Bool) : RaisesAfter 1 (jumpIf test) := by
  refine raises_fetchNat fun offset => raises_bind (within_peek 0) fun value => ?_
  split
  · exact raises_skip offset
  · exact raises_of_unmoved (within_pure ())

lemma raises_jumpList : RaisesAfter 1 jumpList := by
  refine raises_fetchNat fun index => raises_look looks_running fun function => ?_
  split
  · exact fun _ _ => trivial
  · exact fun _ _ => trivial

lemma raises_loop : RaisesAfter 1 loop := by
  refine raises_fetchNat fun offset => raises_look looks_get fun m => ?_
  dsimp only
  split
  · exact fun _ _ => trivial
  · exact fun _ _ => trivial

lemma raises_getGlobal : RaisesAfter 1 getGlobal := by
  refine raises_fetchName fun name => raises_of_unmoved (within_get.bind fun _ =>
    (within_lift _).bind fun found => ?_)
  cases found with
  | some value => exact within_push value
  | none => exact within_notDefined _

lemma raises_setGlobal : RaisesAfter 1 setGlobal := by
  refine raises_fetchName fun name => raises_of_unmoved (within_get.bind fun _ =>
    (within_lift _).bind fun found => ?_)
  cases found with
  | some value =>
      exact (within_peek 0).bind fun _ => (loose_onGlobals _).bind fun _ => within_pure ()
  | none => exact within_notDefined _

lemma raises_deleteGlobal : RaisesAfter 1 deleteGlobal := by
  refine raises_fetchName fun name => raises_of_unmoved ((loose_onGlobals _).bind fun found => ?_)
  cases found with
  | some value => exact within_pure ()
  | none => exact within_notDefined _

lemma raises_getUpvalue : RaisesAfter 1 getUpvalue := by
  refine raises_fetchNat fun index => raises_of_unmoved ((within_upvalue index).bind fun ref =>
    within_get.bind fun _ => (within_lift _).bind fun content => ?_)
  cases content with
  | opened slot => exact within_push _
  | closed value => exact within_push value

lemma raises_setUpvalue : RaisesAfter 1 setUpvalue := by
  refine raises_fetchNat fun index => raises_of_unmoved ((within_upvalue index).bind fun ref =>
    (within_peek 0).bind fun value => within_get.bind fun _ =>
      (within_lift _).bind fun content => ?_)
  cases content with
  | opened slot => exact within_onStack _
  | closed old => exact loose_onHeap _

lemma raises_defineMethod : RaisesAfter 1 defineMethod := by
  refine raises_fetchName fun name => raises_of_unmoved ((within_peek 1).bind fun cls =>
    (within_peek 0).bind fun method => ?_)
  split
  case h_1 ref method =>
    have hrest : (do
        onHeap (Heap.resize ref.id)
        let _ ← pop : Action Machine Unit).Within Unmoved :=
      (loose_onHeap _).bind fun _ => within_pop.bind fun _ => within_pure ()
    refine (loose_onHeap _).bind fun _ => within_get.bind fun _ => (within_lift _).bind fun text =>
      Within.ite ?_ hrest
    exact within_get.bind fun _ => (within_lift _).bind fun _ =>
      (loose_onHeap _).bind fun _ => hrest
  case h_2 => exact within_abort _

lemma raises_newArray : RaisesAfter 2 newArray := by
  refine raises_fetch fun word => ?_
  cases ArrayKind.ofWord? word with
  | none => exact fun _ _ => trivial
  | some kind =>
      refine raises_fetchNat fun count => raises_of_unmoved (within_get.bind fun _ => ?_)
      refine Within.ite ((within_abort _).bind fun _ => ?_) ?_
      all_goals
        exact loose_collectIfNeeded.bind fun _ => (loose_onHeap _).bind fun _ =>
          within_get.bind fun _ => (loose_onHeap _).bind fun _ =>
            (within_truncate _).bind fun _ => within_push _

lemma raises_ret : RaisesAfter 0 ret := by
  refine raises_bind within_pop fun _ => raises_bind within_get fun _ =>
    raises_bind (loose_closeUpvalues _) fun _ => raises_bind (within_truncate _) fun _ =>
      raises_look looks_get fun m => ?_
  split
  · exact fun _ _ => trivial
  · exact fun _ _ => trivial

/-- Operands are fetched before anything can fail. -/
lemma raises_execute (op : Opcode) (hop : op ≠ .closure) :
    RaisesAfter op.operands (execute host op) := by
  -- without operands the instruction pointer stays; the others fetch first and fail later
  by_cases hnone : op.operands = 0
  · rw [hnone]
    exact raises_of_unmoved (unmoved_execute op hnone)
  cases op with
  | constant => exact raises_fetchConstant fun _ => raises_of_unmoved (within_push _)
  | popMany =>
      exact raises_fetchNat fun _ => raises_of_unmoved (within_get.bind fun _ => within_truncate _)
  | getLocal =>
      exact raises_fetchNat fun _ => raises_of_unmoved (within_get.bind fun _ =>
        within_get.bind fun _ => within_push _)
  | setLocal =>
      exact raises_fetchNat fun _ => raises_of_unmoved (within_get.bind fun _ =>
        (within_peek 0).bind fun _ => within_onStack _)
  | getGlobal => exact raises_getGlobal
  | defineGlobal =>
      exact raises_fetchName fun _ => raises_of_unmoved (within_pop.bind fun _ =>
        (loose_onGlobals _).bind fun _ => within_pure ())
  | setGlobal => exact raises_setGlobal
  | deleteGlobal => exact raises_deleteGlobal
  | getUpvalue => exact raises_getUpvalue
  | setUpvalue => exact raises_setUpvalue
  | getProperty =>
      exact raises_fetchName fun _ => raises_of_unmoved ((within_peek 0).bind fun _ =>
        (within_asInstance _ _).bind fun _ => within_get.bind fun _ => (within_lift _).bind fun _ =>
          within_setPeek 0 _)
  | setProperty =>
      exact raises_fetchName fun _ => raises_of_unmoved ((within_peek 0).bind fun _ =>
        (within_peek 1).bind fun _ => (within_asInstance _ _).bind fun _ =>
          (loose_onHeap _).bind fun _ => (loose_onHeap _).bind fun _ => within_pop.bind fun _ =>
            within_setPeek 0 _)
  | getNative | getClass =>
      exact raises_fetchNat fun _ => raises_of_unmoved (within_get.bind fun _ => within_push _)
  | jump => exact raises_fetchNat raises_skip
  | jumpIfFalse | jumpIfTrue | jumpIfNull | jumpIfNotNull => exact raises_jumpIf _
  | jumpCase =>
      exact raises_fetchNat fun _ => raises_fetchNat fun _ => raises_bind (within_peek 0) fun _ =>
        raises_skip _
  | jumpList => exact raises_jumpList
  | loop => exact raises_loop
  | call =>
      exact raises_fetchNat fun count => raises_bind (within_peek count) fun callee =>
        raises_callValue callee count
  | invoke => exact raises_invoke
  | closure => exact absurd rfl hop
  | defineClass =>
      exact raises_fetchName fun _ => raises_of_unmoved ((loose_alloc (k := .cls) _).bind fun _ =>
        Within.bind (within_modify fun _ => ⟨rfl, rfl⟩) fun _ => within_push _)
  | defineMethod => exact raises_defineMethod
  | newArray => exact raises_newArray
  | _ => exact absurd rfl hnone

/-! ### Captures -/

/-- Reads the place of a captured variable and captures it. -/
def captureOne : Action Machine (Ref .upvalue) := do
  let isLocal ← fetch
  let index ← fetchNat
  if isLocal ≠ 0 then capture ((← get).frame.base + index) else upvalue index

lemma captureMany_succ (count : Nat) (refs : Array (Ref .upvalue)) :
    captureMany (count + 1) refs = captureOne >>= fun ref => captureMany count (refs.push ref) := by
  simp only [captureMany, captureOne, bind_assoc]
  refine bind_congr fun isLocal => bind_congr fun index => ?_
  split <;> simp only [bind_assoc]

/-- The place of a variable is two words, whether it can be captured or not. -/
lemma captureOne_ends (m : Machine) (journal : Journal) :
    (captureOne m journal).Ends (fun _ m₁ => Advanced 2 m m₁) (fun _ m₁ => Advanced 2 m m₁)
      fun _ => True := by
  rw [captureOne]
  refine (fetch_ends m journal).unraised.bind ?_
  rintro isLocal _ journal₁ ⟨hfirst, rfl⟩
  refine (fetchNat_ends _ journal₁).unraised.bind ?_
  rintro index _ journal₂ ⟨word, hsecond, -, rfl⟩
  have hcapture : Within Unmoved (if isLocal ≠ 0 then do capture ((← get).frame.base + index)
      else upvalue index : Action Machine (Ref .upvalue)) :=
    Within.ite (within_get.bind fun _ => Minds.capture _) (within_upvalue index)
  have hadvanced : ∀ m₁, Unmoved ((m.movedTo (m.frame.ip + 1)).movedTo (m.frame.ip + 1 + 1)) m₁ →
      Advanced 2 m m₁ := fun m₁ h => (h.advanced.behind hsecond).behind hfirst
  exact (hcapture _ journal₂).imp (fun _ => hadvanced) (fun _ => hadvanced) fun _ => id

lemma abides_captureOne : captureOne.Within Abides := by
  refine within_fetch.bind fun isLocal => within_fetchNat.bind fun index => ?_
  exact Within.ite (within_get.bind fun _ => Minds.capture _) (within_upvalue index)

/-- The running function is the same, and so is its code. -/
lemma Abides.wordAt?_eq (h : Abides m m₁) (hs : m.heap.Sound) (hi : m.heap.Idle)
    (hr : m.frame.Runs m.heap f) (ip : Nat) : m₁.wordAt? ip = m.wordAt? ip := by
  rw [wordAt?, wordAt?, (h.runs hs hi hr).function, hr.function]

/-- Some captures are begun. All but the last of them succeed, and if there were more to come, the
last one raises an error. -/
structure CapturesUpTo (total count : Nat) (refs : Array (Ref .upvalue)) (m : Machine)
    (journal : Journal) : Prop where
  le : count ≤ total
  before : ∀ i < count, (captureMany i refs m journal).done?.isSome
  last : count < total → ∃ error m₁ journal₁, captureMany count refs m journal =
    .raised error m₁ journal₁

lemma CapturesUpTo.succ {total : Nat} {refs : Array (Ref .upvalue)} {ref : Ref .upvalue}
    {journal journal₁ : Journal} (h : CapturesUpTo total count (refs.push ref) m₁ journal₁)
    (hone : captureOne m journal = .done ref m₁ journal₁) :
    CapturesUpTo (total + 1) (count + 1) refs m journal := by
  have hmany : ∀ i, captureMany (i + 1) refs m journal =
      captureMany i (refs.push ref) m₁ journal₁ := by
    intro i
    rw [captureMany_succ, bind_of_done hone]
  refine ⟨Nat.succ_le_succ h.le, fun i hi => ?_, fun hlt => ?_⟩
  · cases i with
    | zero => rfl
    | succ i =>
        rw [hmany]
        exact h.before i (Nat.lt_of_succ_lt_succ hi)
  · rw [hmany]
    exact h.last (Nat.lt_of_succ_lt_succ hlt)

lemma capturesUpTo_one {error : Error} {refs : Array (Ref .upvalue)} {journal journal₁ : Journal}
    (hone : captureOne m journal = .raised error m₁ journal₁) (total : Nat) :
    CapturesUpTo (total + 1) 1 refs m journal := by
  refine ⟨Nat.succ_le_succ (Nat.zero_le _), fun i hi => ?_, fun _ => ⟨error, m₁, journal₁, ?_⟩⟩
  · rw [Nat.lt_one_iff.mp hi]
    rfl
  · rw [captureMany_succ, bind_apply, hone]

/-- Each capture that is begun has fetched its two words. -/
lemma captureMany_ends (total : Nat) (refs : Array (Ref .upvalue)) (hs : m.heap.Sound)
    (hi : m.heap.Idle) (hr : m.frame.Runs m.heap f) (journal : Journal) :
    (captureMany total refs m journal).Ends
      (fun _ m₁ => CapturesUpTo total total refs m journal ∧ Advanced (2 * total) m m₁)
      (fun _ m₁ => ∃ count, CapturesUpTo total count refs m journal ∧ Advanced (2 * count) m m₁)
      fun _ => True := by
  induction total generalizing refs m journal with
  | zero =>
      refine ⟨⟨Nat.le_refl 0, fun _ h => ?_, fun h => ?_⟩, (refl_of Unmoved m).advanced⟩
      all_goals exact absurd h (Nat.not_lt_zero _)
  | succ total ih =>
      rw [captureMany_succ, bind_apply]
      have hends := captureOne_ends m journal
      cases hone : captureOne m journal with
      | aborted fault => trivial
      | raised error m₁ journal₁ => exact ⟨1, capturesUpTo_one hone total, hends.of_raised hone⟩
      | done ref m₁ journal₁ =>
          -- A capture may collect garbage, but the code that is fetched from stays.
          have habides := (abides_captureOne m journal).of_done hone
          have ha := habides.anchors hs hi
          have hadvanced : ∀ {count m₂}, Advanced (2 * count) m₁ m₂ →
              Advanced (2 * (count + 1)) m m₂ := by
            intro count m₂ h
            rw [Nat.mul_succ, Nat.add_comm]
            exact (hends.of_done hone).trans h (habides.wordAt?_eq hs hi hr)
          have hrest := ih (refs.push ref) ha.sound ha.idle (habides.runs hs hi hr) journal₁
          refine hrest.imp ?_ ?_ fun _ => id
          · rintro _ m₂ ⟨hcaptures, h⟩
            exact ⟨hcaptures.succ hone, hadvanced h⟩
          · rintro _ m₂ ⟨count, hcaptures, h⟩
            exact ⟨count + 1, hcaptures.succ hone, hadvanced h⟩

/-! ### All instructions -/

/-- How many code words an instruction that raises an error has fetched. -/
inductive Extent (f : Function) (m : Machine) : Opcode → Nat → Prop
  /-- The instruction and its operands. -/
  | whole {op : Opcode} (other : op ≠ .closure) : Extent f m op (1 + op.operands)
  /-- The instruction, the number of a function, and two words for each capture that was begun. -/
  | captures {word : UInt16} {ref : Ref .function} {inner : Function} {count : Nat}
      {journal : Journal}
      (operand : f.chunk.code[m.frame.ip + 1]? = some word)
      (constant : f.chunk.constants.get? word.toNat = some (.function ref))
      (live : m.heap.get? ref = some inner)
      (begun : CapturesUpTo inner.upvalueCount count #[] (m.movedTo (m.frame.ip + 2)) journal) :
      Extent f m .closure (2 + 2 * count)

lemma fetchConstant_word (hf : m.heap.get? m.frame.function = some f) (journal : Journal) :
    (fetchConstant m journal).Ends
      (fun value m₁ => ∃ word, f.chunk.code[m.frame.ip]? = some word ∧
        value = (f.chunk.constants.get? word.toNat).getD .null ∧ m₁ = m.movedTo (m.frame.ip + 1))
      (fun _ _ => False) fun _ => True := by
  cases hword : f.chunk.code[m.frame.ip]? with
  | some word =>
      rw [fetchConstant_of_word hf hword]
      exact ⟨word, rfl, rfl, rfl⟩
  | none =>
      refine Outcome.Ends.bind (fetchNat_ends m journal) ?_
      rintro _ _ _ ⟨word, hsome, -⟩
      rw [wordAt?, hf, Option.bind_some, hword] at hsome
      cases hsome

/-- A closure cannot be made because a variable cannot be captured, or else in the end. -/
lemma makeClosure_ends (hs : m.heap.Sound) (hi : m.heap.Idle) (hr : m.frame.Runs m.heap f)
    (journal : Journal) :
    (makeClosure m journal).Ends (fun _ _ => True)
      (fun _ m₁ => ∃ word ref inner count journal, f.chunk.code[m.frame.ip]? = some word ∧
        f.chunk.constants.get? word.toNat = some (.function ref) ∧
        m.heap.get? ref = some (inner : Function) ∧
        CapturesUpTo inner.upvalueCount count #[] (m.movedTo (m.frame.ip + 1)) journal ∧
        Advanced (1 + 2 * count) m m₁)
      fun _ => True := by
  refine (fetchConstant_word hr.function journal).unraised.bind ?_
  rintro value _ journal₁ ⟨word, hword, hvalue, rfl⟩
  have hfirst : Advanced 1 m (m.movedTo (m.frame.ip + 1)) :=
    advanced_of_word (Option.bind_eq_some_iff.mpr ⟨f, hr.function, hword⟩)
  split
  case h_2 => trivial
  case h_1 ref =>
    have hconstant : f.chunk.constants.get? word.toNat = some (.function ref) := by
      cases hget : f.chunk.constants.get? word.toNat with
      | none => rw [hget] at hvalue; cases hvalue
      | some value => rw [hget] at hvalue; exact congrArg some hvalue.symm
    rw [get_bind]
    cases hinner : m.heap.get? ref with
    | none =>
        rw [movedTo_heap, Heap.read_of_none hinner]
        trivial
    | some inner =>
        rw [movedTo_heap, Heap.read_of_get? hinner, lift_ok, pure_bind]
        have hmany := captureMany_ends (m := m.movedTo (m.frame.ip + 1)) inner.upvalueCount #[]
          hs hi (hr.moved _) journal₁
        refine Outcome.Ends.bind (hmany.imp (fun _ _ h => h) ?_ fun _ => id) ?_
        -- an error while capturing: the words of the captures so far were fetched
        · rintro _ m₁ ⟨count, hcaptures, hadvanced⟩
          exact ⟨word, ref, inner, count, journal₁, hword, hconstant, hinner, hcaptures,
            hfirst.trans hadvanced fun _ => rfl⟩
        -- all captures are made, and only the new object can still fail
        · rintro upvalues m₁ journal₂ ⟨hcaptures, hadvanced⟩
          have hrest : (do push (.closure (← alloc .closure ⟨ref, upvalues⟩)) :
              Action Machine Unit).Within Unmoved :=
            (loose_alloc (k := .closure) _).bind fun _ => within_push _
          refine (hrest m₁ journal₂).imp (fun _ _ _ => trivial) (fun _ m₂ h => ?_) fun _ => id
          exact ⟨word, ref, inner, _, journal₁, hword, hconstant, hinner, hcaptures,
            hfirst.trans ⟨h.frames.trans hadvanced.frames, h.frame.trans hadvanced.frame,
              hadvanced.words⟩ fun _ => rfl⟩

/-- An instruction that raises an error has fetched its words that far. -/
lemma step_extent (hs : m.heap.Sound) (hi : m.heap.Idle) (hr : m.frame.Runs m.heap f)
    (journal : Journal) :
    (step host m journal).Ends (fun _ _ => True)
      (fun _ m₁ => ∃ op words, m.nextOpcode? = some op ∧ Extent f m op words ∧ Advanced words m m₁)
      fun _ => True := by
  have hfirst : ∀ {op}, m.nextOpcode? = some op → Advanced 1 m (m.movedTo (m.frame.ip + 1)) := by
    intro op hop
    obtain ⟨word, hword, -⟩ := Option.bind_eq_some_iff.mp (m.nextOpcode?_eq ▸ hop)
    exact advanced_of_word hword
  refine step_ends (fun hop journal => ?_) (fun op hret hop journal => ?_) journal
  · exact (raises_ret _ journal).imp (fun _ _ => id) (fun _ _ h =>
      ⟨.ret, 1, hop, .whole (by decide), (hfirst hop).trans h fun _ => rfl⟩) fun _ => id
  · by_cases hclosure : op = .closure
    · subst hclosure
      refine (makeClosure_ends (m := m.movedTo (m.frame.ip + 1)) hs hi (hr.moved _)
        journal).imp (fun _ _ => id) ?_ fun _ => id
      rintro _ m₁ ⟨word, ref, inner, count, journal₁, hword, hconstant, hinner, hcaptures,
        hadvanced⟩
      refine ⟨.closure, _, hop, .captures hword hconstant hinner hcaptures, ?_⟩
      have h := (hfirst hop).trans hadvanced fun _ => rfl
      rwa [← Nat.add_assoc] at h
    · exact (raises_execute op hclosure _ journal).imp (fun _ _ => id) (fun _ _ h =>
        ⟨op, _, hop, .whole hclosure, (hfirst hop).trans h fun _ => rfl⟩) fun _ => id

end Machine

end ScriptMachine
