import ScriptMachine.Proofs.Simulation.Variables

/-!
Instructions of machines that stand for each other.

An instruction takes linked machines to linked ones:

* `mayCollect_execute`: every instruction but a return;
* `Linked.step`: one step;
* `Linked.runFor`: any number of steps.
-/

namespace ScriptMachine

lemma Stack.get?_set {α : Type} [Inhabited α] {s : Stack α} {i : Nat} (hi : i < s.length) (x : α) :
    (s.set i x).2.get? i = some x := by
  obtain ⟨items, capacity⟩ := s
  have hi : i < items.size := hi
  rw [Stack.set, if_pos hi]
  simp [Stack.get?, hi]

namespace Machine

variable {w w' : World} {p : Phase} {m m₁ m' m₁' : Machine} {j j₁ j' j₁' : Journal}
  {v v' : Value} {host host' : Host}

/-! ### Operators -/

/-- An operation on two values. -/
lemma alike_binary {op op' : Heap → Value → Value → Result Value}
    (hop : ∀ {w h j h' j' a a' b b'}, Heap.Tied w h j h' j' → a.Rel w a' → b.Rel w b' →
      Result.Rel (Value.Rel w) (op h a b) (op' h' a' b')) :
    Alike (Tied .running) w (fun _ => Eq) (binary op) (binary op') := by
  refine alike_pop.bind fun w₁ b b' _ hb => (steered_tied.peek 0).bind fun w₂ a a' hle ha => ?_
  refine .get_bind fun w₃ m j m' j' hle' ht => ?_
  exact .lift_bind (hop ht.heap (ha.le hle') (hb.le (World.le_trans hle hle')))
    fun _ _ hv => alike_setPeek 0 hv

/-- An operation on one value. -/
lemma alike_unary {op op' : Heap → Value → Result Value}
    (hop : ∀ {w h j h' j' a a'}, Heap.Tied w h j h' j' → a.Rel w a' →
      Result.Rel (Value.Rel w) (op h a) (op' h' a')) :
    Alike (Tied .running) w (fun _ => Eq) (unary op) (unary op') := by
  refine (steered_tied.peek 0).bind fun w₁ a a' _ ha => .get_bind fun w₂ m j m' j' hle ht => ?_
  exact .lift_bind (hop ht.heap (ha.le hle)) fun _ _ hv => alike_setPeek 0 hv

lemma alike_scalarOp {op : Heap → Value → Value → Result Scalar}
    (hop : ∀ {w h j h' j' a a' b b'}, Heap.Tied w h j h' j' → a.Rel w a' → b.Rel w b' →
      Result.Rel (Scalar.Rel w) (op h a b) (op h' a' b')) :
    Alike (Tied .running) w (fun _ => Eq) (binary (scalarOp op)) (binary (scalarOp op)) :=
  alike_binary fun ht ha hb => (hop ht ha hb).bind fun _ _ hs => .ok (.scalar hs)

lemma alike_equality {op : Heap → Value → Value → Result Bool} (expected : Bool)
    (hop : ∀ {w h j h' j' a a' b b'}, Heap.Tied w h j h' j' → a.Rel w a' → b.Rel w b' →
      Result.Rel Eq (op h a b) (op h' a' b')) :
    Alike (Tied .running) w (fun _ => Eq) (equality op expected) (equality op expected) := by
  refine alike_binary fun ht ha hb => (hop ht ha hb).bind fun result _ hresult => ?_
  subst hresult
  exact .ok (Value.rel_ofBool _)

lemma alike_ordering (op : String) (accept : Ordering → Bool) :
    Alike (Tied .running) w (fun _ => Eq) (ordering op accept) (ordering op accept) := by
  refine alike_binary fun ht ha hb => (ht.compare? op ha hb).bind fun result _ hresult => ?_
  subst hresult
  exact .ok (Value.rel_ofBool _)

lemma alike_scalarUnary {op : Heap → Value → Result Scalar}
    (hop : ∀ {w h j h' j' a a'}, Heap.Tied w h j h' j' → a.Rel w a' →
      Result.Rel (Scalar.Rel w) (op h a) (op h' a')) :
    Alike (Tied .running) w (fun _ => Eq) (unary fun h a => return .scalar (← op h a))
      (unary fun h a => return .scalar (← op h a)) :=
  alike_unary fun ht ha => (hop ht ha).bind fun _ _ hs => .ok (.scalar hs)

lemma mayCollect_add : MayCollect (Tied .running) w (fun _ => Eq) add add := by
  refine .after (steered_snug.peek 0) fun w₁ b b' _ hb => ?_
  refine .after (steered_snug.peek 1) fun w₂ a a' hle ha => .get_bind fun w₃ m j m' j' hle' hs => ?_
  have hb := hb.le (World.le_trans hle hle')
  refine .lift_bind (hs.tied.heap.sum (ha.le hle') hb) fun sum sum' hsum => ?_
  cases hsum with
  | scalar hs =>
      exact .of_alike (alike_pop.bind fun _ _ _ hle _ => alike_setPeek 0 (.scalar (hs.le hle)))
  | text text =>
      refine .after alike_collectIfNeeded fun _ _ _ _ _ => ?_
      refine (MayCollect.join fun _ _ _ _ _ _ ht => ht.insertText text false).bind ?_
      exact fun _ _ _ _ hr => alike_pop.bind fun _ _ _ hle _ =>
        alike_setPeek 0 (.scalar (.str (hle.rel hr)))

lemma alike_logical (op : Bool → Bool → Bool) :
    Alike (Tied p) w (fun _ => Eq) (logical op) (logical op) := by
  refine alike_pop.bind fun w₁ b b' _ hb => alike_pop.bind fun w₂ a a' _ ha => ?_
  rw [hb.isTrue_eq, ha.isTrue_eq]
  exact alike_push (Value.rel_ofBool _)

/-! ### Jumps -/

lemma alike_jumpIf {test : Value → Bool} (htest : ∀ {w v v'}, Value.Rel w v v' → test v = test v') :
    Alike (Tied .running) w (fun _ => Eq) (jumpIf test) (jumpIf test) := by
  refine steered_tied.fetchNat.bind fun w₁ offset _ _ hoffset => ?_
  subst hoffset
  refine (steered_tied.peek 0).bind fun w₂ v v' _ hv => ?_
  rw [htest hv]
  exact .ite .rfl (steered_tied.skip offset) (.pure fun _ _ => rfl)

lemma alike_jumpCase : Alike (Tied .running) w (fun _ => Eq) jumpCase jumpCase := by
  refine steered_tied.fetchNat.bind fun w₁ otherwise _ _ hotherwise => ?_
  refine steered_tied.fetchNat.bind fun w₂ offset _ _ hoffset => ?_
  subst hotherwise hoffset
  refine (steered_tied.peek 0).bind fun w₃ v v' _ hv => ?_
  rw [hv.isTrue_eq]
  exact steered_tied.skip _

lemma alike_jumpList : Alike (Tied .running) w (fun _ => Eq) jumpList jumpList := by
  refine steered_tied.fetchNat.bind fun w₁ index _ _ hindex => ?_
  subst hindex
  refine steered_tied.running.bind fun w₂ f f' _ hf => ?_
  rw [hf.cases]
  split
  · exact steered_tied.jumpTo _
  · exact .abort .outOfRange (by decide)

lemma alike_loop : Alike (Tied .running) w (fun _ => Eq) loop loop := by
  refine steered_tied.fetchNat.bind fun w₁ offset _ _ hoffset => ?_
  subst hoffset
  refine .get_bind fun w₂ m j m' j' _ ht => ?_
  rw [ht.frames.1.ip]
  exact .ite .rfl (.abort .wordOverflow (by decide)) (steered_tied.jumpTo _)

/-! ### Calls and printing -/

lemma alike_closeTop : Alike (Tied p) w (fun _ => Eq) closeTop closeTop := by
  refine .get_bind fun w₁ m j m' j' _ ht => ?_
  rw [ht.stack.length_eq]
  refine .ite .rfl (.abort .wordOverflow (by decide)) ((alike_closeUpvalues _).bind ?_)
  exact fun _ _ _ _ _ => alike_pop.bind fun _ _ _ _ _ => .pure fun _ _ => rfl

lemma alike_ret : Alike (Tied .running) w (fun _ => Eq) ret ret := by
  refine alike_pop.bind fun w₁ v v' _ hv => .get_bind fun w₂ m j m' j' hle ht => ?_
  rw [ht.frames.1.base]
  refine (alike_closeUpvalues _).bind fun w₃ _ _ hle' _ => (alike_truncate _).bind ?_
  refine fun w₄ _ _ hle'' _ => .get_bind fun w₅ m₁ j₁ m₁' j₁' hle₅ ht₁ => ?_
  have hv := hv.le (World.le_trans hle (World.le_trans hle' (World.le_trans hle'' hle₅)))
  have hframes := ht₁.frames.2
  generalize m₁.frames = fs, m₁'.frames = fs' at hframes ⊢
  cases hframes with
  | nil => exact .pure fun _ _ => rfl
  | @cons f f' fs fs' hf hfs =>
      have hreturn : Alike (Tied .running) w₅ (fun _ => Eq)
          (modify fun m => { m with frame := f, frames := fs } : Action Machine Unit)
          (modify fun m => { m with frame := f', frames := fs' }) :=
        .of_match fun _ _ _ _ _ hle ht =>
          .done { ht with frames := ⟨hf.le hle, hfs.imp fun _ _ hf => hf.le hle⟩ } rfl
      refine hreturn.bind fun w₆ _ _ hle₆ _ => (alike_push (hv.le hle₆)).bind ?_
      exact fun _ _ _ _ _ => .pure fun _ _ => rfl

lemma alike_print : Alike (Tied p) w (fun _ => Eq) print print := by
  refine alike_pop.bind fun w₁ v v' _ hv => .get_bind fun w₂ m j m' j' hle ht => ?_
  refine .lift_bind (ht.heap.display (hv.le hle)) fun text _ htext => ?_
  subst htext
  refine .get_bind fun w₃ m₁ j₁ m₁' j₁' _ ht₁ => ?_
  rw [ht₁.console]
  refine .ite .rfl (.raise _) (.of_match fun _ _ _ _ _ _ ht₂ => .done ?_ rfl)
  exact { ht₂ with
    console := congrArg (fun c : Console => (⟨false, c.printed ++ text ++ "\n"⟩ : Console)) ht₂.console }

lemma setPeek_apply (count : Nat) (v : Value) (m : Machine) (j : Journal) :
    setPeek count v m j =
      if m.stack.length < count + 1 then .aborted .wordOverflow
      else .done () { m with stack := (m.stack.set (m.stack.length - count - 1) v).2 } j := by
  rw [setPeek, Action.get_bind]
  split <;> rfl

/-- What remains to be related after an instruction. -/
def LinkedIn (w : World) : Machine → Journal → Machine → Journal → Prop := Linked .running w.twin

lemma MayCollect.linked {α β : Type} {V : World → α → β → Prop} {first : Action Machine α}
    {first' : Action Machine β} (h : MayCollect (Tied .running) w V first first') :
    MayCollect LinkedIn w V first first' :=
  fun w₁ hle m j m' j' hs => (h w₁ hle m j m' j' hs).imp
    (fun _ _ _ _ _ _ ⟨w₂, hle', ht, hv⟩ => ⟨w₂, hle', ht.linked w₂.le_refl, hv⟩) fun _ _ _ _ => id

/-- Values on the stack are called. What only they kept may go away before. -/
lemma Tied.callValue (ht : Tied .running w m j m' j') (hhost : host.Agrees w.twin host') {slot : Nat}
    (hget : m.stack.get? slot = some v) (hget' : m'.stack.get? slot = some v') (count : Nat) :
    Match (Linked .running w.twin) Eq (callValue host v count m j) (callValue host' v' count m' j') := by
  have hs := ht.tighten
  have hv : v.Rel (held w m m') v' := by
    have hslot := hs.tied.stack.get? slot
    rw [hget, hget'] at hslot
    cases hslot with
    | some hv => exact hv
  have hcall := mayCollect_callValue (w := held w m m') hhost hv count
  refine (hcall _ (World.le_refl _) m j m' j' hs).imp ?_ ?_
  · rintro u m₁ j₁ u' m₁' j₁' ⟨w₁, hle, ht₁, hu⟩
    exact ⟨⟨w₁, hle.twin, ht₁⟩, hu⟩
  · exact fun _ _ _ _ => id

/-- A field takes the place of its instance and is called. -/
lemma mayCollect_callField (hhost : host.Agrees w.twin host') (hv : v.Rel w v') (count : Nat) :
    MayCollect LinkedIn w (fun _ => Eq) (do setPeek count v; callValue host v count)
      (do setPeek count v'; callValue host' v' count) := by
  intro w₁ hle m j m' j' hs
  have hlength := hs.tied.stack.length_eq
  rw [Action.bind_apply, Action.bind_apply, setPeek_apply, setPeek_apply, ← hlength]
  by_cases hcount : m.stack.length < count + 1
  · rw [if_pos hcount, if_pos hcount]
    exact .aborted (by decide)
  · rw [if_neg hcount, if_neg hcount]
    have hset := (hs.tied.stack.set (m.stack.length - count - 1) (hv.le hle) Value.rel_null).2
    refine ((hs.tied.withStack hset).callValue (hhost.le hle) (Stack.get?_set ?_ v)
      (Stack.get?_set ?_ v') count).imp ?_ fun _ _ _ _ => id
    · omega
    · omega
    · rintro u m₁ j₁ u' m₁' j₁' ⟨hlinked, hu⟩
      exact ⟨w₁, w₁.le_refl, hlinked, hu⟩

lemma mayCollect_invoke (hhost : host.Agrees w.twin host') :
    MayCollect LinkedIn w (fun _ => Eq) (invoke host) (invoke host') := by
  refine .after steered_snug.fetchName ?_
  rintro w₁ ⟨name, key⟩ ⟨name', key'⟩ hle₁ ⟨hname, hkey⟩
  refine .after steered_snug.fetchNat fun w₂ count _ hle₂ hcount => ?_
  subst hcount
  refine .after (steered_snug.peek count) fun w₃ v v' hle₃ hv => ?_
  have hname := hle₃.rel (hle₂.rel hname)
  refine .after (steered_snug.asInstance hv hname) fun w₄ r r' hle₄ hr => ?_
  refine .get_bind fun w₅ m j m' j' hle₅ hs => ?_
  have hname := hle₅.rel (hle₄.rel hname)
  have hkey := (((hkey.le hle₂).le hle₃).le hle₄).le hle₅
  have hhost := ((((hhost.le hle₁).le hle₂).le hle₃).le hle₄).le hle₅
  have hproperty := hs.tied.heap.property (hle₅.rel hr) hname hkey
  refine .lift_bind (hs.tied.heap.read (hle₅.rel hr)) fun x x' hx => ?_
  rw [show key.hash = key'.hash from hkey.hash]
  refine .lift_bind (hx.fields.get? _) fun o o' ho => ?_
  cases ho with
  | some hv => exact mayCollect_callField hhost hv count
  | none =>
      exact .lift_bind hproperty fun _ _ hv => (mayCollect_callValue hhost hv count).linked

/-! ### Containers -/

namespace Steered

variable {S : World → Machine → Journal → Machine → Journal → Prop}

lemma fetchCapacity (hS : Steered S) :
    Alike S w (fun _ => Eq) Machine.fetchCapacity Machine.fetchCapacity := by
  refine (hS.peek 0).bind fun w₁ v v' _ hv => ?_
  rw [hv.integral_eq]
  have hfail : Alike S w₁ (fun _ => Eq)
      (do let m ← get
          let type ← m.heap.typeName v
          Action.raise (.invalidCapacity type) : Action Machine Nat)
      (do let m ← get
          let type ← m.heap.typeName v'
          Action.raise (.invalidCapacity type)) := by
    refine .get_bind fun w₂ m j m' j' hle hs => ?_
    refine .lift_bind ((hS.tied hs).heap.typeName (hv.le hle)) fun type _ htype => ?_
    subst htype
    exact .raise _
  cases v'.integral with
  | none => exact hfail
  | some n =>
      cases n with
      | ofNat capacity => exact .pure fun _ _ => rfl
      | negSucc _ => exact hfail

end Steered

lemma mayCollect_newTable : MayCollect (Tied .running) w (fun _ => Eq) newTable newTable := by
  refine .after steered_snug.fetchCapacity fun w₁ capacity _ _ hcapacity => ?_
  subst hcapacity
  refine .lift_bind (Table.Rel.withCapacity (w := w₁) capacity) fun t t' ht => ?_
  exact (MayCollect.alloc (k := .table) ht trivial).bind fun _ _ _ _ hr =>
    alike_setPeek 0 (.table hr)

lemma rel_withCapacity {α : Type} [Footprint α] (R : α → α → Prop) (capacity : Nat) :
    Result.Rel (Stack.Rel R) (Stack.withCapacity capacity) (Stack.withCapacity capacity) :=
  .ite (fun _ => .ok ⟨.empty, rfl⟩) fun _ => .abort (by decide)

lemma mayCollect_newStack : MayCollect (Tied .running) w (fun _ => Eq) newStack newStack := by
  refine .after steered_snug.fetchCapacity fun w₁ capacity _ _ hcapacity => ?_
  subst hcapacity
  refine .lift_bind (rel_withCapacity (Value.Rel w₁) capacity) fun s s' hs => ?_
  exact (MayCollect.alloc (k := .stack) hs trivial).bind fun _ _ _ _ hr =>
    alike_setPeek 0 (.stack hr)

lemma mayCollect_newVector : MayCollect (Tied .running) w (fun _ => Eq) newVector newVector := by
  refine .after steered_snug.fetchCapacity fun w₁ capacity _ _ hcapacity => ?_
  subst hcapacity
  refine .lift_bind (rel_withCapacity (Scalar.Rel w₁) capacity) fun s s' hs => ?_
  exact (MayCollect.alloc (k := .vector) hs trivial).bind fun _ _ _ _ hr =>
    alike_setPeek 0 (.vector hr)

lemma Tied.fillArray (ht : Tied p w m j m' j') {r r' : Ref .array} (hr : r.Rel w r')
    {kind : ArrayKind} (hkind : ∃ x, m.heap.get? r = some x ∧ x.kind = kind) {l l' : List Value}
    (hl : List.Forall₂ (Value.Rel w) l l') :
    Match (Tied p w) Eq (onHeap (fillArray r kind l 0) m j) (onHeap (fillArray r' kind l' 0) m' j') := by
  refine Agree.on (ht.heap.fillArray hr hkind hl 0) ?_ ?_
  · rintro _ h j _ h' j' ⟨ht', -⟩
    exact ⟨ht.withHeap w.le_refl ht', rfl⟩
  · intro h j h' j' ht'
    exact ht.withHeap w.le_refl ht'

/-- A new array takes the place of the values above a slot. -/
lemma mayCollect_gather (kind : ArrayKind) (count start : Nat) :
    MayCollect (Tied .running) w (fun _ => Eq)
      (do let ref ← onHeap (Heap.newArray kind count)
          let m ← get
          onHeap (fillArray ref kind (m.stack.toList.drop start) 0)
          truncate start
          push (.scalar (.array ref)))
      (do let ref ← onHeap (Heap.newArray kind count)
          let m ← get
          onHeap (fillArray ref kind (m.stack.toList.drop start) 0)
          truncate start
          push (.scalar (.array ref))) := by
  refine .of_sim fun w₁ m j m' j' hle hs => ?_
  have hcontent : Content.Rel w₁ .array ⟨kind, 0, count⟩ ⟨kind, 0, count⟩ := rfl
  have hbare : Content.Bare .array ⟨kind, 0, count⟩ := rfl
  -- filling depends on the kind of the new array, which the relation of results does not name
  have hkind : (onHeap (Heap.newArray kind count) m j).Ends
      (fun r m₁ => m₁.heap.get? r = some ⟨kind, 0, count⟩) (fun _ _ => True) fun _ => True := by
    refine (ends_onHeap (hs.tied.heap.sound.1.alloc hbare j)).imp ?_
      (fun _ _ _ => trivial) fun _ _ => trivial
    rintro r m₁ ⟨heap, rfl, ⟨-, hget⟩, -⟩
    exact hget
  have hnew := (hs.join (hs.tied.heap.alloc hcontent hbare)).and_left hkind
  have hraised : ∀ m j m' j', Snug .running w₁ m j m' j' → ∃ w₂, w₁ ≤ w₂ ∧ Tied .running w₂ m j m' j' :=
    fun _ _ _ _ hs => ⟨w₁, w₁.le_refl, hs.tied⟩
  refine Agree.bind (hnew.imp (fun _ _ _ _ _ _ => id) hraised) ?_
  rintro r m₁ j₁ r' m₁' j₁' ⟨⟨-, -, w₂, hle', ht, hr, -⟩, hget⟩
  have hvalues : List.Forall₂ (Value.Rel w₂) (m₁.stack.toList.drop start)
      (m₁'.stack.toList.drop start) := List.forall₂_drop _ ht.stack.toList
  have hfill : Sim (Tied .running) w₂ (fun _ => Eq) _ _ :=
    .of_match (ht.fillArray hr ⟨_, hget, rfl⟩ hvalues)
  refine Sim.weaken (hfill.bind fun w₃ _ m₂ j₂ _ m₂' j₂' hle'' ht₂ _ => ?_) hle'
  refine Alike.bind (alike_truncate start) ?_ w₃ w₃.le_refl m₂ j₂ m₂' j₂' ht₂
  exact fun _ _ _ hle₄ _ => alike_push (.scalar (.array (hle₄.rel (hle''.rel hr))))

lemma mayCollect_newArray : MayCollect (Tied .running) w (fun _ => Eq) newArray newArray := by
  refine .after steered_snug.fetch fun w₁ word _ _ hword => ?_
  subst hword
  cases ArrayKind.ofWord? word with
  | none => exact .of_alike (.abort .badInstruction (by decide))
  | some kind =>
      refine .after steered_snug.fetchNat fun w₂ count _ _ hcount => ?_
      subst hcount
      refine .get_bind fun w₃ m j m' j' _ hs => ?_
      rw [hs.tied.stack.length_eq]
      refine .ite (.of_alike (.abort .wordOverflow (by decide))) ?_
      exact .after alike_collectIfNeeded fun _ _ _ _ _ => mayCollect_gather kind count _

lemma alike_getIndex : Alike (Tied .running) w (fun _ => Eq) getIndex getIndex := by
  refine (steered_tied.peek 0).bind fun w₁ i i' _ hi => ?_
  refine (steered_tied.peek 1).bind fun w₂ c c' hle hc => .get_bind fun w₃ m j m' j' hle' ht => ?_
  have hi := hi.le (World.le_trans hle hle')
  refine .lift_bind (ht.heap.getIndex (hc.le hle') hi) fun v v' hv => ?_
  exact alike_pop.bind fun _ _ _ hle _ => alike_setPeek 0 (hv.le hle)

lemma alike_setIndex : Alike (Tied .running) w (fun _ => Eq) setIndex setIndex := by
  refine (steered_tied.peek 0).bind fun w₁ v v' _ hv => ?_
  refine (steered_tied.peek 1).bind fun w₂ i i' hle hi => ?_
  refine (steered_tied.peek 2).bind fun w₃ c c' hle' hc => ?_
  have hv := hv.le (World.le_trans hle hle')
  refine (alike_onHeap (Heap.alike_setIndex hc (hi.le hle') hv)).bind fun w₄ _ _ hle₄ _ => ?_
  refine .get_bind fun w₅ m j m' j' hle₅ ht => ?_
  rw [ht.stack.length_eq]
  refine .ite .rfl (.abort .wordOverflow (by decide)) ((alike_truncate _).bind ?_)
  exact fun _ _ _ hle₆ _ => alike_push (hv.le (World.le_trans hle₄ (World.le_trans hle₅ hle₆)))

lemma alike_length : Alike (Tied .running) w (fun _ => Eq) length length := by
  refine alike_unary fun ht ha => (ht.length ha).bind fun n _ hn => ?_
  subst hn
  exact .ok (.scalar (Scalar.rel_ofNat n))

lemma alike_pushValue : Alike (Tied .running) w (fun _ => Eq) pushValue pushValue := by
  refine alike_pop.bind fun w₁ v v' _ hv => (steered_tied.peek 0).bind fun w₂ c c' hle hc => ?_
  exact alike_onHeap (Heap.alike_push hc (hv.le hle))

lemma alike_popValue : Alike (Tied .running) w (fun _ => Eq) popValue popValue := by
  refine (steered_tied.peek 0).bind fun w₁ c c' _ hc => ?_
  exact (alike_onHeap (Heap.alike_pop hc)).bind fun _ _ _ _ hv => alike_setPeek 0 hv

lemma mayCollect_copy : MayCollect (Tied .running) w (fun _ => Eq) copy copy := by
  refine .after alike_collectIfNeeded fun w₁ _ _ _ _ => .of_alike ?_
  refine (steered_tied.peek 0).bind fun w₂ v v' _ hv => ?_
  exact (alike_onHeap (Heap.alike_copy hv)).bind fun _ _ _ _ hv => alike_setPeek 0 hv

lemma alike_remove : Alike (Tied .running) w (fun _ => Eq) remove remove := by
  refine alike_pop.bind fun w₁ i i' _ hi => (steered_tied.peek 0).bind fun w₂ c c' hle hc => ?_
  exact (alike_onHeap (Heap.alike_remove hc (hi.le hle))).bind fun _ _ _ _ hv => alike_setPeek 0 hv

lemma alike_each : Alike (Tied .running) w (fun _ => Eq) each each := by
  refine (steered_tied.peek 0).bind fun w₁ v v' _ hv => ?_
  cases hv with
  | @scalar s s' hs =>
      cases hs with
      | plain _ bare =>
          cases s with
          | int cursor =>
              refine (steered_tied.peek 1).bind fun w₂ c c' _ hc => ?_
              refine .get_bind fun w₃ m j m' j' hle ht => ?_
              refine .lift_bind (ht.heap.each (hc.le hle) _) fun e e' he => ?_
              refine .ite .rfl (.abort .wordOverflow (by decide)) ?_
              refine (alike_setPeek 0 (.scalar (.plain _ rfl))).bind ?_
              exact fun _ _ _ hle _ => alike_push (he.le hle)
          | _ => exact .abort .badInstruction (by decide)
      | str _ => exact .abort .badInstruction (by decide)
      | array _ => exact .abort .badInstruction (by decide)
  | _ => exact .abort .badInstruction (by decide)

/-! ### All instructions -/

lemma mayCollect_call (hhost : host.Agrees w.twin host') :
    MayCollect (Tied .running) w (fun _ => Eq) (call host) (call host') := by
  refine .after steered_snug.fetchNat fun w₁ count _ hle hcount => ?_
  subst hcount
  exact .after (steered_snug.peek count) fun w₂ v v' hle' hv =>
    mayCollect_callValue ((hhost.le hle).le hle') hv count

lemma alike_popMany : Alike (Tied .running) w (fun _ => Eq)
    (do let count ← fetchNat; let m ← get; truncate (m.stack.length - count))
    (do let count ← fetchNat; let m ← get; truncate (m.stack.length - count)) := by
  refine steered_tied.fetchNat.bind fun w₁ count _ _ hcount => .get_bind fun w₂ m j m' j' _ ht => ?_
  subst hcount
  rw [ht.stack.length_eq]
  exact alike_truncate _

/-- A value from a registry. -/
lemma alike_getRegistered {registry : Machine → Stack Value}
    (hr : ∀ {w m j m' j'}, Tied .running w m j m' j' →
      Stack.Rel (Value.Rel w) (registry m) (registry m')) :
    Alike (Tied .running) w (fun _ => Eq)
      (do let index ← fetchNat; let m ← get; push (((registry m).get? index).getD .null))
      (do let index ← fetchNat; let m ← get; push (((registry m).get? index).getD .null)) := by
  refine steered_tied.fetchNat.bind fun w₁ index _ _ hindex => .get_bind fun w₂ m j m' j' _ ht => ?_
  subst hindex
  exact alike_push (rel_getD ((hr ht).get? index))

lemma alike_not : Alike (Tied .running) w (fun _ => Eq)
    (unary fun _ a => .ok (.ofBool !a.isTrue)) (unary fun _ a => .ok (.ofBool !a.isTrue)) := by
  refine alike_unary fun _ ha => ?_
  rw [ha.isTrue_eq]
  exact .ok (Value.rel_ofBool _)

/-- Instructions that do not collect. -/
lemma alike_execute (host host' : Host) {op : Opcode}
    (hop : op ∉ [.add, .call, .invoke, .closure, .defineClass, .newTable, .newStack, .newVector,
      .newArray, .copy]) :
    Alike (Tied .running) w (fun _ => Eq) (execute host op) (execute host' op) := by
  -- one instruction a line; those in the list make objects, and a collection may come between
  cases op with
  | constant => exact steered_tied.fetchConstant.bind fun _ _ _ _ hv => alike_push hv
  | pushNull => exact alike_push Value.rel_null
  | pushTrue => exact alike_push (Value.rel_ofBool true)
  | pushFalse => exact alike_push (Value.rel_ofBool false)
  | pop => exact alike_pop.bind fun _ _ _ _ _ => .pure fun _ _ => rfl
  | popMany => exact alike_popMany
  | dup => exact (steered_tied.peek 0).bind fun _ _ _ _ hv => alike_push hv
  | getLocal => exact alike_getLocal
  | setLocal => exact alike_setLocal
  | getGlobal => exact alike_getGlobal
  | defineGlobal => exact alike_defineGlobal
  | setGlobal => exact alike_setGlobal
  | deleteGlobal => exact alike_deleteGlobal
  | getUpvalue => exact alike_getUpvalue
  | setUpvalue => exact alike_setUpvalue
  | getProperty => exact alike_getProperty
  | setProperty => exact alike_setProperty
  | getNative => exact alike_getRegistered Tied.natives
  | getClass => exact alike_getRegistered Tied.classes
  | sub => exact alike_scalarOp fun ht => ht.binary _ _ _
  | mul => exact alike_scalarOp fun ht => ht.binary _ _ _
  | div => exact alike_scalarOp fun ht => ht.div
  | mod => exact alike_scalarOp fun ht => ht.rem
  | eq => exact alike_equality true fun ht => ht.equal
  | ne => exact alike_equality false fun ht => ht.equal
  | strictEq => exact alike_equality true fun ht => ht.strictEqual
  | strictNe => exact alike_equality false fun ht => ht.strictEqual
  | lt => exact alike_ordering _ _
  | le => exact alike_ordering _ _
  | gt => exact alike_ordering _ _
  | ge => exact alike_ordering _ _
  | and => exact alike_logical _
  | or => exact alike_logical _
  | neg => exact alike_scalarUnary fun ht => ht.negate
  | not => exact alike_not
  | inc => exact alike_scalarUnary fun ht ha => ht.step ha true
  | dec => exact alike_scalarUnary fun ht ha => ht.step ha false
  | jump => exact steered_tied.fetchNat.bind fun _ _ _ _ hn => hn ▸ steered_tied.skip _
  | jumpIfFalse => exact alike_jumpIf fun hv => congrArg (!·) hv.isTrue_eq
  | jumpIfTrue => exact alike_jumpIf fun hv => hv.isTrue_eq
  | jumpIfNull => exact alike_jumpIf fun hv => hv.isNull_eq
  | jumpIfNotNull => exact alike_jumpIf fun hv => congrArg (!·) hv.isNull_eq
  | jumpCase => exact alike_jumpCase
  | jumpList => exact alike_jumpList
  | loop => exact alike_loop
  | closeUpvalue => exact alike_closeTop
  | ret => exact .pure fun _ _ => rfl
  | defineMethod => exact alike_defineMethod
  | print => exact alike_print
  | getIndex => exact alike_getIndex
  | setIndex => exact alike_setIndex
  | length => exact alike_length
  | pushValue => exact alike_pushValue
  | popValue => exact alike_popValue
  | remove => exact alike_remove
  | each => exact alike_each
  | _ => simp at hop

lemma mayCollect_execute (hhost : host.Agrees w.twin host') (op : Opcode) :
    MayCollect LinkedIn w (fun _ => Eq) (execute host op) (execute host' op) := by
  cases op with
  | add => exact mayCollect_add.linked
  | call => exact (mayCollect_call hhost).linked
  | invoke => exact mayCollect_invoke hhost
  | closure => exact mayCollect_makeClosure.linked
  | defineClass => exact mayCollect_defineClass.linked
  | newTable => exact mayCollect_newTable.linked
  | newStack => exact mayCollect_newStack.linked
  | newVector => exact mayCollect_newVector.linked
  | newArray => exact mayCollect_newArray.linked
  | copy => exact mayCollect_copy.linked
  | _ => exact (MayCollect.of_alike (alike_execute host host' (by decide))).linked

/-! ### Steps -/

lemma alike_note (event : Event) :
    Alike (Snug p) w (fun _ => Eq) (Action.note event) (Action.note event) := by
  refine .of_match fun w₁ m j m' j' _ hs => .done ⟨hs.tied.journal fun htw => ?_, hs.spans⟩ rfl
  rw [(hs.tied.heap.twin htw).2.1]

lemma MayCollect.then_pure {α : Type} {first first' : Action Machine Unit}
    {T : World → Machine → Journal → Machine → Journal → Prop}
    (h : MayCollect T w (fun _ => Eq) first first') (u : α) :
    MayCollect T w (fun _ => Eq) (do first; return u) (do first'; return u) :=
  fun w₁ hle m j m' j' hs => (h w₁ hle m j m' j' hs).bind
    fun _ _ _ _ _ _ ⟨w₂, hle', ht, _⟩ => .done ⟨w₂, hle', ht, rfl⟩

lemma mayCollect_step (hhost : host.Agrees w.twin host') :
    MayCollect LinkedIn w (fun _ => Eq) (step host) (step host') := by
  refine .after steered_snug.fetch fun w₁ word _ hle hword => ?_
  subst hword
  refine .get_bind fun w₂ m j m' j' hle' hs => ?_
  rw [hs.tied.frames.1.ip, hs.tied.stack.length_eq]
  refine .after (alike_note _) fun w₃ _ _ hle'' _ => ?_
  have hhost := ((hhost.le hle).le hle').le hle''
  cases Opcode.ofWord? word with
  | none => exact (MayCollect.of_alike (.abort .badInstruction (by decide))).linked
  | some op =>
      cases op with
      | ret => exact (MayCollect.of_alike alike_ret).linked
      | _ => exact (mayCollect_execute hhost _).then_pure _

/-- One step of linked machines. -/
lemma Linked.step {t : Prop} (hl : Linked .running t m j m' j') (hhost : host.Agrees t host') :
    Match (Linked .running t) Eq (step host m j) (step host' m' j') := by
  obtain ⟨w, htw, ht⟩ := hl
  obtain rfl : w.twin = t := propext htw
  have hstep := mayCollect_step (w := held w m m') hhost
  refine (hstep _ (World.le_refl _) m j m' j' ht.tighten).imp ?_ fun _ _ _ _ => id
  rintro status m₁ j₁ status' m₁' j₁' ⟨w₁, hle, ⟨w₂, htw', ht₂⟩, hstatus⟩
  exact ⟨⟨w₂, htw'.trans hle.twin, ht₂⟩, hstatus⟩

/-- Any number of steps of linked machines. -/
lemma Linked.runFor {t : Prop} (hl : Linked .running t m j m' j') (hhost : host.Agrees t host')
    (fuel : Nat) :
    Match (Linked .running t) Eq (runFor host fuel m j) (runFor host' fuel m' j') := by
  induction fuel generalizing m j m' j' with
  | zero => exact .done hl rfl
  | succ fuel ih =>
      have hstep := hl.step hhost
      rw [Machine.runFor, Machine.runFor]
      generalize Machine.step host m j = o, Machine.step host' m' j' = o' at hstep
      cases hstep with
      | @done status m₁ j₁ status' m₁' j₁' related =>
          obtain ⟨hl', rfl⟩ := related
          cases status with
          | running => exact ih hl'
          | finished => exact .done hl' rfl
      | raised error related => exact .raised error related
      | aborted live => exact .aborted live
      | left exhausted => exact .left exhausted _
      | right _ exhausted => exact .right _ exhausted

end Machine

end ScriptMachine
