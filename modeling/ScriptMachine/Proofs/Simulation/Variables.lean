import ScriptMachine.Proofs.Simulation.Machine

/-!
Calls, variables and classes of machines that stand for each other.

There is one lemma for each action of the machine. One that does not collect is
`Alike` on both sides, whatever else is related; one that may collect is
`MayCollect`. The captures of a new closure keep all that can be reached
(`Snug.capture`, `alike_captureMany`), although each of them may collect.
-/

namespace ScriptMachine

variable {w w' : World} {h h' : Heap} {j j₁ j' j₁' : Journal} {v v' a a' b b' : Value}

/-! ### Captured variables -/

namespace Heap

variable {r r' : Ref .upvalue} {refs refs' : List (Ref .upvalue)}

lemma Tied.openSlot (ht : Tied w h j h' j') (hr : r.Rel w r') :
    ∃ slot, Machine.openSlot h r = .ok slot ∧ Machine.openSlot h' r' = .ok slot := by
  obtain ⟨x, x', hx, hx', hrel, -⟩ := ht.pairs hr
  rw [Machine.openSlot, Machine.openSlot, read_of_get? hx, read_of_get? hx']
  cases hrel with
  | opened slot => exact ⟨slot, rfl, rfl⟩
  | closed _ => exact ⟨_, rfl, rfl⟩

/-- Lists of upvalues, cut in two at the same place. -/
structure Cut (w : World) (refs refs' : List (Ref .upvalue))
    (parts parts' : List (Ref .upvalue) × List (Ref .upvalue)) : Prop where
  below : List.Forall₂ (Ref.Rel w) parts.1 parts'.1
  above : List.Forall₂ (Ref.Rel w) parts.2 parts'.2
  whole : refs = parts.1 ++ parts.2 ∧ refs' = parts'.1 ++ parts'.2

lemma Tied.splitAtSlot (ht : Tied w h j h' j') (slot : Nat)
    (hrefs : List.Forall₂ (Ref.Rel w) refs refs') :
    ∃ parts parts', Machine.splitAtSlot h slot refs = .ok parts ∧
      Machine.splitAtSlot h' slot refs' = .ok parts' ∧ Cut w refs refs' parts parts' := by
  induction hrefs with
  | nil => exact ⟨_, _, rfl, rfl, .nil, .nil, rfl, rfl⟩
  | @cons r r' refs refs' hr hrefs ih =>
      obtain ⟨i, hi, hi'⟩ := ht.openSlot hr
      obtain ⟨⟨below, above⟩, ⟨below', above'⟩, hparts, hparts', hcut⟩ := ih
      rw [Machine.splitAtSlot, Machine.splitAtSlot, hi, hi', hparts, hparts']
      by_cases hlt : i < slot
      · refine ⟨(r :: below, above), (r' :: below', above'), if_pos hlt, if_pos hlt, ?_⟩
        exact ⟨.cons hr hcut.below, hcut.above, congrArg _ hcut.whole.1, congrArg _ hcut.whole.2⟩
      · exact ⟨_, _, if_neg hlt, if_neg hlt, .nil, .cons hr hrefs, rfl, rfl⟩

/-- Closing an upvalue always succeeds. -/
lemma Tied.closeOne (ht : Tied w h j h' j') {s s' : Stack Value}
    (hs : Stack.Rel (Value.Rel w) s s') (hr : r.Rel w r') :
    ∃ h₁ h₁', Machine.closeOne s r h j = .done () h₁ j ∧
      Machine.closeOne s' r' h' j' = .done () h₁' j' ∧ Tied w h₁ j h₁' j' := by
  obtain ⟨x, x', hx, hx', hrel, -⟩ := ht.pairs hr
  rw [Machine.closeOne, Machine.closeOne, Action.get_bind, Action.get_bind, read_of_get? hx,
    read_of_get? hx']
  cases hrel with
  | opened slot =>
      refine ⟨_, _, rfl, rfl, ht.put hr rfl (.closed ?_) fun htw => (ht.twin htw).2.1⟩
      exact rel_getD (hs.get? slot)
  | closed _ => exact ⟨h, h', rfl, rfl, ht⟩

lemma Tied.closeAll (ht : Tied w h j h' j') {s s' : Stack Value}
    (hs : Stack.Rel (Value.Rel w) s s') (hrefs : List.Forall₂ (Ref.Rel w) refs refs') :
    ∃ h₁ h₁', Machine.closeAll s refs h j = .done () h₁ j ∧
      Machine.closeAll s' refs' h' j' = .done () h₁' j' ∧ Tied w h₁ j h₁' j' := by
  induction hrefs generalizing h h' with
  | nil => exact ⟨h, h', rfl, rfl, ht⟩
  | cons hr _ ih =>
      obtain ⟨h₁, h₁', hrun, hrun', ht₁⟩ := ht.closeOne hs hr
      obtain ⟨h₂, h₂', hrun₁, hrun₁', ht₂⟩ := ih ht₁
      refine ⟨h₂, h₂', ?_, ?_, ht₂⟩
      · rw [Machine.closeAll, Action.bind_of_done hrun, hrun₁]
      · rw [Machine.closeAll, Action.bind_of_done hrun', hrun₁']

/-- What two related closures consist of. -/
lemma Tied.body (ht : Tied w h j h' j') {r r' : Ref .closure} (hr : r.Rel w r') :
    ∃ x x', w.body r.id r'.id x x' ∧ x.function.Rel w x'.function ∧
      Result.Rel (fun c c' => c = x.closure ∧ c' = x'.closure) (h.read r) (h'.read r') ∧
      Result.Rel (fun f f' => f = x.function ∧ f' = x'.function) (h.read x.closure.function)
        (h'.read x'.closure.function) := by
  obtain ⟨c, c', hc, hc', hclosure, -⟩ := ht.pairs hr
  obtain ⟨f, f', hf, hf', hfunction, -⟩ := ht.pairs hclosure.function
  refine ⟨⟨c, f⟩, ⟨c', f'⟩, ht.bodies.mpr ⟨hr, ⟨hc, hf⟩, hc', hf'⟩, hfunction, ?_, ?_⟩
  · rw [read_of_get? hc, read_of_get? hc']
    exact .ok ⟨rfl, rfl⟩
  · rw [read_of_get? hf, read_of_get? hf']
    exact .ok ⟨rfl, rfl⟩

/-- The field of an instance, or the method of its class. -/
lemma Tied.property (ht : Tied w h j h' j') {r r' : Ref .inst}
    {name name' : Ref .string} {key key' : Key} (hr : r.Rel w r') (hname : name.Rel w name')
    (hkey : key.Rel w key') :
    Result.Rel (Value.Rel w) (Machine.property h r name key)
      (Machine.property h' r' name' key') := by
  refine (ht.read hr).bind fun x x' hx => ?_
  rw [hkey.hash]
  refine (hx.fields.get? _).bind fun o o' ho => ?_
  cases ho with
  | some hv => exact .ok hv
  | none =>
      refine (ht.read hx.cls).bind fun c c' hc => (hc.methods.get? _).bind fun o o' ho => ?_
      cases ho with
      | some hv => exact .ok hv
      | none =>
          refine (ht.text hc.name).bind fun text _ htext => ?_
          refine (ht.text hname).bind fun text' _ htext' => ?_
          subst htext htext'
          exact .raise _

end Heap

namespace Machine

variable {p : Phase} {m m₁ m' m₁' : Machine} {host host' : Host}
  {S : World → Machine → Journal → Machine → Journal → Prop}

/-- A new upvalue takes its place among the listed ones. -/
def listed (below above : List (Ref .upvalue)) (slot : Nat) : Action Machine (Ref .upvalue) := do
  let ref ← alloc .upvalue (.opened slot)
  modify fun m => { m with openUpvalues := below ++ ref :: above }
  return ref

lemma roots_listed {below above : List (Ref .upvalue)} (hwhole : m.openUpvalues = below ++ above)
    (r : Ref .upvalue) :
    r.id :: m.roots ⊆ { m with openUpvalues := below ++ r :: above }.roots := by
  intro id hid
  rw [mem_roots]
  rcases List.mem_cons.mp hid with rfl | hid
  · simp
  · rw [mem_roots, hwhole] at hid
    refine hid.imp_right (Or.imp_right (Or.imp_right (Or.imp_right (Or.imp_right fun hid => ?_))))
    rw [List.map_append, List.mem_append] at hid
    rw [List.map_append, List.mem_append]
    exact hid.imp_right fun hid => .tail _ hid

lemma Snug.listed {parts parts' : List (Ref .upvalue) × List (Ref .upvalue)}
    (hs : Snug p w m j m' j') (hcut : Heap.Cut w m.openUpvalues m'.openUpvalues parts parts')
    (slot : Nat) :
    Sim (Snug p) w (fun w₁ => Ref.Rel w₁) (Machine.listed parts.1 parts.2 slot m j)
      (Machine.listed parts'.1 parts'.2 slot m' j') := by
  have hcontent : Content.Rel w .upvalue (.opened slot) (.opened slot) := Upvalue.Rel.opened slot
  have hraised : ∀ m j m' j', Snug p w m j m' j' → ∃ w', w ≤ w' ∧ Snug p w' m j m' j' :=
    fun _ _ _ _ hs => ⟨w, w.le_refl, hs⟩
  refine Agree.bind ((hs.alloc hcontent trivial).imp (fun _ _ _ _ _ _ => id) hraised) ?_
  rintro r m₁ j₁ r' m₁' j₁' ⟨⟨heap, t, rfl⟩, ⟨heap', t', rfl⟩, w₁, hle, ht, hr, hspans⟩
  have hle' : ∀ {l l' : List (Ref .upvalue)}, List.Forall₂ (Ref.Rel w) l l' →
      List.Forall₂ (Ref.Rel w₁) l l' := fun hl => hl.imp fun _ _ => hle.rel
  refine .done ⟨w₁, hle, ⟨?_, ?_⟩, hr⟩
  · exact { ht with
      upvalues := List.rel_append (hle' hcut.below) (.cons hr (hle' hcut.above)) }
  · exact hspans.subset (roots_listed hcut.whole.1 r) (roots_listed hcut.whole.2 r')

/-- The upvalue for a stack slot is the old one in both machines, or a new one
in both. -/
lemma Snug.capture (hs : Snug p w m j m' j') (slot : Nat) :
    Sim (Snug p) w (fun w₁ => Ref.Rel w₁) (capture slot m j) (capture slot m' j') := by
  obtain ⟨⟨below, above⟩, ⟨below', above'⟩, hparts, hparts', hcut⟩ :=
    hs.tied.heap.splitAtSlot slot hs.tied.upvalues
  have hnew := hs.listed hcut slot
  rw [Machine.capture, Action.get_bind, Action.get_bind, hparts, hparts']
  cases hcut.above with
  | nil => exact hnew
  | @cons r r' rest rest' hr _ =>
      obtain ⟨named, hnamed, hnamed'⟩ := hs.tied.heap.openSlot hr
      simp only [Action.lift_ok, pure_bind, hnamed, hnamed']
      by_cases heq : named = slot
      · rw [if_pos heq, if_pos heq]
        exact .done hs hr
      · rw [if_neg heq, if_neg heq]
        exact hnew

/-- Closing upvalues always succeeds. -/
lemma Tied.closeUpvalues (ht : Tied p w m j m' j') (slot : Nat) :
    ∃ m₁ m₁', closeUpvalues slot m j = .done () m₁ j ∧
      closeUpvalues slot m' j' = .done () m₁' j' ∧ Tied p w m₁ j m₁' j' := by
  obtain ⟨⟨below, above⟩, ⟨below', above'⟩, hparts, hparts', hcut⟩ :=
    ht.heap.splitAtSlot slot ht.upvalues
  obtain ⟨h, h', hrun, hrun', hheap⟩ := ht.heap.closeAll ht.stack hcut.above
  refine ⟨{ m with heap := h, openUpvalues := below }, { m' with heap := h', openUpvalues := below' },
    ?_, ?_, { ht with heap := hheap, upvalues := hcut.below }⟩
  · rw [Machine.closeUpvalues, Action.get_bind, hparts]
    show onHeap (closeAll m.stack above) { m with openUpvalues := below } j = _
    rw [onHeap_apply, hrun]
  · rw [Machine.closeUpvalues, Action.get_bind, hparts']
    show onHeap (closeAll m'.stack above') { m' with openUpvalues := below' } j' = _
    rw [onHeap_apply, hrun']

lemma alike_closeUpvalues (slot : Nat) :
    Alike (Tied p) w (fun _ => Eq) (closeUpvalues slot) (closeUpvalues slot) := by
  refine .of_match fun w₁ m j m' j' _ ht => ?_
  obtain ⟨m₁, m₁', hrun, hrun', ht₁⟩ := ht.closeUpvalues slot
  rw [hrun, hrun']
  exact .done ht₁ rfl

namespace Steered

lemma upvalue (hS : Steered S) (index : Nat) :
    Alike S w (fun w₁ => Ref.Rel w₁) (Machine.upvalue index) (Machine.upvalue index) := by
  refine .get_bind fun w₁ m j m' j' _ hs => ?_
  have ht := hS.tied hs
  refine .lift_bind (ht.heap.read (Tied.frame_refs ht.heap ht.frames.1).1) fun c c' hc => ?_
  have hindex := hc.upvalues index
  generalize c.upvalues[index]? = r, c'.upvalues[index]? = r' at hindex ⊢
  cases hindex with
  | some hr => exact .pure fun _ hle => hle.rel hr
  | none => exact .abort .outOfRange (by decide)

/-- A value that has to be an instance. -/
lemma asInstance (hS : Steered S) (hv : v.Rel w v') {name name' : Ref .string}
    (hname : name.Rel w name') :
    Alike S w (fun w₁ => Ref.Rel w₁) (Machine.asInstance v name) (Machine.asInstance v' name') := by
  have hfail : Alike S w (fun w₁ => Ref.Rel (k := .inst) w₁)
      (do let m ← get
          let type ← m.heap.typeName v
          Action.raise (.notAnInstance type (← m.heap.text name)))
      (do let m ← get
          let type ← m.heap.typeName v'
          Action.raise (.notAnInstance type (← m.heap.text name'))) := by
    refine .get_bind fun w₁ m j m' j' hle hs => ?_
    have ht := hS.tied hs
    refine .lift_bind (ht.heap.typeName (hv.le hle)) fun type _ htype => ?_
    refine .lift_bind (ht.heap.text (hle.rel hname)) fun text _ htext => ?_
    subst htype htext
    exact .raise _
  cases hv with
  | inst hr => exact .pure fun _ hle => hle.rel hr
  | _ => exact hfail

end Steered

/-! ### Calls -/

lemma rel_checkArity {V : Unit → Unit → Prop} (hV : V () ()) (name : String) (arity count : Nat) :
    Result.Rel V (checkArity name arity count) (checkArity name arity count) :=
  .ite (fun _ => .ok hV) fun _ => .raise _

lemma alike_callClosure {r r' : Ref .closure} (hr : r.Rel w r') (count : Nat) :
    Alike (Tied .running) w (fun _ => Eq) (callClosure r count) (callClosure r' count) := by
  refine .get_bind fun w₁ m j m' j' hle ht => ?_
  obtain ⟨x, x', hbody, hf, hclosure, hfunction⟩ := ht.heap.body (hle.rel hr)
  refine .lift_bind hclosure ?_
  rintro _ _ ⟨rfl, rfl⟩
  refine .lift_bind hfunction ?_
  rintro _ _ ⟨rfl, rfl⟩
  rw [hf.name, hf.arity, ht.frames.2.length_eq, ht.stack.length_eq]
  refine .lift_bind (rel_checkArity (V := Eq) rfl _ _ _) fun _ _ _ => ?_
  refine .ite .rfl (.raise _) (.ite .rfl (.abort .wordOverflow (by decide)) ?_)
  refine .of_match fun w₂ m₁ j₁ m₁' j₁' hle' ht₁ => .done ?_ rfl
  exact { ht₁ with
    frames := ⟨⟨⟨x, x', hle'.body hbody, rfl, rfl⟩, rfl, rfl⟩, .cons ht₁.frames.1 ht₁.frames.2⟩ }

lemma alike_callNative (hhost : host.Agrees w.twin host') {r r' : Ref .native} (hr : r.Rel w r')
    (count : Nat) :
    Alike (Tied p) w (fun _ => Eq) (callNative host r count) (callNative host' r' count) := by
  refine .get_bind fun w₁ m j m' j' hle ht => ?_
  refine .lift_bind (ht.heap.read (hle.rel hr)) fun native native' hnative => ?_
  obtain rfl : native = native' := hnative
  refine .lift_bind (rel_checkArity (V := Eq) rfl _ _ _) fun _ _ _ => ?_
  rw [ht.stack.length_eq]
  refine .ite .rfl (.abort .wordOverflow (by decide)) ?_
  have harguments : List.Forall₂ (Value.Rel w₁) (m.stack.toList.drop (m'.stack.length - count))
      (m'.stack.toList.drop (m'.stack.length - count)) := List.forall₂_drop _ ht.stack.toList
  refine (alike_onHeap ((hhost.le hle).native native.routine harguments)).bind ?_
  intro w₂ result result' _ hresult
  exact (alike_truncate _).bind fun w₃ _ _ hle' _ => alike_setPeek 0 (hresult.le hle')

lemma mayCollect_callClass {r r' : Ref .cls} (hr : r.Rel w r') (count : Nat) :
    MayCollect (Tied .running) w (fun _ => Eq) (callClass r count) (callClass r' count) := by
  have hcontent : Content.Rel w .inst (.create r) (.create r') := Instance.Rel.mk hr (Table.Rel.blank _)
  refine (MayCollect.alloc hcontent trivial).bind fun w₁ inst inst' hle hinst => ?_
  refine (alike_setPeek count (.inst hinst)).bind fun w₂ _ _ hle' _ => ?_
  refine .get_bind fun w₃ m j m' j' hle'' ht => ?_
  have hle₃ : w ≤ w₃ := World.le_trans hle (World.le_trans hle' hle'')
  refine .lift_bind (ht.heap.read (hle₃.rel hr)) ?_
  rintro ⟨name, init, methods⟩ ⟨name', init', methods'⟩ ⟨-, hinit, -⟩
  cases hinit with
  | some hinit => exact alike_callClosure hinit count
  | none => exact .lift (rel_checkArity rfl _ _ _) fun _ _ _ _ => id

lemma mayCollect_callValue (hhost : host.Agrees w.twin host') (hv : v.Rel w v') (count : Nat) :
    MayCollect (Tied .running) w (fun _ => Eq) (callValue host v count) (callValue host' v' count) := by
  have hfail : Alike (Tied .running) w (fun _ => Eq)
      (do let m ← get
          let type ← m.heap.typeName v
          Action.raise (.notCallable type) : Action Machine Unit)
      (do let m ← get
          let type ← m.heap.typeName v'
          Action.raise (.notCallable type)) := by
    refine .get_bind fun w₁ m j m' j' hle ht => ?_
    refine .lift_bind (ht.heap.typeName (hv.le hle)) fun type _ htype => ?_
    subst htype
    exact .raise _
  cases hv with
  | closure hr => exact .of_alike (alike_callClosure hr count)
  | native hr => exact .of_alike (alike_callNative hhost hr count)
  | cls hr => exact mayCollect_callClass hr count
  | _ => exact .of_alike hfail

/-! ### Local and captured variables -/

lemma alike_getLocal : Alike (Tied .running) w (fun _ => Eq) getLocal getLocal := by
  refine steered_tied.fetchNat.bind fun w₁ n _ _ hn => .get_bind fun w₂ m j m' j' _ ht => ?_
  subst hn
  refine .get_bind fun w₃ m₁ j₁ m₁' j₁' _ ht₁ => ?_
  rw [ht.frames.1.base]
  exact alike_push (rel_getD (ht₁.stack.get? _))

lemma alike_setLocal : Alike (Tied .running) w (fun _ => Eq) setLocal setLocal := by
  refine steered_tied.fetchNat.bind fun w₁ n _ _ hn => .get_bind fun w₂ m j m' j' _ ht => ?_
  subst hn
  rw [ht.frames.1.base]
  exact (steered_tied.peek 0).bind fun _ _ _ _ hv => alike_store _ hv

lemma alike_getUpvalue : Alike (Tied .running) w (fun _ => Eq) getUpvalue getUpvalue := by
  refine steered_tied.fetchNat.bind fun w₁ n _ _ hn => ?_
  subst hn
  refine (steered_tied.upvalue n).bind fun w₂ r r' _ hr => .get_bind fun w₃ m j m' j' hle ht => ?_
  refine .lift_bind (ht.heap.read (hle.rel hr)) fun x x' hx => ?_
  cases hx with
  | opened slot => exact alike_push (rel_getD (ht.stack.get? slot))
  | closed hv => exact alike_push hv

lemma alike_setUpvalue : Alike (Tied .running) w (fun _ => Eq) setUpvalue setUpvalue := by
  refine steered_tied.fetchNat.bind fun w₁ n _ _ hn => ?_
  subst hn
  refine (steered_tied.upvalue n).bind fun w₂ r r' _ hr => ?_
  refine (steered_tied.peek 0).bind fun w₃ v v' hle hv => .get_bind fun w₄ m j m' j' hle' ht => ?_
  have hr := hle'.rel (hle.rel hr)
  refine .lift_bind (ht.heap.read hr) fun x x' hx => ?_
  cases hx with
  | opened slot => exact alike_store slot (hv.le hle')
  | closed _ => exact alike_onHeap (Heap.alike_put hr rfl (.closed (hv.le hle')))

/-! ### Global variables -/

lemma alike_notDefined {α β : Type} {V : World → α → β → Prop} {name name' : Ref .string}
    (hname : name.Rel w name') :
    Alike (Tied p) w V (notDefined name) (notDefined name') := by
  refine .get_bind fun w₁ m j m' j' hle ht => ?_
  refine .lift_bind (ht.heap.text (hle.rel hname)) fun text _ htext => ?_
  subst htext
  exact .raise _

lemma alike_insertGlobal {key key' : Key} (hkey : key.Rel w key') (hv : v.Rel w v') :
    Alike (Tied p) w (fun w₁ => Option.Rel (Value.Rel w₁)) (onGlobals (Table.insert key v))
      (onGlobals (Table.insert key' v')) :=
  alike_onGlobals fun _ _ _ _ _ hle ht => ht.insert (hkey.le hle) (hv.le hle)

lemma alike_getGlobal : Alike (Tied .running) w (fun _ => Eq) getGlobal getGlobal := by
  refine steered_tied.fetchName.bind ?_
  rintro w₁ ⟨name, key⟩ ⟨name', key'⟩ _ ⟨hname, hkey⟩
  refine .get_bind fun w₂ m j m' j' hle ht => ?_
  rw [hkey.hash]
  refine .lift_bind (ht.globals.get? _) fun o o' ho => ?_
  cases ho with
  | some hv => exact alike_push hv
  | none => exact alike_notDefined (hle.rel hname)

lemma alike_defineGlobal : Alike (Tied .running) w (fun _ => Eq) defineGlobal defineGlobal := by
  refine steered_tied.fetchName.bind ?_
  rintro w₁ ⟨name, key⟩ ⟨name', key'⟩ _ ⟨-, hkey⟩
  refine alike_pop.bind fun w₂ v v' hle hv => ?_
  exact (alike_insertGlobal (hkey.le hle) hv).bind fun _ _ _ _ _ => .pure fun _ _ => rfl

lemma alike_setGlobal : Alike (Tied .running) w (fun _ => Eq) setGlobal setGlobal := by
  refine steered_tied.fetchName.bind ?_
  rintro w₁ ⟨name, key⟩ ⟨name', key'⟩ _ ⟨hname, hkey⟩
  refine .get_bind fun w₂ m j m' j' hle ht => ?_
  rw [hkey.hash]
  refine .lift_bind (ht.globals.get? _) fun o o' ho => ?_
  cases ho with
  | some _ =>
      refine (steered_tied.peek 0).bind fun w₃ v v' hle' hv => ?_
      refine (alike_insertGlobal (hkey.le (World.le_trans hle hle')) hv).bind ?_
      exact fun _ _ _ _ _ => .pure fun _ _ => rfl
  | none => exact alike_notDefined (hle.rel hname)

lemma alike_deleteGlobal : Alike (Tied .running) w (fun _ => Eq) deleteGlobal deleteGlobal := by
  refine steered_tied.fetchName.bind ?_
  rintro w₁ ⟨name, key⟩ ⟨name', key'⟩ _ ⟨hname, hkey⟩
  have hremove : Alike (Tied .running) w₁ (fun w₂ => Option.Rel (Value.Rel w₂))
      (onGlobals (Table.remove key.hash)) (onGlobals (Table.remove key'.hash)) := by
    rw [show key.hash = key'.hash from hkey.hash]
    exact alike_onGlobals fun _ _ _ _ _ _ ht => ht.remove _
  refine hremove.bind fun w₂ o o' hle ho => ?_
  cases ho with
  | some _ => exact .pure fun _ _ => rfl
  | none => exact alike_notDefined (hle.rel hname)

/-! ### Properties -/

lemma alike_getProperty : Alike (Tied .running) w (fun _ => Eq) getProperty getProperty := by
  refine steered_tied.fetchName.bind ?_
  rintro w₁ ⟨name, key⟩ ⟨name', key'⟩ _ ⟨hname, hkey⟩
  refine (steered_tied.peek 0).bind fun w₂ v v' hle hv => ?_
  refine (steered_tied.asInstance hv (hle.rel hname)).bind fun w₃ r r' hle' hr => ?_
  refine .get_bind fun w₄ m j m' j' hle'' ht => ?_
  have hle₄ := World.le_trans hle (World.le_trans hle' hle'')
  exact .lift_bind (ht.heap.property (hle''.rel hr) (hle₄.rel hname) (hkey.le hle₄))
    fun _ _ hv => alike_setPeek 0 hv

lemma alike_setProperty : Alike (Tied .running) w (fun _ => Eq) setProperty setProperty := by
  refine steered_tied.fetchName.bind ?_
  rintro w₁ ⟨name, key⟩ ⟨name', key'⟩ _ ⟨hname, hkey⟩
  refine (steered_tied.peek 0).bind fun w₂ v v' hle hv => ?_
  refine (steered_tied.peek 1).bind fun w₃ inst inst' hle' hinst => ?_
  have hle₃ := World.le_trans hle hle'
  refine (steered_tied.asInstance hinst (hle₃.rel hname)).bind fun w₄ r r' hle₄ hr => ?_
  have hv := hv.le (World.le_trans hle' hle₄)
  have hkey := hkey.le (World.le_trans hle₃ hle₄)
  refine (alike_onHeap (Heap.alike_storeField hr hkey hv)).bind fun w₅ _ _ hle₅ _ => ?_
  refine (alike_onHeap (Heap.alike_resize (hle₅.rel hr) (by decide) (by decide))).bind ?_
  refine fun w₆ _ _ hle₆ _ => alike_pop.bind fun w₇ _ _ hle₇ _ => ?_
  exact alike_setPeek 0 (hv.le (World.le_trans hle₅ (World.le_trans hle₆ hle₇)))

/-! ### Classes and closures -/

lemma mayCollect_defineClass : MayCollect (Tied .running) w (fun _ => Eq) defineClass defineClass := by
  refine .after steered_snug.fetchName ?_
  rintro w₁ ⟨name, key⟩ ⟨name', key'⟩ _ ⟨hname, -⟩
  have hcontent : Content.Rel w₁ .cls (.create name) (.create name') :=
    Class.Rel.mk hname .none (Table.Rel.blank _)
  refine (MayCollect.alloc hcontent trivial).bind fun w₂ r r' _ hr => ?_
  have hlist : Alike (Tied .running) w₂ (fun _ => Eq)
      (modify fun m => { m with classes := m.classes.push (.cls r) } : Action Machine Unit)
      (modify fun m => { m with classes := m.classes.push (.cls r') }) :=
    .of_match fun _ _ _ _ _ hle ht =>
      .done { ht with classes := ht.classes.push (.cls (hle.rel hr)) } rfl
  exact hlist.bind fun _ _ _ hle _ => alike_push (.cls (hle.rel hr))

/-- What is left to do after a method has been stored. -/
lemma alike_methodStored {r r' : Ref .cls} (hr : r.Rel w r') :
    Alike (Tied p) w (fun _ => Eq) (do onHeap (Heap.resize r.id); let _ ← pop)
      (do onHeap (Heap.resize r'.id); let _ ← pop) :=
  (alike_onHeap (Heap.alike_resize hr (by decide) (by decide))).bind fun _ _ _ _ _ =>
    alike_pop.bind fun _ _ _ _ _ => .pure fun _ _ => rfl

lemma alike_defineMethod : Alike (Tied .running) w (fun _ => Eq) defineMethod defineMethod := by
  refine steered_tied.fetchName.bind ?_
  rintro w₁ ⟨name, key⟩ ⟨name', key'⟩ _ ⟨hname, hkey⟩
  refine (steered_tied.peek 1).bind fun w₂ a a' hle ha => ?_
  refine (steered_tied.peek 0).bind fun w₃ b b' hle' hb => ?_
  have hle₃ := World.le_trans hle hle'
  cases ha with
  | @cls r r' hr =>
      cases hb with
      | @closure method method' hmethod =>
          have hstore := Heap.alike_storeMethod (hle'.rel hr) (hkey.le hle₃) (.closure hmethod)
          refine (alike_onHeap hstore).bind fun w₄ _ _ hle₄ _ => .get_bind fun w₅ m j m' j' hle₅ ht => ?_
          have hle₅' := World.le_trans hle₄ hle₅
          have hr := hle₅'.rel (hle'.rel hr)
          refine .lift_bind (ht.heap.text (hle₅'.rel (hle₃.rel hname))) fun text _ htext => ?_
          subst htext
          refine .ite .rfl ?_ (alike_methodStored hr)
          refine .get_bind fun w₆ m₁ j₁ m₁' j₁' hle₆ ht₁ => ?_
          have hmethod := hle₆.rel (hle₅'.rel hmethod)
          refine .lift_bind (ht₁.heap.read (hle₆.rel hr)) fun c c' hc => ?_
          refine (alike_onHeap (Heap.alike_put (hle₆.rel hr) rfl ?_)).bind ?_
          · exact ⟨hc.name, .some hmethod, hc.methods⟩
          · exact fun _ _ _ hle₇ _ => alike_methodStored (hle₇.rel (hle₆.rel hr))
      | _ => exact .abort .badInstruction (by decide)
  | _ => exact .abort .badInstruction (by decide)

/-- The upvalues of a new closure. -/
lemma alike_captureMany (count : Nat) {refs refs' : Array (Ref .upvalue)}
    (hrefs : ArrayRel (Ref.Rel w) refs refs') :
    Alike (Snug .running) w (fun w₁ => ArrayRel (Ref.Rel w₁)) (captureMany count refs)
      (captureMany count refs') := by
  induction count generalizing w refs refs' with
  | zero => exact .pure fun _ hle => hrefs.mono fun _ _ _ _ => hle.rel
  | succ count ih =>
      refine steered_snug.fetch.bind fun w₁ isLocal _ hle hlocal => ?_
      refine steered_snug.fetchNat.bind fun w₂ index _ hle' hindex => ?_
      subst hlocal hindex
      have hmore : ∀ {w₃ r r'}, w₂ ≤ w₃ → Ref.Rel w₃ r r' →
          Alike (Snug .running) w₃ (fun w₁ => ArrayRel (Ref.Rel w₁))
            (captureMany count (refs.push r)) (captureMany count (refs'.push r')) := by
        intro w₃ r r' hle'' hr
        have hle₃ := World.le_trans hle (World.le_trans hle' hle'')
        exact ih ((hrefs.mono fun _ _ _ _ => hle₃.rel).push hr)
      refine .ite .rfl ?_ ?_
      · refine .get_bind fun w₃ m j m' j' hle'' hs => ?_
        rw [hs.tied.frames.1.base]
        have hcapture : Alike (Snug .running) w₃ (fun w₁ => Ref.Rel w₁)
            (capture (m'.frame.base + index)) (capture (m'.frame.base + index)) :=
          fun _ _ _ _ _ _ hs => hs.capture _
        exact hcapture.bind fun _ _ _ hle₄ hr => hmore (World.le_trans hle'' hle₄) hr
      · exact (steered_snug.upvalue index).bind fun _ _ _ hle'' hr => hmore hle'' hr

lemma mayCollect_makeClosure : MayCollect (Tied .running) w (fun _ => Eq) makeClosure makeClosure := by
  refine .after steered_snug.fetchConstant fun w₁ v v' _ hv => ?_
  cases hv with
  | @function r r' hr =>
      refine .get_bind fun w₂ m j m' j' hle hs => ?_
      refine .lift_bind (hs.tied.heap.read (hle.rel hr)) fun f f' hf => ?_
      rw [hf.upvalueCount]
      refine .after (alike_captureMany _ .empty) fun w₃ refs refs' hle' hrefs => ?_
      have hcontent : Content.Rel w₃ .closure ⟨r, refs⟩ ⟨r', refs'⟩ :=
        Closure.Rel.mk (hle'.rel (hle.rel hr)) hrefs
      exact (MayCollect.alloc hcontent trivial).bind fun _ _ _ _ hr => alike_push (.closure hr)
  | _ => exact .of_alike (.abort .badInstruction (by decide))

end Machine

end ScriptMachine
