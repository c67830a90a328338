import ScriptMachine.Machine.Run
import ScriptMachine.Proofs.Arithmetic.Primes
import ScriptMachine.Proofs.Simulation.Reading

/-!
Containers and native functions of two heaps that stand for each other.

* `Tied.getIndex`, `Tied.each`: elements are read alike;
* `alike_setIndex`, `alike_push`, `alike_pop`, `alike_remove`, `alike_copy`:
  containers change alike;
* `Host.Agrees.native`: native functions end alike.
-/

namespace ScriptMachine

namespace Heap

variable {w w' : World} {h h' : Heap} {j j' : Journal} {a a' b b' c c' v v' : Value} {α β : Type}
  {V : α → β → Prop}

/-! ### Errors -/

lemma Tied.notOffered (ht : Tied w h j h' j') (op : String) (hv : v.Rel w v') :
    Result.Rel V (Container.unsupported h op v) (Container.unsupported h' op v') := by
  refine (ht.typeName hv).bind fun type type' htype => ?_
  subst htype
  exact .raise _

lemma Tied.elementMismatch (ht : Tied w h j h' j') (hc : c.Rel w c') (hv : v.Rel w v') :
    Result.Rel V (Container.elementMismatch h c v) (Container.elementMismatch h' c' v') := by
  refine (ht.typeName hc).bind fun type type' htype =>
    (ht.typeName hv).bind fun other other' hother => ?_
  subst htype hother
  exact .raise _

lemma Tied.notIndexable (ht : Tied w h j h' j') (hc : c.Rel w c') :
    Result.Rel V (Container.notIndexable h c) (Container.notIndexable h' c') := by
  refine (ht.typeName hc).bind fun type type' htype => ?_
  subst htype
  exact .raise _

lemma rel_ascii (index : Nat) (byte : UInt8) :
    Result.Rel Eq (Container.ascii index byte) (Container.ascii index byte) :=
  .ite (fun _ => .ok rfl) fun _ => .raise _

/-! ### Keys and positions -/

lemma Tied.key (ht : Tied w h j h' j') (hv : v.Rel w v') :
    Result.Rel (Key.Rel w) (Container.key h v) (Container.key h' v') := by
  have hunhashable : Result.Rel (Key.Rel w)
      (do Result.raise (.unhashable (← h.typeName v)))
      (do Result.raise (.unhashable (← h'.typeName v'))) := by
    refine (ht.typeName hv).bind fun type type' htype => ?_
    subst htype
    exact .raise _
  cases hv with
  | scalar hs =>
      refine (ht.hash? hs).bind fun hash hash' heq => ?_
      subst heq
      cases hash with
      | none => exact hunhashable
      | some hash => exact .ok ⟨rfl, hs⟩
  | _ => exact hunhashable

lemma Tied.length? (ht : Tied w h j h' j') (hc : c.Rel w c') :
    Result.Rel Eq (Container.length? h c) (Container.length? h' c') := by
  cases hc with
  | @scalar s s' hs =>
      cases hs with
      | plain _ bare =>
          cases s with
          | str _ => cases bare
          | array _ => cases bare
          | _ => exact .ok rfl
      | str ref =>
          refine (ht.read ref).bind fun x x' heq => .ok ?_
          rw [show x = x' from heq]
      | array ref =>
          refine (ht.read ref).bind fun x x' heq => .ok ?_
          rw [show x = x' from heq]
  | vector ref => exact (ht.read ref).bind fun _ _ hx => .ok (congrArg some hx.length_eq)
  | stack ref => exact (ht.read ref).bind fun _ _ hx => .ok (congrArg some hx.length_eq)
  | table ref => exact (ht.read ref).bind fun _ _ hx => .ok (congrArg some hx.count)
  | _ => exact .ok rfl

lemma Tied.length (ht : Tied w h j h' j') (hc : c.Rel w c') :
    Result.Rel Eq (Container.length h c) (Container.length h' c') := by
  refine (ht.length? hc).bind fun length length' heq => ?_
  subst heq
  cases length with
  | none => exact ht.notOffered "len" hc
  | some length => exact .ok rfl

lemma Tied.position (ht : Tied w h j h' j') (hc : c.Rel w c') (hv : v.Rel w v') (limit : Nat) :
    Result.Rel Eq (Container.position h c v limit) (Container.position h' c' v' limit) := by
  rw [Container.position, Container.position, hv.integral_eq]
  cases v'.integral with
  | none =>
      refine (ht.typeName hv).bind fun type type' htype => ?_
      subst htype
      exact .raise _
  | some n =>
      refine .ite (fun _ => .ok rfl) fun _ => (ht.typeName hc).bind fun type type' htype =>
        (ht.length? hc).bind fun length length' hlength => ?_
      subst htype hlength
      exact .raise _

/-! ### Reading -/

/-- Reading related containers at related indices. -/
lemma Tied.getIndex (ht : Tied w h j h' j') (hc : c.Rel w c') (hv : v.Rel w v') :
    Result.Rel (Value.Rel w) (Container.getIndex h c v) (Container.getIndex h' c' v') := by
  have hfail : Result.Rel (Value.Rel w) (Container.notIndexable h c) (Container.notIndexable h' c') :=
    ht.notIndexable hc
  -- errors about a position name the container, so this comes before `hc` is taken apart
  have hposition := ht.position hc hv
  cases hc with
  | @scalar s s' hs =>
      cases hs with
      | plain _ bare =>
          cases s with
          | str _ => cases bare
          | array _ => cases bare
          | _ => exact hfail
      | str ref =>
          refine (ht.textRecord ref).bind fun x x' heq => ?_
          subst heq
          refine (hposition _).bind fun i i' heq => ?_
          subst heq
          refine (ht.textByte? ref i).bind fun byte byte' heq => ?_
          subst heq
          exact (rel_ascii i _).bind fun _ _ heq => .ok (heq ▸ .scalar (.plain _ rfl))
      | array ref =>
          refine (ht.read ref).bind fun x x' heq => ?_
          obtain rfl : x = x' := heq
          refine (hposition _).bind fun i i' heq => ?_
          subst heq
          refine (ht.arrayGet? ref i).bind fun o o' ho => .ok (.scalar ?_)
          cases ho with
          | none => exact .plain _ rfl
          | some hs => exact hs
  | vector ref =>
      refine (ht.read ref).bind fun x x' hx => ?_
      rw [Stack.Rel.length_eq hx]
      refine (hposition _).bind fun i i' heq => .ok (.scalar ?_)
      subst heq
      have ho := Stack.Rel.get? hx i
      generalize Stack.get? x i = o, Stack.get? x' i = o' at ho
      cases ho with
      | none => exact .plain _ rfl
      | some hs => exact hs
  | stack ref =>
      refine (ht.read ref).bind fun x x' hx => ?_
      rw [Stack.Rel.length_eq hx]
      refine (hposition _).bind fun i i' heq => .ok ?_
      subst heq
      exact rel_getD (Stack.Rel.get? hx i)
  | table ref =>
      refine (ht.key hv).bind fun key key' hkey => (ht.read ref).bind fun x x' hx => ?_
      rw [hkey.hash]
      exact (Table.Rel.get? hx key'.hash).bind fun _ _ ho => .ok (rel_getD ho)
  | _ => exact hfail

lemma Tied.each (ht : Tied w h j h' j') (hc : c.Rel w c') (cursor : Nat) :
    Result.Rel (Value.Rel w) (Container.each h c cursor) (Container.each h' c' cursor) := by
  have hfail : Result.Rel (Value.Rel w) (Container.unsupported h "iteration" c)
      (Container.unsupported h' "iteration" c') := ht.notOffered "iteration" hc
  cases hc with
  | @scalar s s' hs =>
      cases hs with
      | plain _ bare =>
          cases s with
          | str _ => cases bare
          | array _ => cases bare
          | _ => exact hfail
      | str ref =>
          refine (ht.textByte? ref cursor).bind fun byte byte' heq => ?_
          subst heq
          cases byte with
          | none => exact .ok Value.rel_null
          | some byte =>
              exact (rel_ascii cursor byte).bind fun _ _ heq => .ok (heq ▸ .scalar (.plain _ rfl))
      | array ref => exact (ht.arrayGet? ref cursor).bind fun _ _ ho => .ok (rel_getD_scalar ho)
  | vector ref =>
      exact (ht.read ref).bind fun _ _ hx => .ok (rel_getD_scalar (Stack.Rel.get? hx cursor))
  | stack ref => exact (ht.read ref).bind fun _ _ hx => .ok (rel_getD (Stack.Rel.get? hx cursor))
  | _ => exact hfail

lemma Tied.element (ht : Tied w h j h' j') (kind : ArrayKind) (hc : c.Rel w c') (hv : v.Rel w v') :
    Result.Rel (fun s s' => s.Rel w s' ∧ kind.Element s) (Container.element h kind c v)
      (Container.element h' kind c' v') := by
  rw [Container.element, Container.element]
  have hcoerce := rel_coerce kind hv
  have helement : ∀ s, v.scalar?.bind kind.coerce = some s → kind.Element s := by
    intro s hs
    obtain ⟨original, -, hs⟩ := Option.bind_eq_some_iff.mp hs
    exact ArrayKind.element_of_coerce hs
  generalize v.scalar?.bind kind.coerce = o, v'.scalar?.bind kind.coerce = o' at hcoerce helement
  cases hcoerce with
  | none => exact ht.elementMismatch hc hv
  | some hs => exact .ok ⟨hs, helement _ rfl⟩

lemma Tied.scalarOf (ht : Tied w h j h' j') (hc : c.Rel w c') (hv : v.Rel w v') :
    Result.Rel (Scalar.Rel w) (Container.scalarOf h c v) (Container.scalarOf h' c' v') := by
  have hfail : Result.Rel (Scalar.Rel w) (Container.elementMismatch h c v)
      (Container.elementMismatch h' c' v') := ht.elementMismatch hc hv
  cases hv with
  | scalar hs => exact .ok hs
  | _ => exact hfail

/-! ### Writing -/

/-- Another content of two plain objects, made from the old ones. -/
lemma alike_modifyContent {k : Kind} {r r' : Ref k} {f : k.Content → α × k.Content}
    {f' : k.Content → β × k.Content} {V : World → α → β → Prop} (hr : r.Rel w r')
    (hk : k.isPlain = true) (hf : ∀ w₁ x x', w ≤ w₁ → Content.Rel w₁ k x x' →
      V w₁ (f x).1 (f' x').1 ∧ Content.Rel w₁ k (f x).2 (f' x').2) :
    Alike Tied w V (Heap.onContent r (modifyGet f)) (Heap.onContent r' (modifyGet f')) := by
  refine alike_onContent hr hk fun w₁ x j x' j' hle hx => ?_
  obtain ⟨hv, hcontent⟩ := hf w₁ x x' hle hx.1
  exact .done ⟨hcontent, hx.2⟩ hv

lemma alike_storeScalar {r r' : Ref .vector} {s s' : Scalar} (hr : r.Rel w r') (i : Nat)
    (hs : s.Rel w s') :
    Alike Tied w (fun _ => Eq) (Heap.onContent r (modifyGet (·.set i s)))
      (Heap.onContent r' (modifyGet (·.set i s'))) :=
  alike_modifyContent hr rfl fun _ _ _ hle hx => Stack.Rel.set hx i (hs.le hle) (.plain _ rfl)

lemma alike_storeValue {r r' : Ref .stack} (hr : r.Rel w r') (i : Nat) (hv : v.Rel w v') :
    Alike Tied w (fun _ => Eq) (Heap.onContent r (modifyGet (·.set i v)))
      (Heap.onContent r' (modifyGet (·.set i v'))) :=
  alike_modifyContent hr rfl fun _ _ _ hle hx => Stack.Rel.set hx i (hv.le hle) Value.rel_null

lemma alike_storeEntry {r r' : Ref .table} {key key' : Key} (hr : r.Rel w r')
    (hkey : key.Rel w key') (hv : v.Rel w v') :
    Alike Tied w (fun w₁ => Option.Rel (Value.Rel w₁)) (Heap.onContent r (Table.insert key v))
      (Heap.onContent r' (Table.insert key' v')) :=
  alike_onContent hr rfl fun _ _ _ _ _ hle hx => Table.Tied.insert hx (hkey.le hle) (hv.le hle)

/-- Storing into related strings fails alike. -/
lemma alike_setText {r r' : Ref .string} (hc : c.Rel w c') (hb : b.Rel w b') (hv : v.Rel w v')
    (hr : r.Rel w r') :
    Alike Tied w (fun _ => Eq) (Container.setText c b v r) (Container.setText c' b' v' r') := by
  refine .get_bind fun w₁ h j h' j' hle ht => ?_
  have hr₁ : r.Rel w₁ r' := hle.rel hr
  have hfail : Alike Tied w₁ (fun _ => Eq) (liftM (Container.elementMismatch h c v : Result Unit))
      (liftM (Container.elementMismatch h' c' v' : Result Unit)) :=
    .lift_failing (ht.elementMismatch (hc.le hle) (hv.le hle))
  cases hv with
  | @scalar s s' hs =>
      cases hs with
      | plain _ bare =>
          cases s with
          | char byte =>
              refine .lift_bind (ht.read hr₁) fun x x' heq => ?_
              obtain rfl : x = x' := heq
              refine .lift_bind (ht.position (hc.le hle) (hb.le hle) _) fun i i' heq => ?_
              subst heq
              have hstore : Alike Tied w₁ (fun _ => Eq)
                  (do let byte ← (Container.ascii i byte : Result UInt8)
                      let _ ← Heap.setChar r i byte : Action Heap Unit)
                  (do let byte ← (Container.ascii i byte : Result UInt8)
                      let _ ← Heap.setChar r' i byte : Action Heap Unit) := by
                refine .lift_bind (rel_ascii i byte) fun byte byte' heq => ?_
                subst heq
                exact (alike_setChar hr₁ i byte).bind fun _ _ _ _ _ => .pure fun _ _ => rfl
              refine .lift_bind (ht.textByte? hr₁ i) fun old old' heq => ?_
              subst heq
              cases old with
              -- the character that is replaced is read first, and may be the one that fails
              | none => exact hstore
              | some old => exact .lift_bind (rel_ascii i old) fun _ _ _ => hstore
          | _ => exact hfail
      | _ => exact hfail
  | _ => exact hfail

/-- Storing into an array. The element is of the kind of the array, which is
read from the same heap. -/
lemma alike_setElement {r r' : Ref .array} (hr : r.Rel w r') (hb : b.Rel w b') (hv : v.Rel w v') :
    Alike Tied w (fun _ => Eq) (Container.setIndex (.scalar (.array r)) b v)
      (Container.setIndex (.scalar (.array r')) b' v') := by
  intro w₁ hle h j h' j' ht
  have hr₁ : r.Rel w₁ r' := hle.rel hr
  have hc : Value.Rel w₁ (.scalar (.array r)) (.scalar (.array r')) := .scalar (.array hr₁)
  rw [Container.setIndex, Container.setIndex, Action.get_bind, Action.get_bind]
  refine Sim.lift_bind (ht.read_get? hr₁) ht fun x x' hx => ?_
  obtain rfl : x = x' := hx.1
  refine Sim.lift_bind (ht.element x.kind hc (hv.le hle)) ht fun s s' hs => ?_
  refine Sim.lift_bind (ht.position hc (hb.le hle) _) ht fun i i' heq => ?_
  subst heq
  have helement : ∀ y, h.get? r = some y → y.kind.Element s := fun y hy =>
    Option.some.inj (hx.2.symm.trans hy) ▸ hs.2
  refine Sim.bind (.of_match (V := fun _ => Eq) (ht.arraySet hr₁ i hs.1 helement)) ?_
  intro w₂ _ h j _ h' j' hle ht _
  exact .of_match (ht.resize (hle.rel hr₁) (by decide) (by decide))

/-- Storing related values in related containers. -/
lemma alike_setIndex (hc : c.Rel w c') (hb : b.Rel w b') (hv : v.Rel w v') :
    Alike Tied w (fun _ => Eq) (Container.setIndex c b v) (Container.setIndex c' b' v') := by
  -- whatever is no container fails before anything is reserved
  have hfail : Alike Tied w (fun _ => Eq)
      (do let h ← get
          let _ ← (Container.notIndexable h c : Result Unit)
          Container.reserve c : Action Heap Unit)
      (do let h ← get
          let _ ← (Container.notIndexable h c' : Result Unit)
          Container.reserve c' : Action Heap Unit) :=
    .get_bind fun _ _ _ _ _ hle ht =>
      .lift_bind (ht.notIndexable (hc.le hle)) fun _ _ => False.elim
  have hcontainer := hc
  cases hc with
  | @scalar s s' hs =>
      cases hs with
      | plain _ bare =>
          cases s with
          | str _ => cases bare
          | array _ => cases bare
          | _ => exact hfail
      | str ref =>
          refine .get_bind fun w₁ h j h' j' hle ht => ?_
          refine (alike_setText (hcontainer.le hle) (hb.le hle) (hv.le hle) (hle.rel ref)).bind
            fun w₂ _ _ hle' _ => ?_
          exact alike_resize (hle'.rel (hle.rel ref)) (by decide) (by decide)
      | array ref => exact alike_setElement ref hb hv
  | vector ref =>
      refine .get_bind fun w₁ h j h' j' hle ht => ?_
      refine .lift_bind (ht.scalarOf (hcontainer.le hle) (hv.le hle)) fun s s' hs => ?_
      refine .lift_bind (ht.read (hle.rel ref)) fun x x' hx => ?_
      rw [Stack.Rel.capacity hx]
      refine .lift_bind (ht.position (hcontainer.le hle) (hb.le hle) _) fun i i' heq => ?_
      subst heq
      refine (alike_storeScalar (hle.rel ref) i hs).bind fun w₂ _ _ hle' _ => ?_
      exact alike_resize (hle'.rel (hle.rel ref)) (by decide) (by decide)
  | stack ref =>
      refine .get_bind fun w₁ h j h' j' hle ht => ?_
      refine .lift_bind (ht.read (hle.rel ref)) fun x x' hx => ?_
      rw [Stack.Rel.capacity hx]
      refine .lift_bind (ht.position (hcontainer.le hle) (hb.le hle) _) fun i i' heq => ?_
      subst heq
      refine (alike_storeValue (hle.rel ref) i (hv.le hle)).bind fun w₂ _ _ hle' _ => ?_
      exact alike_resize (hle'.rel (hle.rel ref)) (by decide) (by decide)
  | table ref =>
      refine .get_bind fun w₁ h j h' j' hle ht => ?_
      refine .lift_bind (ht.key (hb.le hle)) fun key key' hkey => ?_
      refine (alike_storeEntry (hle.rel ref) hkey (hv.le hle)).bind fun w₂ _ _ hle' _ => ?_
      exact alike_resize (hle'.rel (hle.rel ref)) (by decide) (by decide)
  | _ => exact hfail

/-- Appending to an array, likewise. -/
lemma alike_pushElement {r r' : Ref .array} (hr : r.Rel w r') (hv : v.Rel w v') :
    Alike Tied w (fun _ => Eq) (Container.push (.scalar (.array r)) v)
      (Container.push (.scalar (.array r')) v') := by
  intro w₁ hle h j h' j' ht
  have hr₁ : r.Rel w₁ r' := hle.rel hr
  rw [Container.push, Container.push, Action.get_bind, Action.get_bind]
  refine Sim.lift_bind (ht.read_get? hr₁) ht fun x x' hx => ?_
  obtain rfl : x = x' := hx.1
  refine Sim.lift_bind (ht.element x.kind (.scalar (.array hr₁)) (hv.le hle)) ht fun s s' hs => ?_
  have helement : ∀ y, h.get? r = some y → y.kind.Element s := fun y hy =>
    Option.some.inj (hx.2.symm.trans hy) ▸ hs.2
  refine Sim.bind (.of_match (V := fun _ => Eq) (ht.arrayPush hr₁ hs.1 helement)) ?_
  intro w₂ _ h j _ h' j' hle ht _
  exact .of_match (ht.resize (hle.rel hr₁) (by decide) (by decide))

lemma alike_push (hc : c.Rel w c') (hv : v.Rel w v') :
    Alike Tied w (fun _ => Eq) (Container.push c v) (Container.push c' v') := by
  have hfail : Alike Tied w (fun _ => Eq)
      (do let h ← get
          let _ ← (Container.unsupported h "push" c : Result Unit)
          Container.reserve c : Action Heap Unit)
      (do let h ← get
          let _ ← (Container.unsupported h "push" c' : Result Unit)
          Container.reserve c' : Action Heap Unit) :=
    .get_bind fun _ _ _ _ _ hle ht =>
      .lift_bind (ht.notOffered "push" (hc.le hle)) fun _ _ => False.elim
  cases hc with
  | @scalar s s' hs =>
      cases hs with
      | plain _ bare =>
          cases s with
          | array _ => cases bare
          | _ => exact hfail
      | str ref => exact hfail
      | array ref => exact alike_pushElement ref hv
  | vector ref =>
      refine .get_bind fun w₁ h j h' j' hle ht => ?_
      refine .lift_bind (ht.scalarOf (.vector (hle.rel ref)) (hv.le hle)) fun s s' hs => ?_
      refine Alike.bind (alike_modifyContent (V := fun _ => Eq) (hle.rel ref) rfl
        fun _ _ _ hle hx => ⟨rfl, Stack.Rel.push hx (hs.le hle)⟩) fun w₂ _ _ hle' _ => ?_
      exact alike_resize (hle'.rel (hle.rel ref)) (by decide) (by decide)
  | stack ref =>
      refine .get_bind fun w₁ h j h' j' hle ht => ?_
      refine Alike.bind (alike_modifyContent (V := fun _ => Eq) (hle.rel ref) rfl
        fun _ _ _ hle' hx => ⟨rfl, Stack.Rel.push hx ((hv.le hle).le hle')⟩) fun w₂ _ _ hle' _ => ?_
      exact alike_resize (hle'.rel (hle.rel ref)) (by decide) (by decide)
  | _ => exact hfail

lemma rel_mapScalar {o o' : Option Scalar} (ho : Option.Rel (Scalar.Rel w) o o') :
    Option.Rel (Value.Rel w) (o.map .scalar) (o'.map .scalar) := by
  cases ho with
  | none => exact .none
  | some hs => exact .some (.scalar hs)

lemma alike_popFrom (hc : c.Rel w c') :
    Alike Tied w (fun w₁ => Option.Rel (Value.Rel w₁)) (Container.popFrom c)
      (Container.popFrom c') := by
  have hfail : Alike Tied w (fun w₁ => Option.Rel (Value.Rel w₁))
      (do let h ← get
          (Container.unsupported h "pop" c : Result (Option Value)) : Action Heap (Option Value))
      (do let h ← get
          (Container.unsupported h "pop" c' : Result (Option Value))) :=
    .get_bind fun _ _ _ _ _ hle ht => .lift_failing (ht.notOffered "pop" (hc.le hle))
  cases hc with
  | @scalar s s' hs =>
      cases hs with
      | plain _ bare =>
          cases s with
          | array _ => cases bare
          | _ => exact hfail
      | str ref => exact hfail
      | array ref =>
          refine .get_bind fun w₁ h j h' j' hle ht => ?_
          exact (alike_arrayPop (hle.rel ref)).bind fun w₂ o o' _ ho =>
            .pure fun _ hle => Value.option_le (rel_mapScalar ho) hle
  | vector ref =>
      refine .get_bind fun w₁ h j h' j' hle ht => ?_
      refine Alike.bind (alike_modifyContent (V := fun w => Option.Rel (Scalar.Rel w)) (hle.rel ref)
        rfl fun _ _ _ _ hx => Stack.Rel.pop hx) fun w₂ o o' _ ho => ?_
      exact .pure fun _ hle => Value.option_le (rel_mapScalar ho) hle
  | stack ref =>
      refine .get_bind fun w₁ h j h' j' hle ht => ?_
      exact alike_modifyContent (hle.rel ref) rfl fun _ _ _ _ hx => Stack.Rel.pop hx
  | _ => exact hfail

lemma alike_pop (hc : c.Rel w c') :
    Alike Tied w (fun w₁ => Value.Rel w₁) (Container.pop c) (Container.pop c') := by
  refine (alike_popFrom hc).bind fun w₁ o o' hle ho => ?_
  cases ho with
  | some hv => exact .pure fun _ hle => hv.le hle
  | none =>
      refine .get_bind fun w₂ h j h' j' hle' ht => ?_
      refine .lift_bind (ht.typeName ((hc.le hle).le hle')) fun type type' heq => ?_
      subst heq
      exact .raise _

lemma alike_remove (hc : c.Rel w c') (hb : b.Rel w b') :
    Alike Tied w (fun w₁ => Value.Rel w₁) (Container.remove c b) (Container.remove c' b') := by
  have hfail : Alike Tied w (fun w₁ => Value.Rel w₁)
      (do let h ← get
          (Container.unsupported h "remove" c : Result Value) : Action Heap Value)
      (do let h ← get
          (Container.unsupported h "remove" c' : Result Value)) :=
    .get_bind fun _ _ _ _ _ hle ht => .lift_failing (ht.notOffered "remove" (hc.le hle))
  cases hc with
  | table ref =>
      refine .get_bind fun w₁ h j h' j' hle ht => ?_
      refine .lift_bind (ht.key (hb.le hle)) fun key key' hkey => ?_
      rw [hkey.hash]
      refine Alike.bind (alike_onContent (hle.rel ref) rfl fun _ _ _ _ _ _ hx =>
        Table.Tied.remove hx key'.hash) fun w₂ o o' _ ho => ?_
      exact .pure fun _ hle => (rel_getD ho).le hle
  | _ => exact hfail

/-- Copies of related containers are related. -/
lemma alike_copy (hc : c.Rel w c') :
    Alike Tied w (fun w₁ => Value.Rel w₁) (Container.copy c) (Container.copy c') := by
  have hfail : Alike Tied w (fun w₁ => Value.Rel w₁)
      (do let h ← get
          (Container.unsupported h "copy" c : Result Value) : Action Heap Value)
      (do let h ← get
          (Container.unsupported h "copy" c' : Result Value)) :=
    .get_bind fun _ _ _ _ _ hle ht => .lift_failing (ht.notOffered "copy" (hc.le hle))
  cases hc with
  | @scalar s s' hs =>
      cases hs with
      | plain _ bare =>
          cases s with
          | str _ => cases bare
          | array _ => cases bare
          | _ => exact hfail
      | str ref =>
          refine .get_bind fun w₁ h j h' j' hle ht => ?_
          refine .lift_bind (ht.text (hle.rel ref)) fun text text' heq => ?_
          subst heq
          exact (alike_insertText text false).bind fun _ _ _ _ hr =>
            .pure fun _ hle => .scalar (.str (hle.rel hr))
      | array ref =>
          refine .get_bind fun w₁ h j h' j' hle ht => ?_
          exact (alike_copyArray (hle.rel ref)).bind fun _ _ _ _ hr =>
            .pure fun _ hle => .scalar (.array (hle.rel hr))
  | vector ref =>
      refine .get_bind fun w₁ h j h' j' hle ht => .lift_bind (ht.read (hle.rel ref)) fun x x' hx => ?_
      exact (alike_alloc hx trivial).bind fun _ _ _ _ hr => .pure fun _ hle => .vector (hle.rel hr)
  | stack ref =>
      refine .get_bind fun w₁ h j h' j' hle ht => .lift_bind (ht.read (hle.rel ref)) fun x x' hx => ?_
      exact (alike_alloc hx trivial).bind fun _ _ _ _ hr => .pure fun _ hle => .stack (hle.rel hr)
  | table ref =>
      refine .get_bind fun w₁ h j h' j' hle ht => .lift_bind (ht.read (hle.rel ref)) fun x x' hx => ?_
      exact (alike_alloc hx trivial).bind fun _ _ _ _ hr => .pure fun _ hle => .table (hle.rel hr)
  | _ => exact hfail

/-! ### Fields, methods and new arrays -/

lemma alike_storeField {r r' : Ref .inst} {key key' : Key} (hr : r.Rel w r')
    (hkey : key.Rel w key') (hv : v.Rel w v') :
    Alike Tied w (fun w₁ => Option.Rel (Value.Rel w₁)) (Machine.storeField r key v)
      (Machine.storeField r' key' v') := by
  refine alike_onContent hr rfl fun w₁ x j x' j' hle hx => ?_
  have hinsert := Table.Tied.insert ⟨hx.1.fields, hx.2⟩ (hkey.le hle) (hv.le hle)
  exact Agree.on hinsert (fun _ _ _ _ _ _ hd => ⟨⟨⟨hx.1.cls, hd.1.1⟩, hd.1.2⟩, hd.2⟩)
    fun _ _ _ _ he => ⟨⟨hx.1.cls, he.1⟩, he.2⟩

lemma alike_storeMethod {r r' : Ref .cls} {key key' : Key} (hr : r.Rel w r')
    (hkey : key.Rel w key') (hv : v.Rel w v') :
    Alike Tied w (fun w₁ => Option.Rel (Value.Rel w₁)) (Machine.storeMethod r key v)
      (Machine.storeMethod r' key' v') := by
  refine alike_onContent hr rfl fun w₁ x j x' j' hle hx => ?_
  have hinsert := Table.Tied.insert ⟨hx.1.methods, hx.2⟩ (hkey.le hle) (hv.le hle)
  exact Agree.on hinsert
    (fun _ _ _ _ _ _ hd => ⟨⟨⟨hx.1.name, hx.1.init, hd.1.1⟩, hd.1.2⟩, hd.2⟩)
    fun _ _ _ _ he => ⟨⟨hx.1.name, hx.1.init, he.1⟩, he.2⟩

/-- Storing into an array keeps its kind. -/
lemma Sound.arraySet_kind (hs : h.Sound) {r : Ref .array} {x : ArrayRecord}
    (hx : h.get? r = some x) {s : Scalar} (he : x.kind.Element s)
    (hnamed : ∀ string, s = .str string → string.id ≠ .dangling) (index : Nat) (j : Journal) :
    (Heap.arraySet r index s h j).Ends
      (fun _ h₁ => ∃ y, h₁.get? r = some y ∧ y.kind = x.kind) (fun _ _ => False) fun _ => False := by
  obtain ⟨entry, hfind, hobject⟩ := get?_eq_some_iff.mp hx
  by_cases hlt : index < x.capacity
  · obtain ⟨h₁, hrun, -, -, hfound, -⟩ := hs.arraySet hfind hobject he hnamed hlt j
    rw [hrun]
    exact ⟨_, get?_eq_some_iff.mpr ⟨_, hfound, rfl⟩, rfl⟩
  · rw [arraySet_of_le hfind hobject (by omega)]
    exact ⟨x, hx, rfl⟩

lemma Tied.fillArray (ht : Tied w h j h' j') {r r' : Ref .array} (hr : r.Rel w r')
    {kind : ArrayKind} (hkind : ∃ x, h.get? r = some x ∧ x.kind = kind) {l l' : List Value}
    (hl : List.Forall₂ (Value.Rel w) l l') (index : Nat) :
    Match (Tied w) Eq (Machine.fillArray r kind l index h j)
      (Machine.fillArray r' kind l' index h' j') := by
  induction hl generalizing h j h' j' index with
  | nil => exact .done ht rfl
  | @cons v v' l l' hv _ ih =>
      obtain ⟨x, hx, rfl⟩ := hkind
      rw [Machine.fillArray, Machine.fillArray]
      have hcoerce := rel_coerce x.kind hv
      have helement : ∀ s, v.scalar?.bind x.kind.coerce = some s → x.kind.Element s := by
        intro s hs
        obtain ⟨original, -, hs⟩ := Option.bind_eq_some_iff.mp hs
        exact ArrayKind.element_of_coerce hs
      generalize v.scalar?.bind x.kind.coerce = o, v'.scalar?.bind x.kind.coerce = o'
        at hcoerce helement
      cases hcoerce with
      | none =>
          refine Match.lift_bind (ht.typeName hv) ht fun type type' heq => ?_
          subst heq
          exact .raised _ ht
      | some hs =>
          have he := helement _ rfl
          have hset := ht.arraySet hr index hs fun y hy => Option.some.inj (hx.symm.trans hy) ▸ he
          refine Agree.bind (hset.and_left (ht.sound.1.arraySet_kind hx he (ht.named hs).1 index j))
            fun _ h j _ h' j' hd => ?_
          exact ih hd.1.1 hd.2 (index + 1)

/-! ### Native functions -/

lemma rel_argument {l l' : List Value} (hl : List.Forall₂ (Value.Rel w) l l') (index : Nat) :
    Result.Rel (Value.Rel w) (Native.argument l index) (Native.argument l' index) := by
  rw [Native.argument, Native.argument]
  induction hl generalizing index with
  | nil => exact .abort (by decide)
  | cons hv _ ih =>
      cases index with
      | zero => exact .ok hv
      | succ index => exact ih index

lemma Tied.badArgument (ht : Tied w h j h' j') (name : String) (hv : v.Rel w v') :
    Result.Rel V (Native.badArgument h name v) (Native.badArgument h' name v') := by
  refine (ht.typeName hv).bind fun type type' htype => ?_
  subst htype
  exact .raise _

section Builtins

variable {l l' : List Value}

lemma Tied.prime (ht : Tied w h j h' j') (hl : List.Forall₂ (Value.Rel w) l l') :
    Result.Rel (Value.Rel w) (Native.prime h l) (Native.prime h' l') := by
  refine (rel_argument hl 0).bind fun v v' hv => ?_
  rw [hv.integral_eq]
  cases hn : v'.integral with
  | none => exact ht.badArgument "prime" hv
  | some n =>
      obtain ⟨b, hprime, -⟩ :=
        Native.isPrime_eq (Native.fitsLong_iff.mpr (Value.isInteger_of_integral hn).range)
      dsimp only
      rw [hprime]
      exact .ok (Value.rel_ofBool b)

lemma Tied.squareRoot (ht : Tied w h j h' j') (hl : List.Forall₂ (Value.Rel w) l l') :
    Result.Rel (Value.Rel w) (Native.squareRoot h l) (Native.squareRoot h' l') := by
  refine (rel_argument hl 0).bind fun v v' hv => ?_
  rw [hv.number_eq]
  cases Number.of? v' with
  | none => exact ht.badArgument "square" hv
  | some n => exact .ok (.scalar (.plain _ rfl))

/-- Searching related texts. -/
lemma Tied.find (ht : Tied w h j h' j') (hl : List.Forall₂ (Value.Rel w) l l') :
    Result.Rel (Value.Rel w) (Native.find h l) (Native.find h' l') := by
  refine (rel_argument hl 0).bind fun a a' ha => (rel_argument hl 1).bind fun b b' hb => ?_
  have hfirst : Result.Rel (Value.Rel w) (Native.badArgument h "strstr" a)
      (Native.badArgument h' "strstr" a') := ht.badArgument "strstr" ha
  have hsecond : Result.Rel (Value.Rel w) (Native.badArgument h "strstr" b)
      (Native.badArgument h' "strstr" b') := ht.badArgument "strstr" hb
  cases ha with
  | @scalar s s' hs =>
      cases hs with
      | plain _ bare =>
          cases s with
          | str _ => cases bare
          | _ => exact hfirst
      | str hr =>
          cases hb with
          | @scalar t t' hs' =>
              cases hs' with
              | plain _ bare =>
                  cases t with
                  | str _ => cases bare
                  | _ => exact hsecond
              | str he =>
                  refine (ht.text hr).bind fun text text' htext =>
                    (ht.text he).bind fun other other' hother => ?_
                  subst htext hother
                  split
                  · exact .ok (.scalar (Scalar.rel_ofNat _))
                  · exact .ok (.scalar (.plain _ rfl))
              | array _ => exact hsecond
          | _ => exact hsecond
      | array _ => exact hfirst
  | _ => exact hfirst

end Builtins

end Heap

/-- Two hosts that tell one time and offer functions that end alike, in worlds
of twins or in others. -/
structure Host.Agrees (twin : Prop) (host host' : Host) : Prop where
  now : host.now = host'.now
  call : ∀ {w : World} (number : Nat) {l l' : List Value}, (w.twin ↔ twin) →
    List.Forall₂ (Value.Rel w) l l' →
    Alike Heap.Tied w (fun w₁ => Value.Rel w₁) (host.call number l) (host'.call number l')

lemma Host.Agrees.le {host host' : Host} {w w' : World} (hhost : host.Agrees w.twin host')
    (hle : w ≤ w') : host.Agrees w'.twin host' :=
  ⟨hhost.now, fun number _ _ htw => hhost.call number (htw.trans hle.twin)⟩

lemma Host.Agrees.native {host host' : Host} {w : World} (hhost : host.Agrees w.twin host')
    (routine : Routine) {l l' : List Value} (hl : List.Forall₂ (Value.Rel w) l l') :
    Alike Heap.Tied w (fun w₁ => Value.Rel w₁) (Native.call host routine l)
      (Native.call host' routine l') := by
  have hmono : ∀ w₁, w ≤ w₁ → List.Forall₂ (Value.Rel w₁) l l' :=
    fun w₁ hle => hl.imp fun _ _ hv => hv.le hle
  have hle : ∀ (w₁ w₂ : World) (v v' : Value), w₁ ≤ w₂ → v.Rel w₁ v' → v.Rel w₂ v' :=
    fun _ _ _ _ hle hv => hv.le hle
  cases routine with
  | builtin builtin =>
      cases builtin with
      | clock => exact .pure fun _ _ => hhost.now ▸ .scalar (.plain _ rfl)
      | prime =>
          exact .get_bind fun w₁ _ _ _ _ h₁ ht => .lift (ht.prime (hmono w₁ h₁)) (hle w₁)
      | squareRoot =>
          exact .get_bind fun w₁ _ _ _ _ h₁ ht => .lift (ht.squareRoot (hmono w₁ h₁)) (hle w₁)
      | find => exact .get_bind fun w₁ _ _ _ _ h₁ ht => .lift (ht.find (hmono w₁ h₁)) (hle w₁)
  | host number => exact hhost.call number .rfl hl

end ScriptMachine
