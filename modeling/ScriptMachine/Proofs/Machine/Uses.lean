import ScriptMachine.Machine.Run
import ScriptMachine.Proofs.Heap.Changes

/-!
How a machine is used.

Between instructions, things are done to a machine from outside (`Use`): programs are
loaded and started, native functions are defined, and the machine is looked after. What may
be done to its heap and to its global variables differs (`Loading`, `Tending`).

* `Series.ends`: what each of several actions preserves, a series of them preserves;
* `runFor_cases`: what each instruction hands on is handed on by a run.
-/

namespace ScriptMachine.Machine

open ScriptMachine.Action

variable {host : Host} {m : Machine} {α β : Type} {action : Action Machine α}

/-! ### Things done from outside -/

/-- What is done to a machine from outside, one thing at a time. Of the actions on its heap and
its global variables the special ones are allowed. -/
inductive Use (special : ∀ {α : Type}, Action Machine α → Prop) :
    {α : Type} → Action Machine α → Prop
  | special {α : Type} {action : Action Machine α} (allowed : special action) : Use special action
  | defineNative (native : Native) : Use special (defineNative native)
  | settings (config : Config) (threshold : Nat) (console : Console) : Use special (modify fun m =>
      { m with config := config, threshold := threshold, console := console })
  | collectGarbage : Use special collectGarbage
  | start (function : Ref .function) : Use special (start function)
  | reset : Use special reset

/-- Programs are loaded, which takes functions and texts. Meanwhile the system may begin to
refuse pages that it handed out before. -/
inductive Loading : {α : Type} → Action Machine α → Prop
  | function (function : Function) : Loading (onHeap (Heap.alloc .function function))
  | text (text : String) (pinned : Bool) : Loading (onHeap (Heap.insertText text pinned))
  | grant (grants : Nat → Bool) : Loading (onHeap (Heap.grant grants))

/-- Objects other than upvalues are dealt with in any way, and so are global variables. -/
inductive Tending : {α : Type} → Action Machine α → Prop
  | onHeap {α : Type} {action : Action Heap α} (spares : action.Within (Heap.Steady .upvalue)) :
      Tending (onHeap action)
  | onGlobals {α : Type} (action : Action Table α) : Tending (onGlobals action)

lemma Loading.tending (hl : Loading action) : Tending action := by
  cases hl with
  | function function => exact .onHeap (Heap.within_alloc trivial (by decide))
  | text text pinned => exact .onHeap (Heap.within_insertText (by decide) text pinned)
  | grant grants => exact .onHeap (Heap.within_grant grants)

lemma Use.mono {special special' : ∀ {α : Type}, Action Machine α → Prop} (hu : Use special action)
    (himp : ∀ {α : Type} {action : Action Machine α}, special action → special' action) :
    Use special' action := by
  cases hu with
  | special allowed => exact .special (himp allowed)
  | defineNative native => exact .defineNative native
  | settings config threshold console => exact .settings config threshold console
  | collectGarbage => exact .collectGarbage
  | start function => exact .start function
  | reset => exact .reset

/-! ### One after the other -/

/-- Actions of some sort, one after the other. -/
inductive Series (one : ∀ {α : Type}, Action Machine α → Prop) :
    {α : Type} → Action Machine α → Prop
  | one {α : Type} {action : Action Machine α} (allowed : one action) : Series @one action
  | seq {α β : Type} {first : Action Machine α} {next : α → Action Machine β}
      (begun : Series @one first) (continued : ∀ value, Series @one (next value)) :
      Series @one (first >>= next)

namespace Series

variable {one one' : ∀ {α : Type}, Action Machine α → Prop}

lemma mono (hs : Series one action)
    (himp : ∀ {α : Type} {action : Action Machine α}, one action → one' action) :
    Series one' action := by
  induction hs with
  | one allowed => exact .one (himp allowed)
  | seq _ _ ihfirst ihnext => exact .seq ihfirst ihnext

/-- What each action preserves, whether it is done or raises an error of a given sort. -/
lemma ends {P : Machine → Prop} {E : Error → Prop} (hs : Series one action)
    (hone : ∀ {α : Type} {action : Action Machine α} {m : Machine} (journal : Journal),
      one action → P m → (action m journal).Ends (fun _ => P) (fun error m' => E error → P m')
        fun _ => True)
    (hm : P m) (journal : Journal) :
    (action m journal).Ends (fun _ => P) (fun error m' => E error → P m') fun _ => True := by
  induction hs generalizing m journal with
  | one allowed => exact hone journal allowed hm
  | seq _ _ ihfirst ihnext =>
      exact (ihfirst hm journal).bind fun value _ journal₁ hm₁ => ihnext value hm₁ journal₁

end Series

/-- Programs are loaded and started. -/
abbrev Loads {α : Type} (action : Action Machine α) : Prop := Series (Use Loading) action

lemma loads_function (function : Function) : Loads (onHeap (Heap.alloc .function function)) :=
  .one (.special (.function function))

lemma loads_text (text : String) (pinned : Bool) : Loads (onHeap (Heap.insertText text pinned)) :=
  .one (.special (.text text pinned))

lemma loads_start (function : Ref .function) : Loads (start function) := .one (.start function)

/-! ### Instructions one after the other -/

/-- A run takes instructions one after the other, until its fuel is spent or the last
instruction ends it. What each of them hands on, together with the fuel that is left, holds
before the last one. -/
lemma runFor_cases (host : Host) {P : Nat → Machine → Journal → Prop} {fuel : Nat} {journal : Journal}
    (hm : P fuel m journal)
    (hstep : ∀ {fuel m m' journal journal'}, P (fuel + 1) m journal →
      step host m journal = .done .running m' journal' → P fuel m' journal') :
    (∃ m' journal', P 0 m' journal' ∧ runFor host fuel m journal = .done .running m' journal') ∨
      ∃ left m' journal', P (left + 1) m' journal' ∧
        runFor host fuel m journal = step host m' journal' := by
  induction fuel generalizing m journal with
  | zero => exact .inl ⟨m, journal, hm, rfl⟩
  | succ fuel ih =>
      rw [runFor]
      split
      case h_1 m' journal' hrun => exact ih (hstep hm hrun)
      case h_2 => exact .inr ⟨fuel, m, journal, hm, rfl⟩

end ScriptMachine.Machine
