import ScriptMachine.Proofs.Machine.Instructions
import ScriptMachine.Proofs.Machine.Uses

/-!
Captured variables of every machine that can be reached.

A machine is used in many ways, and it runs (`Deed`). What it becomes so is `Later`, and what
a new machine becomes is `Reachable`.

* `Deed.within`, `Later.trail`: no deed breaks the list of open upvalues, so what is later is
  reached along a trail;
* `Sharing`: what a program can rely on when it captures variables;
* `Reachable.sharing`: it can, at every moment of every run.
-/

namespace ScriptMachine.Machine

open ScriptMachine.Action

variable {host : Host} {m m' m₁ m₂ : Machine} {kept : Ref .upvalue → Prop} {closes : Nat → Prop}
  {T : Machine → Machine → Prop} [Tracks T] {α : Type} {action : Action Machine α}

/-! ### Machines that can be reached -/

/-- What is done with a machine, one thing at a time: it is used, it takes an instruction, or it
runs a function. -/
inductive Deed (host : Host) : {α : Type} → Action Machine α → Prop
  | use {α : Type} {action : Action Machine α} (use : Use Tending action) : Deed host action
  | step : Deed host (step host)
  | runFunction (fuel : Nat) (function : Ref .function) : Deed host (runFunction host fuel function)

/-- Deeds one after the other. -/
abbrev Deeds (host : Host) {α : Type} (action : Action Machine α) : Prop := Series (Deed host) action

/-- The machines that one becomes, whether deeds succeed or raise errors. -/
inductive Later (host : Host) (m : Machine) : Machine → Prop
  | now : Later host m m
  | next {m₁ m₂ : Machine} {α : Type} {action : Action Machine α} {journal : Journal}
      (past : Later host m m₁) (deed : Deed host action)
      (left : (action m₁ journal).state? = some m₂) : Later host m m₂

/-- The machines that a new one becomes. -/
def Reachable (host : Host) (m : Machine) : Prop :=
  ∃ config grants journal new journal', Machine.create config grants journal = .ok (new, journal') ∧
    Later host new m

lemma reachable_of_create {config : Config} {grants : Nat → Bool} {journal journal' : Journal}
    (hcreate : Machine.create config grants journal = .ok (m, journal')) : Reachable host m :=
  ⟨config, grants, journal, m, journal', hcreate, .now⟩

lemma Later.deeds {journal : Journal} (hl : Later host m m₁) (hd : Deeds host action)
    (hstate : (action m₁ journal).state? = some m₂) : Later host m m₂ := by
  have hends := hd.ends (P := Later host m) (E := fun _ => True)
    (fun {_ action m₁} journal deed hl => ?_) hl journal
  · exact (hends.imp (fun _ _ => id) (fun _ _ hl => hl trivial) fun _ => id).of_state? hstate
  · cases hrun : action m₁ journal with
    | done value m' journal' => exact hl.next deed (congrArg Outcome.state? hrun)
    | raised error m' journal' => exact fun _ => hl.next deed (congrArg Outcome.state? hrun)
    | aborted fault => trivial

/-- What deeds leave can be reached. -/
lemma Reachable.deeds {journal : Journal} (hm : Reachable host m) (hd : Deeds host action)
    (hstate : (action m journal).state? = some m') : Reachable host m' := by
  obtain ⟨config, grants, journal₀, new, journal₁, hnew, hl⟩ := hm
  exact ⟨config, grants, journal₀, new, journal₁, hnew, hl.deeds hd hstate⟩

lemma Reachable.done {value : α} {journal journal' : Journal} (hm : Reachable host m)
    (hd : Deeds host action) (hrun : action m journal = .done value m' journal') :
    Reachable host m' := hm.deeds hd (congrArg Outcome.state? hrun)

lemma Loads.deeds (hl : Loads action) : Deeds host action :=
  hl.mono fun hu => .use (hu.mono Loading.tending)

lemma within_defineNative (native : Native) : (defineNative native).Within T := by
  have halloc : (onHeap (Heap.alloc .native native)).Within T :=
    within_primitive (.alloc _ trivial (by decide))
  refine halloc.bind fun ref => (within_primitive (.insertText native.name true)).bind fun name =>
    within_get.bind fun _ => Within.bind ?_ fun _ => within_get.bind fun _ =>
      (within_lift _).bind fun _ => (within_onGlobals _).bind fun _ => within_pure _
  exact within_modify fun _ => Tracks.of_eq rfl rfl

lemma within_defineNatives (natives : List Native) : (defineNatives natives).Within T := by
  induction natives with
  | nil => exact within_pure ()
  | cons native natives ih => exact (within_defineNative native).bind fun _ => ih

/-- No use of a machine breaks the list of open upvalues, or stores into a closed one. -/
lemma Use.within (hu : Use Tending action) : action.Within (Retains kept fun _ => True) := by
  cases hu with
  | special tending =>
      cases tending with
      | onHeap spares => exact within_onHeap spares
      | onGlobals action => exact within_onGlobals action
  | settings config threshold console => exact within_modify fun _ => retains_of_eq rfl rfl
  | defineNative native => exact within_defineNative native
  | collectGarbage => exact within_collectGarbage
  | start function => exact within_start function
  | reset => exact within_reset

/-- No deed breaks the list of open upvalues. -/
lemma Deed.within (hd : Deed host action) (htame : host.Tame) :
    action.Within (Leads fun _ => True) := by
  cases hd with
  | step => exact within_step htame
  | runFunction fuel function =>
      refine within_leads (within_retains fun m journal hr => ?_)
      exact (hr.runFunction htame fuel function journal).imp (fun _ _ h => h.1.retains)
        (fun _ _ h => h.elim) fun _ => id
  | use use => exact within_leads use.within

/-- What is later is reached along a trail. -/
lemma Later.trail (hl : Later host m m') (htame : host.Tame) (hr : m.Ready) :
    Trail (fun _ => True) m m' := by
  induction hl with
  | now => exact .refl m
  | next past deed left ih => exact ih.trans ((deed.within htame).of_state? left (ih.ready hr))

lemma ready_of_bare {config : Config} {grants : Nat → Bool} (hbare : bare config grants = .ok m) :
    m.Ready := by
  rw [bare] at hbare
  cases hheap : Heap.create config.pageSize grants with
  | error failure => rw [hheap] at hbare; cases hbare
  | ok heap =>
      rw [hheap] at hbare
      cases hglobals : Table.withCapacity config.globalsCapacity with
      | error failure => rw [hglobals] at hbare; cases hbare
      | ok globals =>
          rw [hglobals] at hbare
          cases hbare
          refine ⟨⟨.nil, fun ref => ⟨fun hmem => (nomatch hmem), ?_⟩⟩,
            Heap.sound_of_create hheap, Heap.idle_of_create hheap⟩
          rintro ⟨slot, hslot⟩
          cases (Heap.get?_of_create hheap ref).symm.trans hslot

lemma ready_of_create {config : Config} {grants : Nat → Bool} {journal journal' : Journal}
    (hcreate : Machine.create config grants journal = .ok (m, journal')) : m.Ready := by
  rw [Machine.create] at hcreate
  cases hbare : bare config grants with
  | error failure => rw [hbare] at hcreate; cases hcreate
  | ok empty =>
      rw [hbare] at hcreate
      have hwithin : (defineNatives Native.builtins).Within (Leads fun _ => True) :=
        within_leads (within_defineNatives _)
      cases hrun : defineNatives Native.builtins empty journal with
      | done value m₁ journal₁ =>
          simp only [bind, Except.bind, hrun] at hcreate
          cases hcreate
          exact ((hwithin empty journal).of_done hrun).ready (ready_of_bare hbare)
      | raised error m₁ journal₁ =>
          simp only [bind, Except.bind, hrun] at hcreate
          cases hcreate
      | aborted fault =>
          simp only [bind, Except.bind, hrun] at hcreate
          cases hcreate

lemma Reachable.ready (hm : Reachable host m) (htame : host.Tame) : m.Ready := by
  obtain ⟨config, grants, journal, new, journal', hnew, hl⟩ := hm
  have hr := ready_of_create hnew
  exact (hl.trail htame hr).ready hr

/-- What deeds make of a new machine. -/
lemma exists_reachable {p : Machine → Prop} [DecidablePred p] (hd : Deeds host action)
    (hrun : ((Machine.create ⟨4096, 65536, 2, 8, .stress⟩ (fun _ => true) .silent).toOption.bind
      fun new => (action new.1 new.2).state?).any (p ·) = true) :
    ∃ m, Reachable host m ∧ p m := by
  obtain ⟨m, hstate, hp⟩ := (Option.any_eq_true _ _).mp hrun
  obtain ⟨new, hnew, haction⟩ := Option.bind_eq_some_iff.mp hstate
  have hreach : Reachable host new.1 := reachable_of_create (Outcome.eq_of_toOption hnew)
  exact ⟨m, hreach.deeds hd haction, of_decide_eq_true hp⟩

/-! ### What a program can rely on -/

/-- What a program can rely on when it captures variables. A trail stands for
whatever happens later, up to any moment of any instruction. The slots of the heap
count how often they were freed; the id of an upvalue that was freed can come
back only when its slot was freed as often as there are generations. -/
structure Sharing (m : Machine) : Prop where
  /-- The slots of the listed upvalues increase. -/
  sorted : m.openUpvalues.Pairwise m.Below
  /-- The listed upvalues are the live ones that are open. -/
  open_iff : ∀ ref, ref ∈ m.openUpvalues ↔ ∃ slot, m.OpenAt ref slot
  /-- As long as a slot is not closed, captures of it give one upvalue. -/
  same_slot : ∀ slot ref journal m₁ journal₁, capture slot m journal = .done ref m₁ journal₁ →
    m₁.OpenAt ref slot ∧ ∀ m₂ journal₂, Trail (slot < ·) m₁ m₂ →
      capture slot m₂ journal₂ = .done ref m₂ journal₂
  /-- Captures of two slots give two upvalues. -/
  other_slot : ∀ slot ref journal m₁ journal₁, capture slot m journal = .done ref m₁ journal₁ →
    ∀ slot' ref' closes m₂ journal₂ m₃ journal₃, slot' ≠ slot → Trail closes m₁ m₂ →
      capture slot' m₂ journal₂ = .done ref' m₃ journal₃ →
      m₃.heap.frees ref.id.index < m₁.heap.frees ref.id.index + UInt32.size → ref' ≠ ref
  /-- Between the captures that one closure makes, no slot is closed. -/
  closes_nothing : ∀ count refs journal, (captureMany count refs m journal).Ends
    (fun _ m₁ => Trail (fun _ => False) m m₁) (fun _ m₁ => Trail (fun _ => False) m m₁)
    fun _ => True
  /-- A closed upvalue is never open again. -/
  stays_closed : ∀ ref value closes m₁ slot, m.Closed ref value → Trail closes m m₁ →
    m₁.heap.frees ref.id.index < m.heap.frees ref.id.index + UInt32.size → ¬ m₁.OpenAt ref slot

/-- An upvalue that is open at both ends of a trail names one slot. -/
lemma Trail.slot_eq {ref : Ref .upvalue} {i j : Nat} (ht : Trail closes m m') (hr : m.Ready)
    (hi : m.OpenAt ref i) (hj : m'.OpenAt ref j)
    (hfew : m'.heap.frees ref.id.index < m.heap.frees ref.id.index + UInt32.size) : i = j := by
  rcases ht.open_or_closed hr hi (ht.frees_eq hi.live hj.live hfew) with hopen | ⟨value, hclosed⟩
  · exact hopen.slot_eq hj
  · exact (hclosed.not_open hj).elim

lemma Ready.captured {ref : Ref .upvalue} {slot : Nat} {journal journal' : Journal} (hr : m.Ready)
    (hcapture : Machine.capture slot m journal = .done ref m' journal') :
    m'.OpenAt ref slot ∧ Trail (fun _ => True) m m' := by
  obtain ⟨hopen, hretains⟩ : _ ∧ Retains (fun _ => False) (fun _ => True) m m' :=
    (hr.capture slot journal).of_done hcapture
  exact ⟨hopen, hretains.leads hr⟩

/-- Captures are shared in every machine that is ready. -/
lemma Ready.shares (hr : m.Ready) : m.Sharing where
  sorted := hr.sorted
  open_iff := hr.open_iff
  same_slot slot ref journal m₁ journal₁ hcapture := by
    obtain ⟨hopen, ht⟩ := hr.captured hcapture
    refine ⟨hopen, fun m₂ journal₂ ht₁ => ?_⟩
    have hr₁ := ht.ready hr
    exact (ht₁.ready hr₁).capture_of_open (ht₁.stays_open hr₁ hopen) journal₂
  other_slot slot ref journal m₁ journal₁ hcapture slot' ref' closes m₂ journal₂ m₃ journal₃ hne ht₁
      hcapture' hfew := by
    obtain ⟨hopen, ht⟩ := hr.captured hcapture
    have hr₁ := ht.ready hr
    obtain ⟨hopen', ht₂⟩ := (ht₁.ready hr₁).captured hcapture'
    have hboth : Trail (fun _ => True) m₁ m₃ := (ht₁.mono fun _ _ => trivial).trans ht₂
    rintro rfl
    exact hne (hboth.slot_eq hr₁ hopen hopen' hfew).symm
  closes_nothing count refs journal :=
    (within_leads (within_captureMany count refs) m journal).imp (fun _ _ h => h hr)
      (fun _ _ h => h hr) fun _ => id
  stays_closed ref value closes m₁ slot hclosed ht hfew hopen := by
    have hkept := ht.frees_eq (Heap.contains_of_get? hclosed) hopen.live hfew
    obtain ⟨value', hclosed'⟩ := ht.stays_closed hclosed hkept
    exact hclosed'.not_open hopen

/-- At every moment of every run the open upvalues are listed in order, and what
programs rely on holds. Whatever is done with a machine later is such a trail. An
instruction closes upvalues from its boundary on, if it has one, and a run that
returns leaves none open. -/
theorem Reachable.sharing (hm : Reachable host m) (htame : host.Tame) :
    (∀ closes m', Trail closes m m' → m'.Sharing) ∧
    (∀ m', Later host m m' → Trail (fun _ => True) m m') ∧
    (∀ journal, (step host m journal).Ends
      (fun _ m' => Trail (· ∈ m.boundary?) m m') (fun _ m' => Trail (· ∈ m.boundary?) m m')
      fun _ => True) ∧
    ∀ fuel function journal, (runFunction host fuel function m journal).Ends
      (fun ending m' => ending ≠ .outOfFuel → ∀ ref slot, ¬ m'.OpenAt ref slot)
      (fun _ _ => False) fun _ => True := by
  have hr := hm.ready htame
  refine ⟨fun closes m' ht => (ht.ready hr).shares, fun m' hl => hl.trail htame hr,
    fun journal => ?_, fun fuel function journal => ?_⟩
  · exact (leadsFrom_step htame m journal).imp (fun _ _ h => h hr) (fun _ _ h => h hr) fun _ => id
  · refine (hr.runFunction htame fuel function journal).imp_done ?_
    rintro ending m' ⟨hleads, hnone⟩ hending ref slot hopen
    have hmem := ((hleads.ready hr).open_iff ref).mpr ⟨slot, hopen⟩
    rw [hnone hending] at hmem
    cases hmem

/-- A host without functions of its own. -/
def solitary : Host := ⟨⟨0⟩, fun _ _ => pure .null⟩

lemma solitary_tame : solitary.Tame := fun _ _ => within_pure _

/-- A run up to where a closure has captured one variable twice and another one
once. -/
def capturing : Action Machine Status := do
  let inner ← onHeap (Heap.alloc .function ⟨"inner", 0, 3, .empty⟩)
  let words := [Opcode.pushNull.toWord, Opcode.pushNull.toWord, Opcode.closure.toWord, 0, 1, 1, 1, 2, 1, 1]
  let script ← onHeap (Heap.alloc .function
    ⟨"", 0, 0, ⟨words.toArray, .empty, #[], .ofList [.function inner]⟩⟩)
  start script
  let _ ← step solitary
  let _ ← step solitary
  step solitary

lemma deeds_capturing : Deeds solitary capturing := by
  refine .seq (loads_function _).deeds fun inner => .seq (loads_function _).deeds fun script => ?_
  exact .seq (loads_start script).deeds fun _ => .seq (.one .step) fun _ =>
    .seq (.one .step) fun _ => .one .step

/-- Two slots are captured. -/
theorem Reachable.sharing_captured : solitary.Tame ∧ ∃ m, Reachable solitary m ∧
    m.openUpvalues.length = 2 ∧ ∀ m', Later solitary m m' → m'.Sharing := by
  obtain ⟨m, hm, hlength⟩ := exists_reachable (p := (·.openUpvalues.length = 2)) deeds_capturing
    (by decide +kernel)
  obtain ⟨hshares, hlater, -⟩ := hm.sharing solitary_tame
  exact ⟨solitary_tame, m, hm, hlength, fun m' hl => hshares _ m' (hlater m' hl)⟩

end ScriptMachine.Machine
