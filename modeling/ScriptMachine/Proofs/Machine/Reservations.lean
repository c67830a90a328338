import ScriptMachine.Proofs.Heap.Ownership
import ScriptMachine.Proofs.Machine.Course

/-!
Reservations of memory stay current.

As long as no error is raised for want of memory, the block of every object is as
large as the object, whatever was stored into it. So the bytes in blocks, which
decide when to collect, are at least the bytes of the objects.

* `Turn.roomy`: a turn leaves room for every object;
* `Supplied`: the machines that had all the memory they asked for;
* `Supplied.reserved`: they have room for all objects.
-/

namespace ScriptMachine

open ScriptMachine.Action

/-- The state that is left, unless an error was raised for want of memory. -/
def Outcome.supplied? {σ α : Type} : Outcome σ α → Option σ
  | .done _ state _ => some state
  | .raised error state _ => if error.kind = .memory then none else some state
  | .aborted _ => none

lemma Outcome.Kept.of_supplied? {σ α : Type} {R : Prop → σ → σ → Prop} {state state' : σ}
    {outcome : Outcome σ α} (hkept : outcome.Kept R state) (h : outcome.supplied? = some state') :
    R True state state' := by
  cases outcome with
  | done value left journal => exact Option.some.inj h ▸ hkept
  | raised error left journal =>
      obtain ⟨hkind, heq⟩ := Option.ite_none_left_eq_some.mp h
      obtain rfl := Option.some.inj heq
      exact eq_true hkind ▸ hkept
  | aborted fault => cases h

lemma Outcome.forall_supplied? {σ α : Type} {P : σ → Prop} {outcome : Outcome σ α} :
    (∀ state, outcome.supplied? = some state → P state) ↔
      outcome.Ends (fun _ => P) (fun error state => error.kind ≠ .memory → P state) fun _ => True := by
  cases outcome with
  | done value left journal => exact ⟨fun h => h left rfl, fun h _ heq => Option.some.inj heq ▸ h⟩
  | raised error left journal =>
      refine ⟨fun h hkind => h left (if_neg hkind), fun h state heq => ?_⟩
      obtain ⟨hkind, heq⟩ := Option.ite_none_left_eq_some.mp heq
      exact Option.some.inj heq ▸ h hkind
  | aborted fault => exact ⟨fun _ => trivial, fun _ _ heq => nomatch heq⟩

/-- The memory ran out neither in the first part of a sequence nor in the second. -/
lemma Outcome.supplied?_bind {σ α β : Type} {first : Action σ α} {next : α → Action σ β}
    {state state' : σ} {journal : Journal}
    (h : ((first >>= next) state journal).supplied? = some state') :
    (first state journal).supplied? = some state' ∨
      ∃ value state₁ journal₁, first state journal = .done value state₁ journal₁ ∧
        (next value state₁ journal₁).supplied? = some state' := by
  rw [bind_apply] at h
  cases hfirst : first state journal with
  | done value state₁ journal₁ =>
      rw [hfirst] at h
      exact .inr ⟨value, state₁, journal₁, rfl, h⟩
  | raised error state₁ journal₁ => rw [hfirst] at h; exact .inl h
  | aborted fault => rw [hfirst] at h; cases h

/-- The bytes that objects are charged for. -/
def Object.totalSize : List Object → Nat
  | [] => 0
  | object :: rest => object.size + totalSize rest

namespace Heap

variable {h h₁ : Heap} {written : ObjectId → Prop}

/-- The bytes that the objects of a heap are charged for. -/
def objectBytes (h : Heap) : Nat := Object.totalSize (h.entries.map Entry.object)

lemma totalSize_le_payload {entries : List Entry}
    (hroom : ∀ entry ∈ entries, entry.object.size ≤ entry.block.size) :
    Object.totalSize (entries.map Entry.object) ≤ Memory.Allocator.payload (entries.map Entry.block) := by
  induction entries with
  | nil => exact Nat.le_refl 0
  | cons entry entries ih =>
      have hfirst := hroom entry List.mem_cons_self
      have hrest := ih fun other hmem => hroom other (List.mem_cons_of_mem _ hmem)
      exact Nat.add_le_add hfirst hrest

/-- If there is room for all objects, their bytes are allocated. -/
lemma Tidy.objectBytes_le (ht : h.Tidy) (hroom : ∀ id, h.Roomy id) :
    h.objectBytes ≤ h.bytesAllocated := by
  have hallocated : h.bytesAllocated = Memory.Allocator.payload h.blocks := ht.memory.allocated
  rw [hallocated]
  refine totalSize_le_payload fun entry hmem => ?_
  obtain ⟨id, hfind⟩ := ht.exists_find? hmem
  exact hroom id entry hfind

/-! ### Room for every object -/

lemma OnlyAt.roomy {id : ObjectId} (ho : OnlyAt id h h₁) (hself : h₁.Roomy id)
    (hroom : ∀ other, h.Roomy other) : ∀ other, h₁.Roomy other := by
  intro other
  by_cases hsame : other = id
  · exact hsame ▸ hself
  · intro entry hfind
    exact hroom other entry ((ho.others other hsame).symm.trans hfind)

lemma Change.roomy (hc : Change written True h h₁) (hroom : ∀ id, h.Roomy id) :
    ∀ id, h₁.Roomy id := by
  cases hc with
  | added added =>
      refine added.only.roomy (fun entry hentry => ?_) hroom
      obtain ⟨block, hlarge, hfind, -⟩ := added.found
      obtain rfl := Option.some.inj (hfind.symm.trans hentry)
      exact hlarge
  | revised revised room => exact revised.only.roomy (room trivial (hroom _)) hroom

lemma Collected.roomy {roots freed : List ObjectId} (hc : Collected roots freed h h₁)
    (hroom : ∀ id, h.Roomy id) : ∀ id, h₁.Roomy id :=
  fun id entry hfind => hroom id entry (hc.find?_of_some hfind).2

end Heap

namespace Machine

variable {m m₁ : Machine} {written : ObjectId → Prop} {host : Host}

lemma Turn.roomy (ht : Turn written True m m₁) (hroom : ∀ id, m.heap.Roomy id) :
    ∀ id, m₁.heap.Roomy id := by
  cases ht with
  | heap change => exact change.roomy hroom
  | collected collected => exact collected.roomy hroom
  | assigned _ heap => exact heap ▸ hroom
  | other grants heap => exact heap ▸ hroom

lemma Turns.roomy (ht : Turns written True m m₁) (hroom : ∀ id, m.heap.Roomy id) :
    ∀ id, m₁.heap.Roomy id := by
  induction ht with
  | refl => exact hroom
  | tail _ turn ih => exact turn.roomy ih

/-! ### Machines with enough memory -/

/-- The machines that a new one becomes as long as no error is raised for want of
memory. -/
inductive Supplied (host : Host) : Machine → Prop
  | create {config : Config} {grants : Nat → Bool} {journal journal' : Journal} {m : Machine}
      (created : create config grants journal = .ok (m, journal')) : Supplied host m
  | used {m m' : Machine} {α : Type} {action : Action Machine α} {journal : Journal}
      (past : Supplied host m) (use : Use Loading action)
      (run : (action m journal).supplied? = some m') :
      Supplied host m'
  | stepped {m m' : Machine} {journal : Journal} (past : Supplied host m)
      (run : (step host m journal).supplied? = some m') : Supplied host m'

/-- Every moment of a run. -/
lemma Supplied.steps {m m' : Machine} {fuel : Nat} {journal : Journal} (hm : Supplied host m)
    (hrun : (runFor host fuel m journal).supplied? = some m') : Supplied host m' := by
  rcases runFor_cases host (P := fun _ m _ => Supplied host m) hm fun hm hstep =>
      hm.stepped (congrArg Outcome.supplied? hstep) with
    ⟨m₁, journal₁, hm₁, heq⟩ | ⟨_, m₁, journal₁, hm₁, heq⟩
  · rw [heq] at hrun
    exact Option.some.inj hrun ▸ hm₁
  · exact hm₁.stepped (heq ▸ hrun)

lemma Supplied.done {m m' : Machine} {α : Type} {action : Action Machine α} {value : α}
    {journal journal' : Journal} (hm : Supplied host m) (hu : Use Loading action)
    (hrun : action m journal = .done value m' journal') : Supplied host m' :=
  hm.used hu (congrArg Outcome.supplied? hrun)

/-- Programs are loaded and started. -/
lemma Supplied.loads {m m' : Machine} {α : Type} {action : Action Machine α} {journal : Journal}
    (hm : Supplied host m) (hl : Loads action) (hrun : (action m journal).supplied? = some m') :
    Supplied host m' := by
  refine Outcome.forall_supplied?.mpr (hl.ends (fun {_ _ _} journal use hm => ?_) hm journal) m' hrun
  exact Outcome.forall_supplied?.mp fun _ => hm.used use

/-- A run from its start on. -/
lemma Supplied.run {m m' : Machine} {fuel : Nat} {function : Ref .function}
    {journal : Journal} (hm : Supplied host m)
    (hrun : ((start function >>= fun _ => (runFor host fuel : Action Machine Status)) m
      journal).supplied? = some m') : Supplied host m' := by
  rcases Outcome.supplied?_bind hrun with hstart | ⟨_, m₁, journal₁, hstart, hsteps⟩
  · exact hm.used (.start function) hstart
  · exact (hm.done (.start function) hstart).steps hsteps

/-- A whole run, if it does not fail for want of memory. -/
lemma Supplied.wholeRun {m m' : Machine} {fuel : Nat} {function : Ref .function}
    {ending : Ending} {journal journal' : Journal} (hm : Supplied host m)
    (hrun : runFunction host fuel function m journal = .done ending m' journal')
    (hending : ∀ error trace, ending = .failed error trace → error.kind ≠ .memory) :
    Supplied host m' := by
  obtain ⟨_, m₁, journal₁, hreset, -⟩ := exists_of_bind_done hrun
  rw [runFunction_of_reset hreset] at hrun
  have hm₁ := hm.done .reset hreset
  split at hrun
  · rename_i m₂ journal₂ hbody
    obtain ⟨_, m₃, journal₃, hreset₂, hlast⟩ := exists_of_bind_done hrun
    cases hlast
    exact (hm₁.run (congrArg Outcome.supplied? hbody)).done .reset hreset₂
  · rename_i m₂ journal₂ hbody
    cases hrun
    exact hm₁.run (congrArg Outcome.supplied? hbody)
  · rename_i error m₂ journal₂ hbody
    obtain ⟨_, m₃, journal₃, hreset₂, hlast⟩ := exists_of_bind_done hrun
    cases hlast
    have hm₂ : Supplied host m₂ := hm₁.run
      ((congrArg Outcome.supplied? hbody).trans (if_neg (hending error _ rfl)))
    exact hm₂.done .reset hreset₂
  · cases hrun

/-- What a machine can rely on when it decides whether to collect. -/
structure Reserved (m : Machine) : Prop where
  /-- The block of every object is as large as the object. -/
  room : ∀ id entry, m.heap.find? id = some entry → entry.object.size ≤ entry.block.size
  /-- The bytes of all objects are counted. -/
  counted : m.heap.objectBytes ≤ m.heap.bytesAllocated
  /-- So objects that have become too large are noticed. -/
  noticed : m.config.mode = .normal → m.threshold < m.heap.objectBytes + recordSize →
    m.wantsCollection = true

lemma reserved_of_roomy (ht : m.heap.Tidy) (hroom : ∀ id, m.heap.Roomy id) : m.Reserved := by
  have hcounted := ht.objectBytes_le hroom
  refine ⟨hroom, hcounted, fun hmode hlarge => ?_⟩
  rw [wantsCollection, hmode]
  exact decide_eq_true (by omega)

/-- Each block has room for its object, after every step. -/
lemma Supplied.roomy (hm : Supplied host m) (horderly : host.Orderly) :
    m.heap.Sound ∧ m.heap.Idle ∧ ∀ id, m.heap.Roomy id := by
  have hfollow : ∀ {written : ObjectId → Prop} {m m₁ : Machine},
      (m.heap.Sound ∧ m.heap.Idle ∧ ∀ id, m.heap.Roomy id) → Turns written True m m₁ →
      m₁.heap.Sound ∧ m₁.heap.Idle ∧ ∀ id, m₁.heap.Roomy id := by
    rintro written m m₁ ⟨hs, hi, hroom⟩ ht
    obtain ⟨hs₁, hi₁⟩ := ht.sound_idle hs hi
    exact ⟨hs₁, hi₁, ht.roomy hroom⟩
  induction hm with
  | create created =>
      obtain ⟨new, hblank, ht⟩ : ∃ new, Blank new ∧ Turns (fun _ => False) True new _ :=
        turns_of_create created
      refine hfollow ⟨hblank.sound, hblank.idle, fun id entry hfind => ?_⟩ ht
      cases (hblank.find? id).symm.trans hfind
  | used _ use run ih =>
      have hcourse : Course (fun _ => False) True _ _ := (use.keeps _ _).of_supplied? run
      exact hfollow ih (hcourse ih.1 ih.2.1)
  | stepped _ run ih =>
      exact hfollow ih ((step_kept horderly _ _).of_supplied? run ih.1 ih.2.1)

/-- As long as no error is raised for want of memory, memory is reserved for all that
objects contain: after every instruction of every run, and after whole runs. -/
theorem Supplied.reserved (hm : Supplied host m) (horderly : host.Orderly) :
    m.Reserved ∧ ∀ fuel function journal ending m' journal',
      runFunction host fuel function m journal = .done ending m' journal' →
      (∀ error trace, ending = .failed error trace → error.kind ≠ .memory) → m'.Reserved := by
  have hreserved : ∀ {m : Machine}, Supplied host m → m.Reserved := fun hm =>
    have ⟨hs, _, hroom⟩ := hm.roomy horderly
    reserved_of_roomy hs.toTidy hroom
  exact ⟨hreserved hm, fun fuel function journal ending m' journal' hrun hending =>
    hreserved (hm.wholeRun hrun hending)⟩

/-- A script that makes a stack with room for one value and pushes two. -/
def stacking : Action Machine Unit := do
  let words := [Opcode.constant.toWord, 0, Opcode.newStack.toWord, Opcode.pushTrue.toWord,
    Opcode.pushValue.toWord, Opcode.pushTrue.toWord, Opcode.pushValue.toWord]
  let script ← onHeap (Heap.alloc .function
    ⟨"", 0, 0, ⟨words.toArray, .empty, #[], .ofList [.scalar (.int 1)]⟩⟩)
  start script

/-- The stack has outgrown the block that was allocated for it. -/
theorem Supplied.reserved_grown : (Host.builtin ⟨0⟩).Orderly ∧ ∃ m, Supplied (.builtin ⟨0⟩) m ∧
    (m.heap.find? ⟨10, 0⟩).any (fun entry => decide (1000 < entry.object.size)) = true ∧
    m.Reserved := by
  have hrun : ((Machine.create ⟨4096, 65536, 2, 8, .stress⟩ (fun _ => true) .silent).toOption.bind
      fun new => (stacking new.1 new.2).done?.bind fun r =>
        (runFor (.builtin ⟨0⟩) 6 r.2.1 r.2.2).supplied?).any (fun m =>
          (m.heap.find? ⟨10, 0⟩).any fun entry => decide (1000 < entry.object.size)) = true := by
    decide +kernel
  obtain ⟨m, hstate, hlarge⟩ := (Option.any_eq_true _ _).mp hrun
  obtain ⟨new, hnew, hstate⟩ := Option.bind_eq_some_iff.mp hstate
  obtain ⟨r, hstacking, hsteps⟩ := Option.bind_eq_some_iff.mp hstate
  have hm₀ : Supplied (.builtin ⟨0⟩) new.1 := .create (Outcome.eq_of_toOption hnew)
  have hm : Supplied (.builtin ⟨0⟩) m :=
    (hm₀.loads (.seq (loads_function _) fun _ => loads_start _)
      (congrArg Outcome.supplied? (Outcome.eq_of_done? hstacking))).steps hsteps
  exact ⟨Host.builtin_orderly _, m, hm, hlarge, (hm.reserved (Host.builtin_orderly _)).1⟩

end Machine

end ScriptMachine
