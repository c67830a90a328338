import Mathlib.Data.List.Pairwise
import ScriptMachine.Machine.Upvalues
import ScriptMachine.Proofs.Heap.Changes

/-!
Captured variables, one change at a time.

A `Move` is what can happen to the upvalues of a machine at once: one is added
for a stack slot that has none, one that is closed gets another value, those from
a slot on are closed, or some that are not listed are freed. A `Trail` is a
sequence of moves, which closes only slots from a given set. Every slot of the heap
counts how often it was freed, and along a trail these counts only go up.

* `Tracked`: the listed upvalues are ordered by slot and are those that are open;
* `Move.tracked`, `Move.stays_open`, `Move.stays_closed`: what one move preserves;
* `Trail.ready`, `Trail.stays_open`, `Trail.stays_closed`: what a trail preserves;
* `Trail.frees_eq`: an id that names an object at both ends of a trail was not freed
  on the way, unless its slot was freed so often that the generation has come round.
-/

namespace ScriptMachine.Machine

variable {m m' : Machine} {ref other : Ref .upvalue} {slot i j : Nat} {value : Value}
  {closes : Nat → Prop} {limit : Option Nat} {freed : List ObjectId}

/-! ### Moves -/

/-- An upvalue that names a stack slot. -/
def OpenAt (m : Machine) (ref : Ref .upvalue) (slot : Nat) : Prop :=
  m.heap.get? ref = some (.opened slot)

/-- An upvalue that holds a value. -/
def Closed (m : Machine) (ref : Ref .upvalue) (value : Value) : Prop :=
  m.heap.get? ref = some (.closed value)

/-- What happens to captured variables at once, and from which slot on upvalues are
closed by it, if any are. -/
inductive Move : Option Nat → Machine → Machine → Prop
  /-- Something that has nothing to do with captured variables. -/
  | other {m m' : Machine} (upvalues : ∀ ref : Ref .upvalue, m'.heap.get? ref = m.heap.get? ref)
      (listed : m'.openUpvalues = m.openUpvalues) : Move none m m'
  /-- A collection frees what cannot be reached from the machine. -/
  | collect {m m' : Machine} {freed : List ObjectId}
      (collected : Heap.Collected m.roots freed m.heap m'.heap)
      (listed : m'.openUpvalues = m.openUpvalues) : Move none m m'
  /-- A new upvalue takes its place among the listed ones. -/
  | capture {m m' : Machine} {slot : Nat} {ref : Ref .upvalue} {below above : List (Ref .upvalue)}
      (fresh : m.heap.contains ref.id = false) (created : m'.OpenAt ref slot)
      (others : ∀ other ≠ ref, m'.heap.get? other = m.heap.get? other)
      (before : m.openUpvalues = below ++ above) (listed : m'.openUpvalues = below ++ ref :: above)
      (lower : ∀ ref ∈ below, ∃ i < slot, m.OpenAt ref i)
      (higher : ∀ ref ∈ above, ∃ i > slot, m.OpenAt ref i) : Move none m m'
  /-- A closed upvalue gets another value. -/
  | store {m m' : Machine} {ref : Ref .upvalue} {old value : Value} (closed : m.Closed ref old)
      (stored : m'.Closed ref value)
      (others : ∀ other ≠ ref, m'.heap.get? other = m.heap.get? other)
      (listed : m'.openUpvalues = m.openUpvalues) : Move none m m'
  /-- The upvalues from a slot on take over the values of their slots. -/
  | close {m m' : Machine} {slot : Nat} {below above : List (Ref .upvalue)}
      (before : m.openUpvalues = below ++ above) (listed : m'.openUpvalues = below)
      (lower : ∀ ref ∈ below, ∃ i < slot, m.OpenAt ref i)
      (higher : ∀ ref ∈ above, ∃ i ≥ slot, m.OpenAt ref i ∧
        m'.Closed ref ((m.stack.get? i).getD .null))
      (others : ∀ other ∉ above, m'.heap.get? other = m.heap.get? other) : Move (some slot) m m'

/-- One upvalue names a lower slot than another one. -/
def Below (m : Machine) (ref other : Ref .upvalue) : Prop :=
  ∃ i j, m.OpenAt ref i ∧ m.OpenAt other j ∧ i < j

/-- The listed upvalues are ordered by slot, and they are those that are open. -/
structure Tracked (m : Machine) : Prop where
  sorted : m.openUpvalues.Pairwise m.Below
  open_iff : ∀ ref, ref ∈ m.openUpvalues ↔ ∃ slot, m.OpenAt ref slot

lemma OpenAt.slot_eq (h : m.OpenAt ref i) (h' : m.OpenAt ref j) : i = j := by
  cases h.symm.trans h'
  rfl

lemma OpenAt.live (h : m.OpenAt ref i) : m.heap.contains ref.id = true :=
  Heap.contains_of_get? h

lemma Closed.not_open (h : m.Closed ref value) (h' : m.OpenAt ref i) : False := by
  cases h.symm.trans h'

/-- The order is kept if the slots are. -/
lemma Below.congr (h : m.Below ref other) (href : m'.heap.get? ref = m.heap.get? ref)
    (hother : m'.heap.get? other = m.heap.get? other) : m'.Below ref other := by
  obtain ⟨i, j, hi, hj, hlt⟩ := h
  exact ⟨i, j, href.trans hi, hother.trans hj, hlt⟩

lemma Tracked.congr (ht : m.Tracked)
    (hsame : ∀ ref ∈ m.openUpvalues, m'.heap.get? ref = m.heap.get? ref)
    (hopen : ∀ ref slot, m'.OpenAt ref slot → m.OpenAt ref slot)
    (hlisted : m'.openUpvalues = m.openUpvalues) : m'.Tracked := by
  refine ⟨?_, fun ref => ?_⟩
  · rw [hlisted]
    refine ht.sorted.imp_of_mem ?_
    intro ref other href hother hbelow
    exact hbelow.congr (hsame ref href) (hsame other hother)
  · rw [hlisted]
    constructor
    · intro href
      obtain ⟨slot, hslot⟩ := (ht.open_iff ref).mp href
      exact ⟨slot, (hsame ref href).trans hslot⟩
    · rintro ⟨slot, hslot⟩
      exact (ht.open_iff ref).mpr ⟨slot, hopen ref slot hslot⟩

/-- Two open upvalues that name one slot are one. -/
lemma Tracked.unique (ht : m.Tracked) (href : m.OpenAt ref slot) (hother : m.OpenAt other slot) :
    ref = other := by
  have : Std.Symm fun r s => ∀ i, m.OpenAt r i → ¬ m.OpenAt s i :=
    ⟨fun r s h i hs hr => h i hr hs⟩
  have hapart : m.openUpvalues.Pairwise fun r s => ∀ i, m.OpenAt r i → ¬ m.OpenAt s i := by
    refine ht.sorted.imp ?_
    rintro r s ⟨i, j, hi, hj, hlt⟩ k hr hs
    have := hi.slot_eq hr
    have := hj.slot_eq hs
    omega
  by_contra hne
  have hmem := (ht.open_iff ref).mpr ⟨slot, href⟩
  have hmem' := (ht.open_iff other).mpr ⟨slot, hother⟩
  exact hapart.forall hmem hmem' hne slot href hother

/-- A new upvalue between those of lower and those of higher slots. -/
lemma Tracked.insert {below above : List (Ref .upvalue)} (ht : m.Tracked)
    (fresh : m.heap.contains ref.id = false) (created : m'.OpenAt ref slot)
    (others : ∀ other ≠ ref, m'.heap.get? other = m.heap.get? other)
    (before : m.openUpvalues = below ++ above) (listed : m'.openUpvalues = below ++ ref :: above)
    (lower : ∀ ref ∈ below, ∃ i < slot, m.OpenAt ref i)
    (higher : ∀ ref ∈ above, ∃ i > slot, m.OpenAt ref i) : m'.Tracked := by
  -- the listed upvalues are live and the new one was not, so they are others
  have hold : ∀ other ∈ below ++ above, m'.heap.get? other = m.heap.get? other := by
    intro other hmem
    refine others other ?_
    rintro rfl
    obtain ⟨i, hi⟩ := (ht.open_iff other).mp (before ▸ hmem)
    cases fresh.symm.trans hi.live
  have hsorted : (below ++ above).Pairwise m'.Below := by
    refine (before ▸ ht.sorted).imp_of_mem ?_
    intro r s hr hs hbelow
    exact hbelow.congr (hold r hr) (hold s hs)
  obtain ⟨hbelow, habove, hcross⟩ := List.pairwise_append.mp hsorted
  refine ⟨?_, fun other => ?_⟩
  · rw [listed]
    refine List.pairwise_append.mpr ⟨hbelow, List.pairwise_cons.mpr ⟨fun r hr => ?_, habove⟩, ?_⟩
    · obtain ⟨i, hlt, hi⟩ := higher r hr
      exact ⟨slot, i, created, (hold r (List.mem_append_right _ hr)).trans hi, hlt⟩
    · intro r hr s hs
      rcases List.mem_cons.mp hs with rfl | hs
      · obtain ⟨i, hlt, hi⟩ := lower r hr
        exact ⟨i, slot, (hold r (List.mem_append_left _ hr)).trans hi, created, hlt⟩
      · exact hcross r hr s hs
  · have hmem : other ∈ m'.openUpvalues ↔ other = ref ∨ other ∈ m.openUpvalues := by
      rw [listed, before, List.mem_append, List.mem_cons, List.mem_append]
      tauto
    rw [hmem]
    by_cases heq : other = ref
    · subst heq
      exact ⟨fun _ => ⟨slot, created⟩, fun _ => .inl rfl⟩
    · rw [or_iff_right heq, ht.open_iff]
      simp only [OpenAt, others other heq]

/-- The upvalues of the higher slots are closed and no longer listed. -/
lemma Tracked.cut {below above : List (Ref .upvalue)} (ht : m.Tracked)
    (before : m.openUpvalues = below ++ above) (listed : m'.openUpvalues = below)
    (lower : ∀ ref ∈ below, ∃ i < slot, m.OpenAt ref i)
    (higher : ∀ ref ∈ above, ∃ i ≥ slot, m.OpenAt ref i ∧
      m'.Closed ref ((m.stack.get? i).getD .null))
    (others : ∀ other ∉ above, m'.heap.get? other = m.heap.get? other) : m'.Tracked := by
  -- no upvalue is listed on both sides of the cut: its slot would be below and above
  have hold : ∀ ref ∈ below, m'.heap.get? ref = m.heap.get? ref := by
    intro ref hbelow
    refine others ref fun habove => ?_
    obtain ⟨i, hlt, hi⟩ := lower ref hbelow
    obtain ⟨j, hle, hj, -⟩ := higher ref habove
    have := hi.slot_eq hj
    omega
  refine ⟨?_, fun ref => ?_⟩
  · rw [listed]
    refine (List.pairwise_append.mp (before ▸ ht.sorted)).1.imp_of_mem ?_
    intro r s hr hs hbelow
    exact hbelow.congr (hold r hr) (hold s hs)
  · rw [listed]
    constructor
    · intro hmem
      obtain ⟨i, -, hi⟩ := lower ref hmem
      exact ⟨i, (hold ref hmem).trans hi⟩
    · rintro ⟨i, hi⟩
      have habove : ref ∉ above := by
        intro habove
        obtain ⟨j, -, -, hclosed⟩ := higher ref habove
        exact hclosed.not_open hi
      have hmem := (ht.open_iff ref).mpr ⟨i, (others ref habove).symm.trans hi⟩
      rw [before, List.mem_append] at hmem
      exact hmem.resolve_right habove

/-- The listed upvalues are roots, so a collection does not free them. -/
lemma Tracked.collected (ht : m.Tracked) (hc : Heap.Collected m.roots freed m.heap m'.heap)
    (hmem : ref ∈ m.openUpvalues) : m'.heap.get? ref = m.heap.get? ref := by
  obtain ⟨slot, hslot⟩ := (ht.open_iff ref).mp hmem
  have hroot : ref.id ∈ m.roots := List.mem_append_right _ (List.mem_map_of_mem hmem)
  exact (hc.intact (.inr (.root hroot hslot.live))).get?

/-- Every move keeps the list in order. -/
lemma Move.tracked (hm : Move limit m m') (ht : m.Tracked) : m'.Tracked := by
  cases hm with
  | other upvalues listed =>
      exact ht.congr (fun ref _ => upvalues ref) (fun ref _ h => (upvalues ref).symm.trans h) listed
  | @collect _ _ freed collected listed =>
      refine ht.congr (fun ref hmem => ht.collected collected hmem) (fun ref slot h => ?_) listed
      have hkept : ref.id ∉ freed := fun hfreed => by
        cases h.live.symm.trans ((collected.freed ref.id).mp hfreed).2
      exact (collected.intact_of_not_freed hkept).get?.symm.trans h
  | capture fresh created others before listed lower higher =>
      exact ht.insert fresh created others before listed lower higher
  | @store _ _ stored old value closed now others listed =>
      refine ht.congr (fun ref hmem => others ref ?_) (fun ref slot h => ?_) listed
      · rintro rfl
        obtain ⟨slot, hslot⟩ := (ht.open_iff ref).mp hmem
        exact closed.not_open hslot
      · by_cases heq : ref = stored
        · subst heq
          exact (now.not_open h).elim
        · exact (others ref heq).symm.trans h
  | close before listed lower higher others => exact ht.cut before listed lower higher others

/-- An upvalue stays open, unless its slot is closed. -/
lemma Move.stays_open (hm : Move limit m m') (ht : m.Tracked) (hopen : m.OpenAt ref slot)
    (hlimit : ∀ first ∈ limit, slot < first) : m'.OpenAt ref slot := by
  cases hm with
  | other upvalues _ => exact (upvalues ref).trans hopen
  | collect collected _ =>
      exact (ht.collected collected ((ht.open_iff ref).mpr ⟨slot, hopen⟩)).trans hopen
  | capture fresh created others _ _ _ _ =>
      refine (others ref ?_).trans hopen
      rintro rfl
      cases fresh.symm.trans hopen.live
  | store closed _ others _ =>
      refine (others ref ?_).trans hopen
      rintro rfl
      exact closed.not_open hopen
  | @close _ _ first below above _ _ _ higher others =>
      refine (others ref fun hmem => ?_).trans hopen
      obtain ⟨i, hle, hi, -⟩ := higher ref hmem
      have hlt := hlimit first rfl
      have := hi.slot_eq hopen
      omega

/-- Closing leaves the upvalues alone that are closed already. -/
lemma Move.keeps_closed (hm : Move (some slot) m m') (hclosed : m.Closed ref value) :
    m'.Closed ref value := by
  cases hm with
  | close _ _ _ higher others =>
      refine (others ref fun hmem => ?_).trans hclosed
      obtain ⟨i, -, hi, -⟩ := higher ref hmem
      exact hclosed.not_open hi

/-- What a collection frees is counted, so an upvalue whose slot has the same count as
before is as it was. -/
lemma Closed.collected (hclosed : m.Closed ref value)
    (hc : Heap.Collected m.roots freed m.heap m'.heap)
    (hkept : m'.heap.frees ref.id.index = m.heap.frees ref.id.index) : m'.Closed ref value := by
  refine (hc.intact_of_not_freed fun hfreed => ?_).get?.trans hclosed
  have := hc.aged.frees_lt (Heap.contains_of_get? hclosed) hfreed
  omega

/-- A closed upvalue stays closed, unless it is freed. -/
lemma Move.stays_closed (hm : Move limit m m') (hclosed : m.Closed ref value)
    (hkept : m'.heap.frees ref.id.index = m.heap.frees ref.id.index) :
    ∃ value', m'.Closed ref value' := by
  cases hm with
  | other upvalues _ => exact ⟨value, (upvalues ref).trans hclosed⟩
  | collect collected _ => exact ⟨value, hclosed.collected collected hkept⟩
  | capture fresh created others _ _ _ _ =>
      refine ⟨value, (others ref ?_).trans hclosed⟩
      rintro rfl
      cases fresh.symm.trans (Heap.contains_of_get? hclosed)
  | @store _ _ stored _ new _ now others _ =>
      by_cases heq : ref = stored
      · exact ⟨new, heq ▸ now⟩
      · exact ⟨value, (others ref heq).trans hclosed⟩
  | close before listed lower higher others =>
      exact ⟨value, Move.keeps_closed (.close before listed lower higher others) hclosed⟩

/-- An open upvalue stays open or is closed; it is not freed. -/
lemma Move.open_or_closed (hm : Move limit m m') (ht : m.Tracked) (hopen : m.OpenAt ref slot) :
    m'.OpenAt ref slot ∨ ∃ value, m'.Closed ref value := by
  cases limit with
  | none => exact .inl (hm.stays_open ht hopen (by simp))
  | some first =>
      cases hm with
      | @close _ _ _ below above before listed lower higher others =>
          by_cases hmem : ref ∈ above
          · obtain ⟨i, -, -, hclosed⟩ := higher ref hmem
            exact .inr ⟨_, hclosed⟩
          · exact .inl ((others ref hmem).trans hopen)

/-! ### Trails -/

/-- A machine whose heap is sound, with no collection under way, and whose open
upvalues are listed in order. -/
structure Ready (m : Machine) : Prop extends m.Tracked where
  sound : m.heap.Sound
  idle : m.heap.Idle

/-- Moves one after the other, which close only slots from a set of them on. -/
inductive Trail (closes : Nat → Prop) : Machine → Machine → Prop
  | refl (m : Machine) : Trail closes m m
  | tail {m m₁ m₂ : Machine} {limit : Option Nat} (trail : Trail closes m m₁)
      (move : Move limit m₁ m₂) (allowed : ∀ first ∈ limit, closes first)
      (frees_le : ∀ i, m₁.heap.frees i ≤ m₂.heap.frees i) (sound : m₂.heap.Sound)
      (idle : m₂.heap.Idle) : Trail closes m m₂

namespace Trail

lemma trans {m'' : Machine} (ht : Trail closes m m') (ht' : Trail closes m' m'') :
    Trail closes m m'' := by
  induction ht' with
  | refl => exact ht
  | tail _ move allowed frees_le sound idle ih => exact ih.tail move allowed frees_le sound idle

lemma mono {closes' : Nat → Prop} (ht : Trail closes m m')
    (himp : ∀ slot, closes slot → closes' slot) : Trail closes' m m' := by
  induction ht with
  | refl => exact .refl _
  | tail _ move allowed frees_le sound idle ih =>
      exact ih.tail move (fun first hfirst => himp first (allowed first hfirst)) frees_le sound idle

lemma ready (ht : Trail closes m m') (hr : m.Ready) : m'.Ready := by
  induction ht with
  | refl => exact hr
  | tail _ move _ _ sound idle ih => exact ⟨move.tracked ih.toTracked, sound, idle⟩

/-- What slots of the heap count only goes up. -/
lemma frees_le (ht : Trail closes m m') (i : UInt32) : m.heap.frees i ≤ m'.heap.frees i := by
  induction ht with
  | refl => exact Nat.le_refl _
  | tail _ _ _ frees_le _ _ ih => exact Nat.le_trans ih (frees_le i)

lemma stays_open (ht : Trail (slot < ·) m m') (hr : m.Ready) (hopen : m.OpenAt ref slot) :
    m'.OpenAt ref slot := by
  induction ht with
  | refl => exact hopen
  | tail trail move allowed _ _ _ ih =>
      exact move.stays_open (trail.ready hr).toTracked ih allowed

-- In both of the following the counts at the ends agree, so they agree all along the trail,
-- and no move frees the upvalue.

lemma stays_closed (ht : Trail closes m m') (hclosed : m.Closed ref value)
    (hkept : m'.heap.frees ref.id.index = m.heap.frees ref.id.index) :
    ∃ value', m'.Closed ref value' := by
  induction ht with
  | refl => exact ⟨value, hclosed⟩
  | tail trail move _ frees_le _ _ ih =>
      have hle := trail.frees_le ref.id.index
      have hle' := frees_le ref.id.index
      obtain ⟨value', hclosed'⟩ := ih (by omega)
      exact move.stays_closed hclosed' (by omega)

lemma open_or_closed (ht : Trail closes m m') (hr : m.Ready) (hopen : m.OpenAt ref slot)
    (hkept : m'.heap.frees ref.id.index = m.heap.frees ref.id.index) :
    m'.OpenAt ref slot ∨ ∃ value, m'.Closed ref value := by
  induction ht with
  | refl => exact .inl hopen
  | tail trail move _ frees_le _ _ ih =>
      have hle := trail.frees_le ref.id.index
      have hle' := frees_le ref.id.index
      rcases ih (by omega) with hopen | ⟨value, hclosed⟩
      · exact move.open_or_closed (trail.ready hr).toTracked hopen
      · exact .inr (move.stays_closed hclosed (by omega))

/-- An id that names an object at both ends of a trail was not freed on the way, unless
its slot was freed as often as there are generations. -/
lemma frees_eq (ht : Trail closes m m') {id : ObjectId} (hlive : m.heap.contains id = true)
    (hlive' : m'.heap.contains id = true)
    (hfew : m'.heap.frees id.index < m.heap.frees id.index + UInt32.size) :
    m'.heap.frees id.index = m.heap.frees id.index :=
  Heap.frees_eq_of_contains (ht.frees_le id.index) hlive hlive' hfew

end Trail

end ScriptMachine.Machine
