import Mathlib.Logic.Function.Basic
import ScriptMachine.Proofs.Heap.Changes

/-!
The arrays of a heap as independent lists.

A `Sequence` is what an array stands for: its kind, its capacity and the list of
its elements. `Heap.sequences` reads all arrays of a heap, and `Sequences.Step`
says what an operation does to them, without blocks and bytes.

* `Sound.step_newArray`, `Sound.step_arraySet`, `Sound.step_arrayPush`,
  `Sound.step_arrayPop`, `Sound.step_copyArray`, `Sound.step_collect`: each
  operation on an array, and each collection, is a step of the lists;
* `Performs.step`: so is whatever a client does next;
* `Chronicle.arrays_refine`: a heap goes through a run of the lists, and what is
  read from its arrays is what they hold.
-/

namespace ScriptMachine

open Memory

/-! ### Lists in place of arrays -/

/-- What an array stands for. -/
structure Sequence where
  kind : ArrayKind
  capacity : Nat
  items : List Scalar
  deriving DecidableEq

namespace Sequence

/-- A scalar is stored; places that are skipped are zero. -/
def set (s : Sequence) (index : Nat) (scalar : Scalar) : Sequence :=
  { s with
    items := (s.items ++ .replicate (index + 1 - s.items.length) s.kind.zero).set index scalar }

/-- A scalar is appended; a full sequence gets more capacity. -/
def push (s : Sequence) (scalar : Scalar) : Sequence :=
  { s with
    capacity := if s.items.length = s.capacity then growCapacity s.capacity else s.capacity
    items := s.items ++ [scalar] }

/-- The last scalar is taken off. -/
def pop (s : Sequence) : Sequence := { s with items := s.items.dropLast }

lemma length_set (s : Sequence) (index : Nat) (scalar : Scalar) :
    (s.set index scalar).items.length = max s.items.length (index + 1) := by
  simp only [set, List.length_set, List.length_append, List.length_replicate]
  omega

lemma getElem_set (s : Sequence) (index : Nat) (scalar : Scalar) (i : Nat)
    (hi : i < (s.set index scalar).items.length) :
    (s.set index scalar).items[i] =
      if i = index then scalar
      else if hlt : i < s.items.length then s.items[i] else s.kind.zero := by
  simp only [set, List.getElem_set, List.getElem_append, List.getElem_replicate]
  by_cases heq : i = index
  · rw [if_pos heq, if_pos heq.symm]
  · rw [if_neg heq, if_neg (Ne.symm heq)]

end Sequence

/-- The arrays of a heap by their ids. -/
abbrev Sequences := ObjectId → Option Sequence

namespace Sequences

/-- What a client has done, and what it was given. -/
inductive Operation where
  | created (kind : ArrayKind) (capacity : Nat) (id : ObjectId)
  | stored (id : ObjectId) (index : Nat) (scalar : Scalar) (stored : Bool)
  | pushed (id : ObjectId) (scalar : Scalar)
  | popped (id : ObjectId) (last : Option Scalar)
  | copied (id copy : ObjectId)
  | collected (kept : ObjectId → Prop)
  /-- Something that concerns no array, or a request that raised an error. -/
  | unrelated

/-- What an operation does to the sequences. New ones have ids that were not in
use. -/
inductive Step : Sequences → Operation → Sequences → Prop
  | create {rows : Sequences} {kind : ArrayKind} {capacity : Nat} {id : ObjectId}
      (fresh : rows id = none) :
      Step rows (.created kind capacity id) (Function.update rows id (some ⟨kind, capacity, []⟩))
  | store {rows : Sequences} {s : Sequence} {id : ObjectId} {index : Nat} {scalar : Scalar}
      (found : rows id = some s) (below : index < s.capacity) :
      Step rows (.stored id index scalar true) (Function.update rows id (some (s.set index scalar)))
  | storePast {rows : Sequences} {s : Sequence} {id : ObjectId} {index : Nat} {scalar : Scalar}
      (found : rows id = some s) (past : s.capacity ≤ index) :
      Step rows (.stored id index scalar false) rows
  | push {rows : Sequences} {s : Sequence} {id : ObjectId} {scalar : Scalar}
      (found : rows id = some s) :
      Step rows (.pushed id scalar) (Function.update rows id (some (s.push scalar)))
  | pop {rows : Sequences} {s : Sequence} {id : ObjectId} (found : rows id = some s) :
      Step rows (.popped id s.items.getLast?) (Function.update rows id (some s.pop))
  | copy {rows : Sequences} {s : Sequence} {id copy : ObjectId} (found : rows id = some s)
      (fresh : rows copy = none) :
      Step rows (.copied id copy) (Function.update rows copy (some s))
  | collect {rows rows' : Sequences} {kept : ObjectId → Prop}
      (stay : ∀ id, kept id → rows' id = rows id) (go : ∀ id, ¬ kept id → rows' id = none) :
      Step rows (.collected kept) rows'
  | unrelated {rows : Sequences} : Step rows .unrelated rows

/-- What operations, one after the other, do to the sequences. -/
inductive Run (first : Sequences) : List Operation → Sequences → Prop
  | start : Run first [] first
  | next {operations : List Operation} {operation : Operation} {rows rows' : Sequences}
      (past : Run first operations rows) (step : Step rows operation rows') :
      Run first (operations ++ [operation]) rows'

end Sequences

namespace Heap

open Sequences (Step)

variable {h h' : Heap} {id : ObjectId} {ref : Ref .array} {s : Sequence} {scalar : Scalar}
  {index : Nat}

/-- The arrays of a heap. -/
def sequences (h : Heap) : Sequences := fun id =>
  (h.get? (⟨id⟩ : Ref .array)).map fun a =>
    ⟨a.kind, a.capacity, (List.range a.length).map (h.elementAt id a.kind)⟩

lemma sequences_eq_some_iff : h.sequences id = some s ↔
    h.get? (⟨id⟩ : Ref .array) = some ⟨s.kind, s.items.length, s.capacity⟩ ∧
      ∀ (i : Nat) (hi : i < s.items.length), h.elementAt id s.kind i = s.items[i] := by
  unfold sequences
  constructor
  · intro heq
    obtain ⟨a, hget, rfl⟩ := Option.map_eq_some_iff.mp heq
    simp [hget]
  · rintro ⟨hget, helements⟩
    rw [hget, Option.map_some, Option.some_inj]
    have hitems : (List.range s.items.length).map (h.elementAt id s.kind) = s.items :=
      List.ext_getElem (by simp) fun i hi hi' => by simp [helements i hi']
    rw [hitems]

lemma sequences_eq_none_iff : h.sequences id = none ↔ h.get? (⟨id⟩ : Ref .array) = none :=
  Option.map_eq_none_iff

/-- An array whose record and elements are known. -/
lemma sequences_of_find? {entry : Entry} (hfind : h.find? id = some entry)
    (hobject : entry.object = .array ⟨s.kind, s.items.length, s.capacity⟩)
    (helements : ∀ (i : Nat) (hi : i < s.items.length), h.elementAt id s.kind i = s.items[i]) :
    h.sequences id = some s :=
  sequences_eq_some_iff.mpr ⟨get?_eq_some_iff.mpr ⟨entry, hfind, hobject⟩, helements⟩

/-- The record and the elements of an array. -/
lemma exists_find?_of_sequences (hs : h.sequences id = some s) :
    ∃ entry, h.find? id = some entry ∧
      entry.object = .array ⟨s.kind, s.items.length, s.capacity⟩ ∧
      ∀ (i : Nat) (hi : i < s.items.length), h.elementAt id s.kind i = s.items[i] := by
  obtain ⟨hget, helements⟩ := sequences_eq_some_iff.mp hs
  obtain ⟨entry, hfind, hobject⟩ := get?_eq_some_iff.mp hget
  exact ⟨entry, hfind, hobject, helements⟩

/-! ### What an operation leaves alone -/

/-- An array that stays as it is. -/
lemma Intact.sequences (hi : Intact id h h') (hs : h.Sound) : h'.sequences id = h.sequences id := by
  unfold Heap.sequences
  rw [hi.get?]
  cases hget : h.get? (⟨id⟩ : Ref .array) with
  | none => rfl
  | some a =>
      refine congrArg (fun items => some (Sequence.mk a.kind a.capacity items)) ?_
      exact List.map_congr_left fun i hlt => hi.elementAt hs hget (List.mem_range.mp hlt)

lemma Spares.sequences (hp : Spares .array h h') (hs : h.Sound) : h'.sequences = h.sequences := by
  funext id
  unfold Heap.sequences
  rw [hp.get?]
  cases hget : h.get? (⟨id⟩ : Ref .array) with
  | none => rfl
  | some a =>
      refine congrArg (fun items => some (Sequence.mk a.kind a.capacity items)) ?_
      refine List.map_congr_left fun i hlt => elementAt_congr fun j _ hj => hp.cells ⟨id⟩ a hget j ?_
      obtain ⟨entry, hfind, hobject⟩ := get?_eq_some_iff.mp hget
      have hle := Nat.mul_le_mul_right a.kind.width
        (Nat.lt_of_lt_of_le (List.mem_range.mp hlt) (hs.length_le hfind hobject).1)
      rw [Nat.succ_mul] at hle
      exact Nat.lt_of_lt_of_le hj hle

/-- Only one array has changed. -/
lemma OnlyAt.sequences (ho : OnlyAt id h h') (hs : h.Sound) (hid : h'.sequences id = some s) :
    h'.sequences = Function.update h.sequences id (some s) :=
  Function.eq_update_iff.mpr ⟨hid, fun _ hne => (ho.intact hne).sequences hs⟩

/-! ### Operations on arrays -/

/-- A heap without a collection under way has come to another one, and its arrays
have taken a step. -/
structure Stepped (operation : Sequences.Operation) (h h' : Heap) : Prop where
  sound : h'.Sound
  idle : h'.Idle
  step : Step h.sequences operation h'.sequences

lemma Sound.step_newArray (hs : h.Sound) (hi : h.Idle) (kind : ArrayKind) (capacity : Nat)
    (journal : Journal) :
    (Heap.newArray kind capacity h journal).Served h.memory.Granted (h.hasRoom = false)
      (insertRefusal (Object.array ⟨kind, 0, capacity⟩).size) h
      fun ref h' => Stepped (.created kind capacity ref.id) h h' := by
  have hserved := hs.alloc (show Content.Bare .array ⟨kind, 0, capacity⟩ from rfl) journal
  refine hserved.imp ?_
  rintro ref h' ⟨hf, hget⟩
  have hrow : h'.sequences ref.id = some ⟨kind, capacity, []⟩ :=
    sequences_eq_some_iff.mpr ⟨hget, fun i hlt => absurd hlt (Nat.not_lt_zero i)⟩
  refine ⟨hf.sound, hi.onlyAt hf.only hf.unmarked, ?_⟩
  rw [hf.only.sequences hs hrow]
  refine .create (sequences_eq_none_iff.mpr ?_)
  rw [Heap.get?, object?, hf.fresh]
  rfl

/-- Storing a scalar of the right kind. -/
lemma Sound.step_arraySet (hs : h.Sound) (hi : h.Idle) (hrow : h.sequences ref.id = some s)
    (helement : s.kind.Element scalar)
    (hnamed : ∀ string, scalar = .str string → string.id ≠ .dangling) (index : Nat)
    (journal : Journal) :
    ∃ h', Heap.arraySet ref index scalar h journal = .done (decide (index < s.capacity)) h' journal ∧
      Stepped (.stored ref.id index scalar (decide (index < s.capacity))) h h' := by
  obtain ⟨entry, hfind, hobject, helements⟩ := exists_find?_of_sequences hrow
  by_cases hlt : index < s.capacity
  · obtain ⟨h', hrun, hs', honly, hfind', helements'⟩ :=
      hs.arraySet hfind hobject helement hnamed hlt journal
    rw [decide_eq_true hlt]
    have hrow' : h'.sequences ref.id = some (s.set index scalar) := by
      refine sequences_of_find? hfind' ?_ fun i hi => ?_
      · rw [s.length_set]
        rfl
      · rw [s.getElem_set]
        rw [s.length_set] at hi
        refine (helements' i hi).trans ?_
        by_cases hold : i < s.items.length
        · rw [if_pos hold, dif_pos hold, helements i hold]
        · rw [if_neg hold, dif_neg hold]
    refine ⟨h', hrun, hs', hi.onlyAt honly ?_, ?_⟩
    · exact (hi.changed hs' honly hfind hfind' rfl).unmarked
    · rw [honly.sequences hs hrow']
      exact .store hrow hlt
  · rw [decide_eq_false hlt]
    exact ⟨h, arraySet_of_le hfind hobject (Nat.not_lt.mp hlt) journal, hs, hi,
      .storePast hrow (Nat.not_lt.mp hlt)⟩

/-- Appending a scalar of the right kind. -/
lemma Sound.step_arrayPush (hs : h.Sound) (hi : h.Idle) (hrow : h.sequences ref.id = some s)
    (helement : s.kind.Element scalar)
    (hnamed : ∀ string, scalar = .str string → string.id ≠ .dangling) (journal : Journal) :
    (Heap.arrayPush ref scalar h journal).Served h.memory.Granted False
      (pushRefusal ⟨s.kind, s.items.length, s.capacity⟩) h
      fun _ h' => Stepped (.pushed ref.id scalar) h h' := by
  obtain ⟨entry, hfind, hobject, helements⟩ := exists_find?_of_sequences hrow
  refine (hs.arrayPush hfind hobject helement hnamed journal).imp ?_
  rintro _ h' ⟨hs', honly, ⟨block, hfind'⟩, helements'⟩
  have hrow' : h'.sequences ref.id = some (s.push scalar) := by
    refine sequences_of_find? hfind' ?_ fun i hi => ?_
    · simp only [Sequence.push, ArrayRecord.pushed, ArrayRecord.enlarged, List.length_append,
        List.length_singleton]
      split <;> rfl
    · simp only [Sequence.push, List.length_append, List.length_singleton] at hi
      refine (helements' i hi).trans ?_
      simp only [Sequence.push, List.getElem_append]
      by_cases hlt : i < s.items.length
      · rw [if_neg (Nat.ne_of_lt hlt), dif_pos hlt, helements i hlt]
      · rw [if_pos (show i = s.items.length by omega), dif_neg hlt, List.getElem_singleton]
  refine ⟨hs', hi.onlyAt honly (hi.changed hs' honly hfind hfind' rfl).unmarked, ?_⟩
  rw [honly.sequences hs hrow']
  exact .push hrow

/-- Taking the last element off, if there is one. -/
lemma Sound.step_arrayPop (hs : h.Sound) (hi : h.Idle) (hrow : h.sequences ref.id = some s)
    (journal : Journal) :
    ∃ h', Heap.arrayPop ref h journal = .done s.items.getLast? h' journal ∧
      Stepped (.popped ref.id s.items.getLast?) h h' := by
  obtain ⟨entry, hfind, hobject, helements⟩ := exists_find?_of_sequences hrow
  by_cases hempty : s.items = []
  · have hread := read_array hfind hobject
    refine ⟨h, ?_, hs, hi, ?_⟩
    · unfold Heap.arrayPop
      simp [hread, hempty]
    · have hstep := Step.pop hrow
      have hpop : s.pop = s := by rw [Sequence.pop, hempty, List.dropLast_nil, ← hempty]
      rw [hpop, Function.update_eq_self_iff.mpr hrow.symm] at hstep
      exact hstep
  · have hlength : s.items.length ≠ 0 := fun heq => hempty (List.eq_nil_of_length_eq_zero heq)
    obtain ⟨h', hrun, hs', honly, hfind', helements'⟩ := hs.arrayPop hfind hobject hlength journal
    have hlast : s.items.getLast? = some (h.elementAt ref.id s.kind (s.items.length - 1)) := by
      rw [List.getLast?_eq_getElem?, List.getElem?_eq_getElem (Nat.sub_one_lt hlength),
        helements _ (Nat.sub_one_lt hlength)]
    have hrow' : h'.sequences ref.id = some s.pop := by
      refine sequences_of_find? hfind' ?_ fun i hi => ?_
      · rw [Sequence.pop, List.length_dropLast]
      · rw [Sequence.pop, List.length_dropLast] at hi
        refine (helements' i).trans ((helements i (by omega)).trans ?_)
        exact (List.getElem_dropLast _).symm
    refine ⟨h', hlast ▸ hrun, hs', ?_, ?_⟩
    · exact hi.onlyAt honly (hi.changed hs' honly hfind hfind' rfl).unmarked
    · rw [honly.sequences hs hrow']
      exact .pop hrow

lemma Sound.step_copyArray (hs : h.Sound) (hi : h.Idle) (hrow : h.sequences ref.id = some s)
    (journal : Journal) :
    (Heap.copyArray ref h journal).Served h.memory.Granted (h.hasRoom = false)
      (insertRefusal (Object.array ⟨s.kind, s.items.length, s.capacity⟩).size) h
      fun copy h' => Stepped (.copied ref.id copy.id) h h' := by
  obtain ⟨entry, hfind, hobject, helements⟩ := exists_find?_of_sequences hrow
  refine (hs.copyArray hfind hobject journal).imp ?_
  rintro copy h' ⟨contents, ha, helements'⟩
  have hf := ha.isFresh
  have hrow' : h'.sequences copy.id = some s := by
    refine sequences_eq_some_iff.mpr ⟨ha.get? (k := .array), fun i hlt => ?_⟩
    exact (helements' i hlt).trans (helements i hlt)
  refine ⟨hf.sound, hi.onlyAt hf.only hf.unmarked, ?_⟩
  rw [hf.only.sequences hs hrow']
  refine .copy hrow (sequences_eq_none_iff.mpr ?_)
  rw [Heap.get?, object?, hf.fresh]
  rfl

lemma Sound.step_collect (hs : h.Sound) (hi : h.Idle) (roots : List ObjectId) (journal : Journal) :
    ∃ sweep h' journal', Heap.collect roots h journal = .done sweep h' journal' ∧
      Stepped (.collected (Kept h roots)) h h' := by
  obtain ⟨h', freed, journal', hrun, hc⟩ := hs.collect hi roots journal
  refine ⟨_, h', journal', hrun, hc.sound, hc.idle, .collect (fun id hk => ?_) fun id hk => ?_⟩
  · exact (hc.intact hk).sequences hs
  · rw [sequences_eq_none_iff, Heap.get?, object?, hc.dropped id hk]
    rfl

/-! ### Chronicles -/

/-- One operation of a client: the heap before, what was done, and the heap
after. Scalars are brought to the kind of an array before they are stored; a
string among them is not the id that names nothing. -/
inductive Performs : Heap → Sequences.Operation → Heap → Prop
  | newArray {h h' : Heap} {ref : Ref .array} {journal' : Journal} (kind : ArrayKind)
      (capacity : Nat) (journal : Journal)
      (run : Heap.newArray kind capacity h journal = .done ref h' journal') :
      Performs h (.created kind capacity ref.id) h'
  | newArrayRefused {h h' : Heap} {error : Error} {journal' : Journal} (kind : ArrayKind)
      (capacity : Nat) (journal : Journal)
      (run : Heap.newArray kind capacity h journal = .raised error h' journal') :
      Performs h .unrelated h'
  | arraySet {h h' : Heap} {ref : Ref .array} {a : ArrayRecord} {given scalar : Scalar}
      {stored : Bool} {journal' : Journal} (found : h.get? ref = some a)
      (coerced : a.kind.coerce given = some scalar)
      (named : ∀ string, scalar = .str string → string.id ≠ .dangling) (index : Nat)
      (journal : Journal) (run : Heap.arraySet ref index scalar h journal = .done stored h' journal') :
      Performs h (.stored ref.id index scalar stored) h'
  | arrayPush {h h' : Heap} {ref : Ref .array} {a : ArrayRecord} {given scalar : Scalar}
      {journal' : Journal} (found : h.get? ref = some a)
      (coerced : a.kind.coerce given = some scalar)
      (named : ∀ string, scalar = .str string → string.id ≠ .dangling) (journal : Journal)
      (run : Heap.arrayPush ref scalar h journal = .done () h' journal') :
      Performs h (.pushed ref.id scalar) h'
  | arrayPushRefused {h h' : Heap} {ref : Ref .array} {a : ArrayRecord} {given scalar : Scalar}
      {error : Error} {journal' : Journal} (found : h.get? ref = some a)
      (coerced : a.kind.coerce given = some scalar)
      (named : ∀ string, scalar = .str string → string.id ≠ .dangling) (journal : Journal)
      (run : Heap.arrayPush ref scalar h journal = .raised error h' journal') :
      Performs h .unrelated h'
  | arrayPop {h h' : Heap} {ref : Ref .array} {a : ArrayRecord} {last : Option Scalar}
      {journal' : Journal} (found : h.get? ref = some a) (journal : Journal)
      (run : Heap.arrayPop ref h journal = .done last h' journal') :
      Performs h (.popped ref.id last) h'
  | copyArray {h h' : Heap} {ref copy : Ref .array} {a : ArrayRecord} {journal' : Journal}
      (found : h.get? ref = some a) (journal : Journal)
      (run : Heap.copyArray ref h journal = .done copy h' journal') :
      Performs h (.copied ref.id copy.id) h'
  | copyArrayRefused {h h' : Heap} {ref : Ref .array} {a : ArrayRecord} {error : Error}
      {journal' : Journal} (found : h.get? ref = some a) (journal : Journal)
      (run : Heap.copyArray ref h journal = .raised error h' journal') :
      Performs h .unrelated h'
  | collect {h h' : Heap} {sweep : Sweep} {journal' : Journal} (roots : List ObjectId)
      (journal : Journal) (run : Heap.collect roots h journal = .done sweep h' journal') :
      Performs h (.collected (Kept h roots)) h'
  | other {h h' : Heap} {α : Type} {action : Action Heap α} {value : α} {journal' : Journal}
      (elsewhere : Elsewhere .array action) (journal : Journal)
      (run : action h journal = .done value h' journal') : Performs h .unrelated h'
  | otherRefused {h h' : Heap} {α : Type} {action : Action Heap α} {error : Error}
      {journal' : Journal} (elsewhere : Elsewhere .array action) (journal : Journal)
      (run : action h journal = .raised error h' journal') : Performs h .unrelated h'

/-- Everything a client has done to a heap since it was created. -/
inductive Chronicle (pageSize : Nat) (grants : Nat → Bool) : List Sequences.Operation → Heap → Prop
  | create {h : Heap} (created : Heap.create pageSize grants = .ok h) :
      Chronicle pageSize grants [] h
  | next {h h' : Heap} {operations : List Sequences.Operation} {operation : Sequences.Operation}
      (past : Chronicle pageSize grants operations h) (performed : Performs h operation h') :
      Chronicle pageSize grants (operations ++ [operation]) h'

lemma exists_sequence {a : ArrayRecord} (hget : h.get? ref = some a) :
    ∃ s, h.sequences ref.id = some s ∧ s.kind = a.kind := by
  refine ⟨_, congrArg (Option.map _) hget, rfl⟩

lemma Steady.stepped (ht : Steady .array h h') (hs : h.Sound) (hi : h.Idle) :
    Stepped .unrelated h h' := by
  obtain ⟨hs', hi', hp⟩ := ht hs hi
  refine ⟨hs', hi', ?_⟩
  rw [hp.sequences hs]
  exact .unrelated

/-- Whatever a client does, the arrays take a step. -/
lemma Performs.step {operation : Sequences.Operation} (hp : Performs h operation h') (hs : h.Sound)
    (hi : h.Idle) : Stepped operation h h' := by
  -- a refused operation leaves the heap as it is
  have hstay : Stepped .unrelated h h := ⟨hs, hi, .unrelated⟩
  cases hp with
  | newArray kind capacity journal run =>
      exact ((hs.step_newArray hi kind capacity journal).of_done run).1
  | newArrayRefused kind capacity journal run =>
      exact ((hs.step_newArray hi kind capacity journal).of_raised run).1 ▸ hstay
  -- coercion makes the scalar an element of the kind, which the step lemmas ask for
  | arraySet found coerced named index journal run =>
      obtain ⟨s, hrow, hkind⟩ := exists_sequence found
      have helement := hkind ▸ ArrayKind.element_of_coerce coerced
      obtain ⟨h₁, hrun, hstep⟩ := hs.step_arraySet hi hrow helement named index journal
      cases hrun.symm.trans run
      exact hstep
  | arrayPush found coerced named journal run =>
      obtain ⟨s, hrow, hkind⟩ := exists_sequence found
      have helement := hkind ▸ ArrayKind.element_of_coerce coerced
      exact ((hs.step_arrayPush hi hrow helement named journal).of_done run).1
  | arrayPushRefused found coerced named journal run =>
      obtain ⟨s, hrow, hkind⟩ := exists_sequence found
      have helement := hkind ▸ ArrayKind.element_of_coerce coerced
      exact ((hs.step_arrayPush hi hrow helement named journal).of_raised run).1 ▸ hstay
  | arrayPop found journal run =>
      obtain ⟨s, hrow, -⟩ := exists_sequence found
      obtain ⟨h₁, hrun, hstep⟩ := hs.step_arrayPop hi hrow journal
      cases hrun.symm.trans run
      exact hstep
  | copyArray found journal run =>
      obtain ⟨s, hrow, -⟩ := exists_sequence found
      exact ((hs.step_copyArray hi hrow journal).of_done run).1
  | copyArrayRefused found journal run =>
      obtain ⟨s, hrow, -⟩ := exists_sequence found
      exact ((hs.step_copyArray hi hrow journal).of_raised run).1 ▸ hstay
  | collect roots journal run =>
      obtain ⟨sweep, h₁, journal₁, hrun, hstep⟩ := hs.step_collect hi roots journal
      cases hrun.symm.trans run
      exact hstep
  | other elsewhere journal run =>
      exact Steady.stepped ((elsewhere.within h journal).of_done run) hs hi
  | otherRefused elsewhere journal run =>
      exact Steady.stepped ((elsewhere.within h journal).of_raised run) hs hi

variable {pageSize : Nat} {grants : Nat → Bool} {operations : List Sequences.Operation}

lemma sequences_of_create (hcreate : Heap.create pageSize grants = .ok h) :
    h.sequences = fun _ => none := by
  funext id
  rw [sequences, get?_of_create hcreate]
  rfl

/-- A whole chronicle is a run of the sequences. -/
lemma Chronicle.run (hc : Chronicle pageSize grants operations h) :
    h.Sound ∧ h.Idle ∧ Sequences.Run (fun _ => none) operations h.sequences := by
  induction hc with
  | create created =>
      exact ⟨sound_of_create created, idle_of_create created, sequences_of_create created ▸ .start⟩
  | next past performed ih =>
      obtain ⟨hs, hi, hrun⟩ := ih
      have hstep := performed.step hs hi
      exact ⟨hstep.sound, hstep.idle, hrun.next hstep.step⟩

/-- What is read from an array. -/
lemma Sound.reads (hs : h.Sound) (hrow : h.sequences ref.id = some s) :
    (∃ entry, h.find? ref.id = some entry ∧
      entry.object = .array ⟨s.kind, s.items.length, s.capacity⟩ ∧
      s.items.length ≤ s.capacity ∧ s.capacity * s.kind.width ≤ entry.block.size) ∧
    h.arrayElements ref = .ok s.items ∧ ∀ i, h.arrayGet? ref i = .ok s.items[i]? := by
  obtain ⟨entry, hfind, hobject, helements⟩ := exists_find?_of_sequences hrow
  have hfits := hs.fits _ _ hfind
  rw [hobject] at hfits
  refine ⟨⟨entry, hfind, hobject, hfits.1, hfits.2⟩, ?_, fun i => ?_⟩
  · rw [hs.arrayElements hfind hobject]
    exact congrArg _ (List.ext_getElem (by simp) fun i hi hi' => by simp [helements i hi'])
  · rw [hs.arrayGet? hfind hobject]
    by_cases hlt : i < s.items.length
    · rw [if_pos hlt, List.getElem?_eq_getElem hlt, helements i hlt]
    · rw [if_neg hlt, List.getElem?_eq_none (Nat.not_lt.mp hlt)]

/-- Arrays are lists. Whatever a client has done to a heap, its arrays went
through a run of the lists, in which an operation on one list changes no other,
a copy and its original included. What is read from an array are the items of
its list; it has at most as many as its capacity, and the capacity fits into its
block. And so it goes on: a new array is empty; storing a scalar of the kind of
the array succeeds exactly below the capacity; a push or a copy is served, unless
there is a reason to refuse it, and then the heap is as it was; the last item is
popped. -/
theorem Chronicle.arrays_refine (hc : Chronicle pageSize grants operations h) :
    Sequences.Run (fun _ => none) operations h.sequences ∧
    (∀ kind capacity journal, (Heap.newArray kind capacity h journal).Served h.memory.Granted
      (h.hasRoom = false) (insertRefusal (Object.array ⟨kind, 0, capacity⟩).size) h
      fun ref h' => Step h.sequences (.created kind capacity ref.id) h'.sequences) ∧
    ∀ (ref : Ref .array) (s : Sequence), h.sequences ref.id = some s →
      ((∃ entry, h.find? ref.id = some entry ∧
          entry.object = .array ⟨s.kind, s.items.length, s.capacity⟩ ∧
          s.items.length ≤ s.capacity ∧ s.capacity * s.kind.width ≤ entry.block.size) ∧
        h.arrayElements ref = .ok s.items ∧ ∀ i, h.arrayGet? ref i = .ok s.items[i]?) ∧
      (∀ given scalar, s.kind.coerce given = some scalar →
        (∀ string, scalar = .str string → string.id ≠ .dangling) → ∀ journal,
          (∀ index, ∃ h',
            Heap.arraySet ref index scalar h journal = .done (decide (index < s.capacity)) h' journal ∧
            Step h.sequences (.stored ref.id index scalar (decide (index < s.capacity)))
              h'.sequences) ∧
          (Heap.arrayPush ref scalar h journal).Served h.memory.Granted False
            (pushRefusal ⟨s.kind, s.items.length, s.capacity⟩) h
            fun _ h' => Step h.sequences (.pushed ref.id scalar) h'.sequences) ∧
      ∀ journal,
        (∃ h', Heap.arrayPop ref h journal = .done s.items.getLast? h' journal ∧
          Step h.sequences (.popped ref.id s.items.getLast?) h'.sequences) ∧
        (Heap.copyArray ref h journal).Served h.memory.Granted (h.hasRoom = false)
          (insertRefusal (Object.array ⟨s.kind, s.items.length, s.capacity⟩).size) h
          fun copy h' => Step h.sequences (.copied ref.id copy.id) h'.sequences := by
  obtain ⟨hs, hi, hrun⟩ := hc.run
  refine ⟨hrun, fun kind capacity journal => ?_, fun ref s hrow =>
    ⟨hs.reads hrow, fun given scalar coerced named journal => ⟨fun index => ?_, ?_⟩,
      fun journal => ⟨?_, ?_⟩⟩⟩
  · exact (hs.step_newArray hi kind capacity journal).imp fun _ _ => Stepped.step
  · have helement := ArrayKind.element_of_coerce coerced
    obtain ⟨h', hset, hstep⟩ := hs.step_arraySet hi hrow helement named index journal
    exact ⟨h', hset, hstep.step⟩
  · have helement := ArrayKind.element_of_coerce coerced
    exact (hs.step_arrayPush hi hrow helement named journal).imp fun _ _ => Stepped.step
  · obtain ⟨h', hpop, hstep⟩ := hs.step_arrayPop hi hrow journal
    exact ⟨h', hpop, hstep.step⟩
  · exact (hs.step_copyArray hi hrow journal).imp fun _ _ => Stepped.step

/-- A string is stored into an array past its end, behind a null that was
skipped. The array is copied, and its last element is taken off, which the copy
does not notice; a collection keeps both. In another heap an array is full when no
more pages are to be had, and a push leaves it as it is. -/
theorem Chronicle.arrays_refine_copied :
    (∃ h operations, Chronicle 1024 (fun _ => true) operations h ∧
      Sequences.Run (fun _ => none) operations h.sequences ∧
      h.arrayElements ⟨⟨1, 0⟩⟩ = .ok [.null] ∧
      h.arrayElements ⟨⟨2, 0⟩⟩ = .ok [.null, .str ⟨⟨0, 0⟩⟩]) ∧
    ∃ h operations, Chronicle 256 (fun _ => true) operations h ∧
      (∃ error journal', Heap.arrayPush ⟨⟨0, 0⟩⟩ (.byte 1) h .silent = .raised error h journal') ∧
      h.arrayElements ⟨⟨0, 0⟩⟩ = .ok [.byte 0, .byte 7] := by
  constructor
  · have text : Chronicle 1024 (fun _ => true) _ _ := (Chronicle.create rfl).next
      (.other (.insert (.string ⟨0, 0, 0, true⟩) false (Nat.le_refl _) (by decide)) .silent rfl)
    have stored : Chronicle 1024 (fun _ => true) _ _ :=
      (text.next (.newArray .strings 2 .silent rfl)).next
        (.arraySet (rfl : Heap.get? _ (⟨⟨1, 0⟩⟩ : Ref .array) = some _)
          (rfl : ArrayKind.coerce _ (.str ⟨⟨0, 0⟩⟩) = some _) (by simp [ObjectId.dangling]) 1 .silent
          rfl)
    have copied : Chronicle 1024 (fun _ => true) _ _ := stored.next
      (.copyArray (rfl : Heap.get? _ (⟨⟨1, 0⟩⟩ : Ref .array) = some _) .silent rfl)
    have popped : Chronicle 1024 (fun _ => true) _ _ := copied.next
      (.arrayPop (rfl : Heap.get? _ (⟨⟨1, 0⟩⟩ : Ref .array) = some _) .silent rfl)
    obtain ⟨hs, hi, -⟩ := popped.run
    obtain ⟨sweep, h, journal, collect, -, -, step⟩ := hs.step_collect hi [⟨1, 0⟩, ⟨2, 0⟩] .silent
    have swept := popped.next (.collect _ _ collect)
    obtain ⟨hrun, -, hreads⟩ := swept.arrays_refine
    cases step with
    | collect stay go =>
        refine ⟨h, _, swept, hrun, ?_, ?_⟩
        · exact (hreads ⟨⟨1, 0⟩⟩ ⟨.strings, 2, [.null]⟩
            ((stay _ (.inr (.root (by simp) rfl))).trans rfl)).1.2.1
        · exact (hreads ⟨⟨2, 0⟩⟩ ⟨.strings, 2, [.null, .str ⟨⟨0, 0⟩⟩]⟩
            ((stay _ (.inr (.root (by simp) rfl))).trans rfl)).1.2.1
  · have filled : Chronicle 256 (fun _ => true) _ _ :=
      ((Chronicle.create rfl).next (.newArray .bytes 2 .silent rfl)).next
        (.arraySet (rfl : Heap.get? _ (⟨⟨0, 0⟩⟩ : Ref .array) = some _)
          (rfl : ArrayKind.coerce _ (.byte 7) = some _) (by simp) 1 .silent rfl)
    have denied : Chronicle 256 (fun _ => true) _ _ :=
      filled.next (.other (.grant fun _ => false) .silent rfl)
    obtain ⟨-, -, hreads⟩ := denied.arrays_refine
    obtain ⟨⟨-, helements, -⟩, hstores, -⟩ := hreads ⟨⟨0, 0⟩⟩ ⟨.bytes, 2, [.byte 0, .byte 7]⟩ rfl
    obtain ⟨-, hpush⟩ := hstores (.byte 1) (.byte 1) rfl (by simp) .silent
    have hsame := (hpush.of_raised rfl).1
    exact ⟨_, _, denied, ⟨_, _, congrArg (Outcome.raised _ · _) hsame⟩, helements⟩

end Heap

end ScriptMachine
