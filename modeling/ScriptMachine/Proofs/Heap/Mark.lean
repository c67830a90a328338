import ScriptMachine.Proofs.Heap.Sound

/-!
Marking what can be reached.

`Heap.Reach` is reachability from roots through the children of objects.
Marking changes marks and the gray list only (`Remarked`), and `Tracing` is the
invariant of a trace: marked objects are reachable, gray objects are marked, and
the children of a marked object that is not gray are marked or about to be. A
trace ends, since each step takes an object off the gray list and only objects
that lose the state of being unmarked are put there.

Main result: `trace_markAll`, that marking the roots and tracing marks exactly
what can be reached.
-/

namespace ScriptMachine

open Memory

/-- The entry without its mark. -/
def Entry.unmarked (entry : Entry) : Entry := { entry with marked := false }

/-- The slot with its object unmarked. -/
def Slot.unmarked (slot : Slot) : Slot := { slot with entry := slot.entry.map Entry.unmarked }

namespace Heap

variable {h h' base : Heap} {id child : ObjectId} {entry : Entry} {roots pending : List ObjectId}

/-- What can be reached from roots that name objects. -/
inductive Reach (h : Heap) (roots : List ObjectId) : ObjectId → Prop
  | root {id : ObjectId} (mem : id ∈ roots) (live : h.contains id = true) : Reach h roots id
  | child {id child : ObjectId} (parent : Reach h roots id) (mem : child ∈ h.children id)
      (live : h.contains child = true) : Reach h roots child

/-- An id names a marked object. -/
def Marked (h : Heap) (id : ObjectId) : Prop := ∃ entry, h.find? id = some entry ∧ entry.marked

/-! ### Heaps that differ in marks only -/

/-- Two heaps with the same objects, whatever their marks. -/
structure Remarked (h h' : Heap) : Prop where
  memory : h'.memory = h.memory
  vacant : h'.vacant = h.vacant
  slots : h'.slots.map Slot.unmarked = h.slots.map Slot.unmarked

namespace Remarked

lemma refl (h : Heap) : Remarked h h := ⟨rfl, rfl, rfl⟩

lemma trans {h'' : Heap} (hr : Remarked h h') (hr' : Remarked h' h'') : Remarked h h'' :=
  ⟨hr'.memory.trans hr.memory, hr'.vacant.trans hr.vacant, hr'.slots.trans hr.slots⟩

lemma size (hr : Remarked h h') : h'.slots.size = h.slots.size := by
  simpa using congrArg Array.size hr.slots

lemma slot (hr : Remarked h h') (i : Nat) :
    (h'.slots[i]?).map Slot.unmarked = (h.slots[i]?).map Slot.unmarked := by
  simpa using congrArg (·[i]?) hr.slots

lemma find? (hr : Remarked h h') (id : ObjectId) :
    (h'.find? id).map Entry.unmarked = (h.find? id).map Entry.unmarked := by
  have hslot := hr.slot id.index.toNat
  unfold Heap.find?
  cases hs : h.slots[id.index.toNat]? with
  | none =>
      rw [hs] at hslot
      cases hs' : h'.slots[id.index.toNat]? with
      | none => rfl
      | some slot' => simp [hs'] at hslot
  | some slot =>
      rw [hs] at hslot
      obtain ⟨slot', hs', hsame⟩ := Option.map_eq_some_iff.mp hslot
      rw [hs']
      have hg : slot'.generation = slot.generation := (congrArg Slot.generation hsame :)
      have he : slot'.entry.map Entry.unmarked = slot.entry.map Entry.unmarked :=
        (congrArg Slot.entry hsame :)
      by_cases hid : slot.generation = id.generation
      · simp [hg, hid, he]
      · simp [hg, hid]

/-- The same objects are found, with perhaps other marks. -/
lemma exists_find? (hr : Remarked h h') (hfind : h.find? id = some entry) :
    ∃ entry', h'.find? id = some entry' ∧ entry'.unmarked = entry.unmarked := by
  have hsame := hr.find? id
  rw [hfind] at hsame
  exact Option.map_eq_some_iff.mp hsame

lemma symm (hr : Remarked h h') : Remarked h' h :=
  ⟨hr.memory.symm, hr.vacant.symm, hr.slots.symm⟩

lemma aged (hr : Remarked h h') : Aged [] h h' := by
  refine aged_nil.mpr fun i n hn => ?_
  obtain ⟨slot, hslot, rfl⟩ := Option.map_eq_some_iff.mp hn
  have hsame := hr.slot i.toNat
  rw [hslot] at hsame
  obtain ⟨slot', hslot', heq⟩ := Option.map_eq_some_iff.mp hsame
  rw [frees?, hslot']
  exact congrArg some (congrArg Slot.frees heq :)

lemma contains (hr : Remarked h h') (id : ObjectId) : h'.contains id = h.contains id := by
  have := congrArg Option.isSome (hr.find? id)
  simpa [Heap.contains] using this

lemma block? (hr : Remarked h h') : h'.block? = h.block? := by
  funext id
  have := congrArg (Option.map Entry.block) (hr.find? id)
  simpa [Heap.block?, Option.map_map, Function.comp_def, Entry.unmarked] using this

lemma children (hr : Remarked h h') (id : ObjectId) : h'.children id = h.children id := by
  unfold Heap.children
  cases hfind : h.find? id with
  | none =>
      have hnone := hr.find? id
      rw [hfind] at hnone
      rw [Option.map_eq_none_iff.mp hnone]
  | some entry =>
      obtain ⟨entry', hfind', hsame⟩ := hr.exists_find? hfind
      have hobject : entry'.object = entry.object := (congrArg Entry.object hsame :)
      have hblock : entry'.block = entry.block := (congrArg Entry.block hsame :)
      rw [hfind']
      simp only [hobject, hblock, hr.memory]

lemma blocks (hr : Remarked h h') : h'.blocks = h.blocks := by
  have hblock : ∀ slots : Array Slot, ((slots.map Slot.unmarked).toList.filterMap Slot.entry).map
      Entry.block = (slots.toList.filterMap Slot.entry).map Entry.block := by
    intro slots
    rw [Array.toList_map, List.filterMap_map, List.map_filterMap, List.map_filterMap]
    congr 1
    funext slot
    cases hentry : slot.entry <;> simp [Slot.unmarked, Entry.unmarked, hentry]
  unfold Heap.blocks entries
  rw [← hblock, hr.slots, hblock]

/-- A heap stays sound whatever is marked. -/
lemma tidy (hr : Remarked h h') (ht : h.Tidy) : h'.Tidy := by
  refine ⟨⟨?_, fun i => ?_, ?_⟩, ?_⟩
  · rw [hr.size]
    exact ht.size
  · have hempty : ∀ slot : Option Slot, (∃ g, slot = some ⟨g, none⟩) ↔
        ∃ g, slot.map Slot.unmarked = some ⟨g, none⟩ := by
      intro slot
      rcases slot with _ | ⟨g, _ | entry⟩ <;> simp [Slot.unmarked]
    rw [hr.vacant, ht.vacant, hempty h.slots[i.toNat]?, hempty h'.slots[i.toNat]?, hr.slot]
  · rw [hr.vacant]
    exact ht.nodup
  · rw [hr.memory, hr.blocks]
    exact ht.memory

lemma sound (hr : Remarked h h') (hs : h.Sound) : h'.Sound := by
  refine ⟨hr.tidy hs.toTidy, fun id entry hfind => ?_⟩
  obtain ⟨entry', hfind', hsame⟩ := hr.symm.exists_find? hfind
  have hobject : entry'.object = entry.object := (congrArg Entry.object hsame :)
  have hblock : entry'.block = entry.block := (congrArg Entry.block hsame :)
  rw [← hobject, ← hblock]
  exact hs.fits id entry' hfind'

end Remarked

/-! ### Marking one object -/

lemma remarked_updateEntry (h : Heap) (id : ObjectId) (f : Entry → Entry)
    (hf : ∀ entry, (f entry).unmarked = entry.unmarked) : Remarked h (h.updateEntry id f) := by
  refine ⟨rfl, rfl, Array.ext_getElem? fun i => ?_⟩
  unfold updateEntry
  simp only [Array.getElem?_map, Array.getElem?_modify]
  split
  · cases h.slots[i]? with
    | none => rfl
    | some slot =>
        by_cases hg : slot.generation = id.generation
        · cases hentry : slot.entry <;> simp [hg, Slot.unmarked, hf, hentry]
        · simp [hg]
  · rfl

/-- What marking an object does: nothing, or it gets its mark and turns gray
unless it is a leaf. -/
lemma mark_cases (h : Heap) (id : ObjectId) :
    (h.mark id = h ∧ (h.contains id = true → h.Marked id)) ∨
      ∃ entry, h.find? id = some entry ∧ entry.marked = false ∧
        h.mark id = { h.updateEntry id (fun entry => { entry with marked := true }) with
          gray := if entry.object.isLeaf then h.gray else id :: h.gray } := by
  unfold mark
  cases hfind : h.find? id with
  | none => exact .inl ⟨rfl, by simp [contains, hfind]⟩
  | some entry =>
      dsimp only
      by_cases hmarked : entry.marked = true
      · exact .inl ⟨by simp [hmarked], fun _ => ⟨entry, hfind, hmarked⟩⟩
      · refine .inr ⟨entry, rfl, by simpa using hmarked, ?_⟩
        cases entry.object.isLeaf <;> simp [hmarked, updateEntry]

lemma remarked_mark (h : Heap) (id : ObjectId) : Remarked h (h.mark id) := by
  rcases mark_cases h id with ⟨heq, -⟩ | ⟨entry, -, -, heq⟩
  · rw [heq]
    exact .refl h
  · rw [heq]
    obtain ⟨hmemory, hvacant, hslots⟩ :=
      remarked_updateEntry h id (fun entry => { entry with marked := true }) fun _ => rfl
    exact ⟨hmemory, hvacant, hslots⟩

/-- Marking an object marks it, and no other one. -/
lemma marked_mark {other : ObjectId} :
    (h.mark id).Marked other ↔ h.Marked other ∨ (other = id ∧ h.contains id = true) := by
  rcases mark_cases h id with ⟨heq, hmarked⟩ | ⟨entry, hfind, hfalse, heq⟩
  · rw [heq]
    refine ⟨.inl, ?_⟩
    rintro (hother | ⟨rfl, hlive⟩)
    · exact hother
    · exact hmarked hlive
  · rw [heq]
    unfold Marked
    change (∃ entry, Heap.find? (h.updateEntry id _) other = some entry ∧ _) ↔ _
    rw [find?_updateEntry]
    by_cases hsame : other = id
    · subst hsame
      simp [hfind, contains]
    · simp [hsame]

/-- An array that is a leaf has no references among its elements. -/
lemma elements_id?_eq_none {kind : ArrayKind} (hkind : kind ≠ .strings) :
    ∀ (count : Nat) (bytes : List UInt8),
      (Object.elements kind count bytes).filterMap Scalar.id? = []
  | 0, _ => rfl
  | count + 1, bytes => by
      rw [Object.elements, List.filterMap_cons, elements_id?_eq_none hkind count]
      cases kind with
      | strings => exact absurd rfl hkind
      | _ => rfl

/-- Leaves have no children. -/
lemma children_eq_nil (hfind : h.find? id = some entry) (hleaf : entry.object.isLeaf = true) :
    h.children id = [] := by
  simp only [children, hfind]
  cases hobject : entry.object with
  | array a =>
      rw [hobject] at hleaf
      exact elements_id?_eq_none (by simpa [Object.isLeaf] using hleaf) _ _
  | native _ => rfl
  | string _ => rfl
  | _ => simp [hobject, Object.isLeaf] at hleaf

/-! ### Tracing -/

/-- The invariant of a trace. `pending` are ids that are about to be marked. -/
structure Tracing (base : Heap) (roots pending : List ObjectId) (h : Heap) : Prop where
  same : Remarked base h
  sound : ∀ id, h.Marked id → Reach base roots id
  gray : ∀ id ∈ h.gray, h.Marked id
  rooted : ∀ id ∈ roots, base.contains id = true → h.Marked id ∨ id ∈ pending
  black : ∀ id, h.Marked id → id ∉ h.gray → ∀ child ∈ base.children id,
    base.contains child = true → h.Marked child ∨ child ∈ pending
  awaited : ∀ id ∈ pending, base.contains id = true → Reach base roots id

namespace Tracing

/-- Marking a pending id. -/
lemma mark (ht : Tracing base roots (id :: pending) h) : Tracing base roots pending (h.mark id) := by
  have hsame := ht.same.trans (remarked_mark h id)
  have hcontains := ht.same.contains id
  have hmark : ∀ other, h.Marked other ∨ other ∈ id :: pending → base.contains other = true →
      (h.mark id).Marked other ∨ other ∈ pending := by
    rintro other (hother | hother) hlive
    · exact .inl (marked_mark.mpr (.inl hother))
    · rcases List.mem_cons.mp hother with rfl | hother
      · exact .inl (marked_mark.mpr (.inr ⟨rfl, hcontains.trans hlive⟩))
      · exact .inr hother
  refine ⟨hsame, fun other hother => ?_, fun other hother => ?_, fun root hroot hlive => ?_,
    fun other hother hgray child hchild hlive => ?_, fun other hother => ?_⟩
  · rcases marked_mark.mp hother with hother | ⟨rfl, hlive⟩
    · exact ht.sound other hother
    · exact ht.awaited other (List.mem_cons_self ..) (hcontains ▸ hlive)
  · rcases mark_cases h id with ⟨heq, -⟩ | ⟨entry, hfind, -, heq⟩
    · rw [heq] at hother ⊢
      exact ht.gray other hother
    · have hmem : other = id ∨ other ∈ h.gray := by
        rw [heq] at hother
        dsimp only at hother
        split at hother
        · exact .inr hother
        · exact List.mem_cons.mp hother
      rcases hmem with rfl | hmem
      · exact marked_mark.mpr (.inr ⟨rfl, by simp [Heap.contains, hfind]⟩)
      · exact marked_mark.mpr (.inl (ht.gray other hmem))
  · exact hmark root (ht.rooted root hroot hlive) hlive
  · -- an object that is not gray was black before, or is a leaf that just got its mark
    by_cases hblack : h.Marked other
    · refine hmark child (ht.black other hblack (fun hin => hgray ?_) child hchild hlive) hlive
      rcases mark_cases h id with ⟨heq, -⟩ | ⟨entry, -, -, heq⟩
      · rwa [heq]
      · rw [heq]
        dsimp only
        split
        · exact hin
        · exact List.mem_cons_of_mem _ hin
    · rcases marked_mark.mp hother with hother | ⟨rfl, -⟩
      · exact absurd hother hblack
      · rcases mark_cases h other with ⟨heq, -⟩ | ⟨entry, hfind, -, heq⟩
        · rw [heq] at hother
          exact absurd hother hblack
        · cases hleaf : entry.object.isLeaf with
          | true =>
              rw [← ht.same.children, children_eq_nil hfind hleaf] at hchild
              cases hchild
          | false =>
              refine absurd ?_ hgray
              rw [heq]
              simp [hleaf]
  · exact ht.awaited other (List.mem_cons_of_mem _ hother)

/-- Marking all pending ids. -/
lemma markAll {ids : List ObjectId} (ht : Tracing base roots (ids ++ pending) h) :
    Tracing base roots pending (h.markAll ids) := by
  induction ids generalizing h with
  | nil => exact ht
  | cons id ids ih => exact ih ht.mark

/-- The children of a gray object become pending when it is taken off the
gray list. -/
lemma pop {gray : List ObjectId} (ht : Tracing base roots [] h) (hgray : h.gray = id :: gray) :
    Tracing base roots (base.children id) { h with gray := gray } := by
  have hmarked := ht.gray id (by simp [hgray])
  refine ⟨⟨ht.same.memory, ht.same.vacant, ht.same.slots⟩, ht.sound, fun other hother => ?_,
    fun root hroot hlive => ?_, fun other hother hnot child hchild hlive => ?_,
    fun child hchild hlive => ?_⟩
  · exact ht.gray other (by simp [hgray, hother])
  · exact .inl ((ht.rooted root hroot hlive).resolve_right (by simp))
  · by_cases hsame : other = id
    · subst hsame
      exact .inr hchild
    · have hblack : other ∉ h.gray := by
        rw [hgray, List.mem_cons]
        exact fun h => h.elim hsame hnot
      exact .inl ((ht.black other hother hblack child hchild hlive).resolve_right (by simp))
  · exact .child (ht.sound id hmarked) hchild hlive

end Tracing

/-- The number of objects without a mark. -/
def unmarkedCount (h : Heap) : Nat := h.entries.countP (!·.marked)

lemma unmarkedCount_le (h : Heap) : h.unmarkedCount ≤ h.slots.size := by
  refine Nat.le_trans List.countP_le_length ?_
  rw [entries, ← Array.length_toList]
  exact List.length_filterMap_le _ _

/-- An object that turns gray is no longer unmarked. -/
lemma mark_measure (h : Heap) (id : ObjectId) :
    (h.mark id).gray.length + (h.mark id).unmarkedCount ≤ h.gray.length + h.unmarkedCount := by
  rcases mark_cases h id with ⟨heq, -⟩ | ⟨entry, hfind, hfalse, heq⟩
  · exact Nat.le_of_eq (by rw [heq])
  · obtain ⟨pre, post, hlist, hupdate, -⟩ := exists_entries_updateEntry hfind
    have hcount : (h.mark id).unmarkedCount + 1 = h.unmarkedCount := by
      have hentries : (h.mark id).entries = pre ++ { entry with marked := true } :: post := by
        rw [heq]
        exact hupdate _
      simp only [unmarkedCount, hentries, hlist, List.countP_append, List.countP_cons, hfalse,
        Bool.not_true, Bool.not_false, if_true, Bool.false_eq_true, if_false]
      omega
    have hgray : (h.mark id).gray.length ≤ h.gray.length + 1 := by
      rw [heq]
      dsimp only
      split <;> simp
    omega

lemma markAll_measure (ids : List ObjectId) (h : Heap) :
    (h.markAll ids).gray.length + (h.markAll ids).unmarkedCount ≤
      h.gray.length + h.unmarkedCount := by
  induction ids generalizing h with
  | nil => exact Nat.le_refl _
  | cons id ids ih => exact Nat.le_trans (ih (h.mark id)) (mark_measure h id)

/-- With fuel for all gray and all unmarked objects, a trace comes to its
end. -/
lemma Tracing.traceFor {fuel : Nat} (ht : Tracing base roots [] h)
    (hfuel : h.gray.length + h.unmarkedCount ≤ fuel) :
    Tracing base roots [] (traceFor fuel h) ∧ (Heap.traceFor fuel h).gray = [] := by
  induction fuel generalizing h with
  | zero =>
      have : h.gray.length = 0 := by omega
      exact ⟨ht, List.eq_nil_of_length_eq_zero this⟩
  | succ fuel ih =>
      rw [Heap.traceFor]
      cases hgray : h.gray with
      | nil => exact ⟨ht, hgray⟩
      | cons id gray =>
          have hpop := ht.pop hgray
          have hchildren : ({ h with gray := gray } : Heap).children id = base.children id :=
            hpop.same.children id
          rw [← hchildren, ← List.append_nil (Heap.children _ id)] at hpop
          refine ih hpop.markAll (Nat.le_trans (markAll_measure _ _) ?_)
          have hcount : ({ h with gray := gray } : Heap).unmarkedCount = h.unmarkedCount := rfl
          rw [hgray, List.length_cons] at hfuel
          rw [hcount]
          dsimp only
          omega

/-- Marking the roots and tracing marks exactly what can be reached, and changes
marks only. -/
lemma trace_markAll (hmarks : ∀ id, ¬ h.Marked id) (hgray : h.gray = []) (roots : List ObjectId) :
    Remarked h (h.markAll roots).trace ∧ (h.markAll roots).trace.gray = [] ∧
      ∀ id, (h.markAll roots).trace.Marked id ↔ Reach h roots id := by
  have hstart : Tracing h roots (roots ++ []) h := by
    rw [List.append_nil]
    refine ⟨.refl h, fun id hid => absurd hid (hmarks id), by simp [hgray],
      fun _ hroot _ => .inr hroot, fun id hid => absurd hid (hmarks id), fun _ => .root⟩
  obtain ⟨htrace, hend⟩ := hstart.markAll.traceFor
    (Nat.add_le_add_left (unmarkedCount_le (h.markAll roots)) _)
  refine ⟨htrace.same, hend, fun id => ⟨htrace.sound id, fun hreach => ?_⟩⟩
  induction hreach with
  | root mem live => exact (htrace.rooted _ mem live).resolve_right (by simp)
  | child _ mem live ih =>
      refine (htrace.black _ ih ?_ _ mem live).resolve_right (by simp)
      rw [show Heap.gray _ = [] from hend]
      simp

end Heap

end ScriptMachine
