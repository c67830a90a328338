import Mathlib.Data.List.Basic
import ScriptMachine.Proofs.Heap.Mark

/-!
Sweeping.

A sweep visits the slots in order. In each it frees the object unless that is
marked or pinned, and takes the mark off otherwise (`Tidy.sweepSlot`); what it
does to a range of slots is `Swept`, and `Tidy.sweepFrom` puts the slots of a
range together. Ids outside the range and the memory of all objects that stay
are not touched.
-/

namespace ScriptMachine

open Memory

/-- What a sweep leaves of an object. -/
def Entry.survivor (entry : Entry) : Option Entry :=
  if entry.marked || entry.pinned then some entry.unmarked else none

namespace Heap

variable {h h' h'' : Heap} {id : ObjectId} {entry : Entry} {index start stop : Nat}

/-- The memory of some objects, in bytes. -/
def totalSize (h : Heap) (ids : List ObjectId) : Nat :=
  Allocator.payload (ids.filterMap h.block?)

/-- What sweeping the slots from `start` up to `stop` does; `freed` are the
objects that it frees. -/
structure Swept (start stop : Nat) (freed : List ObjectId) (h h' : Heap) : Prop where
  tidy : h'.Tidy
  find? : ∀ id, h'.find? id =
    if start ≤ id.index.toNat ∧ id.index.toNat < stop then (h.find? id).bind Entry.survivor
    else h.find? id
  cells : ∀ id entry, h'.find? id = some entry → ∀ i < entry.block.size,
    h'.cell id i = h.cell id i
  nodup : freed.Nodup
  aged : Aged freed h h'
  freed : ∀ id, id ∈ freed ↔ h.contains id = true ∧ h'.contains id = false
  gray : h'.gray = h.gray
  size : h'.slots.size = h.slots.size
  grants : h'.memory.grants = h.memory.grants

/-! ### One slot -/

lemma remarked_unmark (h : Heap) (index : Nat) : Remarked h (h.unmark index) := by
  refine ⟨rfl, rfl, Array.ext_getElem? fun i => ?_⟩
  unfold unmark
  simp only [Array.getElem?_map, Array.getElem?_modify]
  split
  · cases h.slots[i]? with
    | none => rfl
    | some slot => cases hentry : slot.entry <;> simp [Slot.unmarked, Entry.unmarked, hentry]
  · rfl

lemma find?_unmark : (h.unmark index).find? id =
    if id.index.toNat = index then (h.find? id).map Entry.unmarked else h.find? id := by
  unfold find? unmark
  simp only [Array.getElem?_modify]
  by_cases hi : index = id.index.toNat
  · rw [if_pos hi, if_pos hi.symm]
    cases h.slots[id.index.toNat]? with
    | none => rfl
    | some slot =>
        by_cases hg : slot.generation = id.generation
        · simp only [Option.map_some, generation_mk_frees, hg, if_true]
          rfl
        · simp [hg]
  · rw [if_neg hi, if_neg (Ne.symm hi)]

/-- Ids of one slot that name an object name the object in it. -/
lemma find?_of_slot {frees : Nat} {entry' : Option Entry}
    (hslot : h.slots[index]? = some ⟨frees, entry'⟩) (hindex : id.index.toNat = index) :
    h.find? id = if UInt32.ofNat frees = id.generation then entry' else none := by
  unfold find?
  rw [hindex, hslot]
  rfl

/-- A slot in which there is nothing to free. -/
lemma Tidy.swept_keep (ht : h.Tidy) (hr : Remarked h h') (hgray : h'.gray = h.gray)
    (hfind : ∀ id, h'.find? id =
      if id.index.toNat = index then (h.find? id).bind Entry.survivor else h.find? id) :
    Swept index (index + 1) [] h h' := by
  have hcontains := hr.contains
  refine ⟨hr.tidy ht, fun id => ?_, fun id entry' hentry i _ => ?_, .nil, hr.aged, fun id => ?_,
    hgray, hr.size, by rw [hr.memory]⟩
  · rw [hfind]
    by_cases hi : id.index.toNat = index
    · rw [if_pos hi, if_pos (by omega)]
    · rw [if_neg hi, if_neg (by omega)]
  · obtain ⟨entry, hold, hsame⟩ := hr.symm.exists_find? hentry
    have hblock : entry.block = entry'.block := (congrArg Entry.block hsame :)
    rw [cell_eq hentry, cell_eq hold, hblock, hr.memory]
  · simp [hcontains id]

/-- An object that is neither marked nor pinned is freed. -/
lemma Tidy.swept_free (ht : h.Tidy) {frees : Nat} {memory : Allocator}
    (hslot : h.slots[index]? = some ⟨frees, some entry⟩) (hdoomed : entry.survivor = none)
    (htiled : memory.Tiled (h.blocks.erase entry.block))
    (hkeeps : Allocator.Keeps h.memory memory (h.blocks.erase entry.block)) :
    Swept index (index + 1) [⟨UInt32.ofNat index, UInt32.ofNat frees⟩] h
      (({ h with memory := memory } : Heap).vacate index) := by
  have hlt : index < h.slots.size := (Array.getElem?_eq_some_iff.mp hslot).1
  have hword : (UInt32.ofNat index).toNat = index := by
    refine UInt32.toNat_ofNat_of_lt' (Nat.lt_of_lt_of_le hlt (Nat.le_trans ht.size ?_))
    decide
  have hindexed : ({ h with memory := memory } : Heap).Indexed := ⟨ht.size, ht.vacant, ht.nodup⟩
  obtain ⟨hi, hfind, hperm⟩ := hindexed.vacate hslot
  have haged : Aged [⟨UInt32.ofNat index, UInt32.ofNat frees⟩] h
      (({ h with memory := memory } : Heap).vacate index) := by
    have hsame : Aged [] h ({ h with memory := memory } : Heap) := aged_of_slots rfl
    exact hsame.trans (aged_vacate hword hslot)
  generalize hh : ({ h with memory := memory } : Heap).vacate index = h' at *
  have hmemory : h'.memory = memory := by rw [← hh]; rfl
  -- the live blocks lose exactly the block that was given back
  have hblocks : h'.blocks.Perm (h.blocks.erase entry.block) := by
    have hperm' : h.blocks.Perm (entry.block :: h'.blocks) := hperm.map Entry.block
    have hmem : entry.block ∈ h.blocks := hperm'.mem_iff.mpr (List.mem_cons_self ..)
    exact (hperm'.symm.trans (List.perm_cons_erase hmem)).cons_inv
  have hfind' : ∀ id, h'.find? id = if id.index.toNat = index then none else h.find? id := hfind
  refine ⟨⟨hi, ?_⟩, fun id => ?_, fun id entry' hentry i hlt => ?_, by simp, haged, fun id => ?_,
    ?_, ?_, ?_⟩
  · rw [hmemory]
    exact htiled.perm hblocks.symm
  · rw [hfind']
    by_cases hindex : id.index.toNat = index
    · rw [if_pos hindex, if_pos (by omega), find?_of_slot hslot hindex]
      split
      · exact hdoomed.symm
      · rfl
    · rw [if_neg hindex, if_neg (by omega)]
  · have hold : h.find? id = some entry' := by
      rw [hfind'] at hentry
      split at hentry
      · cases hentry
      · exact hentry
    rw [cell_eq hentry, cell_eq hold, hmemory]
    refine hkeeps.bytes entry'.block ?_ _ (Nat.le_add_right _ _) (Nat.add_lt_add_left hlt _)
    exact hblocks.mem_iff.mp (List.mem_map_of_mem (mem_entries hentry))
  · unfold contains
    rw [hfind', List.mem_singleton]
    by_cases hindex : id.index.toNat = index
    · have hsame : id.index = UInt32.ofNat index := UInt32.toNat_inj.mp (hindex.trans hword.symm)
      rw [if_pos hindex, find?_of_slot hslot hindex]
      -- of the ids that share the slot, only the one of its generation was in use
      obtain ⟨i, g⟩ := id
      dsimp only at hsame ⊢
      subst hsame
      by_cases hg : UInt32.ofNat frees = g
      · simp [hg]
      · simp [hg, Ne.symm hg]
    · rw [if_neg hindex]
      have hne : id ≠ ⟨UInt32.ofNat index, UInt32.ofNat frees⟩ := by
        rintro rfl
        exact hindex hword
      cases h.find? id <;> simp [hne]
  · rw [← hh]
    rfl
  · rw [← hh]
    exact Array.size_modify
  · rw [hmemory]
    exact hkeeps.grants

/-- Sweeping a slot. -/
lemma Tidy.sweepSlot (ht : h.Tidy) (index : Nat) (sweep : Sweep) (journal : Journal) :
    ∃ h' freed journal', Heap.sweepSlot index sweep h journal =
        .done ⟨sweep.objects + freed.length, sweep.bytes + h.totalSize freed⟩ h' journal' ∧
      Swept index (index + 1) freed h h' := by
  unfold Heap.sweepSlot
  simp only [Action.get_bind]
  -- a slot that is not there or empty
  have hempty : (∀ id, id.index.toNat = index → h.find? id = none) →
      Swept index (index + 1) [] h h := by
    intro hnone
    refine ht.swept_keep (.refl h) rfl fun id => ?_
    split
    · rename_i hindex
      rw [hnone id hindex]
      rfl
    · rfl
  rcases hslot : h.slots[index]? with _ | ⟨frees, _ | entry⟩
  · refine ⟨h, [], journal, rfl, hempty fun id hindex => ?_⟩
    simp [find?, hindex, hslot]
  · refine ⟨h, [], journal, rfl, hempty fun id hindex => ?_⟩
    rw [find?_of_slot hslot hindex]
    split <;> rfl
  · by_cases hkept : (entry.marked || entry.pinned) = true
    · refine ⟨h.unmark index, [], journal, by simp [hkept]; rfl, ?_⟩
      refine ht.swept_keep (remarked_unmark h index) rfl fun id => ?_
      rw [find?_unmark]
      split
      · rename_i hindex
        rw [find?_of_slot hslot hindex]
        split
        · exact (if_pos hkept).symm
        · rfl
      · rfl
    · have hdoomed : entry.survivor = none := if_neg hkept
      have hlt : index < h.slots.size := (Array.getElem?_eq_some_iff.mp hslot).1
      have hword : (UInt32.ofNat index).toNat = index := by
        refine UInt32.toNat_ofNat_of_lt' (Nat.lt_of_lt_of_le hlt (Nat.le_trans ht.size ?_))
        decide
      have hfind : h.find? ⟨UInt32.ofNat index, UInt32.ofNat frees⟩ = some entry :=
        (find?_of_slot hslot hword).trans (if_pos rfl)
      obtain ⟨memory, journal', hfree, htiled, hkeeps⟩ :=
        ht.memory.free (List.mem_map_of_mem (mem_entries hfind))
          (journal.note (.objectFreed entry.object.typeName entry.block.size))
      refine ⟨_, _, journal', ?_, ht.swept_free hslot hdoomed htiled hkeeps⟩
      have hrun : onMemory (Allocator.free entry.block) h
          (journal.note (.objectFreed entry.object.typeName entry.block.size)) =
            .done () { h with memory := memory } journal' := by
        unfold onMemory Action.on
        dsimp only
        rw [hfree]
      have hsize : h.totalSize [⟨UInt32.ofNat index, UInt32.ofNat frees⟩] = entry.block.size := by
        simp [totalSize, block?, hfind, Allocator.payload]
      dsimp only
      rw [hsize, if_neg hkept, Action.note_bind, Action.bind_of_done hrun]
      rfl

/-! ### All slots -/

lemma Swept.exists_find? {freed : List ObjectId} (hw : Swept start stop freed h h')
    (hfind : h'.find? id = some entry) :
    ∃ old, h.find? id = some old ∧ old.unmarked = entry.unmarked := by
  rw [hw.find?] at hfind
  split at hfind
  · obtain ⟨old, hold, hsurvivor⟩ := Option.bind_eq_some_iff.mp hfind
    unfold Entry.survivor at hsurvivor
    split at hsurvivor
    · cases hsurvivor
      exact ⟨old, hold, rfl⟩
    · cases hsurvivor
  · exact ⟨entry, hfind, rfl⟩

lemma Swept.contains_of {freed : List ObjectId} (hw : Swept start stop freed h h')
    (hlive : h'.contains id = true) : h.contains id = true := by
  obtain ⟨entry, hfind⟩ := Option.isSome_iff_exists.mp hlive
  obtain ⟨old, hold, -⟩ := hw.exists_find? hfind
  simp [contains, hold]

/-- The objects that stay have their old blocks. -/
lemma Swept.block? {freed : List ObjectId} (hw : Swept start stop freed h h')
    (hlive : h'.contains id = true) : h'.block? id = h.block? id := by
  obtain ⟨entry, hfind⟩ := Option.isSome_iff_exists.mp hlive
  obtain ⟨old, hold, hsame⟩ := hw.exists_find? hfind
  have hblock : old.block = entry.block := (congrArg Entry.block hsame :)
  simp [Heap.block?, hfind, hold, hblock]

lemma payload_append (l l' : List Block) :
    Allocator.payload (l ++ l') = Allocator.payload l + Allocator.payload l' := by
  induction l with
  | nil => simp [Allocator.payload]
  | cons block l ih =>
      rw [List.cons_append, Allocator.payload, Allocator.payload, ih]
      omega

/-- Two ranges that follow each other. -/
lemma Swept.append {mid : Nat} {freed freed' : List ObjectId} (hw : Swept start mid freed h h')
    (hw' : Swept mid stop freed' h' h'') (hle : start ≤ mid ∧ mid ≤ stop) :
    Swept start stop (freed ++ freed') h h'' ∧
      h.totalSize (freed ++ freed') = h.totalSize freed + h'.totalSize freed' := by
  refine ⟨⟨hw'.tidy, fun id => ?_, fun id entry hfind i hlt => ?_, ?_, hw.aged.trans hw'.aged,
    fun id => ?_, hw'.gray.trans hw.gray, hw'.size.trans hw.size, hw'.grants.trans hw.grants⟩, ?_⟩
  -- an id lies in the first range, in the second or outside both
  · rw [hw'.find?, hw.find?]
    by_cases hfirst : id.index.toNat < mid
    · rw [if_neg (by omega)]
      by_cases hstart : start ≤ id.index.toNat
      · rw [if_pos (by omega), if_pos (by omega)]
      · rw [if_neg (by omega), if_neg (by omega)]
    · rw [if_neg (by omega : ¬ (start ≤ id.index.toNat ∧ id.index.toNat < mid))]
      by_cases hstop : id.index.toNat < stop
      · rw [if_pos (by omega), if_pos (by omega)]
      · rw [if_neg (by omega), if_neg (by omega)]
  · obtain ⟨old, hold, hsame⟩ := hw'.exists_find? hfind
    have hblock : old.block = entry.block := (congrArg Entry.block hsame :)
    rw [hw'.cells id entry hfind i hlt, hw.cells id old hold i (by rwa [hblock])]
  · refine List.nodup_append.mpr ⟨hw.nodup, hw'.nodup, fun a ha b hb heq => ?_⟩
    subst heq
    have := ((hw.freed a).mp ha).2
    have := ((hw'.freed a).mp hb).1
    simp_all
  · rw [List.mem_append, hw.freed, hw'.freed]
    constructor
    · rintro (⟨hlive, hdead⟩ | ⟨hlive, hdead⟩)
      · refine ⟨hlive, Bool.not_eq_true _ ▸ fun h => ?_⟩
        rw [hw'.contains_of h] at hdead
        cases hdead
      · exact ⟨hw.contains_of hlive, hdead⟩
    · rintro ⟨hlive, hdead⟩
      -- what is gone at the end went in the second range if it was there in between
      cases hmid : h'.contains id with
      | true => exact .inr ⟨rfl, hdead⟩
      | false => exact .inl ⟨hlive, rfl⟩
  · unfold totalSize
    rw [List.filterMap_append, payload_append]
    congr 2
    refine List.filterMap_congr fun id hid => ?_
    exact (hw.block? ((hw'.freed id).mp hid).1).symm

/-- Sweeping a range of slots. -/
lemma Tidy.sweepFrom (ht : h.Tidy) (count index : Nat) (sweep : Sweep) (journal : Journal) :
    ∃ h' freed journal', Heap.sweepFrom count index sweep h journal =
        .done ⟨sweep.objects + freed.length, sweep.bytes + h.totalSize freed⟩ h' journal' ∧
      Swept index (index + count) freed h h' := by
  induction count generalizing h index sweep journal with
  | zero =>
      refine ⟨h, [], journal, rfl, ht, fun id => ?_, fun _ _ _ _ _ => rfl, .nil,
        aged_of_slots rfl, by simp, rfl, rfl, rfl⟩
      rw [if_neg (by omega)]
  | succ count ih =>
      obtain ⟨h₁, freed₁, journal₁, hrun₁, hw₁⟩ := ht.sweepSlot index sweep journal
      obtain ⟨h₂, freed₂, journal₂, hrun₂, hw₂⟩ := ih hw₁.tidy (index + 1)
        ⟨sweep.objects + freed₁.length, sweep.bytes + h.totalSize freed₁⟩ journal₁
      obtain ⟨hw, htotal⟩ := hw₁.append hw₂ (by omega)
      refine ⟨h₂, freed₁ ++ freed₂, journal₂, ?_, ?_⟩
      · rw [Heap.sweepFrom, Action.bind_of_done hrun₁, hrun₂, htotal, List.length_append,
          Nat.add_assoc, Nat.add_assoc]
      · rwa [Nat.add_right_comm] at hw

end Heap

end ScriptMachine
