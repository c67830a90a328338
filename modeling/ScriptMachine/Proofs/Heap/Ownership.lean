import Mathlib.Data.List.FinRange
import ScriptMachine.Proofs.Heap.Collection
import ScriptMachine.Proofs.Memory.Headers

/-!
Objects and memory correspond.

The heap lists its objects in slots, the vacant slots in a list, and the blocks
of the objects in their entries; the allocator knows its live blocks by the
headers in its pages. `History.owns_memory` says that, whatever a client does,
these agree: no block is owned twice, forgotten or owned after it was given back,
and the counters count what is there.

* `Indexed.liveObjects_eq`: the slots that are not listed as vacant are occupied;
* `Tidy.swept_unmarked`: a sweep without marks leaves the pinned objects;
* `History.grayMarked`: only marked objects are gray, so nothing keeps a heap
  without marks from being swept.
-/

namespace ScriptMachine

open Memory

namespace Heap

variable {h h' : Heap} {id : ObjectId} {entry : Entry}

/-! ### Slots -/

/-- The number of a slot is a word. -/
lemma Indexed.toNat_ofNat (hi : h.Indexed) {index : Nat} (hlt : index < h.slots.size) :
    (UInt32.ofNat index).toNat = index := by
  refine UInt32.toNat_ofNat_of_lt' (Nat.lt_of_lt_of_le hlt (Nat.le_trans hi.size ?_))
  decide

/-- A slot is listed as vacant exactly if it holds no object. -/
lemma Indexed.mem_vacant_iff (hi : h.Indexed) {index : Nat} {slot : Slot}
    (hslot : h.slots[index]? = some slot) :
    UInt32.ofNat index ∈ h.vacant ↔ slot.entry = none := by
  have hlt : index < h.slots.size := (Array.getElem?_eq_some_iff.mp hslot).1
  obtain ⟨frees, entry⟩ := slot
  rw [hi.vacant, hi.toNat_ofNat hlt, hslot]
  simp

lemma Indexed.lt_of_mem_vacant (hi : h.Indexed) {i : UInt32} (hmem : i ∈ h.vacant) :
    i.toNat < h.slots.size := by
  obtain ⟨frees, hslot⟩ := (hi.vacant i).mp hmem
  exact (Array.getElem?_eq_some_iff.mp hslot).1

/-- The numbers of the slots without an object. -/
def emptySlots (h : Heap) : List Nat :=
  ((List.finRange h.slots.toList.length).filter fun i => (h.slots.toList.get i).entry.isNone).map
    Fin.val

lemma length_emptySlots (h : Heap) :
    h.emptySlots.length = h.slots.toList.countP (·.entry.isNone) := by
  have hcount := congrArg (List.countP fun slot : Slot => slot.entry.isNone)
    (List.ofFn_get h.slots.toList)
  rw [List.ofFn_eq_map, List.countP_map] at hcount
  rw [emptySlots, List.length_map, ← List.countP_eq_length_filter, ← hcount]
  rfl

/-- The vacant list names each empty slot once. -/
lemma Indexed.vacant_perm (hi : h.Indexed) : (h.vacant.map UInt32.toNat).Perm h.emptySlots := by
  have hnodup : (h.vacant.map UInt32.toNat).Nodup :=
    hi.nodup.map fun _ _ heq => UInt32.toNat_inj.mp heq
  have hnodup' : h.emptySlots.Nodup :=
    ((List.nodup_finRange _).filter _).map Fin.val_injective
  refine (List.perm_ext_iff_of_nodup hnodup hnodup').mpr fun index => ?_
  have hslot : ∀ i : Fin h.slots.toList.length,
      h.slots[i.val]? = some (h.slots.toList.get i) := fun i => by
    rw [← Array.getElem?_toList, List.getElem?_eq_getElem i.isLt]
    rfl
  simp only [emptySlots, List.mem_map, List.mem_filter, List.mem_finRange, true_and,
    Option.isNone_iff_eq_none]
  constructor
  · rintro ⟨i, hmem, rfl⟩
    have hlt : i.toNat < h.slots.toList.length := hi.lt_of_mem_vacant hmem
    refine ⟨⟨i.toNat, hlt⟩, (hi.mem_vacant_iff (hslot ⟨i.toNat, hlt⟩)).mp ?_, rfl⟩
    rwa [UInt32.ofNat_toNat]
  · rintro ⟨i, hnone, rfl⟩
    exact ⟨_, (hi.mem_vacant_iff (hslot i)).mpr hnone, hi.toNat_ofNat i.isLt⟩

/-- The number of objects is the number of slots that hold one. -/
lemma Indexed.liveObjects_eq (hi : h.Indexed) :
    h.liveObjects = h.slots.countP (·.entry.isSome) := by
  have hvacant : h.vacant.length = h.slots.toList.countP (·.entry.isNone) := by
    rw [← length_emptySlots, ← hi.vacant_perm.length_eq, List.length_map]
  have hsplit := List.length_eq_countP_add_countP (fun slot : Slot => slot.entry.isSome)
    (l := h.slots.toList)
  have hnone : (fun slot : Slot => decide ¬ slot.entry.isSome = true) =
      fun slot => slot.entry.isNone := by
    funext slot
    cases slot.entry <;> rfl
  rw [hnone, ← hvacant, Array.length_toList, Array.countP_toList] at hsplit
  rw [liveObjects, hsplit, Nat.add_sub_cancel]

/-- Every object in a slot has an id. -/
lemma Indexed.exists_find? (hi : h.Indexed) (hmem : entry ∈ h.entries) :
    ∃ id, h.find? id = some entry := by
  obtain ⟨⟨frees, entry'⟩, hslot, rfl⟩ := List.mem_filterMap.mp hmem
  obtain ⟨index, hindex⟩ := List.mem_iff_getElem?.mp hslot
  rw [Array.getElem?_toList] at hindex
  have hlt : index < h.slots.size := (Array.getElem?_eq_some_iff.mp hindex).1
  refine ⟨⟨UInt32.ofNat index, UInt32.ofNat frees⟩, find?_eq_some_iff.mpr ⟨frees, rfl, ?_⟩⟩
  dsimp only
  rw [hi.toNat_ofNat hlt, hindex]

/-! ### Gray objects -/

/-- Marks stay, and the gray list does. -/
structure Unfaded (h h' : Heap) : Prop where
  gray : h'.gray = h.gray
  marked : ∀ id, h.Marked id → h'.Marked id

/-- A change of one object that leaves its mark. -/
lemma OnlyAt.unfaded (ho : OnlyAt id h h')
    (hself : ∀ entry, h.find? id = some entry →
      ∃ entry', h'.find? id = some entry' ∧ entry'.marked = entry.marked) : Unfaded h h' := by
  refine ⟨ho.gray, fun other => ?_⟩
  rintro ⟨entry, hfind, hmarked⟩
  by_cases hsame : other = id
  · subst hsame
    obtain ⟨entry', hfind', heq⟩ := hself entry hfind
    exact ⟨entry', hfind', heq ▸ hmarked⟩
  · exact ⟨entry, (ho.others other hsame).trans hfind, hmarked⟩

lemma Altered.unfaded {k : Kind} {ref : Ref k} (ha : Altered ref h h') : Unfaded h h' := by
  obtain ⟨entry, old, block, new, hfind, -, hfind'⟩ := ha.found
  refine ha.only.unfaded fun entry' hentry => ⟨_, hfind', ?_⟩
  obtain rfl := Option.some.inj (hfind.symm.trans hentry)
  rfl

lemma OnlyAt.unfaded_of_fresh (ho : OnlyAt id h h') (hfresh : h.find? id = none) :
    Unfaded h h' :=
  ho.unfaded fun _ hfind => nomatch hfresh.symm.trans hfind

lemma Resized.unfaded (hr : Resized h h' id) : Unfaded h h' :=
  hr.only.unfaded fun entry hfind =>
    have ⟨_, _, _, hfind', _⟩ := hr.found entry hfind
    ⟨_, hfind', rfl⟩

/-- Gray objects are marked. -/
def GrayMarked (h : Heap) : Prop := ∀ id ∈ h.gray, h.Marked id

lemma Unfaded.grayMarked (hu : Unfaded h h') (hg : h.GrayMarked) : h'.GrayMarked :=
  fun id hmem => hu.marked id (hg id (hu.gray ▸ hmem))

/-- What turns gray gets its mark. -/
lemma GrayMarked.mark (hg : h.GrayMarked) (id : ObjectId) : (h.mark id).GrayMarked := by
  intro other hother
  refine marked_mark.mpr ?_
  rcases mark_cases h id with ⟨heq, -⟩ | ⟨entry, hfind, -, heq⟩
  · rw [heq] at hother
    exact .inl (hg other hother)
  · have hmem : other = id ∨ other ∈ h.gray := by
      rw [heq] at hother
      dsimp only at hother
      split at hother
      · exact .inr hother
      · exact List.mem_cons.mp hother
    exact hmem.symm.imp (hg other) fun hsame => ⟨hsame, by simp [contains, hfind]⟩

lemma GrayMarked.markAll (hg : h.GrayMarked) (ids : List ObjectId) :
    (h.markAll ids).GrayMarked := by
  induction ids generalizing h with
  | nil => exact hg
  | cons id ids ih => exact ih (hg.mark id)

lemma GrayMarked.traceFor (hg : h.GrayMarked) (fuel : Nat) : (h.traceFor fuel).GrayMarked := by
  induction fuel generalizing h with
  | zero => exact hg
  | succ fuel ih =>
      rw [Heap.traceFor]
      cases hgray : h.gray with
      | nil => exact hg
      | cons id gray =>
          have hpop : ({ h with gray := gray } : Heap).GrayMarked := fun other hother =>
            hg other (hgray ▸ List.mem_cons_of_mem _ hother)
          exact ih (hpop.markAll _)

/-- A sweep of all slots, of a heap in which nothing is gray. -/
lemma Tidy.sweep_of_gray (ht : h.Tidy) (hgray : h.gray = []) (journal : Journal) :
    ∃ h' freed journal', Heap.sweep h journal =
        .done ⟨freed.length, h.totalSize freed⟩ h' journal' ∧
      Swept 0 h.slots.size freed h h' := by
  obtain ⟨h', freed, journal', hrun, hw⟩ := ht.sweepFrom h.slots.size 0 ⟨0, 0⟩ journal
  rw [Nat.zero_add] at hw
  refine ⟨h', freed, journal', ?_, hw⟩
  unfold Heap.sweep
  rw [Action.get_bind]
  simp only [hgray, List.isEmpty_nil, Bool.not_true, Bool.false_eq_true, if_false, hrun,
    Nat.zero_add]

/-- No operation leaves an object gray that is not marked. -/
lemma Public.leaves_grayMarked {α : Type} {action : Action Heap α} (hp : Public action)
    (hs : h.Sound) (hg : h.GrayMarked) (journal : Journal) :
    Outcome.Ends (fun _ h' => h'.GrayMarked) (fun _ h' => h'.GrayMarked) (fun _ => True)
      (action h journal) := by
  -- requests that are served or change nothing, and those that alter one object, differ only in
  -- what they say of the rest
  have hserved : ∀ {β : Type} {granted full : Prop} {refusal : Option Failure}
      {served : β → Heap → Prop} {outcome : Outcome Heap β},
      outcome.Served granted full refusal h served →
      (∀ value h', served value h' → Unfaded h h') →
      Outcome.Ends (fun _ h' => h'.GrayMarked) (fun _ h' => h'.GrayMarked) (fun _ => True)
        outcome := fun hserved hdone =>
    hserved.leaves hg fun value h' hh => (hdone value h' hh).grayMarked hg
  have halters : ∀ {β : Type} {k : Kind} {ref : Ref k} {outcome : Outcome Heap β},
      Alters ref h outcome →
      Outcome.Ends (fun _ h' => h'.GrayMarked) (fun _ h' => h'.GrayMarked) (fun _ => True)
        outcome := fun ha =>
    Outcome.Ends.imp ha (fun _ _ hh => hh.unfaded.grayMarked hg)
      (fun _ _ hh => hh.unfaded.grayMarked hg) fun _ => id
  cases hp with
  | insert object pinned valid =>
      exact hserved (hs.toTidy.insert object pinned journal) fun _ _ hi =>
        hi.only.unfaded_of_fresh hi.fresh
  | insertText text pinned =>
      exact hserved (hs.insertText text pinned journal) fun _ _ ha =>
        ha.only.unfaded_of_fresh ha.fresh
  | onContent ref action plain => exact halters (hs.alters_onContent ref action plain)
  | setChar ref index byte => exact halters (hs.alters_setChar ref index byte)
  | arraySet ref index scalar => exact halters (hs.alters_arraySet ref index scalar)
  | arrayPush ref scalar => exact halters (hs.alters_arrayPush ref scalar)
  | arrayPop ref => exact halters (hs.alters_arrayPop ref)
  | copyArray ref =>
      cases hget : h.get? ref with
      | none =>
          unfold Heap.copyArray
          rw [Action.get_bind, read_of_none hget]
          exact trivial
      | some a =>
          obtain ⟨entry, hfind, hobject⟩ := get?_eq_some_iff.mp hget
          refine hserved (hs.copyArray hfind hobject journal) ?_
          rintro copy h' ⟨contents, ha, -⟩
          exact ha.only.unfaded_of_fresh ha.fresh
  | resize id => exact hserved (hs.toTidy.resize id journal) fun _ _ hr => hr.unfaded
  | mark id => exact hg.mark id
  | trace => exact hg.traceFor _
  -- a sweep with gray objects is a fault, and otherwise leaves none gray
  | sweep =>
      cases hgray : h.gray with
      | nil =>
          obtain ⟨h', freed, journal', hrun, hw⟩ := hs.toTidy.sweep_of_gray hgray journal
          rw [hrun]
          intro id hmem
          rw [hw.gray, hgray] at hmem
          cases hmem
      | cons id gray =>
          unfold Heap.sweep
          rw [Action.get_bind]
          simp [hgray, Outcome.Ends]
  | grant grants => exact hg

lemma History.grayMarked (hh : h.History) : h.GrayMarked := by
  induction hh with
  | create created =>
      obtain ⟨memory, -, rfl⟩ := eq_of_create created
      exact fun _ hmem => nomatch hmem
  | done before operation journal run ih =>
      exact (operation.leaves_grayMarked before.sound ih journal).of_done run
  | raised before operation journal run ih =>
      exact (operation.leaves_grayMarked before.sound ih journal).of_raised run

/-! ### Sweeping without marks -/

/-- The blocks of the pinned objects. -/
def pinnedBlocks (h : Heap) : List Block := (h.entries.filter Entry.pinned).map Entry.block

/-- A sweep of a heap without marks leaves the pinned objects. -/
lemma Tidy.swept_unmarked {freed : List ObjectId} (ht : h.Tidy)
    (hmarks : ∀ entry ∈ h.entries, entry.marked = false)
    (hw : Swept 0 h.slots.size freed h h') : h'.blocks.Perm h.pinnedBlocks := by
  have hfind : ∀ id, h'.find? id = (h.find? id).bind Entry.survivor := fun id => by
    rw [hw.find?]
    split
    · rfl
    · have hnone : h.slots[id.index.toNat]? = none := Array.getElem?_eq_none (by omega)
      simp [Heap.find?, hnone]
  have hsurvivor : ∀ entry ∈ h.entries,
      entry.survivor = if entry.pinned then some entry.unmarked else none := fun entry hmem => by
    rw [Entry.survivor, hmarks entry hmem, Bool.false_or]
  have hnodup : h.pinnedBlocks.Nodup :=
    ht.memory.nodup.sublist (List.filter_sublist.map Entry.block)
  -- tiles are apart, so neither list has a block twice and members suffice
  refine (List.perm_ext_iff_of_nodup hw.tidy.memory.nodup hnodup).mpr fun block => ?_
  constructor
  · intro hmem
    obtain ⟨entry, hentry, rfl⟩ := List.mem_map.mp hmem
    obtain ⟨id, hid⟩ := hw.tidy.toIndexed.exists_find? hentry
    rw [hfind] at hid
    obtain ⟨old, hold, hleft⟩ := Option.bind_eq_some_iff.mp hid
    rw [hsurvivor old (mem_entries hold)] at hleft
    obtain ⟨hpinned, heq⟩ := Option.ite_none_right_eq_some.mp hleft
    obtain rfl := Option.some.inj heq
    exact List.mem_map.mpr ⟨old, List.mem_filter.mpr ⟨mem_entries hold, hpinned⟩, rfl⟩
  · intro hmem
    obtain ⟨entry, hentry, rfl⟩ := List.mem_map.mp hmem
    obtain ⟨hentry, hpinned⟩ := List.mem_filter.mp hentry
    obtain ⟨id, hid⟩ := ht.toIndexed.exists_find? hentry
    have hleft : h'.find? id = some entry.unmarked := by
      rw [hfind, hid, Option.bind_some, hsurvivor entry hentry, if_pos hpinned]
    exact List.mem_map.mpr ⟨entry.unmarked, mem_entries hleft, rfl⟩

lemma History.gray_eq_nil (hh : h.History) (hmarks : ∀ entry ∈ h.entries, entry.marked = false) :
    h.gray = [] := by
  refine List.eq_nil_iff_forall_not_mem.mpr fun id hmem => ?_
  obtain ⟨entry, hfind, hmarked⟩ := hh.grayMarked id hmem
  rw [hmarks entry (mem_entries hfind)] at hmarked
  cases hmarked

/-! ### Correspondence -/

/-- Whatever a client does to a heap, its objects and its memory correspond. The
blocks of the objects are all different, and they are the blocks that the
headers in the pages call live; the bytes allocated are those of the blocks;
the vacant slots are listed once each, and are those without an object; the
number of objects is the number of the other slots. A request for a new object or
for more memory that is refused changes nothing at all. So a sweep without marks
can be done, and leaves just the bytes of the pinned objects allocated. -/
theorem History.owns_memory (hh : h.History) :
    h.blocks.Nodup ∧ h.memory.liveBlocks.Perm h.blocks ∧
      h.bytesAllocated = Allocator.payload h.blocks ∧
      (h.vacant.Nodup ∧ (∀ i ∈ h.vacant, i.toNat < h.slots.size) ∧
        ∀ index slot, h.slots[index]? = some slot →
          (UInt32.ofNat index ∈ h.vacant ↔ slot.entry = none)) ∧
      h.liveObjects = h.slots.countP (·.entry.isSome) ∧
      (∀ object pinned journal error h' journal',
        Heap.insert object pinned h journal = .raised error h' journal' → h' = h) ∧
      (∀ id journal error h' journal',
        Heap.resize id h journal = .raised error h' journal' → h' = h) ∧
      ((∀ entry ∈ h.entries, entry.marked = false) → ∀ journal, ∃ sweep h' journal',
        Heap.sweep h journal = .done sweep h' journal' ∧ h'.blocks.Perm h.pinnedBlocks ∧
          h'.bytesAllocated = Allocator.payload h.pinnedBlocks) := by
  have ht := hh.sound.toTidy
  refine ⟨ht.memory.nodup, ht.memory.liveBlocks_perm, ht.memory.allocated,
    ⟨ht.nodup, fun i => ht.lt_of_mem_vacant, fun index slot => ht.mem_vacant_iff⟩,
    ht.liveObjects_eq, fun object pinned journal error h' journal' hrun => ?_,
    fun id journal error h' journal' hrun => ?_, fun hmarks journal => ?_⟩
  · exact ((ht.insert object pinned journal).of_raised hrun).1
  · exact ((ht.resize id journal).of_raised hrun).1
  · obtain ⟨h', freed, journal', hrun, hw⟩ :=
      ht.sweep_of_gray (hh.gray_eq_nil hmarks) journal
    have hperm := ht.swept_unmarked hmarks hw
    refine ⟨_, h', journal', hrun, hperm, ?_⟩
    exact hw.tidy.memory.allocated.trans (Allocator.payload_perm hperm)

lemma forall_unmarked_of_all (hall : (h.entries.all fun entry => !entry.marked) = true) :
    ∀ entry ∈ h.entries, entry.marked = false := by
  simpa using hall

/-- A pinned string, an array that holds it, and a function: three blocks are live,
and a sweep without marks leaves the bytes of the string. When no more pages are to be had,
a string that needs one is refused, and the heap is as it was. -/
theorem History.owns_memory_swept :
    ∃ h : Heap, h.History ∧ h.liveObjects = 3 ∧ h.memory.liveBlocks.Perm h.blocks ∧
      (∀ entry ∈ h.entries, entry.marked = false) ∧
      (∃ sweep h' journal', Heap.sweep h .silent = .done sweep h' journal' ∧
        h'.bytesAllocated = 144) ∧
      ∃ error journal', Heap.insert (.string ⟨0, 800, 0, true⟩) false h .silent =
        .raised error h journal' := by
  have created : History _ := .create (rfl : Heap.create 1024 (fun _ => true) = .ok _)
  have text : History _ :=
    created.done (.insert (.string ⟨0, 8, 0, true⟩) true (Nat.zero_le _)) .silent rfl
  have array : History _ :=
    text.done (.insert (.array ⟨.strings, 0, 1⟩) false (Nat.zero_le _)) .silent rfl
  have pushed : History _ := array.done (.arrayPush ⟨⟨1, 0⟩⟩ (.str ⟨⟨0, 0⟩⟩)) .silent rfl
  have native : History _ :=
    pushed.done (.insert (.native ⟨"sqrt", 1, .builtin .squareRoot⟩) false trivial) .silent rfl
  have denied : History _ := native.done (.grant fun _ => false) .silent rfl
  obtain ⟨-, hblocks, -, -, -, hinsert, -, hsweep⟩ := denied.owns_memory
  obtain ⟨sweep, h', journal', hrun, -, hbytes⟩ := hsweep (forall_unmarked_of_all rfl) .silent
  have hsame := hinsert (.string ⟨0, 800, 0, true⟩) false .silent _ _ _ rfl
  exact ⟨_, denied, rfl, hblocks, forall_unmarked_of_all rfl,
    ⟨sweep, h', journal', hrun, hbytes.trans rfl⟩, _, _, congrArg (Outcome.raised _ · _) hsame⟩

end Heap

end ScriptMachine
