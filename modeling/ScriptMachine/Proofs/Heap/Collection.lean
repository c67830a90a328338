import ScriptMachine.Proofs.Heap.History

/-!
A collection is exact.

* `Sound.collect`: what a collection of a heap without marks does to every id and
  every cell;
* `Collected.intact`, `Collected.reach`: what is left is as it was, and refers to
  the same objects;
* `History.collect_exact`: a collection keeps exactly what is pinned or reachable,
  counts what it frees, and has nothing more to free when it is repeated.
-/

namespace ScriptMachine

open Memory

namespace Heap

variable {h h' : Heap} {id : ObjectId} {entry : Entry} {roots freed : List ObjectId}

/-- No collection is under way. -/
structure Idle (h : Heap) : Prop where
  unmarked : ∀ id entry, h.find? id = some entry → entry.marked = false
  gray : h.gray = []

lemma idle_of_create {pageSize : Nat} {grants : Nat → Bool}
    (hcreate : Heap.create pageSize grants = .ok h) : h.Idle := by
  obtain ⟨memory, -, rfl⟩ := eq_of_create hcreate
  exact ⟨fun id entry hfind => (nomatch hfind), rfl⟩

/-- What a collection keeps. -/
def Kept (h : Heap) (roots : List ObjectId) (id : ObjectId) : Prop :=
  (∃ entry, h.find? id = some entry ∧ entry.pinned = true) ∨ Reach h roots id

/-- What a collection does; `freed` are the objects that it frees. -/
structure Collected (roots freed : List ObjectId) (h h' : Heap) : Prop where
  sound : h'.Sound
  idle : h'.Idle
  kept : ∀ id, Kept h roots id → h'.find? id = h.find? id
  dropped : ∀ id, ¬ Kept h roots id → h'.find? id = none
  cells : ∀ id entry, h'.find? id = some entry → ∀ i < entry.block.size,
    h'.cell id i = h.cell id i
  nodup : freed.Nodup
  aged : Aged freed h h'
  freed : ∀ id, id ∈ freed ↔ h.contains id = true ∧ h'.contains id = false
  grants : h'.memory.grants = h.memory.grants

lemma Reach.live (hr : Reach h roots id) : h.contains id = true := by
  cases hr with
  | root _ live => exact live
  | child _ _ live => exact live

/-- What is reachable lies in every set that holds the roots and, with an
object, its children. -/
lemma Reach.mem_of_closed {ids : List ObjectId} (hr : Reach h roots id)
    (hroots : ∀ id ∈ roots, id ∈ ids) (hclosed : ∀ id ∈ ids, ∀ child ∈ h.children id, child ∈ ids) :
    id ∈ ids := by
  induction hr with
  | root mem _ => exact hroots _ mem
  | child _ mem _ ih => exact hclosed _ ih _ mem

lemma Kept.live (hk : Kept h roots id) : h.contains id = true := by
  rcases hk with ⟨entry, hfind, -⟩ | hr
  · rw [contains, hfind]
    rfl
  · exact hr.live

/-- After a trace an object is swept exactly if it is not kept. -/
lemma survivor_find? {marked : Heap} (hi : h.Idle) (hsame : Remarked h marked)
    (hmarked : ∀ id, marked.Marked id ↔ Reach h roots id) (id : ObjectId) :
    (Kept h roots id → (marked.find? id).bind Entry.survivor = h.find? id) ∧
      (¬ Kept h roots id → (marked.find? id).bind Entry.survivor = none) := by
  have hfind := hsame.find? id
  cases hold : h.find? id with
  | none =>
      rw [hold] at hfind
      rw [Option.map_eq_none_iff.mp hfind]
      exact ⟨fun _ => rfl, fun _ => rfl⟩
  | some entry =>
      obtain ⟨entry', hentry, hunmarked⟩ := hsame.exists_find? hold
      have hclean : entry'.unmarked = entry := by
        rw [hunmarked, Entry.unmarked, ← hi.unmarked id entry hold]
      have hpinned : entry'.pinned = entry.pinned := by rw [← hclean]; rfl
      have hkept : Kept h roots id ↔ (entry'.marked || entry'.pinned) = true := by
        rw [Bool.or_eq_true, hpinned, Kept, hold, ← hmarked id, Marked, hentry, or_comm]
        simp
      rw [hentry, Option.bind_some, Entry.survivor, hclean]
      exact ⟨fun hk => if_pos (hkept.mp hk), fun hk => if_neg fun hm => hk (hkept.mpr hm)⟩

/-- A collection of a heap without marks. -/
lemma Sound.collect (hs : h.Sound) (hi : h.Idle) (roots : List ObjectId) (journal : Journal) :
    ∃ h' freed journal', Heap.collect roots h journal =
        .done ⟨freed.length, h.totalSize freed⟩ h' journal' ∧ Collected roots freed h h' := by
  have hmarks : ∀ id, ¬ h.Marked id := by
    rintro id ⟨entry, hfind, hmarked⟩
    rw [hi.unmarked id entry hfind] at hmarked
    cases hmarked
  obtain ⟨hsame, hgray, hmarked⟩ := trace_markAll hmarks hi.gray roots
  unfold Heap.collect Heap.sweep
  rw [Action.modify_bind, Action.get_bind]
  generalize (h.markAll roots).trace = marked at hsame hgray hmarked ⊢
  have hs' := hsame.sound hs
  obtain ⟨h', freed, journal', hrun, hw⟩ := hs'.toTidy.sweepFrom marked.slots.size 0 ⟨0, 0⟩ journal
  have hblock := hsame.block?
  have hfind : ∀ id, h'.find? id = (marked.find? id).bind Entry.survivor := by
    intro id
    rw [hw.find?]
    split
    · rfl
    · -- a number behind the last slot
      have hnone : marked.slots[id.index.toNat]? = none :=
        Array.getElem?_eq_none (by omega)
      simp [Heap.find?, hnone]
  refine ⟨h', freed, journal', ?_, ⟨hw.sound hs', ⟨?_, hw.gray.trans hgray⟩, fun id hk => ?_,
    fun id hk => ?_, fun id entry hentry i hlt => ?_, hw.nodup, hsame.aged.trans hw.aged,
    fun id => ?_, ?_⟩⟩
  · simp only [hgray, List.isEmpty_nil, Bool.not_true, Bool.false_eq_true, if_false, hrun,
      Nat.zero_add, totalSize, hblock]
  · intro id entry hentry
    rw [hfind] at hentry
    obtain ⟨old, -, hsurvivor⟩ := Option.bind_eq_some_iff.mp hentry
    unfold Entry.survivor at hsurvivor
    split at hsurvivor
    · cases hsurvivor
      rfl
    · cases hsurvivor
  · rw [hfind id, (survivor_find? hi hsame hmarked id).1 hk]
  · rw [hfind id, (survivor_find? hi hsame hmarked id).2 hk]
  · rw [hw.cells id entry hentry i hlt, cell, hblock, hsame.memory, cell]
  · rw [hw.freed id, hsame.contains id]
  · rw [hw.grants, hsame.memory]

/-! ### What is left -/

/-- The children of an object, from the cells of its memory. -/
lemma Sound.children_eq (hs : h.Sound) (hfind : h.find? id = some entry) :
    h.children id =
      entry.object.children ((List.range (scannedBytes entry.object)).map (h.cell id)) := by
  have hle : scannedBytes entry.object ≤ entry.block.size := by
    cases hobject : entry.object with
    | array a => exact (hs.length_le hfind hobject).2
    | _ => exact Nat.zero_le _
  have hread : h.memory.read entry.block.page (entry.block.offset + 0)
      (scannedBytes entry.object) = _ := hs.toTidy.read_eq hfind (by omega)
  rw [Nat.add_zero] at hread
  simp only [children, hfind]
  rw [hread, List.range_eq_range']

/-- An id names the same object as before, and its memory holds the same bytes. -/
structure Intact (id : ObjectId) (h h' : Heap) : Prop where
  object : h'.object? id = h.object? id
  cells : ∀ entry, h.find? id = some entry → ∀ i < entry.block.size, h'.cell id i = h.cell id i

/-- An object that is as it was refers to the same objects. -/
lemma Intact.children (hi : Intact id h h') (hs : h.Sound) (hs' : h'.Sound) :
    h'.children id = h.children id := by
  have hobject := hi.object
  unfold object? at hobject
  cases hfind : h.find? id with
  | none =>
      rw [hfind] at hobject
      rw [Heap.children, Heap.children, hfind, Option.map_eq_none_iff.mp hobject]
  | some entry =>
      rw [hfind] at hobject
      obtain ⟨entry', hfind', heq⟩ := Option.map_eq_some_iff.mp hobject
      rw [hs.children_eq hfind, hs'.children_eq hfind', heq]
      congr 1
      refine List.map_congr_left fun i hlt => hi.cells entry hfind i ?_
      rw [List.mem_range] at hlt
      cases hrecord : entry.object with
      | array a =>
          rw [hrecord] at hlt
          exact Nat.lt_of_lt_of_le hlt (hs.length_le hfind hrecord).2
      | _ => simp [hrecord, scannedBytes] at hlt

namespace Collected

lemma find?_of_some (hc : Collected roots freed h h') (hfind : h'.find? id = some entry) :
    Kept h roots id ∧ h.find? id = some entry := by
  by_cases hk : Kept h roots id
  · exact ⟨hk, (hc.kept id hk).symm.trans hfind⟩
  · cases (hc.dropped id hk).symm.trans hfind

/-- What is left is as it was. -/
lemma intact (hc : Collected roots freed h h') (hk : Kept h roots id) : Intact id h h' := by
  have hfound := hc.kept id hk
  refine ⟨congrArg (Option.map Entry.object) hfound, fun entry hfind => ?_⟩
  exact hc.cells id entry (hfound.trans hfind)

/-- What was reachable still is. -/
lemma reach (hc : Collected roots freed h h') (hs : h.Sound) (hr : Reach h roots id) :
    Reach h' roots id := by
  have hlive : ∀ id, Reach h roots id → h'.contains id = true := by
    intro id hr
    rw [contains, hc.kept id (.inr hr)]
    exact hr.live
  induction hr with
  | root mem live => exact .root mem (hlive _ (.root mem live))
  | child parent mem live ih =>
      refine .child ih ?_ (hlive _ (.child parent mem live))
      rwa [(hc.intact (.inr parent)).children hs hc.sound]

lemma kept_again (hc : Collected roots freed h h') (hs : h.Sound) (hfind : h'.find? id = some entry) :
    Kept h' roots id := by
  obtain ⟨hk | hr, hold⟩ := hc.find?_of_some hfind
  · obtain ⟨entry', hentry, hpinned⟩ := hk
    exact .inl ⟨entry', (hfind.trans (hold.symm.trans hentry)), hpinned⟩
  · exact .inr (hc.reach hs hr)

end Collected

/-- A collection that is repeated frees nothing. -/
lemma Collected.again {h'' : Heap} {freed' : List ObjectId} (hc : Collected roots freed h h')
    (hs : h.Sound) (hc' : Collected roots freed' h' h'') : freed' = [] := by
  refine List.eq_nil_iff_forall_not_mem.mpr fun id hmem => ?_
  obtain ⟨hlive, hgone⟩ := (hc'.freed id).mp hmem
  obtain ⟨entry, hfind⟩ := Option.isSome_iff_exists.mp hlive
  rw [contains, hc'.kept id (hc.kept_again hs hfind), hfind] at hgone
  cases hgone

/-! ### Exactness -/

/-- A collection of any heap in which none is under way leaves exactly the
objects that are pinned or can be reached from the roots. It leaves their
entries, unmarked, and the bytes of their blocks; all other objects are gone,
and their number and their memory are reported. Repeated, it frees nothing. -/
theorem History.collect_exact (hh : h.History)
    (hmarks : ∀ id entry, h.find? id = some entry → entry.marked = false) (hgray : h.gray = [])
    (roots : List ObjectId) (journal : Journal) :
    ∃ h' freed journal',
      Heap.collect roots h journal = .done ⟨freed.length, h.totalSize freed⟩ h' journal' ∧
      (∀ id, h'.contains id = true ↔
        (∃ entry, h.find? id = some entry ∧ entry.pinned = true) ∨ Reach h roots id) ∧
      (∀ id entry, h'.find? id = some entry → h.find? id = some entry ∧ entry.marked = false ∧
        h'.bytes id entry.block.size = h.bytes id entry.block.size) ∧
      (freed.Nodup ∧ ∀ id, id ∈ freed ↔ h.contains id = true ∧ h'.contains id = false) ∧
      h'.gray = [] ∧
      ∃ h'' journal'', Heap.collect roots h' journal' = .done ⟨0, 0⟩ h'' journal'' ∧
        ∀ id, h''.find? id = h'.find? id := by
  have hs := hh.sound
  obtain ⟨h', freed, journal', hrun, hc⟩ := hs.collect ⟨hmarks, hgray⟩ roots journal
  obtain ⟨h'', freed', journal'', hrun', hc'⟩ := hc.sound.collect hc.idle roots journal'
  -- the second collection frees nothing
  obtain rfl := hc.again hs hc'
  refine ⟨h', freed, journal', hrun, fun id => ?_, fun id entry hfind => ?_, ⟨hc.nodup, hc.freed⟩,
    hc.idle.gray, h'', journal'', hrun', fun id => ?_⟩
  · by_cases hk : Kept h roots id
    · rw [contains, hc.kept id hk]
      exact ⟨fun _ => hk, fun _ => hk.live⟩
    · rw [contains, hc.dropped id hk]
      exact ⟨fun hlive => absurd hlive Bool.false_ne_true, fun hk' => absurd hk' hk⟩
  · have hold := (hc.find?_of_some hfind).2
    refine ⟨hold, hc.idle.unmarked id entry hfind, ?_⟩
    rw [hc.sound.toTidy.bytes_eq hfind (Nat.le_refl _), hs.toTidy.bytes_eq hold (Nat.le_refl _)]
    exact List.map_congr_left fun i hi => hc.cells id entry hfind i (List.mem_range.mp hi)
  · cases hfind : h'.find? id with
    | none =>
        refine hc'.dropped id fun hk => ?_
        have hlive := hk.live
        rw [contains, hfind] at hlive
        cases hlive
    | some entry => rw [hc'.kept id (hc.kept_again hs hfind), hfind]

/-- Whether no object is marked can be computed. -/
lemma unmarked_of_all (hall : (h.entries.all fun entry => !entry.marked) = true) (id : ObjectId)
    (entry : Entry) (hfind : h.find? id = some entry) : entry.marked = false := by
  simpa using List.all_eq_true.mp hall entry (mem_entries hfind)

/-- An array whose only element is a string, a pinned function, and a stack that
holds itself: of the three that are not pinned, only the stack is freed. -/
theorem History.collect_exact_cycle :
    ∃ h : Heap, h.History ∧ (∀ id entry, h.find? id = some entry → entry.marked = false) ∧
      h.gray = [] ∧ ⟨3, 0⟩ ∈ h.children ⟨3, 0⟩ ∧ ∃ h' freed journal',
        Heap.collect [⟨1, 0⟩] h .silent = .done ⟨freed.length, h.totalSize freed⟩ h' journal' ∧
          ⟨3, 0⟩ ∈ freed ∧ ∀ id : ObjectId, id ∈ [⟨0, 0⟩, ⟨1, 0⟩, ⟨2, 0⟩] → h'.contains id = true := by
  have created : History _ := .create (rfl : Heap.create 1024 (fun _ => true) = .ok _)
  have text : History _ :=
    created.done (.insert (.string ⟨0, 0, 0, true⟩) false (Nat.le_refl _)) .silent rfl
  have array : History _ :=
    text.done (.insert (.array ⟨.strings, 0, 1⟩) false (Nat.zero_le _)) .silent rfl
  have pushed : History _ := array.done (.arrayPush ⟨⟨1, 0⟩⟩ (.str ⟨⟨0, 0⟩⟩)) .silent rfl
  have pinned : History _ :=
    pushed.done (.insert (.native ⟨"sqrt", 1, .builtin .squareRoot⟩) true trivial) .silent rfl
  have cyclic : History _ :=
    pinned.done (.insert (.stack ⟨#[.stack ⟨⟨3, 0⟩⟩], 4⟩) false trivial) .silent rfl
  obtain ⟨h', freed, journal', hrun, hlive, -, ⟨-, hfreed⟩, -⟩ :=
    cyclic.collect_exact (unmarked_of_all rfl) rfl [⟨1, 0⟩] .silent
  refine ⟨_, cyclic, unmarked_of_all rfl, rfl, List.mem_singleton.mpr rfl, h', freed, journal', hrun,
    (hfreed _).mpr ⟨rfl, ?_⟩, fun id hid => (hlive id).mpr ?_⟩
  · refine Bool.eq_false_iff.mpr fun hkept => ?_
    rcases (hlive _).mp hkept with ⟨entry, hfind, hpinned⟩ | hreach
    · cases Option.some.inj hfind
      cases hpinned
    · have hmem : (⟨3, 0⟩ : ObjectId) ∈ [(⟨1, 0⟩ : ObjectId), ⟨0, 0⟩] := by
        refine hreach.mem_of_closed (by simp) (List.forall_mem_cons.mpr ⟨fun child hchild => ?_,
          List.forall_mem_singleton.mpr fun child hchild => ?_⟩)
        · exact .tail _ hchild
        · cases hchild
      exact absurd hmem (by decide)
  · simp only [List.mem_cons, List.not_mem_nil, or_false] at hid
    rcases hid with rfl | rfl | rfl
    · exact .inr (.child (.root (List.mem_singleton.mpr rfl) rfl) (List.mem_singleton.mpr rfl) rfl)
    · exact .inr (.root (List.mem_singleton.mpr rfl) rfl)
    · exact .inl ⟨_, rfl, rfl⟩

end Heap

end ScriptMachine
