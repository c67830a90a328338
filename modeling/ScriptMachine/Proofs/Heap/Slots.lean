import Mathlib.Tactic.Common
import ScriptMachine.Heap.Collect

/-!
What ids name, when slots are filled, changed and vacated.

* `Heap.find?_updateEntry`: an update changes what one id names;
* `Indexed.occupy`: an object gets an id that named nothing before;
* `Indexed.vacate`: the id of an object that leaves names nothing any more.

`Heap.Indexed` says that slots are numbered by words and that the vacant ones
are listed once each; all operations keep it.
-/

namespace ScriptMachine.Heap

open Memory

variable {h h' : Heap} {id other : ObjectId} {entry : Entry} {index : Nat}

/-! ### Slots and ids -/

/-- The objects in the order of their slots. -/
def entries (h : Heap) : List Entry := h.slots.toList.filterMap Slot.entry

/-- The generation does not depend on what is in the slot. -/
@[simp] lemma generation_mk_frees (slot : Slot) (entry : Option Entry) :
    Slot.generation ⟨slot.frees, entry⟩ = slot.generation := rfl

/-- An id names what is in its slot, if the slot has the generation of the id. -/
lemma find?_eq_some_iff :
    h.find? id = some entry ↔
      ∃ frees, UInt32.ofNat frees = id.generation ∧
        h.slots[id.index.toNat]? = some ⟨frees, some entry⟩ := by
  unfold find?
  cases hs : h.slots[id.index.toNat]? with
  | none => simp
  | some slot =>
      obtain ⟨frees, entry'⟩ := slot
      by_cases hg : UInt32.ofNat frees = id.generation
      · simp [Slot.generation, hg]
      · simp [Slot.generation, hg]

/-- A place in an array, and what changing it does to the list. -/
lemma exists_focus {α : Type} {xs : Array α} {x : α} (hx : xs[index]? = some x) :
    ∃ pre post, xs.toList = pre ++ x :: post ∧ pre.length = index ∧
      ∀ f, (xs.modify index f).toList = pre ++ f x :: post := by
  obtain ⟨hlt, rfl⟩ := Array.getElem?_eq_some_iff.mp hx
  have hlen : index < xs.toList.length := by simpa using hlt
  refine ⟨xs.toList.take index, xs.toList.drop (index + 1), ?_, ?_, fun f => ?_⟩
  · rw [← Array.getElem_toList hlt, List.getElem_cons_drop, List.take_append_drop]
  · rw [List.length_take]
    omega
  · rw [Array.toList_modify, List.modify_eq_take_cons_drop hlen]
    rfl

lemma setIfInBounds_eq_modify {α : Type} (xs : Array α) (i : Nat) (x : α) :
    xs.setIfInBounds i x = xs.modify i fun _ => x := by
  refine Array.ext_getElem? fun j => ?_
  rw [Array.getElem?_setIfInBounds, Array.getElem?_modify]
  split
  · rename_i heq
    subst heq
    split
    · rename_i hlt
      rw [Array.getElem?_eq_getElem hlt]
      rfl
    · rename_i hlt
      rw [Array.getElem?_eq_none (by omega)]
      rfl
  · rfl

/-- What stands elsewhere in an array stands before or behind a place. -/
lemma mem_of_focus {α : Type} {xs : Array α} {x y : α} {pre post : List α} {i : Nat}
    (hlist : xs.toList = pre ++ x :: post) (hlen : pre.length = index) (hy : xs[i]? = some y)
    (hne : i ≠ index) : y ∈ pre ++ post := by
  rw [← Array.getElem?_toList, hlist, List.getElem?_append] at hy
  split at hy
  · exact List.mem_append_left _ (List.mem_of_getElem? hy)
  · refine List.mem_append_right _ (List.mem_of_getElem? (i := i - pre.length - 1) ?_)
    rw [← hy, List.getElem?_cons, if_neg (by omega)]

/-- Ids with one slot that both name an object are the same. -/
lemma eq_of_index {entry' : Entry} (hfind : h.find? id = some entry)
    (hother : h.find? other = some entry') (hindex : other.index = id.index) : other = id := by
  obtain ⟨frees, hgeneration, hslot⟩ := find?_eq_some_iff.mp hfind
  obtain ⟨frees', hgeneration', hslot'⟩ := find?_eq_some_iff.mp hother
  rw [hindex, hslot] at hslot'
  cases id
  cases other
  simp_all

/-- Changing an entry changes one member of the list of entries. -/
lemma exists_entries_updateEntry (hfind : h.find? id = some entry) :
    ∃ pre post, h.entries = pre ++ entry :: post ∧
      (∀ f, (h.updateEntry id f).entries = pre ++ f entry :: post) ∧
      ∀ other entry', other ≠ id → h.find? other = some entry' → entry' ∈ pre ++ post := by
  obtain ⟨frees, hgeneration, hslot⟩ := find?_eq_some_iff.mp hfind
  obtain ⟨pre, post, hlist, hlen, hmodify⟩ := exists_focus hslot
  refine ⟨pre.filterMap Slot.entry, post.filterMap Slot.entry, ?_, fun f => ?_, ?_⟩
  · simp [entries, hlist]
  · unfold entries updateEntry
    rw [hmodify]
    simp [Slot.generation, hgeneration]
  · intro other entry' hne hother
    have hindex : other.index.toNat ≠ id.index.toNat := fun heq =>
      hne (eq_of_index hfind hother (UInt32.toNat_inj.mp heq))
    obtain ⟨frees', -, hslot'⟩ := find?_eq_some_iff.mp hother
    have hmem := mem_of_focus hlist hlen hslot' hindex
    rw [← List.filterMap_append]
    exact List.mem_filterMap.mpr ⟨_, hmem, rfl⟩

lemma mem_entries (hfind : h.find? id = some entry) : entry ∈ h.entries := by
  obtain ⟨pre, post, hlist, -⟩ := exists_entries_updateEntry hfind
  simp [hlist]

/-- An update changes what its own id names, and nothing else. -/
lemma find?_updateEntry (f : Entry → Entry) :
    (h.updateEntry id f).find? other =
      if other = id then (h.find? id).map f else h.find? other := by
  unfold find? updateEntry
  simp only [Array.getElem?_modify]
  by_cases hindex : id.index = other.index
  · rw [if_pos (congrArg _ hindex), hindex]
    cases h.slots[other.index.toNat]? with
    | none => simp
    | some slot =>
        by_cases hslot : slot.generation = id.generation
        · by_cases hgen : other.generation = id.generation
          · obtain rfl : other = id := by
              cases other
              cases id
              simp_all
            simp [hslot]
          · have hne : other ≠ id := fun heq => hgen (heq ▸ rfl)
            simp [hslot, hne, Ne.symm hgen]
        · by_cases heq : other = id
          · subst heq
            simp [hslot]
          · simp [hslot, heq]
  · have hne : other ≠ id := fun heq => hindex (heq ▸ rfl)
    have hindex' : id.index.toNat ≠ other.index.toNat := fun heq => hindex (UInt32.toNat_inj.mp heq)
    rw [if_neg hindex', if_neg hne]

/-- An id that names nothing is not changed by an update. -/
lemma updateEntry_of_none (hfind : h.find? id = none) (f : Entry → Entry) :
    h.updateEntry id f = h := by
  unfold updateEntry
  congr 1
  refine Array.ext_getElem? fun i => ?_
  rw [Array.getElem?_modify]
  split
  · rename_i hi
    subst hi
    unfold find? at hfind
    cases hs : h.slots[id.index.toNat]? with
    | none => rfl
    | some slot =>
        rw [hs] at hfind
        obtain ⟨frees, entry⟩ := slot
        dsimp only at hfind
        split at hfind
        · subst hfind
          simp_all
        · simp_all
  · rfl

/-! ### Slots that agree with the list of vacant ones -/

/-- Slots are numbered by words, and the vacant ones are listed once each. -/
structure Indexed (h : Heap) : Prop where
  size : h.slots.size ≤ slotLimit
  vacant : ∀ i : UInt32, i ∈ h.vacant ↔ ∃ frees, h.slots[i.toNat]? = some ⟨frees, none⟩
  nodup : h.vacant.Nodup

lemma Indexed.updateEntry (hi : h.Indexed) (f : Entry → Entry) : (h.updateEntry id f).Indexed := by
  refine ⟨?_, fun i => (hi.vacant i).trans ?_, hi.nodup⟩
  · unfold Heap.updateEntry
    rw [Array.size_modify]
    exact hi.size
  · unfold Heap.updateEntry
    simp only [Array.getElem?_modify]
    split
    · cases h.slots[i.toNat]? with
      | none => simp
      | some slot =>
          obtain ⟨frees, entry⟩ := slot
          by_cases hg : UInt32.ofNat frees = id.generation
          · cases entry <;> simp [Slot.generation, hg]
          · simp [Slot.generation, hg]
    · rfl

/-- A vacant slot is filled. -/
lemma Indexed.occupyVacant {i : UInt32} {vacant : List UInt32} {frees : Nat}
    (hi : h.Indexed) (hvacant : h.vacant = i :: vacant)
    (hslot : h.slots[i.toNat]? = some ⟨frees, none⟩)
    (hh : h' = { h with
      vacant := vacant, slots := h.slots.modify i.toNat fun _ => ⟨frees, some entry⟩ }) :
    h'.Indexed ∧ h.find? ⟨i, UInt32.ofNat frees⟩ = none ∧
      (∀ other, h'.find? other =
        if other = ⟨i, UInt32.ofNat frees⟩ then some entry else h.find? other) ∧
      h'.entries.Perm (entry :: h.entries) := by
  obtain ⟨pre, post, hlist, hlen, hmodify⟩ := exists_focus hslot
  have hnodup := List.nodup_cons.mp (hvacant ▸ hi.nodup)
  have hget : ∀ j : Nat, h'.slots[j]? =
      if i.toNat = j then some ⟨frees, some entry⟩ else h.slots[j]? := by
    intro j
    rw [hh]
    dsimp only
    rw [Array.getElem?_modify]
    split
    · rename_i heq
      rw [← heq, hslot]
      rfl
    · rfl
  subst hh
  refine ⟨⟨?_, fun j => ?_, hnodup.2⟩, ?_, fun other => ?_, ?_⟩
  · dsimp only
    rw [Array.size_modify]
    exact hi.size
  · rw [hget]
    by_cases hj : i = j
    · subst hj
      simp [hnodup.1]
    · have hj' : i.toNat ≠ j.toNat := fun heq => hj (UInt32.toNat_inj.mp heq)
      rw [if_neg hj', ← hi.vacant j, hvacant, List.mem_cons]
      simp [Ne.symm hj]
  · simp [find?, hslot]
  · unfold find?
    rw [hget]
    -- an id of this slot is the new one, or its generation is another
    by_cases hj : i = other.index
    · rw [if_pos (congrArg _ hj), ← hj, hslot]
      obtain ⟨index, g⟩ := other
      by_cases hg : UInt32.ofNat frees = g
      · simp_all [Slot.generation]
      · simp_all [Slot.generation, Ne.symm hg]
    · have hj' : i.toNat ≠ other.index.toNat := fun heq => hj (UInt32.toNat_inj.mp heq)
      have hne : other ≠ ⟨i, UInt32.ofNat frees⟩ := fun heq => hj (heq ▸ rfl)
      rw [if_neg hj', if_neg hne]
  · unfold entries
    dsimp only
    rw [hmodify, hlist]
    simp

/-- A new slot is filled. -/
lemma Indexed.occupyNew (hi : h.Indexed) (hroom : h.slots.size < slotLimit)
    (hh : h' = { h with slots := h.slots.push ⟨0, some entry⟩ }) :
    h'.Indexed ∧ h.find? ⟨UInt32.ofNat h.slots.size, 0⟩ = none ∧
      (∀ other, h'.find? other =
        if other = ⟨UInt32.ofNat h.slots.size, 0⟩ then some entry else h.find? other) ∧
      h'.entries.Perm (entry :: h.entries) := by
  -- below the limit the index survives the word it is kept in
  have hword : (UInt32.ofNat h.slots.size).toNat = h.slots.size := by
    refine UInt32.toNat_ofNat_of_lt' (Nat.lt_trans hroom ?_)
    decide
  have hend : h.slots[h.slots.size]? = none := Array.getElem?_eq_none (Nat.le_refl _)
  have hget : ∀ j : Nat, h'.slots[j]? =
      if j = h.slots.size then some ⟨0, some entry⟩ else h.slots[j]? := by
    intro j
    rw [hh]
    exact Array.getElem?_push
  subst hh
  refine ⟨⟨?_, fun j => ?_, hi.nodup⟩, ?_, fun other => ?_, ?_⟩
  · dsimp only
    rw [Array.size_push]
    omega
  · rw [hi.vacant, hget]
    split
    · rename_i heq
      rw [heq, hend]
      simp
    · rfl
  · simp [find?, hword]
  · unfold find?
    rw [hget]
    by_cases hj : other.index.toNat = h.slots.size
    · rw [if_pos hj, hj, hend]
      obtain ⟨index, g⟩ := other
      have hindex : index = UInt32.ofNat h.slots.size :=
        UInt32.toNat_inj.mp (hj.trans hword.symm)
      by_cases hg : g = 0
      · simp [Slot.generation, hg, hindex]
      · simp [Slot.generation, hg, Ne.symm hg]
    · have hne : other ≠ ⟨UInt32.ofNat h.slots.size, 0⟩ := by
        rintro rfl
        exact hj hword
      rw [if_neg hj, if_neg hne]
  · unfold entries
    dsimp only
    rw [Array.toList_push]
    simp

/-- An object gets a new id. -/
lemma Indexed.occupy (hi : h.Indexed) (entry : Entry) (hroom : h.hasRoom = true) :
    (h.occupy entry).2.Indexed ∧ h.find? (h.occupy entry).1 = none ∧
      (∀ other, (h.occupy entry).2.find? other =
        if other = (h.occupy entry).1 then some entry else h.find? other) ∧
      (h.occupy entry).2.entries.Perm (entry :: h.entries) := by
  unfold Heap.occupy
  cases hvacant : h.vacant with
  | nil =>
      refine hi.occupyNew ?_ (by rw [hvacant])
      simpa [hasRoom, hvacant] using hroom
  | cons i vacant =>
      obtain ⟨frees, hslot⟩ := (hi.vacant i).mp (by simp [hvacant])
      simp only [hslot, Option.map_some, Option.getD_some]
      exact hi.occupyVacant hvacant hslot (by rw [setIfInBounds_eq_modify])

@[simp] lemma memory_occupy : (h.occupy entry).2.memory = h.memory := by
  unfold occupy
  split <;> rfl

@[simp] lemma gray_occupy : (h.occupy entry).2.gray = h.gray := by
  unfold occupy
  split <;> rfl

/-- An object leaves its slot, and its id names nothing from then on. -/
lemma Indexed.vacate {frees : Nat} (hi : h.Indexed)
    (hslot : h.slots[index]? = some ⟨frees, some entry⟩) :
    (h.vacate index).Indexed ∧
      (∀ other, (h.vacate index).find? other =
        if other.index.toNat = index then none else h.find? other) ∧
      h.entries.Perm (entry :: (h.vacate index).entries) := by
  obtain ⟨pre, post, hlist, hlen, hmodify⟩ := exists_focus hslot
  have hlt : index < h.slots.size := (Array.getElem?_eq_some_iff.mp hslot).1
  have hword : (UInt32.ofNat index).toNat = index := by
    refine UInt32.toNat_ofNat_of_lt' (Nat.lt_of_lt_of_le hlt (Nat.le_trans hi.size ?_))
    decide
  have hget : ∀ j : Nat, (h.vacate index).slots[j]? =
      if index = j then some ⟨frees + 1, none⟩ else h.slots[j]? := by
    intro j
    unfold Heap.vacate
    dsimp only
    rw [Array.getElem?_modify]
    split
    · rename_i heq
      rw [← heq, hslot]
      rfl
    · rfl
  refine ⟨⟨?_, fun j => ?_, ?_⟩, fun other => ?_, ?_⟩
  · unfold Heap.vacate
    dsimp only
    rw [Array.size_modify]
    exact hi.size
  · have hmem : j ∈ (h.vacate index).vacant ↔ j = UInt32.ofNat index ∨ j ∈ h.vacant :=
      List.mem_cons
    rw [hmem, hget, hi.vacant]
    by_cases hj : index = j.toNat
    · have hsame : j = UInt32.ofNat index := UInt32.toNat_inj.mp (hj.symm.trans hword.symm)
      rw [if_pos hj]
      exact ⟨fun _ => ⟨_, rfl⟩, fun _ => .inl hsame⟩
    · have hne : j ≠ UInt32.ofNat index := by
        rintro rfl
        exact hj hword.symm
      rw [if_neg hj, or_iff_right hne]
  -- the slot was occupied, so it cannot have been listed as vacant
  · refine List.nodup_cons.mpr ⟨fun hmem => ?_, hi.nodup⟩
    obtain ⟨g, hg⟩ := (hi.vacant _).mp hmem
    rw [hword, hslot] at hg
    simp at hg
  · unfold find?
    rw [hget]
    by_cases hj : other.index.toNat = index
    · rw [if_pos hj.symm, if_pos hj]
      simp
    · rw [if_neg (Ne.symm hj), if_neg hj]
  · unfold entries Heap.vacate
    dsimp only
    rw [hmodify, hlist]
    simp

/-! ### How often slots were freed -/

/-- How often a slot was freed, if it is there. -/
def frees? (h : Heap) (i : UInt32) : Option Nat := (h.slots[i.toNat]?).map Slot.frees

/-- How often a slot was freed; one that is not there yet never was. -/
def frees (h : Heap) (i : UInt32) : Nat := (h.frees? i).getD 0

lemma generation_eq_of_contains {id : ObjectId} (hlive : h.contains id = true) :
    id.generation = UInt32.ofNat (h.frees id.index) := by
  obtain ⟨entry, hfind⟩ := Option.isSome_iff_exists.mp hlive
  obtain ⟨frees, hgeneration, hslot⟩ := find?_eq_some_iff.mp hfind
  rw [Heap.frees, frees?, hslot]
  exact hgeneration.symm

lemma frees?_of_contains {id : ObjectId} (hlive : h.contains id = true) :
    h.frees? id.index = some (h.frees id.index) := by
  obtain ⟨entry, hfind⟩ := Option.isSome_iff_exists.mp hlive
  obtain ⟨frees, -, hslot⟩ := find?_eq_some_iff.mp hfind
  rw [Heap.frees, frees?, hslot]
  rfl

/-- How many of some objects were in a slot. -/
def occupants (i : UInt32) (ids : List ObjectId) : Nat := ids.countP (·.index == i)

/-- The slots have counted the objects that were freed. -/
def Aged (freed : List ObjectId) (h h' : Heap) : Prop :=
  ∀ i n, h.frees? i = some n → h'.frees? i = some (n + occupants i freed)

lemma aged_nil : Aged [] h h' ↔ ∀ i n, h.frees? i = some n → h'.frees? i = some n := Iff.rfl

lemma aged_of_slots (hslots : h'.slots = h.slots) : Aged [] h h' := by
  refine aged_nil.mpr fun i n hn => ?_
  rwa [frees?, hslots]

lemma Aged.frees_of_contains {freed : List ObjectId} (ha : Aged freed h h')
    (hlive : h.contains id = true) :
    h'.frees id.index = h.frees id.index + occupants id.index freed := by
  rw [Heap.frees, ha _ _ (frees?_of_contains hlive)]
  rfl

/-- The count of a slot never goes down. -/
lemma Aged.frees_le {freed : List ObjectId} (ha : Aged freed h h') (i : UInt32) :
    h.frees i ≤ h'.frees i := by
  unfold Heap.frees
  cases hn : h.frees? i with
  | none => exact Nat.zero_le _
  | some n =>
      rw [ha i n hn]
      exact Nat.le_add_right n _

/-- Where an object was freed, the count goes up. -/
lemma Aged.frees_lt {freed : List ObjectId} (ha : Aged freed h h') (hlive : h.contains id = true)
    (hmem : id ∈ freed) : h.frees id.index < h'.frees id.index := by
  have hpos : 0 < occupants id.index freed :=
    List.countP_pos_iff.mpr ⟨id, hmem, beq_self_eq_true _⟩
  have := ha.frees_of_contains hlive
  omega

/-- An id that names an object before and after was not freed in between, unless its
slot was freed as often as there are generations. -/
lemma frees_eq_of_contains (hle : h.frees id.index ≤ h'.frees id.index)
    (hlive : h.contains id = true) (hlive' : h'.contains id = true)
    (hfew : h'.frees id.index < h.frees id.index + UInt32.size) :
    h'.frees id.index = h.frees id.index := by
  have hsame := (generation_eq_of_contains hlive).symm.trans (generation_eq_of_contains hlive')
  have hmod := congrArg UInt32.toNat hsame
  simp only [UInt32.toNat_ofNat', UInt32.size] at hmod hfew
  omega

lemma Aged.trans {h'' : Heap} {freed freed' : List ObjectId} (ha : Aged freed h h')
    (ha' : Aged freed' h' h'') : Aged (freed ++ freed') h h'' := by
  intro i n hn
  rw [ha' i _ (ha i n hn), occupants, occupants, occupants, List.countP_append, Nat.add_assoc]

lemma aged_updateEntry (h : Heap) (id : ObjectId) (f : Entry → Entry) :
    Aged [] h (h.updateEntry id f) := by
  refine aged_nil.mpr fun i n hn => ?_
  obtain ⟨slot, hslot, rfl⟩ := Option.map_eq_some_iff.mp hn
  rw [frees?, updateEntry, Array.getElem?_modify, hslot]
  split
  · rw [Option.map_some, Option.map_some, apply_ite Slot.frees, ite_self]
  · rfl

lemma Indexed.aged_occupy (hi : h.Indexed) (entry : Entry) : Aged [] h (h.occupy entry).2 := by
  refine aged_nil.mpr fun i n hn => ?_
  obtain ⟨slot, hslot, rfl⟩ := Option.map_eq_some_iff.mp hn
  rw [frees?, Heap.occupy]
  cases hvacant : h.vacant with
  | nil =>
      have hlt : i.toNat < h.slots.size := (Array.getElem?_eq_some_iff.mp hslot).1
      simp [Array.getElem?_push, Nat.ne_of_lt hlt, hslot]
  | cons j vacant =>
      obtain ⟨frees, hempty⟩ := (hi.vacant j).mp (by simp [hvacant])
      simp only [hempty, Option.map_some, Option.getD_some, setIfInBounds_eq_modify,
        Array.getElem?_modify]
      split
      · rename_i heq
        rw [heq, hslot] at hempty
        rw [Option.some.inj hempty, hslot]
        rfl
      · rw [hslot]
        rfl

lemma aged_vacate {frees : Nat} {generation : UInt32} {entry : Option Entry} {i : UInt32}
    (hindex : i.toNat = index) (hslot : h.slots[index]? = some ⟨frees, entry⟩) :
    Aged [⟨i, generation⟩] h (h.vacate index) := by
  subst hindex
  intro j n hn
  obtain ⟨slot, hslot', rfl⟩ := Option.map_eq_some_iff.mp hn
  unfold frees? Heap.vacate
  dsimp only
  rw [Array.getElem?_modify]
  by_cases heq : i = j
  · subst heq
    obtain rfl := Option.some.inj (hslot.symm.trans hslot')
    simp [hslot, occupants]
  · rw [if_neg fun h => heq (UInt32.toNat_inj.mp h), hslot']
    simp [occupants, heq]

end ScriptMachine.Heap
