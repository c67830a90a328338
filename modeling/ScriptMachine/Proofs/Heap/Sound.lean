import ScriptMachine.Proofs.Heap.Slots
import ScriptMachine.Proofs.Memory.History

/-!
A heap is a map from ids to objects with memory of their own.

`Heap.cell` reads the memory of the object that an id names, byte by byte.
`Heap.Sound` ties the slots to the allocator: the blocks of the objects are the
live blocks, and strings and arrays fit into their blocks. Each change of a heap
has a lemma that says which ids and which cells change and that the heap stays in
order:

* `Sound.updateEntry`: another object, or another mark, under the same id;
* `Tidy.writeBytes`: other bytes in the memory of one object;
* `Tidy.insert`: a new id with a zeroed block;
* `Tidy.resize`: a longer block with the old bytes;
* `Sound.granting`: other pages to be had.
-/

namespace ScriptMachine

open Memory

/-- Strings and arrays fit into their blocks. All other objects keep nothing
there. -/
def Object.Fits (object : Object) (block : Block) : Prop :=
  match object with
  | .array a => a.length ≤ a.capacity ∧ a.capacity * a.kind.width ≤ block.size
  | .string s => s.length ≤ s.capacity ∧ s.capacity ≤ block.size
  | _ => True

namespace Heap

variable {h h' : Heap} {id other : ObjectId} {entry : Entry} {index : Nat}

/-- The blocks of the objects. -/
def blocks (h : Heap) : List Block := h.entries.map Entry.block

/-! ### Cells -/

/-- A byte of the memory of an object. -/
def cell (h : Heap) (id : ObjectId) (i : Nat) : UInt8 :=
  match h.block? id with
  | some block => h.memory.byteAt block.page (block.offset + i)
  | none => 0

lemma cell_eq (hfind : h.find? id = some entry) (i : Nat) :
    h.cell id i = h.memory.byteAt entry.block.page (entry.block.offset + i) := by
  simp [cell, block?, hfind]

/-- The blocks of the objects are the live blocks of the allocator. -/
structure Tidy (h : Heap) : Prop extends h.Indexed where
  memory : h.memory.Tiled h.blocks

/-- Strings and arrays fit into their blocks, too. -/
structure Sound (h : Heap) : Prop extends h.Tidy where
  fits : ∀ id entry, h.find? id = some entry → entry.object.Fits entry.block

/-- The heap when the system hands out pages of other lengths than before. -/
def granting (grants : Nat → Bool) (h : Heap) : Heap :=
  { h with memory := h.memory.granting grants }

/-- The system changes its mind about which pages it hands out. -/
def grant (grants : Nat → Bool) : Action Heap Unit := modify (·.granting grants)

lemma Sound.granting (hs : h.Sound) (grants : Nat → Bool) : (h.granting grants).Sound :=
  ⟨⟨⟨hs.size, hs.vacant, hs.nodup⟩, hs.memory.granting grants⟩, hs.fits⟩

/-- The block of an object is live. -/
lemma Tidy.inside (ht : h.Tidy) (hfind : h.find? id = some entry) :
    entry.block.stop ≤ h.memory.lengthOf entry.block.page :=
  ht.memory.inside (List.mem_map_of_mem (mem_entries hfind))

/-- The memory of an object, read byte by byte. -/
lemma Tidy.read_eq (ht : h.Tidy) (hfind : h.find? id = some entry) {start count : Nat}
    (hle : start + count ≤ entry.block.size) :
    h.memory.read entry.block.page (entry.block.offset + start) count =
      (List.range' start count).map (h.cell id) := by
  have hin := ht.inside hfind
  unfold Block.stop at hin
  rw [Allocator.read_eq (by omega), ← List.map_add_range', List.map_map]
  refine List.map_congr_left fun i _ => ?_
  rw [cell_eq hfind]
  rfl

lemma Tidy.bytes_eq (ht : h.Tidy) (hfind : h.find? id = some entry) {count : Nat}
    (hle : count ≤ entry.block.size) : h.bytes id count = (List.range count).map (h.cell id) := by
  have hread : h.memory.read entry.block.page (entry.block.offset + 0) count = _ :=
    ht.read_eq hfind (by omega)
  rw [List.range_eq_range', ← hread]
  simp [bytes, block?, hfind]

lemma Tidy.byte?_eq (ht : h.Tidy) (hfind : h.find? id = some entry) {i : Nat}
    (hlt : i < entry.block.size) : h.byte? id i = some (h.cell id i) := by
  have hin := ht.inside hfind
  unfold Block.stop at hin
  rw [cell_eq hfind, ← Allocator.byte?_eq (by omega)]
  simp [byte?, block?, hfind]

/-- Two objects have blocks that are apart. -/
lemma Tidy.apart (ht : h.Tidy) {entry' : Entry} (hfind : h.find? id = some entry)
    (hother : h.find? other = some entry') (hne : other ≠ id) :
    entry.block.tile.Apart entry'.block.tile := by
  obtain ⟨pre, post, hlist, -, hothers⟩ := exists_entries_updateEntry hfind
  have hperm : h.blocks.Perm (entry.block :: (pre ++ post).map Entry.block) := by
    rw [blocks, hlist]
    exact List.perm_middle.map _
  refine (ht.memory.perm hperm).tiles.apart_of_mem (List.mem_append_left _ ?_)
  exact List.mem_map_of_mem (List.mem_map_of_mem (hothers other entry' hne hother))

/-! ### Changing an entry -/

/-- Two heaps that differ in one object and its memory only. -/
structure OnlyAt (id : ObjectId) (h h' : Heap) : Prop where
  others : ∀ other, other ≠ id → h'.find? other = h.find? other
  cells : ∀ other entry, other ≠ id → h.find? other = some entry → ∀ i < entry.block.size,
    h'.cell other i = h.cell other i
  gray : h'.gray = h.gray
  grants : h'.memory.grants = h.memory.grants
  aged : Aged [] h h'

lemma OnlyAt.refl (id : ObjectId) (h : Heap) : OnlyAt id h h :=
  ⟨fun _ _ => rfl, fun _ _ _ _ _ _ => rfl, rfl, rfl, aged_of_slots rfl⟩

lemma OnlyAt.trans {h'' : Heap} (ho : OnlyAt id h h') (ho' : OnlyAt id h' h'') :
    OnlyAt id h h'' where
  others other hne := (ho'.others other hne).trans (ho.others other hne)
  cells other entry hne hfind i hi :=
    (ho'.cells other entry hne ((ho.others other hne).trans hfind) i hi).trans
      (ho.cells other entry hne hfind i hi)
  gray := ho'.gray.trans ho.gray
  grants := ho'.grants.trans ho.grants
  aged := ho.aged.trans ho'.aged

lemma blocks_updateEntry {f : Entry → Entry}
    (hf : ∀ entry, h.find? id = some entry → (f entry).block = entry.block) :
    (h.updateEntry id f).blocks = h.blocks := by
  cases hfind : h.find? id with
  | none => rw [updateEntry_of_none hfind]
  | some entry =>
      obtain ⟨pre, post, hlist, hupdate, -⟩ := exists_entries_updateEntry hfind
      simp [blocks, hlist, hupdate, hf entry hfind]

lemma Tidy.updateEntry (ht : h.Tidy) {f : Entry → Entry}
    (hf : ∀ entry, h.find? id = some entry → (f entry).block = entry.block) :
    (h.updateEntry id f).Tidy := by
  refine ⟨ht.toIndexed.updateEntry f, ?_⟩
  rw [blocks_updateEntry hf]
  exact ht.memory

lemma block?_updateEntry {f : Entry → Entry}
    (hf : ∀ entry, h.find? id = some entry → (f entry).block = entry.block) :
    (h.updateEntry id f).block? other = h.block? other := by
  unfold block?
  rw [find?_updateEntry]
  by_cases heq : other = id
  · subst heq
    cases hfind : h.find? other with
    | none => simp
    | some entry => simp [hf entry hfind]
  · rw [if_neg heq]

lemma cell_updateEntry {f : Entry → Entry}
    (hf : ∀ entry, h.find? id = some entry → (f entry).block = entry.block) (i : Nat) :
    (h.updateEntry id f).cell other i = h.cell other i := by
  unfold cell
  rw [block?_updateEntry hf]
  rfl

lemma onlyAt_updateEntry {f : Entry → Entry}
    (hf : ∀ entry, h.find? id = some entry → (f entry).block = entry.block) :
    OnlyAt id h (h.updateEntry id f) :=
  ⟨fun other hne => by rw [find?_updateEntry, if_neg hne], fun _ _ _ _ i _ => cell_updateEntry hf i,
    rfl, rfl, aged_updateEntry h id f⟩

/-- Another object under the same id, with the same block. -/
lemma Sound.updateEntry (hs : h.Sound) {f : Entry → Entry}
    (hf : ∀ entry, h.find? id = some entry → (f entry).block = entry.block)
    (hfits : ∀ entry, h.find? id = some entry → (f entry).object.Fits entry.block) :
    (h.updateEntry id f).Sound := by
  refine ⟨hs.toTidy.updateEntry hf, fun other entry hother => ?_⟩
  rw [find?_updateEntry] at hother
  split at hother
  · obtain ⟨old, hold, rfl⟩ := Option.map_eq_some_iff.mp hother
    rw [hf old hold]
    exact hfits old hold
  · exact hs.fits other entry hother

/-! ### Changing memory -/

/-- Another memory in which the blocks are live, and the payloads of the other
objects are as they were. -/
lemma Tidy.setMemory (ht : h.Tidy) {memory : Allocator} (hm : memory.Tiled h.blocks) :
    ({ h with memory := memory } : Heap).Tidy :=
  ⟨⟨ht.size, ht.vacant, ht.nodup⟩, hm⟩

lemma cell_setMemory {memory : Allocator} (hfind : h.find? id = some entry) (i : Nat) :
    ({ h with memory := memory } : Heap).cell id i =
      memory.byteAt entry.block.page (entry.block.offset + i) :=
  cell_eq (h := { h with memory := memory }) hfind i

/-- Bytes are stored into the memory of one object. -/
lemma Tidy.writeBytes (ht : h.Tidy) (hfind : h.find? id = some entry) {offset : Nat}
    {bytes : List UInt8} (hle : offset + bytes.length ≤ entry.block.size) :
    (h.writeBytes id offset bytes).Tidy ∧ OnlyAt id h (h.writeBytes id offset bytes) ∧
      (∀ other, (h.writeBytes id offset bytes).find? other = h.find? other) ∧
      ∀ i < entry.block.size, (h.writeBytes id offset bytes).cell id i =
        if offset ≤ i ∧ i < offset + bytes.length then bytes.getD (i - offset) 0
        else h.cell id i := by
  have hmem : entry.block ∈ h.blocks := List.mem_map_of_mem (mem_entries hfind)
  have hin := ht.inside hfind
  have heq : h.writeBytes id offset bytes = { h with
      memory := h.memory.write entry.block.page (entry.block.offset + offset) bytes } := by
    simp [Heap.writeBytes, block?, hfind]
  rw [heq]
  have hstop : entry.block.stop = entry.block.offset + entry.block.size := rfl
  have hw : Allocator.Within entry.block h.memory
      (h.memory.write entry.block.page (entry.block.offset + offset) bytes) :=
    Allocator.within_write ht.memory hmem (Nat.le_add_right _ _) (by omega)
  refine ⟨ht.setMemory (ht.memory.within hmem hw rfl rfl rfl rfl),
    ⟨fun _ _ => rfl, fun other entry' hne hother i hi => ?_, rfl, rfl, aged_of_slots rfl⟩,
    fun _ => rfl, fun i hi => ?_⟩
  · -- the blocks of the two objects are apart
    have hmem' : entry'.block ∈ h.blocks := List.mem_map_of_mem (mem_entries hother)
    have hin' := ht.inside hother
    have hstop' : entry'.block.stop = entry'.block.offset + entry'.block.size := rfl
    have hsame := (hw.onlyIn (ht.memory.headed _ hmem)).sameBytes
      (ht.apart hfind hother hne).symm (ht.memory.headed _ hmem') hin'
    rw [cell_eq hother, cell_setMemory hother]
    exact hsame _ (Nat.le_add_right _ _) (by omega)
  · rw [cell_eq hfind, cell_setMemory hfind]
    refine (Allocator.byteAt_write (by omega) (by omega)).trans ?_
    by_cases hrange : offset ≤ i ∧ i < offset + bytes.length
    · rw [if_pos (by omega), if_pos hrange]
      congr 1
      omega
    · rw [if_neg (by omega), if_neg hrange]

/-- An action of the allocator changes the memory only. -/
lemma onMemory_ends {α : Type} {action : Action Allocator α} {done : α → Allocator → Prop}
    {raised : Error → Allocator → Prop} {aborted : Fault → Prop} {journal : Journal}
    (hends : Outcome.Ends done raised aborted (action h.memory journal)) :
    Outcome.Ends (fun value h' => ∃ memory, h' = { h with memory := memory } ∧ done value memory)
      (fun error h' => ∃ memory, h' = { h with memory := memory } ∧ raised error memory) aborted
      (onMemory action h journal) := by
  unfold onMemory Action.on
  dsimp only
  cases hrun : action h.memory journal with
  | done value memory journal' => exact ⟨memory, rfl, hends.of_done hrun⟩
  | raised error memory journal' => exact ⟨memory, rfl, hends.of_raised hrun⟩
  | aborted fault => exact hends.of_aborted hrun

/-! ### Adding an object -/

/-- Why an object of some size is refused when every page is granted. -/
def insertRefusal (size : Nat) : Option Failure :=
  if wordLimit ≤ size then some (.fault .wordOverflow) else Allocator.requestRefusal size

/-- An object was added: under an id that named nothing, in a block of zeros. -/
structure Inserted (h h' : Heap) (object : Object) (pinned : Bool) (id : ObjectId) : Prop where
  tidy : h'.Tidy
  fresh : h.find? id = none
  found : ∃ block, object.size ≤ block.size ∧
    h'.find? id = some ⟨block, false, pinned, object⟩ ∧ ∀ i < block.size, h'.cell id i = 0
  only : OnlyAt id h h'

/-- A new block becomes the block of a new object. -/
lemma Tidy.occupy (ht : h.Tidy) {memory : Allocator} {block : Block} {object : Object}
    {pinned : Bool} (htiled : memory.Tiled (block :: h.blocks))
    (hkeeps : Allocator.Keeps h.memory memory h.blocks) (hlarge : object.size ≤ block.size)
    (hzero : ∀ o, block.offset ≤ o → o < block.stop → memory.byteAt block.page o = 0)
    (hroom : ({ h with memory := memory } : Heap).hasRoom = true) {id : ObjectId}
    (hocc : ({ h with memory := memory } : Heap).occupy ⟨block, false, pinned, object⟩ = (id, h')) :
    Inserted h h' object pinned id := by
  -- the slots do not know the memory, so they are well formed with the new one as well
  have hindexed : ({ h with memory := memory } : Heap).Indexed := ⟨ht.size, ht.vacant, ht.nodup⟩
  obtain ⟨hi, hfresh, hfind, hperm⟩ :=
    hindexed.occupy ⟨block, false, pinned, object⟩ hroom
  have hmemory : h'.memory = memory := by rw [← show _ = h' from congrArg Prod.snd hocc]; simp
  have hgray : h'.gray = h.gray := by rw [← show _ = h' from congrArg Prod.snd hocc]; simp
  have haged : Aged [] h h' := by
    rw [← show _ = h' from congrArg Prod.snd hocc]
    exact (aged_of_slots rfl).trans (hindexed.aged_occupy _)
  rw [hocc] at hi hfresh hfind hperm
  dsimp only at hi hfresh hfind hperm
  have hnew : h'.find? id = some ⟨block, false, pinned, object⟩ := by rw [hfind, if_pos rfl]
  have hold : ∀ other, other ≠ id → h'.find? other = h.find? other := by
    intro other hne
    rw [hfind, if_neg hne]
    rfl
  refine ⟨⟨hi, ?_⟩, hfresh, ⟨block, hlarge, hnew, fun i hlt => ?_⟩, hold, ?_, hgray, ?_,
    haged⟩
  · rw [hmemory]
    exact htiled.perm (hperm.map Entry.block).symm
  · rw [cell_eq hnew, hmemory]
    exact hzero _ (Nat.le_add_right _ _) (Nat.add_lt_add_left hlt _)
  · intro other entry hne hother i hlt
    rw [cell_eq hother, cell_eq ((hold other hne).trans hother), hmemory]
    exact hkeeps.bytes entry.block (List.mem_map_of_mem (mem_entries hother)) _
      (Nat.le_add_right _ _) (Nat.add_lt_add_left hlt _)
  · rw [hmemory]
    exact hkeeps.grants

/-- Adding an object, or nothing at all. -/
lemma Tidy.insert (ht : h.Tidy) (object : Object) (pinned : Bool) (journal : Journal) :
    (Heap.insert object pinned h journal).Served h.memory.Granted (h.hasRoom = false)
      (insertRefusal object.size) h fun id h' => Inserted h h' object pinned id := by
  unfold Heap.insert insertRefusal
  by_cases hword : wordLimit ≤ object.size
  · simp [hword, Outcome.Served, Outcome.Ends]
  simp only [hword, if_false]
  refine Outcome.Ends.bind ((onMemory_ends (ht.memory.allocate object.size journal)).imp
    (fun _ _ hdone => hdone) ?_ fun _ hfault => .inr hfault) ?_
  · rintro error h' ⟨memory, rfl, rfl, hrefusal⟩
    exact ⟨rfl, hrefusal⟩
  rintro block h' journal' ⟨memory, rfl, ⟨htiled, hkeeps, hlarge, hzero⟩, hrefusal⟩
  simp only [Action.note_bind, Action.get_bind]
  cases hroom : ({ h with memory := memory } : Heap).hasRoom with
  | false => exact .inl ⟨hroom, rfl⟩
  | true =>
      simp only [Bool.not_true, Bool.false_eq_true, if_false, Action.modifyGet_apply]
      exact ⟨ht.occupy htiled hkeeps hlarge hzero hroom rfl, hrefusal⟩

/-! ### Reserving more memory -/

/-- Why no more memory is reserved for an object when every page is granted. -/
def resizeRefusal (h : Heap) (id : ObjectId) : Option Failure :=
  (h.find? id).bind fun entry => insertRefusal entry.object.size

/-- An object has a block that is large enough for it, with the old bytes. -/
structure Resized (h h' : Heap) (id : ObjectId) : Prop where
  tidy : h'.Tidy
  found : ∀ entry, h.find? id = some entry → ∃ block, entry.block.size ≤ block.size ∧
    entry.object.size ≤ block.size ∧ h'.find? id = some { entry with block := block } ∧
    ∀ i < entry.block.size, h'.cell id i = h.cell id i
  missing : h.find? id = none → h'.find? id = none
  only : OnlyAt id h h'

/-- A heap in which the block of the object is large enough. -/
lemma Tidy.resized_refl (ht : h.Tidy)
    (hlarge : ∀ entry, h.find? id = some entry → entry.object.size ≤ entry.block.size) :
    Resized h h id :=
  ⟨ht, fun entry hfind => ⟨entry.block, Nat.le_refl _, hlarge entry hfind, hfind, fun _ _ => rfl⟩,
    fun hnone => hnone, .refl id h⟩

/-- The block of an object grows. -/
lemma Tidy.resized (ht : h.Tidy) (hfind : h.find? id = some entry) {memory : Allocator}
    {block : Block}
    (hgrown : Allocator.Grown h.memory memory (h.blocks.erase entry.block) entry.block block
      entry.object.size) :
    Resized h (({ h with memory := memory } : Heap).updateEntry id fun entry =>
      { entry with block := block }) id := by
  obtain ⟨pre, post, hlist, hupdate, hothers⟩ := exists_entries_updateEntry hfind
  have hperm : h.blocks.Perm (entry.block :: (pre ++ post).map Entry.block) := by
    rw [blocks, hlist]
    exact List.perm_middle.map _
  -- apart from its own block, the blocks of the other objects are those the allocator kept
  have herase : (h.blocks.erase entry.block).Perm ((pre ++ post).map Entry.block) :=
    ((List.perm_cons_erase (List.mem_map_of_mem (mem_entries hfind))).symm.trans hperm).cons_inv
  have hi : ({ h with memory := memory } : Heap).Indexed := ⟨ht.size, ht.vacant, ht.nodup⟩
  generalize hh : ({ h with memory := memory } : Heap).updateEntry id (fun entry =>
    { entry with block := block }) = h'
  have hmemory : h'.memory = memory := by rw [← hh]; rfl
  have hfind' : ∀ other, h'.find? other =
      if other = id then some { entry with block := block } else h.find? other := by
    intro other
    rw [← hh, find?_updateEntry]
    split
    · exact congrArg (Option.map _) hfind
    · rfl
  have hentries : h'.entries = pre ++ { entry with block := block } :: post := by
    rw [← hh]
    exact hupdate _
  have hnew : h'.find? id = some { entry with block := block } := by rw [hfind', if_pos rfl]
  have hold : ∀ other, other ≠ id → h'.find? other = h.find? other := by
    intro other hne
    rw [hfind', if_neg hne]
  have haged : Aged [] h h' := hh ▸ (aged_of_slots rfl).trans (aged_updateEntry _ id _)
  refine ⟨⟨hh ▸ hi.updateEntry _, ?_⟩, fun entry' hentry => ?_, fun hnone => ?_, hold, ?_, ?_, ?_,
    haged⟩
  · rw [hmemory, blocks, hentries]
    refine hgrown.tiled.perm ((herase.cons block).trans ?_)
    rw [List.map_append, List.map_append, List.map_cons]
    exact List.perm_middle.symm
  · obtain rfl := Option.some.inj (hfind.symm.trans hentry)
    refine ⟨block, hgrown.large.2, hgrown.large.1, hnew, fun i hlt => ?_⟩
    rw [cell_eq hnew, cell_eq hfind, hmemory]
    exact hgrown.old i hlt
  · cases hfind.symm.trans hnone
  · intro other entry' hne hother i hlt
    rw [cell_eq ((hold other hne).trans hother), cell_eq hother, hmemory]
    refine hgrown.keeps.bytes entry'.block ?_ _ (Nat.le_add_right _ _) (Nat.add_lt_add_left hlt _)
    exact herase.mem_iff.mpr (List.mem_map_of_mem (hothers other entry' hne hother))
  · rw [← hh]
    rfl
  · rw [hmemory]
    exact hgrown.keeps.grants

/-- Reserving memory for an object that has grown, or changing nothing. -/
lemma Tidy.resize (ht : h.Tidy) (id : ObjectId) (journal : Journal) :
    (Heap.resize id h journal).Served h.memory.Granted False (h.resizeRefusal id) h
      fun _ h' => Resized h h' id := by
  unfold Heap.resize resizeRefusal
  rw [Action.get_bind]
  cases hfind : h.find? id with
  | none => exact ⟨ht.resized_refl (by simp [hfind]), rfl⟩
  | some entry =>
      have hmem : entry.block ∈ h.blocks := List.mem_map_of_mem (mem_entries hfind)
      rw [Option.bind_some, insertRefusal]
      by_cases hword : wordLimit ≤ entry.object.size
      · simp [hword, Outcome.Served, Outcome.Ends]
      simp only [hword, if_false]
      by_cases hsmall : entry.block.size < entry.object.size
      · simp only [hsmall, if_true]
        have hgrow := onMemory_ends (ht.memory.grow hmem entry.object.size journal)
        refine Outcome.Ends.bind (hgrow.imp (fun _ _ hdone => hdone) ?_ fun _ => .inr) ?_
        · rintro error h' ⟨memory, rfl, rfl, hrefusal⟩
          exact ⟨rfl, hrefusal⟩
        · rintro block h' journal' ⟨memory, rfl, hgrown, hrefusal⟩
          exact ⟨ht.resized hfind hgrown, hrefusal⟩
      · simp only [hsmall, if_false]
        refine ⟨ht.resized_refl fun entry' hentry => ?_, ?_⟩
        · obtain rfl := Option.some.inj (hfind.symm.trans hentry)
          omega
        · exact ht.memory.requestRefusal_live hmem (by omega)

end Heap

end ScriptMachine
