import ScriptMachine.Heap.Array
import ScriptMachine.Heap.Text
import ScriptMachine.Proofs.ArrayKind
import ScriptMachine.Proofs.Heap.Sound

/-!
What objects consist of, and the strings that keep their contents in memory.

* `Heap.get?_eq_some_iff`: the content under a reference is that of the object
  that its id names;
* `Sound.put`: another content under the same reference;
* `Added`: a new object with its bytes;
* `Sound.setChar`, `Sound.insertText`: the bytes of a string, cell by cell.
-/

namespace ScriptMachine

open Memory

/-- An object has a content of a kind exactly if it was made from it. -/
lemma Object.content?_eq_some_iff {object : Object} {k : Kind} {content : k.Content} :
    object.content? k = some content ↔ object = .ofContent k content := by
  cases k <;> cases object <;> simp [Object.content?, Object.ofContent]

/-- The kind of an object. -/
def Object.kind : Object → Kind
  | .array _ => .array
  | .cls _ => .cls
  | .closure _ => .closure
  | .function _ => .function
  | .inst _ => .inst
  | .native _ => .native
  | .stack _ => .stack
  | .string _ => .string
  | .table _ => .table
  | .upvalue _ => .upvalue
  | .vector _ => .vector

lemma Object.kind_ofContent {k : Kind} (content : k.Content) : (ofContent k content).kind = k := by
  cases k <;> rfl

/-- The record of a string or an array is consistent. -/
def Object.Valid : Object → Prop
  | .array a => a.length ≤ a.capacity
  | .string s => s.length ≤ s.capacity
  | _ => True

/-- A consistent object fits into a block of its size. -/
lemma Object.Valid.fits {object : Object} {block : Block} (hv : object.Valid)
    (hlarge : object.size ≤ block.size) : object.Fits block := by
  cases object with
  | array a => exact ⟨hv, Nat.le_trans (Nat.le_add_left _ _) hlarge⟩
  | string s => exact ⟨hv, Nat.le_trans (Nat.le_add_left _ _) hlarge⟩
  | _ => trivial

/-- The record of a string with the given bytes. -/
def StringRecord.holding (capacity : Nat) (bytes : List UInt8) : StringRecord :=
  ⟨bytes.length, capacity, Hash.ofBytes bytes, (Heap.decode? bytes).isSome⟩

namespace Heap

variable {h h' : Heap} {id other : ObjectId} {entry : Entry} {k : Kind} {ref : Ref k}
  {content : k.Content}

/-! ### Contents -/

lemma get?_eq_some_iff : h.get? ref = some content ↔
    ∃ entry, h.find? ref.id = some entry ∧ entry.object = .ofContent k content := by
  unfold get? object?
  cases h.find? ref.id with
  | none => simp
  | some entry => simp [Object.content?_eq_some_iff]

lemma read_of_get? (hget : h.get? ref = some content) : h.read ref = .ok content := by
  simp [read, hget]

lemma read_of_none (hget : h.get? ref = none) :
    h.read ref = Result.abort .staleReference := by
  simp [read, hget]

lemma find?_put (other : ObjectId) : (h.put ref content).find? other =
    if other = ref.id then
      (h.find? ref.id).map fun entry => { entry with object := .ofContent k content }
    else h.find? other := by
  unfold put
  rw [find?_updateEntry]

@[simp] lemma cell_put : (h.put ref content).cell other = h.cell other := by
  funext i
  have hblock : ∀ entry : Entry, h.find? ref.id = some entry →
      ({ entry with object := .ofContent k content } : Entry).block = entry.block := fun _ _ => rfl
  exact cell_updateEntry hblock i

lemma onlyAt_put : OnlyAt ref.id h (h.put ref content) :=
  onlyAt_updateEntry (f := fun entry => { entry with object := .ofContent k content }) fun _ _ => rfl

lemma Tidy.put (ht : h.Tidy) : (h.put ref content).Tidy := ht.updateEntry fun _ _ => rfl

/-- Another content that fits into the block. -/
lemma Sound.put (hs : h.Sound)
    (hfits : ∀ entry, h.find? ref.id = some entry → (Object.ofContent k content).Fits entry.block) :
    (h.put ref content).Sound :=
  hs.updateEntry (fun _ _ => rfl) hfits

/-- The content that stands in the heap already. -/
lemma put_self (hget : h.get? ref = some content) : h.put ref content = h := by
  obtain ⟨entry, hfind, hobject⟩ := get?_eq_some_iff.mp hget
  obtain ⟨frees, hgeneration, hslot⟩ := find?_eq_some_iff.mp hfind
  have hslots : (h.put ref content).slots = h.slots := by
    refine Array.ext_getElem? fun i => ?_
    simp only [put, updateEntry, Array.getElem?_modify]
    split
    · rename_i heq
      rw [← heq, hslot, Option.map_some, if_pos (by exact hgeneration), Option.map_some, ← hobject]
    · rfl
  exact congrArg (fun slots => ({ h with slots := slots } : Heap)) hslots

/-- Of two contents that are put under one id the second one stays. -/
lemma put_put {l : Kind} (content' : l.Content) :
    (h.put (⟨ref.id⟩ : Ref l) content').put ref content = h.put ref content := by
  have hslots : ((h.put (⟨ref.id⟩ : Ref l) content').put ref content).slots =
      (h.put ref content).slots := by
    refine Array.ext_getElem? fun i => ?_
    simp only [put, updateEntry, Array.getElem?_modify]
    split
    · cases h.slots[i]? with
      | none => rfl
      | some slot =>
          simp only [Option.map_some]
          by_cases hgen : slot.generation = ref.id.generation
          · simp [hgen, Option.map_map, Function.comp_def]
          · simp [hgen]
    · rfl
  exact congrArg (fun slots => ({ h with slots := slots } : Heap)) hslots

/-- An action on the content of an object runs on that content, and puts back
what it leaves. -/
lemma onContent_apply {α : Type} (hget : h.get? ref = some content)
    (action : Action k.Content α) (journal : Journal) :
    onContent ref action h journal =
      match action content journal with
      | .done value content journal => .done value (h.put ref content) journal
      | .raised error content journal => .raised error (h.put ref content) journal
      | .aborted fault => .aborted fault := by
  have hplace : ∀ content : k.Content, (h.updateEntry ref.id fun entry =>
      { entry with object := .placeholder }).put ref content = h.put ref content :=
    fun _ => put_put (l := .upvalue) (.opened 0)
  unfold onContent take?
  rw [hget]
  dsimp only
  cases action content journal with
  | done value content journal => exact congrArg (Outcome.done value · journal) (hplace content)
  | raised error content journal => exact congrArg (Outcome.raised error · journal) (hplace content)
  | aborted fault => rfl

/-! ### Memory of one object -/

/-- Two heaps that differ in the memory of one object only. -/
structure Rewritten (id : ObjectId) (h h' : Heap) : Prop where
  tidy : h'.Tidy
  only : OnlyAt id h h'
  found : h'.find? id = h.find? id

lemma Tidy.rewritten (ht : h.Tidy) (id : ObjectId) : Rewritten id h h := ⟨ht, .refl id h, rfl⟩

lemma Rewritten.trans {h'' : Heap} (hr : Rewritten id h h') (hr' : Rewritten id h' h'') :
    Rewritten id h h'' :=
  ⟨hr'.tidy, hr.only.trans hr'.only, hr'.found.trans hr.found⟩

lemma Rewritten.find?_eq (hr : Rewritten id h h') (other : ObjectId) :
    h'.find? other = h.find? other := by
  by_cases heq : other = id
  · rw [heq, hr.found]
  · exact hr.only.others other heq

lemma Rewritten.sound (hr : Rewritten id h h') (hs : h.Sound) : h'.Sound :=
  ⟨hr.tidy, fun other entry hother => hs.fits other entry ((hr.find?_eq other).symm.trans hother)⟩

lemma Tidy.rewritten_writeBytes (ht : h.Tidy) (hfind : h.find? id = some entry) {offset : Nat}
    {bytes : List UInt8} (hle : offset + bytes.length ≤ entry.block.size) :
    Rewritten id h (h.writeBytes id offset bytes) := by
  obtain ⟨htidy, honly, hfound, -⟩ := ht.writeBytes hfind hle
  exact ⟨htidy, honly, hfound id⟩

/-! ### Strings -/

/-- An object that is consistent in itself was added, with the given bytes in
its memory. -/
structure Added (h h' : Heap) (object : Object) (pinned : Bool) (contents : Nat → UInt8)
    (id : ObjectId) : Prop where
  sound : h'.Sound
  fresh : h.find? id = none
  found : ∃ block, object.size ≤ block.size ∧
    h'.find? id = some ⟨block, false, pinned, object⟩ ∧ ∀ i < block.size, h'.cell id i = contents i
  only : OnlyAt id h h'

lemma Inserted.added {object : Object} {pinned : Bool} (hi : Inserted h h' object pinned id)
    (hs : h.Sound) (hv : object.Valid) : Added h h' object pinned (fun _ => 0) id := by
  refine ⟨⟨hi.tidy, fun other entry hother => ?_⟩, hi.fresh, hi.found, hi.only⟩
  by_cases heq : other = id
  · obtain ⟨block, hlarge, hfind, -⟩ := hi.found
    obtain rfl := Option.some.inj ((heq ▸ hfind).symm.trans hother)
    exact hv.fits hlarge
  · exact hs.fits other entry ((hi.only.others other heq).symm.trans hother)

/-- Bytes are stored at the start of a new object. -/
lemma Added.writeBytes {h'' : Heap} {object : Object} {pinned : Bool} {bytes : List UInt8}
    (ha : Added h h' object pinned (fun _ => 0) id) (hle : bytes.length ≤ object.size)
    (heq : h'.writeBytes id 0 bytes = h'') :
    Added h h'' object pinned (fun i => bytes.getD i 0) id := by
  obtain ⟨block, hlarge, hfind, hzero⟩ := ha.found
  have hfit : 0 + bytes.length ≤ block.size := by omega
  have hr := ha.sound.toTidy.rewritten_writeBytes hfind hfit
  obtain ⟨-, -, -, hcells⟩ := ha.sound.toTidy.writeBytes hfind hfit
  subst heq
  refine ⟨hr.sound ha.sound, ha.fresh, ⟨block, hlarge, hr.found.trans hfind, fun i hi => ?_⟩,
    ha.only.trans hr.only⟩
  rw [hcells i hi, hzero i hi]
  split
  · rfl
  · rw [List.getD_eq_getElem?_getD, List.getElem?_eq_none (by omega), Option.getD_none]

/-- Adding a string, or nothing at all. -/
lemma Sound.insertText (hs : h.Sound) (text : String) (pinned : Bool) (journal : Journal) :
    (Heap.insertText text pinned h journal).Served h.memory.Granted (h.hasRoom = false)
      (insertRefusal (Object.string (.ofBytes text.toUTF8.toList)).size) h fun ref h' =>
        Added h h' (.string (.ofBytes text.toUTF8.toList)) pinned
          (fun i => text.toUTF8.toList.getD i 0) ref.id := by
  unfold Heap.insertText
  generalize text.toUTF8.toList = bytes
  have hround : bytes.length ≤ roundUp bytes.length := by
    unfold roundUp
    omega
  refine (hs.toTidy.insert _ pinned journal).bind fun id h' journal' hi => ⟨_, _, _, rfl, ?_⟩
  refine (hi.added hs hround).writeBytes ?_ rfl
  exact Nat.le_trans hround (Nat.le_add_left _ _)

/-- The cells of a string up to its length. -/
lemma Sound.textBytes (hs : h.Sound) {ref : Ref .string} {record : StringRecord}
    (hget : h.get? ref = some record) :
    h.textBytes ref = .ok ((List.range record.length).map (h.cell ref.id)) := by
  obtain ⟨entry, hfind, hobject⟩ := get?_eq_some_iff.mp hget
  have hfits : record.length ≤ record.capacity ∧ record.capacity ≤ entry.block.size := by
    have := hs.fits _ _ hfind
    rwa [hobject] at this
  unfold Heap.textBytes
  rw [read_of_get? hget]
  exact congrArg Except.ok (hs.toTidy.bytes_eq hfind (Nat.le_trans hfits.1 hfits.2))

/-- Storing a character: one cell changes, and the record follows the bytes. -/
lemma Sound.setChar (hs : h.Sound) {ref : Ref .string} {record : StringRecord}
    (hfind : h.find? ref.id = some entry) (hobject : entry.object = .string record) {byte : UInt8}
    (hascii : isAscii byte = true) {index : Nat} (hlt : index < record.capacity)
    (journal : Journal) :
    ∃ h', Heap.setChar ref index byte h journal = .done true h' journal ∧ h'.Sound ∧
      OnlyAt ref.id h h' ∧
      (∀ i < entry.block.size, h'.cell ref.id i = if i = index then byte else h.cell ref.id i) ∧
      h'.find? ref.id = some { entry with
        object := .string (.holding record.capacity
          ((List.range (max record.length (index + 1))).map (h'.cell ref.id))) } := by
  have hfits : record.length ≤ record.capacity ∧ record.capacity ≤ entry.block.size := by
    have := hs.fits _ _ hfind
    rwa [hobject] at this
  have hread : h.read ref = .ok record :=
    read_of_get? (get?_eq_some_iff.mpr ⟨entry, hfind, hobject⟩)
  have hfit : index + [byte].length ≤ entry.block.size := by
    rw [List.length_singleton]
    omega
  have hr := hs.toTidy.rewritten_writeBytes hfind hfit
  obtain ⟨-, -, -, hcells⟩ := hs.toTidy.writeBytes hfind hfit
  have hfind' := hr.found.trans hfind
  -- the record is computed anew from the bytes that are there after the write
  have hbytes : (h.writeBytes ref.id index [byte]).bytes ref.id (max record.length (index + 1)) =
      (List.range (max record.length (index + 1))).map
        ((h.writeBytes ref.id index [byte]).cell ref.id) :=
    hr.tidy.bytes_eq hfind' (by omega)
  refine ⟨(h.writeBytes ref.id index [byte]).put ref (.holding record.capacity
    ((List.range (max record.length (index + 1))).map
      ((h.writeBytes ref.id index [byte]).cell ref.id))),
    ?_, (hr.sound hs).put fun entry' hentry => ?_, hr.only.trans onlyAt_put, fun i hi => ?_, ?_⟩
  · rw [← hbytes]
    unfold Heap.setChar
    simp [-bind_pure_comp, hascii, hread, Nat.not_le.mpr hlt, StringRecord.holding, hbytes]
  · obtain rfl := Option.some.inj (hfind'.symm.trans hentry)
    refine ⟨?_, hfits.2⟩
    simp only [StringRecord.holding, List.length_map, List.length_range]
    omega
  · rw [cell_put, hcells i hi]
    by_cases heq : i = index
    · rw [if_pos (by simp [heq]), if_pos heq, heq, Nat.sub_self]
      rfl
    · rw [if_neg (by rw [List.length_singleton]; omega), if_neg heq]
  · rw [cell_put, find?_put, if_pos rfl, hfind']
    rfl

end Heap

end ScriptMachine
