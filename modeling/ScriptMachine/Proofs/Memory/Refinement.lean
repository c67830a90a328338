import Mathlib.Logic.Function.Basic
import ScriptMachine.Proofs.Memory.History

/-!
The allocator as a store of independent byte arrays.

A `Store` maps the live blocks to their bytes and knows nothing of pages,
headers or free lists. `Store.Step` says what each operation does to it: an
allocation adds zeros, a growth puts the old bytes and zeros behind them in the
place of the old bytes, and what is stored into one block is seen in no other.

* `Tiled.step_allocate`, `Tiled.step_free`, `Tiled.step_grow`,
  `Tiled.step_write`: each operation of the allocator is a step of the store;
* `Performs.step`: so is whatever a client does next;
* `Transcript.refines`: every transcript is a run of the store.
-/

namespace ScriptMachine.Memory

/-! ### Stores -/

/-- The bytes of the blocks that are live. -/
abbrev Store := Block → Option (List UInt8)

/-- What a client has done, and what it was given. -/
inductive Operation where
  | allocated (size : Nat) (block : Block)
  | freed (block : Block)
  | grew (block : Block) (size : Nat) (grown : Block)
  | stored (block : Block) (start : Nat) (values : List UInt8)
  /-- A request that raised an error. -/
  | refused

namespace Store

/-- The bytes of a block after `values` were stored from `start` on. -/
def splice (bytes : List UInt8) (start : Nat) (values : List UInt8) : List UInt8 :=
  bytes.take start ++ values ++ bytes.drop (start + values.length)

/-- What an operation does to a store. Which block is handed out is left open,
but for its size, and for its being none of those that are live. -/
inductive Step : Store → Operation → Store → Prop
  | allocate {store : Store} {size : Nat} {block : Block} (fresh : store block = none)
      (large : size ≤ block.size) :
      Step store (.allocated size block)
        (Function.update store block (some (.replicate block.size 0)))
  | free {store : Store} {block : Block} {bytes : List UInt8} (live : store block = some bytes) :
      Step store (.freed block) (Function.update store block none)
  | grow {store : Store} {size : Nat} {block grown : Block} {bytes : List UInt8}
      (live : store block = some bytes) (fresh : grown = block ∨ store grown = none)
      (large : size ≤ grown.size ∧ bytes.length ≤ grown.size) :
      Step store (.grew block size grown)
        (Function.update (Function.update store block none) grown
          (some (bytes ++ .replicate (grown.size - bytes.length) 0)))
  | store {store : Store} {block : Block} {bytes values : List UInt8} {start : Nat}
      (live : store block = some bytes) (fits : start + values.length ≤ bytes.length) :
      Step store (.stored block start values)
        (Function.update store block (some (splice bytes start values)))
  | refuse {store : Store} : Step store .refused store

/-- What operations, one after the other, do to a store. -/
inductive Run (first : Store) : List Operation → Store → Prop
  | start : Run first [] first
  | next {operations : List Operation} {operation : Operation} {store store' : Store}
      (past : Run first operations store) (step : Step store operation store') :
      Run first (operations ++ [operation]) store'

end Store

namespace Allocator

variable {a b : Allocator} {live : List Block} {block : Block} {size : Nat}

/-- The bytes of the live blocks of an allocator. -/
def store (a : Allocator) (live : List Block) : Store :=
  fun block => if block ∈ live then some (a.bytes block) else none

lemma store_of_mem (h : block ∈ live) : a.store live block = some (a.bytes block) := if_pos h

lemma store_of_not_mem (h : block ∉ live) : a.store live block = none := if_neg h

/-! ### Payloads -/

lemma getElem?_bytes (hin : block.stop ≤ a.lengthOf block.page) (i : Nat) :
    (a.bytes block)[i]? =
      if i < block.size then some (a.byteAt block.page (block.offset + i)) else none := by
  rw [bytes, read_eq hin, List.getElem?_map]
  by_cases hi : i < block.size
  · rw [if_pos hi, List.getElem?_range' hi, Nat.one_mul, Option.map_some]
  · rw [if_neg hi, List.getElem?_eq_none (by rw [List.length_range']; omega), Option.map_none]

/-- A payload is as long as its block says. -/
lemma length_bytes (hin : block.stop ≤ a.lengthOf block.page) :
    (a.bytes block).length = block.size := by
  rw [bytes, read_eq hin, List.length_map, List.length_range']

lemma SameBytes.bytes_eq (h : SameBytes a b block) (hin : block.stop ≤ a.lengthOf block.page)
    (hin' : block.stop ≤ b.lengthOf block.page) : b.bytes block = a.bytes block :=
  read_congr hin hin' h

/-- A payload all of whose bytes are zero. -/
lemma bytes_eq_replicate (hin : block.stop ≤ a.lengthOf block.page)
    (zeros : ∀ o, block.offset ≤ o → o < block.stop → a.byteAt block.page o = 0) :
    a.bytes block = .replicate block.size 0 := by
  refine List.ext_getElem? fun i => ?_
  rw [getElem?_bytes hin, List.getElem?_replicate]
  by_cases hi : i < block.size
  · have hlt : block.offset + i < block.stop := Nat.add_lt_add_left hi _
    rw [if_pos hi, if_pos hi, zeros _ (Nat.le_add_right _ _) hlt]
  · rw [if_neg hi, if_neg hi]

/-- What is stored into a payload replaces as many bytes of it. -/
lemma bytes_write {start : Nat} {values : List UInt8} (hin : block.stop ≤ a.lengthOf block.page)
    (fits : start + values.length ≤ block.size) :
    (a.write block.page (block.offset + start) values).bytes block =
      Store.splice (a.bytes block) start values := by
  have hstop : block.stop = block.offset + block.size := rfl
  have hlen := length_bytes hin
  refine List.ext_getElem? fun i => ?_
  rw [getElem?_bytes (by rwa [lengthOf_write])]
  simp only [Store.splice, List.getElem?_append, List.length_append, List.length_take,
    List.getElem?_take, List.getElem?_drop, hlen, Nat.min_eq_left (show start ≤ block.size by omega)]
  by_cases hi : i < block.size
  · rw [if_pos hi, byteAt_write (by omega) (by omega)]
    by_cases hbefore : i < start
    · rw [if_neg (by omega), if_pos (by omega), if_pos hbefore, if_pos hbefore,
        getElem?_bytes hin, if_pos hi]
    by_cases hafter : i < start + values.length
    · rw [if_pos (by omega), if_pos hafter, if_neg hbefore,
        List.getElem?_eq_getElem (by omega), List.getD_eq_getElem?_getD,
        List.getElem?_eq_getElem (by omega), Option.getD_some]
      congr 2
      omega
    · rw [if_neg (by omega), if_neg hafter, getElem?_bytes hin,
        show start + values.length + (i - (start + values.length)) = i by omega, if_pos hi]
  · rw [if_neg hi, if_neg (by omega), getElem?_bytes hin, if_neg (by omega)]

/-- The bytes of a block that grew: the old ones, then zeros. -/
lemma Grown.bytes_eq {grown : Block} (h : Grown a b live block grown size)
    (hin : block.stop ≤ a.lengthOf block.page) :
    b.bytes grown = a.bytes block ++ .replicate (grown.size - block.size) 0 := by
  have hgrown := h.tiled.inside (List.mem_cons_self ..)
  have hlarge := h.large.2
  refine List.ext_getElem? fun i => ?_
  rw [getElem?_bytes hgrown, List.getElem?_append, length_bytes hin, getElem?_bytes hin,
    List.getElem?_replicate]
  by_cases hold : i < block.size
  · rw [if_pos (by omega), if_pos hold, if_pos hold, h.old i hold]
  · by_cases hi : i < grown.size
    · rw [if_pos hi, if_neg hold, if_pos (by omega), h.zeros i (by omega) hi]
    · rw [if_neg hi, if_neg hold, if_neg (by omega)]

/-! ### Every operation is a step of the store -/

namespace Tiled

/-- No block is live twice. -/
lemma not_mem (h : a.Tiled (block :: live)) : block ∉ live := by
  intro hb
  have hapart := h.tiles.apart_of_mem (List.mem_append_left _ (List.mem_map_of_mem hb))
  unfold Tile.Apart Tile.stop headerSize at hapart
  omega

lemma not_mem_erase (h : a.Tiled live) (hb : block ∈ live) : block ∉ live.erase block :=
  (h.perm (List.perm_cons_erase hb)).not_mem

/-- A block that stays live, with the same payload, is the same in the store. -/
lemma store_eq (h : a.Tiled live) {live' : List Block} (h' : b.Tiled live')
    (hiff : block ∈ live' ↔ block ∈ live) (hsame : block ∈ live → SameBytes a b block) :
    b.store live' block = a.store live block := by
  by_cases hb : block ∈ live
  · have hb' := hiff.mpr hb
    rw [store_of_mem hb, store_of_mem hb',
      (hsame hb).bytes_eq (h.inside hb) (h'.inside hb')]
  · rw [store_of_not_mem hb, store_of_not_mem (mt hiff.mp hb)]

/-- A new block of zeros comes in. -/
lemma step_allocate (h : a.Tiled live) (size : Nat) (journal : Journal) :
    Outcome.Ends
      (fun block b => b.Tiled (block :: live) ∧
        Store.Step (a.store live) (.allocated size block) (b.store (block :: live)))
      (fun error b => b = a ∧ (a.Granted → requestRefusal size = some (.error error)))
      (fun fault => requestRefusal size = some (.fault fault))
      (Allocator.allocate size a journal) := by
  refine (h.allocate size journal).imp (fun block b hdone => ?_) (fun _ _ => id) fun _ hf => hf.2
  obtain ⟨⟨htiled, hkeeps, hlarge, hzeros⟩, -⟩ := hdone
  refine ⟨htiled, ?_⟩
  have hstore : b.store (block :: live) =
      Function.update (a.store live) block (some (.replicate block.size 0)) := by
    refine Function.eq_update_iff.mpr ⟨?_, fun other hne => ?_⟩
    · rw [store_of_mem (List.mem_cons_self ..),
        bytes_eq_replicate (htiled.inside (List.mem_cons_self ..)) hzeros]
    · exact h.store_eq htiled (by simp [hne]) (hkeeps.bytes other)
  rw [hstore]
  exact .allocate (store_of_not_mem htiled.not_mem) hlarge

/-- A live block can be given back, and its bytes are gone. -/
lemma step_free (h : a.Tiled live) (hb : block ∈ live) (journal : Journal) :
    ∃ b journal', Allocator.free block a journal = .done () b journal' ∧ b.Tiled (live.erase block) ∧
      Store.Step (a.store live) (.freed block) (b.store (live.erase block)) := by
  obtain ⟨b, journal', hfree, htiled, hkeeps⟩ := h.free hb journal
  refine ⟨b, journal', hfree, htiled, ?_⟩
  have hstore : b.store (live.erase block) = Function.update (a.store live) block none := by
    refine Function.eq_update_iff.mpr ⟨?_, fun other hne => ?_⟩
    · exact store_of_not_mem (h.not_mem_erase hb)
    · have hiff : other ∈ live.erase block ↔ other ∈ live := List.mem_erase_of_ne hne
      exact h.store_eq htiled hiff fun hlive => hkeeps.bytes other (hiff.mpr hlive)
  rw [hstore]
  exact .free (store_of_mem hb)

/-- A live block that grows keeps its bytes, with zeros behind. -/
lemma step_grow (h : a.Tiled live) (hb : block ∈ live) (size : Nat) (journal : Journal) :
    Outcome.Ends
      (fun grown b => b.Tiled (grown :: live.erase block) ∧
        Store.Step (a.store live) (.grew block size grown) (b.store (grown :: live.erase block)))
      (fun error b => b = a ∧ (a.Granted → requestRefusal size = some (.error error)))
      (fun fault => requestRefusal size = some (.fault fault))
      (Allocator.grow block size a journal) := by
  refine (h.grow hb size journal).imp (fun grown b hdone => ?_) (fun _ _ => id) fun _ hf => hf.2
  obtain ⟨hgrown, -⟩ := hdone
  refine ⟨hgrown.tiled, ?_⟩
  have hlen : (a.bytes block).length = block.size := length_bytes (h.inside hb)
  -- the old block goes and the new one comes, which may be the same block
  have hstore : b.store (grown :: live.erase block) =
      Function.update (Function.update (a.store live) block none) grown
        (some (a.bytes block ++ .replicate (grown.size - (a.bytes block).length) 0)) := by
    refine Function.eq_update_iff.mpr ⟨?_, fun other hne => ?_⟩
    · rw [store_of_mem (List.mem_cons_self ..), hgrown.bytes_eq (h.inside hb), hlen]
    · rcases eq_or_ne other block with rfl | hother
      · rw [Function.update_self]
        exact store_of_not_mem (by simp [hne, h.not_mem_erase hb])
      · rw [Function.update_of_ne hother]
        have hiff : other ∈ live.erase block ↔ other ∈ live := List.mem_erase_of_ne hother
        refine h.store_eq hgrown.tiled (by simp [hne, hiff]) fun hlive => ?_
        exact hgrown.keeps.bytes other (hiff.mpr hlive)
  rw [hstore]
  refine .grow (store_of_mem hb) ?_ ⟨hgrown.large.1, hlen ▸ hgrown.large.2⟩
  rcases eq_or_ne grown block with heq | hne
  · exact .inl heq
  · refine .inr (store_of_not_mem fun hmem => hgrown.tiled.not_mem ?_)
    exact (List.mem_erase_of_ne hne).mpr hmem

/-- What is stored into a live block is seen in this block only. -/
lemma step_write (h : a.Tiled live) (hb : block ∈ live) {start : Nat} {values : List UInt8}
    (fits : start + values.length ≤ block.size) :
    (a.write block.page (block.offset + start) values).Tiled live ∧
      Store.Step (a.store live) (.stored block start values)
        ((a.write block.page (block.offset + start) values).store live) := by
  have hin := h.inside hb
  have hstop : block.stop = block.offset + block.size := rfl
  have hw := within_write h hb (Nat.le_add_right block.offset start)
    (show block.offset + start + values.length ≤ block.stop by omega)
  have htiled := h.within hb hw rfl rfl rfl rfl
  refine ⟨htiled, ?_⟩
  have hstore : (a.write block.page (block.offset + start) values).store live =
      Function.update (a.store live) block (some (Store.splice (a.bytes block) start values)) := by
    refine Function.eq_update_iff.mpr ⟨?_, fun other hne => ?_⟩
    · rw [store_of_mem hb, bytes_write hin fits]
    · refine h.store_eq htiled Iff.rfl fun hlive => ?_
      have hkeeps := hw.keeps (h.perm (List.perm_cons_erase hb)) rfl rfl
      exact hkeeps.bytes other ((List.mem_erase_of_ne hne).mpr hlive)
  rw [hstore]
  exact .store (store_of_mem hb) (by rwa [length_bytes hin])

end Tiled

/-! ### Transcripts -/

/-- One operation of a client: the allocator and its live blocks before, what
was done, and the allocator and its live blocks after. -/
inductive Performs : Allocator → List Block → Operation → Allocator → List Block → Prop
  | allocate {a b : Allocator} {live : List Block} {block : Block} {journal' : Journal}
      (size : Nat) (journal : Journal) (h : allocate size a journal = .done block b journal') :
      Performs a live (.allocated size block) b (block :: live)
  | allocateRefused {a b : Allocator} {live : List Block} {error : Error} {journal' : Journal}
      (size : Nat) (journal : Journal) (h : allocate size a journal = .raised error b journal') :
      Performs a live .refused b live
  | free {a b : Allocator} {live : List Block} {block : Block} {journal' : Journal}
      (mem : block ∈ live) (journal : Journal) (h : free block a journal = .done () b journal') :
      Performs a live (.freed block) b (live.erase block)
  | grow {a b : Allocator} {live : List Block} {block grown : Block} {journal' : Journal}
      (mem : block ∈ live) (size : Nat) (journal : Journal)
      (h : grow block size a journal = .done grown b journal') :
      Performs a live (.grew block size grown) b (grown :: live.erase block)
  | growRefused {a b : Allocator} {live : List Block} {block : Block} {error : Error}
      {journal' : Journal} (mem : block ∈ live) (size : Nat) (journal : Journal)
      (h : grow block size a journal = .raised error b journal') : Performs a live .refused b live
  | store {a : Allocator} {live : List Block} {block : Block} (mem : block ∈ live) (start : Nat)
      (values : List UInt8) (fits : start + values.length ≤ block.size) :
      Performs a live (.stored block start values)
        (a.write block.page (block.offset + start) values) live

/-- Everything a client has done to an allocator since it was created. Between two
operations the system may begin to refuse pages, or cease to. -/
inductive Transcript (pageSize : Nat) (grants : Nat → Bool) :
    List Operation → Allocator → List Block → Prop
  | create {a : Allocator} (h : create pageSize grants = .ok a) : Transcript pageSize grants [] a []
  | next {a b : Allocator} {live live' : List Block} {operations : List Operation}
      {operation : Operation} (past : Transcript pageSize grants operations a live)
      (h : Performs a live operation b live') :
      Transcript pageSize grants (operations ++ [operation]) b live'
  | grant {a : Allocator} {live : List Block} {operations : List Operation}
      (past : Transcript pageSize grants operations a live) (others : Nat → Bool) :
      Transcript pageSize grants operations (a.granting others) live

/-- Whatever a client does, the pages stay tiled and the store takes a step. -/
lemma Performs.step {live' : List Block} {operation : Operation}
    (h : Performs a live operation b live') (ht : a.Tiled live) :
    b.Tiled live' ∧ Store.Step (a.store live) operation (b.store live') := by
  cases h with
  | allocate size journal h => exact (ht.step_allocate size journal).of_done h
  | allocateRefused size journal h =>
      obtain ⟨rfl, -⟩ := (ht.step_allocate size journal).of_raised h
      exact ⟨ht, .refuse⟩
  | free mem journal h =>
      obtain ⟨c, journal', hfree, hstep⟩ := ht.step_free mem journal
      rw [h] at hfree
      cases hfree
      exact hstep
  | grow mem size journal h => exact (ht.step_grow mem size journal).of_done h
  | growRefused mem size journal h =>
      obtain ⟨rfl, -⟩ := (ht.step_grow mem size journal).of_raised h
      exact ⟨ht, .refuse⟩
  | store mem start values fits => exact ht.step_write mem fits

variable {pageSize : Nat} {grants : Nat → Bool} {operations : List Operation}

/-- A whole transcript is a run of the store, from the store without blocks. -/
lemma Transcript.run (h : Transcript pageSize grants operations a live) :
    a.Tiled live ∧ Store.Run (fun _ => none) operations (a.store live) := by
  induction h with
  | create h => exact ⟨tiled_of_create h, .start⟩
  | next past h ih =>
      obtain ⟨htiled, hstep⟩ := h.step ih.1
      exact ⟨htiled, ih.2.next hstep⟩
  | grant past others ih => exact ⟨ih.1.granting others, ih.2⟩

/-- The allocator is a store of independent byte arrays. What a client has done
so far is a run of the store, which ends with the bytes that the live blocks
have; and so it goes on: an allocation adds zeros, at least as many as asked
for, or changes nothing; a live block can always be given back; a growth puts
the whole old payload with zeros behind it in the place of the old one, or
changes nothing; and storing into a block changes this block only. -/
theorem Transcript.refines (h : Transcript pageSize grants operations a live) :
    Store.Run (fun _ => none) operations (a.store live) ∧
      (∀ size journal, Outcome.Ends
        (fun block b =>
          Store.Step (a.store live) (.allocated size block) (b.store (block :: live)))
        (fun error b => b = a ∧ (a.Granted → requestRefusal size = some (.error error)))
        (fun fault => requestRefusal size = some (.fault fault))
        (allocate size a journal)) ∧
      (∀ block ∈ live, ∀ journal, ∃ b journal', free block a journal = .done () b journal' ∧
        Store.Step (a.store live) (.freed block) (b.store (live.erase block))) ∧
      (∀ block ∈ live, ∀ size journal, Outcome.Ends
        (fun grown b => Store.Step (a.store live) (.grew block size grown)
          (b.store (grown :: live.erase block)))
        (fun error b => b = a ∧ (a.Granted → requestRefusal size = some (.error error)))
        (fun fault => requestRefusal size = some (.fault fault))
        (grow block size a journal)) ∧
      ∀ block ∈ live, ∀ start values, start + values.length ≤ block.size →
        Store.Step (a.store live) (.stored block start values)
          ((a.write block.page (block.offset + start) values).store live) := by
  obtain ⟨ht, hrun⟩ := h.run
  refine ⟨hrun, fun size journal => ?_, fun block hb journal => ?_, fun block hb size journal => ?_,
    fun block hb start values fits => (ht.step_write hb fits).2⟩
  · exact (ht.step_allocate size journal).imp_done fun _ _ h => h.2
  · obtain ⟨b, journal', hfree, -, hstep⟩ := ht.step_free hb journal
    exact ⟨b, journal', hfree, hstep⟩
  · exact (ht.step_grow hb size journal).imp_done fun _ _ h => h.2

/-- Two blocks of one page, with a byte stored into each. The one that comes
last on the page has to move in order to grow; its bytes move with it, and the
other block keeps its own. -/
theorem Transcript.refines_moved :
    ∃ a operations, Transcript 128 (fun _ => true) operations a [⟨0, 16, 40⟩, ⟨0, 72, 24⟩] ∧
      Store.Run (fun _ => none) operations (a.store [⟨0, 16, 40⟩, ⟨0, 72, 24⟩]) ∧
      a.bytes ⟨0, 16, 40⟩ = [0, 7] ++ List.replicate 38 0 ∧
      a.bytes ⟨0, 72, 24⟩ = [5] ++ List.replicate 23 0 := by
  have served : Transcript 128 (fun _ => true) _ _ [⟨0, 72, 24⟩, ⟨0, 112, 16⟩] :=
    ((Transcript.create rfl).next (.allocate 10 .silent rfl)).next (.allocate 20 .silent rfl)
  have filled : Transcript 128 (fun _ => true) _ _ [⟨0, 72, 24⟩, ⟨0, 112, 16⟩] :=
    (served.next (.store (by simp : ⟨0, 112, 16⟩ ∈ _) 1 [7] (by decide))).next
      (.store (by simp : ⟨0, 72, 24⟩ ∈ _) 0 [5] (by decide))
  have moved : Transcript 128 (fun _ => true) _ _ [⟨0, 16, 40⟩, ⟨0, 72, 24⟩] :=
    filled.next (.grow (by simp : ⟨0, 112, 16⟩ ∈ _) 30 .silent rfl)
  exact ⟨_, _, moved, moved.refines.1, by decide, by decide⟩

end Allocator

end ScriptMachine.Memory
