import ScriptMachine.Proofs.Memory.Requests

/-!
Everything that can happen to an allocator.

`Allocator.History` is what a client can do: create an allocator, allocate,
give live blocks back, let live blocks grow, and store into their payloads. In
between the system may change its mind about the pages it hands out. A history
keeps the list of the blocks that are live. Every operation keeps the pages
tiled (`History.tiled`), and a tiling of a page can be laid out in address
order (`Tiles.exists_layout`). Main result: `History.exactly_tiled`.
-/

namespace ScriptMachine.Memory

/-! ### Tiles in address order -/

/-- Tiles of one page that follow each other without gap from one offset to
another. -/
def Layout (page : Nat) : (start stop : Nat) → List Tile → Prop
  | start, stop, [] => start = stop
  | start, stop, t :: rest => t.page = page ∧ t.offset = start ∧ Layout page t.stop stop rest

/-- Tiles that are apart and cover a range of a page can be laid out in it. The
induction takes away the tile that covers the first byte. -/
lemma exists_layout_of_covered {page start stop : Nat} {tiles : List Tile} (hle : start ≤ stop)
    (hapart : tiles.Pairwise Tile.Apart)
    (hin : ∀ t ∈ tiles, t.page = page ∧ start ≤ t.offset ∧ t.stop ≤ stop)
    (hcov : ∀ o, start ≤ o → o < stop → ∃ t ∈ tiles, t.Covers page o) :
    ∃ layout, layout.Perm tiles ∧ Layout page start stop layout := by
  have hpos : ∀ t : Tile, t.offset < t.stop := by
    intro t
    unfold Tile.stop headerSize
    omega
  induction hn : tiles.length generalizing start tiles with
  | zero =>
      obtain rfl := List.eq_nil_of_length_eq_zero hn
      refine ⟨[], .refl _, Nat.le_antisymm hle (Nat.le_of_not_lt fun hlt => ?_)⟩
      obtain ⟨t, ht, -⟩ := hcov start (Nat.le_refl _) hlt
      cases ht
  | succ n ih =>
      have hlt : start < stop := by
        obtain ⟨t, ht⟩ := List.exists_mem_of_length_eq_add_one hn
        have := hin t ht
        have := hpos t
        omega
      obtain ⟨t, ht, hpage, hlow, hhigh⟩ := hcov start (Nat.le_refl _) hlt
      have hfirst : t.offset = start := Nat.le_antisymm hlow (hin t ht).2.1
      have hperm := List.perm_cons_erase ht
      have hcons := List.pairwise_cons.mp ((hperm.pairwise_iff fun h => h.symm).mp hapart)
      have hlater : ∀ s ∈ tiles.erase t, s.page = page ∧ t.stop ≤ s.offset ∧ s.stop ≤ stop := by
        intro s hs
        have hs' := hin s (List.mem_of_mem_erase hs)
        have happ := hcons.1 s hs
        have := hpos s
        unfold Tile.Apart at happ
        omega
      obtain ⟨layout, hlayout, hrest⟩ := ih (hin t ht).2.2 hcons.2 hlater (fun o hlo hhi => by
          obtain ⟨s, hs, hc⟩ := hcov o (by omega) hhi
          refine ⟨s, (List.mem_erase_of_ne ?_).mpr hs, hc⟩
          rintro rfl
          unfold Tile.Covers at hc
          omega)
        (by rw [List.length_erase_of_mem ht, hn]; rfl)
      exact ⟨t :: layout, (hlayout.cons t).trans hperm.symm, hpage, hfirst, hrest⟩

/-- The tiles of a page can be laid out from its first byte to its last. -/
lemma Tiles.exists_layout {length : Nat → Nat} {tiles : List Tile} (h : Tiles length tiles)
    (page : Nat) : ∃ layout, layout.Perm (tiles.filter (·.page = page)) ∧
      Layout page 0 (length page) layout := by
  refine exists_layout_of_covered (Nat.zero_le _) (h.apart.filter _) (fun t ht => ?_) fun o _ ho => ?_
  · obtain ⟨ht, hpage⟩ := List.mem_filter.mp ht
    have hpage : t.page = page := by simpa using hpage
    exact ⟨hpage, Nat.zero_le _, hpage ▸ h.inside t ht⟩
  · obtain ⟨t, ht, hc⟩ := h.covered page o ho
    exact ⟨t, List.mem_filter.mpr ⟨ht, by simpa using hc.1⟩, hc⟩

namespace Allocator

/-! ### Histories -/

/-- What a client can do to an allocator, and the blocks that are live then.
A request that raises an error is over; the client goes on. Which pages are to be
had is fixed only until the next operation: a page of a length that was handed out
before may be refused. -/
inductive History (pageSize : Nat) (grants : Nat → Bool) : Allocator → List Block → Prop
  | create {a : Allocator} (h : create pageSize grants = .ok a) : History pageSize grants a []
  | allocate {a b : Allocator} {live : List Block} {block : Block} {journal' : Journal}
      (past : History pageSize grants a live) (size : Nat) (journal : Journal)
      (h : allocate size a journal = .done block b journal') :
      History pageSize grants b (block :: live)
  | allocateRefused {a b : Allocator} {live : List Block} {error : Error} {journal' : Journal}
      (past : History pageSize grants a live) (size : Nat) (journal : Journal)
      (h : allocate size a journal = .raised error b journal') : History pageSize grants b live
  | free {a b : Allocator} {live : List Block} {block : Block} {journal' : Journal}
      (past : History pageSize grants a live) (mem : block ∈ live) (journal : Journal)
      (h : free block a journal = .done () b journal') :
      History pageSize grants b (live.erase block)
  | grow {a b : Allocator} {live : List Block} {block grown : Block} {journal' : Journal}
      (past : History pageSize grants a live) (mem : block ∈ live) (size : Nat)
      (journal : Journal) (h : grow block size a journal = .done grown b journal') :
      History pageSize grants b (grown :: live.erase block)
  | growRefused {a b : Allocator} {live : List Block} {block : Block} {error : Error}
      {journal' : Journal} (past : History pageSize grants a live) (mem : block ∈ live)
      (size : Nat) (journal : Journal)
      (h : grow block size a journal = .raised error b journal') : History pageSize grants b live
  | store {a : Allocator} {live : List Block} {block : Block}
      (past : History pageSize grants a live) (mem : block ∈ live) (offset : Nat)
      (values : List UInt8) (low : block.offset ≤ offset)
      (high : offset + values.length ≤ block.stop) :
      History pageSize grants (a.write block.page offset values) live
  | grant {a : Allocator} {live : List Block} (past : History pageSize grants a live)
      (others : Nat → Bool) : History pageSize grants (a.granting others) live

variable {a b : Allocator} {live : List Block} {pageSize : Nat} {grants : Nat → Bool}

/-- A new allocator has no pages to tile. -/
lemma tiled_of_create (h : create pageSize grants = .ok a) : a.Tiled [] := by
  unfold create at h
  split at h
  · rename_i hsize
    cases h
    obtain ⟨hpow, hroom, hword⟩ := hsize
    have hhalf : 2 * pageSize ≤ wordLimit := by
      obtain ⟨k, rfl⟩ := isPowerOfTwo_iff.mp hpow
      have hk : k < 64 := (Nat.pow_lt_pow_iff_right (by decide : 1 < 2)).mp hword
      rw [Nat.mul_comm, ← Nat.pow_succ]
      exact Nat.pow_le_pow_right (by decide) hk
    have hnone : ∀ page, (⟨pageSize, #[], [], 0, 0, grants⟩ : Allocator).lengthOf page = 0 :=
      fun page => rfl
    refine ⟨⟨hpow, hroom⟩, ⟨hhalf, fun page => ?_⟩, ⟨.nil, nofun, nofun, fun page o ho => ?_⟩,
      nofun, .nil, nofun, rfl, rfl⟩
    · rw [hnone]
      exact Nat.zero_le _
    · rw [hnone] at ho
      cases ho
  · cases h

/-- Storing into the payload of a live block changes nothing else. -/
lemma within_write {block : Block} {offset : Nat} {values : List UInt8} (h : a.Tiled live)
    (mem : block ∈ live) (low : block.offset ≤ offset)
    (high : offset + values.length ≤ block.stop) :
    Within block a (a.write block.page offset values) := by
  have hin := h.inside mem
  refine ⟨fun p => lengthOf_write, fun p o ho hc => ?_⟩
  rw [byteAt_write (by omega) ho, if_neg (by omega)]

/-- Whatever a client does, the pages stay tiled. -/
lemma History.tiled (h : History pageSize grants a live) : a.Tiled live := by
  induction h with
  | create h => exact tiled_of_create h
  | allocate _ size journal h ih => exact ((ih.allocate size journal).of_done h).1.1
  | allocateRefused _ size journal h ih => exact ((ih.allocate size journal).of_raised h).1 ▸ ih
  | free _ mem journal h ih =>
      obtain ⟨b, journal', hfree, htiled, -⟩ := ih.free mem journal
      rw [h] at hfree
      cases hfree
      exact htiled
  | grow _ mem size journal h ih => exact ((ih.grow mem size journal).of_done h).1.tiled
  | growRefused _ mem size journal h ih =>
      exact ((ih.grow mem size journal).of_raised h).1 ▸ ih
  | store _ mem offset values low high ih =>
      exact ih.within mem (within_write ih mem low high) rfl rfl rfl rfl
  | grant _ others ih => exact ih.granting others

/-- After every history the pages are exactly tiled. Each page is laid out
without gap from its first byte to its last, every tile being the header and
the payload of one live block or one free block; payloads are not empty and
fill whole units; the free list is increasing and no two of its blocks touch;
headers say what their blocks are; the counters are right; and every live block
can be given back. -/
theorem History.exactly_tiled (h : History pageSize grants a live) :
    (∀ page, ∃ layout,
      layout.Perm ((live.map Block.tile ++ a.freeList.map FreeBlock.tile).filter (·.page = page)) ∧
        Layout page 0 (a.lengthOf page) layout) ∧
      (∀ t ∈ live.map Block.tile ++ a.freeList.map FreeBlock.tile,
        t.page < a.pages.size ∧ 0 < t.size ∧ 8 ∣ t.size) ∧
      (∀ block ∈ live, 16 ≤ block.offset) ∧
      (a.freeList.Pairwise fun s t => s.before t) ∧
      (∀ s ∈ a.freeList, ∀ t ∈ a.freeList, s.touches t = false) ∧
      (∀ block ∈ live, a.readHeader block.page block.header = (block.size, Tag.used.code)) ∧
      (∀ free ∈ a.freeList, a.readHeader free.page free.offset = (free.size, Tag.free.code)) ∧
      a.mapped = a.allocated + a.freeBytes + 16 * (live.length + a.freeList.length) ∧
      ∀ block ∈ live, ∀ journal, ∃ b journal', Allocator.free block a journal = .done () b journal' := by
  have ht := h.tiled
  refine ⟨ht.tiles.exists_layout, fun t hmem => ⟨?_, ht.tiles.sized t hmem⟩, ht.headed,
    ht.ordered.imp fun h => h.before, fun s hs t ht' => ?_, fun block hb => ?_, fun free hf => ?_, ?_,
    fun block hb journal => ?_⟩
  · have hin := ht.tiles.inside t hmem
    have hpos : 0 < t.stop := by
      unfold Tile.stop headerSize
      omega
    obtain ⟨page, hpage⟩ := exists_page (Nat.lt_of_lt_of_le hpos hin)
    exact (Array.getElem?_eq_some_iff.mp hpage).1
  · exact ht.ordered.touches hs ht'
  · exact ht.labelled block.tile (Tiled.mem_tiles hb)
  · exact ht.labelled free.tile (List.mem_append_right _ (List.mem_map_of_mem hf))
  · rw [ht.mapped, FreeList.span_eq, ← ht.allocated, freeBytes, headerSize]
    omega
  · obtain ⟨b, journal', hfree, -⟩ := ht.free hb journal
    exact ⟨b, journal', hfree⟩

/-- Two blocks off one page, the first of which has to move in order to grow,
and then the second is given back: one live block and one free block share the
page. -/
theorem History.exactly_tiled_moved :
    ∃ a, History 128 (fun _ => true) a [⟨0, 16, 40⟩] ∧ a.freeList = [⟨0, 56, 56⟩] ∧
      a.mapped = a.allocated + a.freeBytes + 16 * (1 + a.freeList.length) := by
  have served : History 128 (fun _ => true) _ [⟨0, 72, 24⟩, ⟨0, 112, 16⟩] :=
    ((History.create rfl).allocate 10 .silent rfl).allocate 20 .silent rfl
  have moved : History 128 (fun _ => true) _ [⟨0, 16, 40⟩, ⟨0, 72, 24⟩] :=
    served.grow (by simp : ⟨0, 112, 16⟩ ∈ _) 30 .silent rfl
  have freed : History 128 (fun _ => true) _ [⟨0, 16, 40⟩] :=
    moved.free (by simp : ⟨0, 72, 24⟩ ∈ _) .silent rfl
  exact ⟨_, freed, rfl, freed.exactly_tiled.2.2.2.2.2.2.2.1⟩

end Allocator

end ScriptMachine.Memory
