import ScriptMachine.Proofs.Action
import ScriptMachine.Proofs.Memory.Bytes
import ScriptMachine.Proofs.Memory.FreeList

/-!
The allocator keeps its pages tiled.

`Allocator.Tiled a live` is the invariant: the live blocks and the free blocks
tile the pages, the free list is ordered, every header says what its block is,
and the counters are right. Each operation has one lemma, which says what it
does to the invariant and to the contents of the live blocks:

* `Tiled.free`: the block is gone, and all other payloads stay;
* `Tiled.within`: storing into the payload of a live block.

None of this depends on which pages the system hands out, and that may change at any time
(`granting`, `Tiled.granting`).
-/

namespace ScriptMachine.Memory

namespace Block

variable {b : Block}

lemma stop_tile (h : headerSize ≤ b.offset) : b.tile.stop = b.stop := by
  simp only [Tile.stop, tile, header, stop]
  omega

lemma offset_tile (h : headerSize ≤ b.offset) : b.tile.offset + headerSize = b.offset := by
  simp only [tile, header]
  omega

end Block

namespace Allocator

variable {a b : Allocator} {live : List Block} {t s : Tile} {page offset size count : Nat}

/-! ### Changes inside one tile -/

/-- Two memories that differ inside one tile only. -/
structure OnlyIn (t : Tile) (a b : Allocator) : Prop where
  length : ∀ p, b.lengthOf p = a.lengthOf p
  bytes : ∀ p o, o < a.lengthOf p → ¬ t.Covers p o → b.byteAt p o = a.byteAt p o

namespace OnlyIn

lemma refl (t : Tile) (a : Allocator) : OnlyIn t a a := ⟨fun _ => rfl, fun _ _ _ _ => rfl⟩

lemma trans {c : Allocator} (h : OnlyIn t a b) (h' : OnlyIn t b c) : OnlyIn t a c where
  length p := (h'.length p).trans (h.length p)
  bytes p o ho hc := (h'.bytes p o (by rwa [h.length]) hc).trans (h.bytes p o ho hc)

/-- Only the pages matter. -/
lemma of_pages {c d : Allocator} (h : OnlyIn t c d) (hc : c.pages = a.pages)
    (hd : d.pages = b.pages) : OnlyIn t a b := by
  refine ⟨fun p => ?_, fun p o ho hcov => ?_⟩
  · have := h.length p
    unfold lengthOf at *
    rwa [hc, hd] at this
  · have := h.bytes p o (by unfold lengthOf at *; rwa [hc]) hcov
    unfold byteAt byte? at *
    rwa [hc, hd] at this

lemma writeHeader {tag : Tag} (hp : page = t.page) (hlow : t.offset ≤ offset)
    (hhigh : offset + headerSize ≤ t.stop) (hin : t.stop ≤ a.lengthOf t.page) :
    OnlyIn t a (a.writeHeader page offset size tag) := by
  subst hp
  refine ⟨fun p => lengthOf_writeHeader, fun p o ho hc => ?_⟩
  refine byteAt_writeHeader_of_outside (by omega) ho ?_
  unfold Tile.Covers at hc
  omega

lemma clear (hp : page = t.page) (hlow : t.offset ≤ offset) (hhigh : offset + count ≤ t.stop) :
    OnlyIn t a (a.clear page offset count) := by
  subst hp
  refine ⟨fun p => lengthOf_clear, fun p o ho hc => ?_⟩
  rw [byteAt_clear ho, if_neg]
  unfold Tile.Covers at hc
  omega

/-- The header of another tile stays. -/
lemma readHeader (h : OnlyIn t a b) (hs : s.Apart t) (hin : s.stop ≤ a.lengthOf s.page) :
    b.readHeader s.page s.offset = a.readHeader s.page s.offset := by
  have hle : s.offset + headerSize ≤ s.stop := by
    unfold Tile.stop
    omega
  refine readHeader_congr (by omega) (by rw [h.length]; omega) fun o hlow hhigh => ?_
  refine h.bytes _ _ (by omega) fun hc => ?_
  unfold Tile.Apart at hs
  unfold Tile.Covers at hc
  omega

end OnlyIn

/-- The payload of a block is the same in two memories. -/
def SameBytes (a b : Allocator) (block : Block) : Prop :=
  ∀ o, block.offset ≤ o → o < block.stop → b.byteAt block.page o = a.byteAt block.page o

lemma SameBytes.trans {c : Allocator} {block : Block} (h : SameBytes a b block)
    (h' : SameBytes b c block) : SameBytes a c block :=
  fun o hlow hhigh => (h' o hlow hhigh).trans (h o hlow hhigh)

lemma OnlyIn.sameBytes {block : Block} (h : OnlyIn t a b) (hs : block.tile.Apart t)
    (hhead : headerSize ≤ block.offset) (hin : block.stop ≤ a.lengthOf block.page) :
    SameBytes a b block := by
  intro o hlow hhigh
  refine h.bytes _ _ (by omega) fun hc => ?_
  have hstop := Block.stop_tile hhead
  have hoff := Block.offset_tile hhead
  have hpage : block.tile.page = block.page := rfl
  unfold Tile.Apart at hs
  unfold Tile.Covers at hc
  omega

/-- The header of every tile says what the tile is. -/
def Labelled (a : Allocator) (tiles : List Tile) : Prop :=
  ∀ t ∈ tiles, a.readHeader t.page t.offset = (t.size, t.tag.code)

/-- Headers stay right in all tiles but the one that is changed. -/
lemma Labelled.of_onlyIn {tiles all : List Tile} (h : a.Labelled tiles) (ho : OnlyIn t a b)
    (htiles : Tiles a.lengthOf (t :: all)) (hsub : tiles ⊆ all) : b.Labelled tiles := by
  intro s hs
  rw [ho.readHeader (htiles.apart_of_mem (hsub hs)).symm (htiles.inside s (by simp [hsub hs]))]
  exact h s hs

/-- Writing the header of a tile labels it. -/
lemma Labelled.writeHeader {tiles all : List Tile} (h : a.Labelled tiles)
    (htiles : Tiles a.lengthOf (t :: all)) (hsub : tiles ⊆ all)
    (hshort : ∀ page, 2 * a.lengthOf page ≤ wordLimit) :
    (a.writeHeader t.page t.offset t.size t.tag).Labelled (t :: tiles) := by
  have hin := htiles.inside t (by simp)
  have hstop : t.offset + headerSize + t.size = t.stop := rfl
  intro s hs
  rcases List.mem_cons.mp hs with rfl | hs
  · have hword : s.size < wordLimit := by
      have := hshort s.page
      unfold wordLimit headerSize at *
      omega
    exact readHeader_writeHeader (by omega) hword
  · exact h.of_onlyIn (.writeHeader rfl (Nat.le_refl _) (by omega) hin) htiles hsub s hs

/-- Two memories that differ inside the payload of a block only. -/
structure Within (block : Block) (a b : Allocator) : Prop where
  length : ∀ p, b.lengthOf p = a.lengthOf p
  bytes : ∀ p o, o < a.lengthOf p → ¬ (p = block.page ∧ block.offset ≤ o ∧ o < block.stop) →
    b.byteAt p o = a.byteAt p o

/-- The payload lies in the tile, behind the header. -/
lemma Within.onlyIn {block : Block} (h : Within block a b) (hhead : headerSize ≤ block.offset) :
    OnlyIn block.tile a b := by
  refine ⟨h.length, fun p o ho hc => h.bytes p o ho fun hin => hc ?_⟩
  have hstop := Block.stop_tile hhead
  have hoff := Block.offset_tile hhead
  exact ⟨hin.1.symm, by omega, by omega⟩

/-- Headers are not touched by a change of a payload. -/
lemma Labelled.within {tiles : List Tile} {block : Block} (h : a.Labelled (block.tile :: tiles))
    (hw : Within block a b) (htiles : Tiles a.lengthOf (block.tile :: tiles))
    (hhead : headerSize ≤ block.offset) : b.Labelled (block.tile :: tiles) := by
  intro s hs
  rcases List.mem_cons.mp hs with rfl | hs
  · have hin := htiles.inside block.tile (by simp)
    have hstop := Block.stop_tile hhead
    have hoff := Block.offset_tile hhead
    have hle : block.offset ≤ block.stop := Nat.le_add_right _ _
    rw [← h block.tile (by simp)]
    refine readHeader_congr (by omega) (by rw [hw.length]; omega) fun o hlow hhigh => ?_
    exact hw.bytes _ _ (by omega) (by omega)
  · exact Labelled.of_onlyIn (fun t ht => h t (by simp [ht])) (hw.onlyIn hhead) htiles
      (List.Subset.refl _) s hs

/-! ### The invariant -/

/-- Payload bytes of all blocks of a list. -/
def payload : List Block → Nat
  | [] => 0
  | block :: rest => block.size + payload rest

lemma payload_perm {l l' : List Block} (h : l.Perm l') : payload l = payload l' := by
  induction h with
  | nil => rfl
  | cons _ _ ih => rw [payload, payload, ih]
  | swap => simp only [payload]; omega
  | trans _ _ ih ih' => exact ih.trans ih'

/-- The tiles of an allocator with the given live blocks. -/
def tiles (a : Allocator) (live : List Block) : List Tile :=
  live.map Block.tile ++ FreeList.tiles a.freeList

/-- The pages are tiled by the live blocks and the free blocks; the free list
is ordered; headers and counters are right. -/
structure Tiled (a : Allocator) (live : List Block) : Prop where
  /-- Pages are powers of two from the page size on, and at most half of what a
  word can count. -/
  pageSize : 1 <<< a.pageSize.log2 = a.pageSize ∧ headerSize * 2 ≤ a.pageSize
  short : 2 * a.pageSize ≤ wordLimit ∧ ∀ page, 2 * a.lengthOf page ≤ wordLimit
  tiles : Tiles a.lengthOf (a.tiles live)
  headed : ∀ block ∈ live, headerSize ≤ block.offset
  ordered : FreeList.Ordered a.freeList
  labelled : a.Labelled (a.tiles live)
  allocated : a.allocated = payload live
  mapped : a.mapped = payload live + headerSize * live.length + FreeList.span a.freeList

namespace Tiled

lemma perm {live' : List Block} (h : a.Tiled live) (p : live.Perm live') : a.Tiled live' where
  pageSize := h.pageSize
  short := h.short
  tiles := h.tiles.perm ((p.map _).append_right _)
  headed block hb := h.headed block (p.mem_iff.mpr hb)
  ordered := h.ordered
  labelled t ht := h.labelled t (((p.map _).append_right _).mem_iff.mpr ht)
  allocated := h.allocated.trans (payload_perm p)
  mapped := by rw [h.mapped, payload_perm p, p.length_eq]

lemma mem_tiles {block : Block} (hb : block ∈ live) : block.tile ∈ a.tiles live :=
  List.mem_append_left _ (List.mem_map_of_mem hb)

/-- A live block ends inside its page. -/
lemma inside (h : a.Tiled live) {block : Block} (hb : block ∈ live) :
    block.stop ≤ a.lengthOf block.page := by
  rw [← Block.stop_tile (h.headed block hb)]
  exact h.tiles.inside _ (mem_tiles hb)

end Tiled

/-- The allocator when the system hands out pages of other lengths than before. -/
def granting (grants : Nat → Bool) (a : Allocator) : Allocator := { a with grants := grants }

lemma Tiled.granting (h : a.Tiled live) (grants : Nat → Bool) : (a.granting grants).Tiled live :=
  ⟨h.pageSize, h.short, h.tiles, h.headed, h.ordered, h.labelled, h.allocated, h.mapped⟩

/-- What an operation leaves alone: the way pages are obtained, and the
payloads of the blocks in a list. -/
structure Keeps (a b : Allocator) (live : List Block) : Prop where
  grants : b.grants = a.grants
  pageSize : b.pageSize = a.pageSize
  bytes : ∀ block ∈ live, SameBytes a b block

lemma Keeps.refl (a : Allocator) (live : List Block) : Keeps a a live :=
  ⟨rfl, rfl, fun _ _ _ _ _ => rfl⟩

lemma Keeps.trans {c : Allocator} (h : Keeps a b live) (h' : Keeps b c live) : Keeps a c live :=
  ⟨h'.grants.trans h.grants, h'.pageSize.trans h.pageSize,
    fun block hb => (h.bytes block hb).trans (h'.bytes block hb)⟩

lemma Keeps.mono {live' : List Block} (h : Keeps a b live) (hsub : ∀ block ∈ live', block ∈ live) :
    Keeps a b live' :=
  ⟨h.grants, h.pageSize, fun block hb => h.bytes block (hsub block hb)⟩

/-- A change inside a tile that is apart from the live blocks. -/
lemma OnlyIn.keeps (h : OnlyIn t a b) (htiles : Tiles a.lengthOf (t :: a.tiles live))
    (hhead : ∀ block ∈ live, headerSize ≤ block.offset) (hgrants : b.grants = a.grants)
    (hsize : b.pageSize = a.pageSize) : Keeps a b live := by
  refine ⟨hgrants, hsize, fun block hb => ?_⟩
  have hmem := Tiled.mem_tiles (a := a) hb
  refine h.sameBytes (htiles.apart_of_mem hmem).symm (hhead block hb) ?_
  rw [← Block.stop_tile (hhead block hb)]
  exact htiles.inside _ (List.mem_cons_of_mem _ hmem)

/-- Storing into the payload of a live block. -/
lemma Tiled.within {block : Block} (h : a.Tiled live) (hb : block ∈ live) (hw : Within block a b)
    (hsize : b.pageSize = a.pageSize) (hfree : b.freeList = a.freeList)
    (hcount : b.allocated = a.allocated) (hmapped : b.mapped = a.mapped) : b.Tiled live := by
  have hlength : b.lengthOf = a.lengthOf := funext hw.length
  have htiles : b.tiles live = a.tiles live := by rw [Allocator.tiles, Allocator.tiles, hfree]
  refine ⟨?_, ⟨?_, ?_⟩, ?_, h.headed, ?_, ?_, hcount.trans h.allocated, ?_⟩
  · rw [hsize]
    exact h.pageSize
  · rw [hsize]
    exact h.short.1
  · rw [hlength]
    exact h.short.2
  · rw [hlength, htiles]
    exact h.tiles
  · rw [hfree]
    exact h.ordered
  · have hp : (a.tiles live).Perm (block.tile :: (a.tiles live).erase block.tile) :=
      List.perm_cons_erase (mem_tiles hb)
    rw [htiles]
    intro t ht
    refine Labelled.within (fun t ht => ?_) hw (h.tiles.perm hp) (h.headed block hb) t
      (hp.mem_iff.mp ht)
    exact h.labelled t (hp.mem_iff.mpr ht)
  · rw [hmapped, hfree]
    exact h.mapped

/-- The payloads of the other blocks stay. -/
lemma Within.keeps {block : Block} (hw : Within block a b) (h : a.Tiled (block :: live))
    (hgrants : b.grants = a.grants) (hsize : b.pageSize = a.pageSize) : Keeps a b live :=
  (hw.onlyIn (h.headed block (by simp))).keeps h.tiles (fun c hc => h.headed c (by simp [hc]))
    hgrants hsize

/-! ### Giving a block back -/

/-- What giving a free block back does: with the tiles of the other blocks the
free list tiles the pages, and the bytes of those tiles stay. -/
structure Released (a : Allocator) (block : FreeBlock) (others : List Tile) (b : Allocator) :
    Prop where
  tiles : Tiles b.lengthOf (FreeList.tiles b.freeList ++ others)
  ordered : FreeList.Ordered b.freeList
  labelled : b.Labelled (FreeList.tiles b.freeList ++ others)
  span : FreeList.span b.freeList = headerSize + block.size + FreeList.span a.freeList
  length : ∀ p, b.lengthOf p = a.lengthOf p
  bytes : ∀ t ∈ others, ∀ o, t.offset ≤ o → o < t.stop → b.byteAt t.page o = a.byteAt t.page o
  rest : b.pageSize = a.pageSize ∧ b.allocated = a.allocated ∧ b.mapped = a.mapped ∧
    b.grants = a.grants
  largest : ∃ free ∈ b.freeList, block.size ≤ free.size

/-- A free block that is given back is merged with those that touch it. -/
lemma released {block : FreeBlock} {others : List Tile}
    (htiles : Tiles a.lengthOf (block.tile :: FreeList.tiles a.freeList ++ others))
    (hord : FreeList.Ordered a.freeList)
    (hlab : a.Labelled (FreeList.tiles a.freeList ++ others))
    (hshort : ∀ page, 2 * a.lengthOf page ≤ wordLimit) :
    Released a block others (a.release block) := by
  have hins := FreeList.insert_inserted block a.freeList
  unfold release
  generalize FreeList.insert block a.freeList = inserted at hins
  obtain ⟨merged, free⟩ := inserted
  dsimp only at hins ⊢
  have hnew := hins.tiles htiles
  have hmem : merged.tile ∈ FreeList.tiles free ++ others :=
    List.mem_append_left _ (List.mem_map_of_mem hins.mem)
  have hin : merged.stop ≤ a.lengthOf merged.page := hnew.inside _ hmem
  have hbound := hshort merged.page
  have hle : merged.offset + headerSize + merged.size = merged.stop := rfl
  have hword : headerSize + merged.size < wordLimit := by
    unfold wordLimit headerSize at *
    omega
  -- the merged block gets one header, written at its own start
  have honly : OnlyIn merged.tile a (({ a with freeList := free } : Allocator).writeFree merged) :=
    (OnlyIn.writeHeader (t := merged.tile) rfl (Nat.le_refl _) (Nat.le_add_right _ _) hin).of_pages
      rfl rfl
  refine ⟨?_, ?_, ?_, hins.span, honly.length, ?_, ⟨rfl, rfl, rfl, rfl⟩, ?_⟩
  · rw [show Allocator.lengthOf _ = a.lengthOf from funext honly.length]
    exact hnew
  · refine hins.ordered hord fun f hf => ?_
    refine htiles.apart_of_mem ?_
    exact List.mem_append_left _ (List.mem_map_of_mem hf)
  · intro t ht
    -- the merged tile is labelled by this write; any other tile carries its old label
    by_cases heq : t = merged.tile
    · subst heq
      exact readHeader_writeHeader (a := { a with freeList := free })
        (Nat.le_trans (Nat.le_add_right _ _) hin) (by omega)
    · rw [honly.readHeader (hnew.apart_of_ne ht hmem heq) (hnew.inside t ht)]
      refine hlab t ?_
      rcases List.mem_append.mp ht with ht | ht
      · obtain ⟨f, hf, rfl⟩ := List.mem_map.mp ht
        rcases hins.old f hf with rfl | hf
        · exact absurd rfl heq
        · exact List.mem_append_left _ (List.mem_map_of_mem hf)
      · exact List.mem_append_right _ ht
  -- bytes of the other tiles lie apart from the merged one
  · intro t ht o hlow hhigh
    have hapart : t.Apart merged.tile := by
      have hcross := (List.pairwise_append.mp hnew.apart).2.2
      exact (hcross _ (List.mem_map_of_mem hins.mem) t ht).symm
    have hlt : o < a.lengthOf t.page := by
      have := hnew.inside t (List.mem_append_right _ ht)
      omega
    refine honly.bytes _ _ hlt fun hc => ?_
    unfold Tile.Apart at hapart
    unfold Tile.Covers at hc
    omega
  · exact ⟨merged, hins.mem, hins.large⟩

/-- The bytes of a tile contain those of the payload of its block. -/
lemma Released.keeps {block : FreeBlock} {rest : List Block}
    (h : Released a block (rest.map Block.tile) b)
    (hhead : ∀ block ∈ rest, headerSize ≤ block.offset) : Keeps a b rest := by
  refine ⟨h.rest.2.2.2, h.rest.1, fun block hb o hlow hhigh => ?_⟩
  have hstop := Block.stop_tile (hhead block hb)
  have hoff := Block.offset_tile (hhead block hb)
  exact h.bytes block.tile (List.mem_map_of_mem hb) o (by omega) (by omega)

/-- A live block can be given back; the payloads of the others stay. -/
lemma Tiled.free (h : a.Tiled live) {block : Block} (hb : block ∈ live) (journal : Journal) :
    ∃ b journal', Allocator.free block a journal = .done () b journal' ∧
      b.Tiled (live.erase block) ∧ Keeps a b (live.erase block) := by
  have hperm := h.perm (List.perm_cons_erase hb)
  generalize live.erase block = rest at hperm
  have hhead := hperm.headed block (by simp)
  let given : FreeBlock := ⟨block.page, block.header, block.size⟩
  -- the header says that the block is live, and no free block begins where it does
  have hlab : a.readHeader block.page block.header = (block.size, Tag.used.code) :=
    hperm.labelled block.tile (Tiled.mem_tiles (by simp))
  have hsize : ¬ a.allocated < block.size := by
    have := hperm.allocated
    rw [payload] at this
    omega
  have hfresh : (a.freeList.any fun f => f.page = block.page ∧ f.offset = block.header) = false := by
    rw [List.any_eq_false]
    intro f hf
    have hapart : block.tile.Apart f.tile :=
      hperm.tiles.apart_of_mem (List.mem_append_right _ (List.mem_map_of_mem hf))
    have hpos := f.offset_lt_stop
    have hpos' : block.tile.offset < block.tile.stop := by
      unfold Tile.stop headerSize
      omega
    simp only [decide_eq_true_eq, not_and]
    intro hpage hoff
    have happ : block.page ≠ f.page ∨ block.tile.stop ≤ f.offset ∨ f.stop ≤ block.header := hapart
    have hheader : block.tile.offset = block.header := rfl
    omega
  -- the block becomes a free block of the same extent, which is then merged
  have hrel : Released { a with allocated := a.allocated - block.size } given
      (rest.map Block.tile)
      (({ a with allocated := a.allocated - block.size } : Allocator).release given) := by
    refine released ?_ hperm.ordered ?_ hperm.short.2
    · have hreplaced : Tiles a.lengthOf (given.tile :: (rest.map Block.tile ++
          FreeList.tiles a.freeList)) := hperm.tiles.replace rfl rfl rfl
      exact hreplaced.perm (.cons _ List.perm_append_comm)
    · intro t ht
      refine hperm.labelled t ?_
      rcases List.mem_append.mp ht with ht | ht
      · exact List.mem_append_right _ ht
      · exact List.mem_append_left _ (List.mem_cons_of_mem _ ht)
  have hkeeps := hrel.keeps fun c hc => hperm.headed c (by simp [hc])
  refine ⟨_, journal.note (.blockFreed block.size block.page block.offset), ?_, ?_,
    ⟨hkeeps.grants, hkeeps.pageSize, hkeeps.bytes⟩⟩
  · unfold Allocator.free
    simp only [Action.get_bind, hlab, ne_eq, not_true_eq_false, if_false, hsize, Action.note_bind,
      hfresh, Bool.false_eq_true]
    rfl
  · have hrest := hrel.rest
    constructor
    · rw [hrest.1]
      exact hperm.pageSize
    · refine ⟨by rw [hrest.1]; exact hperm.short.1, fun page => ?_⟩
      rw [hrel.length]
      exact hperm.short.2 page
    · exact hrel.tiles.perm List.perm_append_comm
    · exact fun c hc => hperm.headed c (by simp [hc])
    · exact hrel.ordered
    · exact fun t ht => hrel.labelled t (List.perm_append_comm.mem_iff.mp ht)
    · rw [hrest.2.1]
      have := hperm.allocated
      rw [payload] at this
      dsimp only
      omega
    · rw [hrest.2.2.1, hrel.span]
      have := hperm.mapped
      simp only [payload, List.length_cons, Nat.mul_succ] at this
      dsimp only [given]
      omega

/-! ### Blocks between free and live -/

/-- A block is off the free list and not labelled yet. -/
structure Reserved (a : Allocator) (live : List Block) (block : Block) : Prop where
  pageSize : 1 <<< a.pageSize.log2 = a.pageSize ∧ headerSize * 2 ≤ a.pageSize
  short : 2 * a.pageSize ≤ wordLimit ∧ ∀ page, 2 * a.lengthOf page ≤ wordLimit
  tiles : Tiles a.lengthOf (block.tile :: a.tiles live)
  headed : ∀ b ∈ block :: live, headerSize ≤ b.offset
  ordered : FreeList.Ordered a.freeList
  labelled : a.Labelled (a.tiles live)
  mapped : a.mapped =
    payload (block :: live) + headerSize * (block :: live).length + FreeList.span a.freeList

/-- A reserved block is live once it is labelled and counted, whatever is done
to its payload. -/
lemma Reserved.tiled {block : Block} (h : a.Reserved live block)
    (hw : Within block (a.writeHeader block.page block.header block.size .used) b)
    (hsize : b.pageSize = a.pageSize) (hfree : b.freeList = a.freeList)
    (hmapped : b.mapped = a.mapped) (hcount : b.allocated = payload (block :: live)) :
    b.Tiled (block :: live) ∧ OnlyIn block.tile a b := by
  have hhead := h.headed block (by simp)
  have hheader : OnlyIn block.tile a (a.writeHeader block.page block.header block.size .used) :=
    OnlyIn.writeHeader rfl (Nat.le_refl _) (Nat.le_add_right _ _) (h.tiles.inside _ (by simp))
  -- the header and the payload together are the tile of the block
  have honly := hheader.trans (hw.onlyIn hhead)
  have hlength : b.lengthOf = a.lengthOf := funext honly.length
  have htiles : b.tiles (block :: live) = block.tile :: a.tiles live := by
    rw [Allocator.tiles, Allocator.tiles, hfree]
    rfl
  refine ⟨⟨?_, ⟨?_, ?_⟩, ?_, h.headed, ?_, ?_, hcount, ?_⟩, honly⟩
  · rw [hsize]
    exact h.pageSize
  · rw [hsize]
    exact h.short.1
  · rw [hlength]
    exact h.short.2
  · rw [hlength, htiles]
    exact h.tiles
  · rw [hfree]
    exact h.ordered
  · rw [htiles]
    refine Labelled.within ?_ hw ?_ hhead
    · exact h.labelled.writeHeader h.tiles (List.Subset.refl _) h.short.2
    · rw [show Allocator.lengthOf _ = a.lengthOf from funext hheader.length]
      exact h.tiles
  · rw [hmapped, hfree]
    exact h.mapped

/-- A reserved block that is claimed holds zeros. -/
lemma Reserved.claim {block : Block} (h : a.Reserved live block)
    (hcount : a.allocated = payload live) :
    (a.claim block).Tiled (block :: live) ∧ Keeps a (a.claim block) live ∧
      ∀ o, block.offset ≤ o → o < block.stop → (a.claim block).byteAt block.page o = 0 := by
  have hclear : Within block (a.writeHeader block.page block.header block.size .used)
      (a.claim block) := by
    refine ⟨fun p => lengthOf_clear, fun p o ho hc => ?_⟩
    exact (byteAt_clear ho).trans (if_neg hc)
  have hpayload : (a.claim block).allocated = payload (block :: live) := by
    rw [payload, Nat.add_comm, ← hcount]
    rfl
  obtain ⟨htiled, honly⟩ := h.tiled hclear rfl rfl rfl hpayload
  refine ⟨htiled, ?_, fun o hlow hhigh => ?_⟩
  · exact honly.keeps h.tiles (fun b hb => h.headed b (by simp [hb])) rfl rfl
  · have ho : o < (a.claim block).lengthOf block.page := by
      have := htiled.inside (List.mem_cons_self ..)
      omega
    exact (byteAt_clear (by rwa [hclear.length] at ho)).trans (if_pos ⟨rfl, hlow, hhigh⟩)

end Allocator

end ScriptMachine.Memory
