import Mathlib.Data.List.Nodup
import ScriptMachine.Proofs.Memory.History

/-!
The live blocks of an allocator, read off its pages.

Every header says how long its block is and so where the next header stands, and
whether the block is live. `Allocator.liveBlocks` walks over the headers of all
pages and lists the blocks that are called live. As long as the pages are tiled,
the walk meets each block once (`scan_of_layout`), and what it lists are the live
blocks of the tiling (`Tiled.liveBlocks_perm`): an allocator's pages determine
which of its blocks are live.
-/

namespace ScriptMachine.Memory

/-- The live block that a tile is, if it is one. -/
def Tile.block? (t : Tile) : Option Block :=
  if t.tag = .used then some ⟨t.page, t.offset + headerSize, t.size⟩ else none

lemma Tile.eq_of_block? {s t : Tile} {block : Block} (hs : s.block? = some block)
    (ht : t.block? = some block) : s = t := by
  obtain ⟨page, offset, size, tag⟩ := s
  obtain ⟨page', offset', size', tag'⟩ := t
  simp only [block?, Option.ite_none_right_eq_some, Option.some.injEq] at hs ht
  obtain ⟨rfl, rfl⟩ := hs
  obtain ⟨rfl, heq⟩ := ht
  simp_all

lemma Block.block?_tile {b : Block} (h : headerSize ≤ b.offset) : b.tile.block? = some b := by
  have hoff := Block.offset_tile h
  rw [Tile.block?, hoff]
  rfl

/-- A layout ends behind its last tile. -/
lemma Layout.le {page : Nat} {layout : List Tile} {start stop : Nat}
    (h : Layout page start stop layout) : start ≤ stop := by
  induction layout generalizing start with
  | nil => exact Nat.le_of_eq h
  | cons t rest ih =>
      obtain ⟨-, rfl, hrest⟩ := h
      have := ih hrest
      unfold Tile.stop at this
      omega

namespace Allocator

variable {a : Allocator} {live : List Block}

/-- The blocks of a page that are called live, by the headers from `offset` up
to `stop`. -/
def scan (a : Allocator) (page stop offset : Nat) : List Block :=
  if offset < stop then
    let header := a.readHeader page offset
    let rest := a.scan page stop (offset + headerSize + header.1)
    if header.2 = Tag.used.code then ⟨page, offset + headerSize, header.1⟩ :: rest else rest
  else []
termination_by stop - offset
decreasing_by
  unfold headerSize
  omega

/-- All blocks that are called live. -/
def liveBlocks (a : Allocator) : List Block :=
  (List.range a.pages.size).flatMap fun page => a.scan page (a.lengthOf page) 0

/-- Over tiles that follow each other, with headers that say what they are, the
walk meets one tile after the other. -/
lemma scan_of_layout {page start stop : Nat} {layout : List Tile}
    (h : Layout page start stop layout) (hl : a.Labelled layout) :
    a.scan page stop start = layout.filterMap Tile.block? := by
  induction layout generalizing start with
  | nil =>
      obtain rfl : start = stop := h
      rw [scan, if_neg (Nat.lt_irrefl _)]
      rfl
  | cons t rest ih =>
      obtain ⟨rfl, rfl, hrest⟩ := h
      have hlt : t.offset < stop := by
        have := hrest.le
        unfold Tile.stop headerSize at this
        omega
      have hheader := hl t (List.mem_cons_self ..)
      have htail := ih hrest fun s hs => hl s (List.mem_cons_of_mem _ hs)
      rw [Tile.stop] at htail
      rw [scan, if_pos hlt, hheader]
      dsimp only
      rw [htail, List.filterMap_cons, Tile.block?]
      cases t.tag with
      | used => rfl
      | free => rfl

/-- Different tiles, or blocks, of a tiling are apart. -/
lemma Tiled.nodup_tiles (h : a.Tiled live) : (a.tiles live).Nodup := by
  refine h.tiles.apart.imp fun hs heq => ?_
  subst heq
  unfold Tile.Apart Tile.stop headerSize at hs
  omega

lemma Tiled.nodup (h : a.Tiled live) : live.Nodup :=
  List.Nodup.of_map _ (List.nodup_append.mp h.nodup_tiles).1

/-- A page is walked over from its first tile to its last. -/
lemma Tiled.scan_perm (h : a.Tiled live) (page : Nat) :
    (a.scan page (a.lengthOf page) 0).Perm
      (((a.tiles live).filter (·.page = page)).filterMap Tile.block?) := by
  obtain ⟨layout, hperm, hlayout⟩ := h.tiles.exists_layout page
  have hl : a.Labelled layout := fun t ht =>
    h.labelled t (List.mem_filter.mp (hperm.mem_iff.mp ht)).1
  rw [scan_of_layout hlayout hl]
  exact hperm.filterMap _

lemma Tiled.mem_scan (h : a.Tiled live) {page : Nat} {block : Block} :
    block ∈ a.scan page (a.lengthOf page) 0 ↔ block ∈ live ∧ block.page = page := by
  rw [(h.scan_perm page).mem_iff, List.mem_filterMap]
  constructor
  · rintro ⟨t, ht, hblock⟩
    obtain ⟨ht, hpage⟩ := List.mem_filter.mp ht
    rcases List.mem_append.mp ht with ht | ht
    · obtain ⟨b, hb, rfl⟩ := List.mem_map.mp ht
      obtain rfl := Option.some.inj ((Block.block?_tile (h.headed b hb)).symm.trans hblock)
      exact ⟨hb, of_decide_eq_true hpage⟩
    · obtain ⟨free, -, rfl⟩ := List.mem_map.mp ht
      cases hblock
  · rintro ⟨hb, hpage⟩
    refine ⟨block.tile, List.mem_filter.mpr ⟨mem_tiles hb, decide_eq_true hpage⟩, ?_⟩
    exact Block.block?_tile (h.headed block hb)

/-- The pages tell which blocks are live. -/
lemma Tiled.liveBlocks_perm (h : a.Tiled live) : a.liveBlocks.Perm live := by
  refine (List.perm_ext_iff_of_nodup ?_ h.nodup).mpr fun block => ?_
  · refine List.nodup_flatMap.mpr ⟨fun page _ => ?_, ?_⟩
    · refine (h.scan_perm page).nodup_iff.mpr ?_
      exact (h.nodup_tiles.filter _).filterMap fun s t block hs ht => Tile.eq_of_block? hs ht
    · refine List.nodup_range.imp fun hne => ?_
      intro block hb hb'
      exact hne ((h.mem_scan.mp hb).2.symm.trans (h.mem_scan.mp hb').2)
  · rw [liveBlocks, List.mem_flatMap]
    constructor
    · rintro ⟨page, -, hb⟩
      exact (h.mem_scan.mp hb).1
    · intro hb
      have hin := h.inside hb
      have hhead := h.headed block hb
      have hlt : 0 < a.lengthOf block.page := by
        unfold Block.stop headerSize at *
        omega
      obtain ⟨page, hpage⟩ := exists_page hlt
      exact ⟨block.page, List.mem_range.mpr (Array.getElem?_eq_some_iff.mp hpage).1,
        h.mem_scan.mpr ⟨hb, rfl⟩⟩

end Allocator

end ScriptMachine.Memory
