import Mathlib.Data.List.Perm.Subperm
import ScriptMachine.Proofs.Memory.Headers

/-!
The order in which blocks are given back does not matter.

A gap is a stretch of a page between live blocks that reaches from one of them, or
from the start of the page, to the next one, or to the end. The free blocks of a
tiled allocator are its gaps (`Tiled.mem_freeList_iff`), so the free list is a
function of the live blocks and the lengths of the pages
(`Tiled.freeList_eq`). Giving blocks back keeps the pages as they are
(`within_freeAll`) and never fails (`Tiled.freeAll`). Main result:
`History.freeing_commutes`.
-/

namespace ScriptMachine.Memory

lemma Tile.offset_lt_stop (t : Tile) : t.offset < t.stop := by
  unfold stop headerSize
  omega

namespace Tiles

variable {length : Nat → Nat} {tiles : List Tile} {t : Tile}

/-- In front of a tile there is another one, unless it begins its page. -/
lemma exists_below (h : Tiles length tiles) (ht : t ∈ tiles) (hstart : t.offset ≠ 0) :
    ∃ s ∈ tiles, s.page = t.page ∧ s.stop = t.offset := by
  have hin := h.inside t ht
  have hpos := t.offset_lt_stop
  obtain ⟨s, hs, hpage, hlow, hhigh⟩ := h.covered t.page (t.offset - 1) (by omega)
  have hapart : s.Apart t := by
    refine h.apart_of_ne hs ht ?_
    rintro rfl
    omega
  refine ⟨s, hs, hpage, ?_⟩
  unfold Tile.Apart at hapart
  omega

/-- Behind a tile there is another one, unless it ends its page. -/
lemma exists_above (h : Tiles length tiles) (ht : t ∈ tiles) (hend : t.stop ≠ length t.page) :
    ∃ s ∈ tiles, s.page = t.page ∧ s.offset = t.stop := by
  have hin := h.inside t ht
  have hpos := t.offset_lt_stop
  obtain ⟨s, hs, hpage, hlow, hhigh⟩ := h.covered t.page t.stop (by omega)
  have hapart : s.Apart t := by
    refine h.apart_of_ne hs ht ?_
    rintro rfl
    omega
  refine ⟨s, hs, hpage, ?_⟩
  unfold Tile.Apart at hapart
  omega

end Tiles

/-! ### Gaps -/

/-- A free block that fills the space between live blocks: it lies on its page and
apart from them, and on either side there is one of them or the end of the page. -/
structure Gap (length : Nat → Nat) (live : List Block) (free : FreeBlock) : Prop where
  inside : free.stop ≤ length free.page
  apart : ∀ block ∈ live, free.tile.Apart block.tile
  below : free.offset = 0 ∨ ∃ block ∈ live, block.page = free.page ∧ block.tile.stop = free.offset
  above : free.stop = length free.page ∨
    ∃ block ∈ live, block.page = free.page ∧ block.tile.offset = free.stop

namespace Gap

variable {length : Nat → Nat} {live : List Block} {f g : FreeBlock}

/-- A gap that has a byte in common with another one does not begin before it: it
would reach into the live block in front of the other. -/
lemma offset_le (hf : Gap length live f) (hg : Gap length live g) (hpage : f.page = g.page)
    (hmeet : f.offset < g.stop) : f.offset ≤ g.offset := by
  refine Nat.le_of_not_lt fun hlt => ?_
  rcases hf.below with hzero | ⟨block, hb, hpage', hstop⟩
  · omega
  · have hapart : g.page ≠ block.page ∨ g.stop ≤ block.tile.offset ∨ block.tile.stop ≤ g.offset :=
      hg.apart block hb
    have := block.tile.offset_lt_stop
    omega

lemma le_stop (hf : Gap length live f) (hg : Gap length live g) (hpage : f.page = g.page)
    (hmeet : g.offset < f.stop) : g.stop ≤ f.stop := by
  refine Nat.le_of_not_lt fun hlt => ?_
  rcases hf.above with hend | ⟨block, hb, hpage', hstart⟩
  · have := hg.inside
    rw [← hpage] at this
    omega
  · have hapart : g.page ≠ block.page ∨ g.stop ≤ block.tile.offset ∨ block.tile.stop ≤ g.offset :=
      hg.apart block hb
    have := block.tile.offset_lt_stop
    omega

/-- Two gaps with a byte in common are the same one. -/
lemma eq_of_meet (hf : Gap length live f) (hg : Gap length live g) (hpage : f.page = g.page)
    (hbelow : f.offset < g.stop) (habove : g.offset < f.stop) : f = g := by
  have hoffset : f.offset = g.offset :=
    Nat.le_antisymm (hf.offset_le hg hpage hbelow) (hg.offset_le hf hpage.symm habove)
  have hstop : f.stop = g.stop :=
    Nat.le_antisymm (hg.le_stop hf hpage.symm hbelow) (hf.le_stop hg hpage habove)
  have hsize : f.size = g.size := by
    unfold FreeBlock.stop at hstop
    omega
  cases f
  cases g
  simp_all only

/-- Which blocks are live matters, not how they are listed. -/
lemma perm {live' : List Block} (hf : Gap length live f) (p : live.Perm live') :
    Gap length live' f where
  inside := hf.inside
  apart block hb := hf.apart block (p.mem_iff.mpr hb)
  below := hf.below.imp_right fun ⟨block, hb, h⟩ => ⟨block, p.mem_iff.mp hb, h⟩
  above := hf.above.imp_right fun ⟨block, hb, h⟩ => ⟨block, p.mem_iff.mp hb, h⟩

/-- Without live blocks, a gap is a whole page. -/
lemma nil_iff : Gap length [] f ↔ f.offset = 0 ∧ f.stop = length f.page := by
  constructor
  · exact fun hf => ⟨hf.below.resolve_right nofun, hf.above.resolve_right nofun⟩
  · exact fun ⟨hstart, hend⟩ => ⟨Nat.le_of_eq hend, nofun, .inl hstart, .inl hend⟩

end Gap

/-- Ordered lists with the same blocks are equal. -/
lemma FreeList.Ordered.eq_of_mem_iff {l l' : FreeList} (h : Ordered l) (h' : Ordered l')
    (hmem : ∀ f, f ∈ l ↔ f ∈ l') : l = l' := by
  have hirrefl : ∀ {s t : FreeBlock}, s.Clear t → ¬ t.Clear s := by
    intro s t hst hts
    have := s.offset_lt_stop
    have := t.offset_lt_stop
    unfold FreeBlock.Clear at *
    omega
  have hnodup : ∀ {k : FreeList}, Ordered k → k.Nodup := by
    intro k hk
    refine hk.imp fun hclear heq => ?_
    subst heq
    exact hirrefl hclear hclear
  have hperm : l.Perm l' := (List.perm_ext_iff_of_nodup (hnodup h) (hnodup h')).mpr hmem
  exact hperm.eq_of_pairwise (fun s t _ _ hst hts => absurd hts (hirrefl hst)) h h'

namespace Allocator

variable {a b : Allocator} {live : List Block}

/-- A free block of a tiled allocator is a gap: the tile on either side is live,
since free blocks do not touch. -/
lemma Tiled.gap (h : a.Tiled live) {free : FreeBlock} (hf : free ∈ a.freeList) :
    Gap a.lengthOf live free := by
  have hmem : free.tile ∈ a.tiles live := List.mem_append_right _ (List.mem_map_of_mem hf)
  refine ⟨h.tiles.inside _ hmem, fun block hb => ?_, or_iff_not_imp_left.mpr fun hstart => ?_,
    or_iff_not_imp_left.mpr fun hend => ?_⟩
  · refine h.tiles.apart_of_ne hmem (mem_tiles hb) fun heq => ?_
    cases congrArg Tile.tag heq
  · obtain ⟨t, ht, hpage, hstop⟩ := h.tiles.exists_below hmem hstart
    rcases List.mem_append.mp ht with ht | ht
    · obtain ⟨block, hb, rfl⟩ := List.mem_map.mp ht
      exact ⟨block, hb, hpage, hstop⟩
    · obtain ⟨other, ho, rfl⟩ := List.mem_map.mp ht
      have htouch : other.touches free = true := FreeBlock.touches_iff.mpr ⟨hpage, hstop⟩
      exact absurd htouch (by simp [h.ordered.touches ho hf])
  · obtain ⟨t, ht, hpage, hstart⟩ := h.tiles.exists_above hmem hend
    rcases List.mem_append.mp ht with ht | ht
    · obtain ⟨block, hb, rfl⟩ := List.mem_map.mp ht
      exact ⟨block, hb, hpage, hstart⟩
    · obtain ⟨other, ho, rfl⟩ := List.mem_map.mp ht
      have htouch : free.touches other = true := FreeBlock.touches_iff.mpr ⟨hpage.symm, hstart.symm⟩
      exact absurd htouch (by simp [h.ordered.touches hf ho])

/-- The free blocks are the gaps. -/
lemma Tiled.mem_freeList_iff (h : a.Tiled live) {free : FreeBlock} :
    free ∈ a.freeList ↔ Gap a.lengthOf live free := by
  refine ⟨h.gap, fun hgap => ?_⟩
  have hpos := free.offset_lt_stop
  have hin := hgap.inside
  obtain ⟨t, ht, hpage, hlow, hhigh⟩ := h.tiles.covered free.page free.offset (by omega)
  rcases List.mem_append.mp ht with ht | ht
  · obtain ⟨block, hb, rfl⟩ := List.mem_map.mp ht
    have hapart : free.page ≠ block.tile.page ∨ free.stop ≤ block.tile.offset ∨
        block.tile.stop ≤ free.offset := hgap.apart block hb
    omega
  · obtain ⟨other, ho, rfl⟩ := List.mem_map.mp ht
    rw [FreeBlock.stop_tile] at hhigh
    change other.offset ≤ free.offset at hlow
    rw [hgap.eq_of_meet (h.gap ho) hpage.symm hhigh (by omega)]
    exact ho

/-- The free list is determined by the live blocks and the lengths of the pages. -/
lemma Tiled.freeList_eq {live' : List Block} (h : a.Tiled live) (h' : b.Tiled live')
    (p : live.Perm live') (hlength : ∀ page, b.lengthOf page = a.lengthOf page) :
    b.freeList = a.freeList := by
  have hsame : b.lengthOf = a.lengthOf := funext hlength
  refine h'.ordered.eq_of_mem_iff h.ordered fun free => ?_
  rw [h'.mem_freeList_iff, h.mem_freeList_iff, hsame]
  exact ⟨fun hgap => hgap.perm p.symm, fun hgap => hgap.perm p⟩

lemma lengthOf_pos {page : Nat} (hpage : page < a.pages.size) : 0 < a.lengthOf page := by
  rw [lengthOf_of_page (Array.getElem?_eq_getElem hpage), Page.length, Nat.one_shiftLeft]
  exact Nat.two_pow_pos _

lemma lt_size_of_lengthOf_pos {page : Nat} (hpos : 0 < a.lengthOf page) : page < a.pages.size := by
  obtain ⟨p, hp⟩ := exists_page hpos
  exact (Array.getElem?_eq_some_iff.mp hp).1

/-- The free block that takes up a whole page. -/
def wholePage (a : Allocator) (page : Nat) : FreeBlock :=
  ⟨page, 0, a.lengthOf page - headerSize⟩

/-- A page has room for a header and more. -/
lemma Tiled.headerSize_lt (h : a.Tiled live) {page : Nat} (hpage : page < a.pages.size) :
    headerSize < a.lengthOf page := by
  obtain ⟨t, ht, hsame, -⟩ := h.tiles.covered page 0 (lengthOf_pos hpage)
  have hin := h.tiles.inside t ht
  obtain ⟨hsize, -⟩ := h.tiles.sized t ht
  rw [hsame] at hin
  unfold Tile.stop at hin
  omega

/-- When nothing is live, every page is one free block. -/
lemma Tiled.freeList_nil (h : a.Tiled []) :
    a.freeList = (List.range a.pages.size).map a.wholePage := by
  refine h.ordered.eq_of_mem_iff ?_ fun free => ?_
  · refine List.pairwise_map.mpr (List.pairwise_lt_range.imp fun hlt => .inl hlt)
  · rw [h.mem_freeList_iff, Gap.nil_iff, List.mem_map]
    constructor
    · rintro ⟨hstart, hend⟩
      have hpos := free.offset_lt_stop
      refine ⟨free.page, List.mem_range.mpr (lt_size_of_lengthOf_pos (by omega)), ?_⟩
      unfold FreeBlock.stop at hend
      cases free
      simp only [wholePage, FreeBlock.mk.injEq, true_and] at *
      omega
    · rintro ⟨page, hpage, rfl⟩
      have hroom := h.headerSize_lt (List.mem_range.mp hpage)
      refine ⟨rfl, ?_⟩
      simp only [wholePage, FreeBlock.stop]
      omega

/-! ### Giving blocks back, one after another -/

/-- Two memories with the same pages, whatever is on them. -/
structure SamePages (a b : Allocator) : Prop where
  size : b.pages.size = a.pages.size
  length : ∀ page, b.lengthOf page = a.lengthOf page
  mapped : b.mapped = a.mapped

instance : IsPreorder Allocator SamePages where
  refl _ := ⟨rfl, fun _ => rfl, rfl⟩
  trans _ _ _ h h' := ⟨h'.size.trans h.size, fun page => (h'.length page).trans (h.length page),
    h'.mapped.trans h.mapped⟩

lemma samePages_release (a : Allocator) (block : FreeBlock) : SamePages a (a.release block) := by
  unfold release
  refine ⟨?_, fun page => lengthOf_writeHeader, rfl⟩
  simp only [writeFree, writeHeader, write, Array.size_modify]

lemma within_free (block : Block) : (free block).Within SamePages := by
  have hrelease : (modify fun a => ({ a with allocated := a.allocated - block.size } :
      Allocator).release ⟨block.page, block.header, block.size⟩ :
        Action Allocator Unit).Within SamePages := by
    refine Action.within_modify fun a => ?_
    have hsame := samePages_release { a with allocated := a.allocated - block.size }
      ⟨block.page, block.header, block.size⟩
    exact ⟨hsame.size, hsame.length, hsame.mapped⟩
  refine Action.within_get.bind fun a => ?_
  refine Action.Within.ite ((Action.within_abort _).bind fun _ => ?_) ?_
  all_goals
    refine Action.Within.ite ((Action.within_abort _).bind fun _ => ?_) ?_
    all_goals
      refine (Action.within_note _).bind fun _ => ?_
      exact Action.Within.ite ((Action.within_abort _).bind fun _ => hrelease) hrelease

/-- Gives blocks back, one after another. -/
def freeAll : List Block → Action Allocator Unit
  | [] => pure ()
  | block :: rest => do
      free block
      freeAll rest

lemma within_freeAll (blocks : List Block) : (freeAll blocks).Within SamePages := by
  induction blocks with
  | nil => exact Action.within_pure ()
  | cons block rest ih => exact (within_free block).bind fun _ => ih

/-- Live blocks can be given back in any order. -/
lemma Tiled.freeAll {blocks : List Block} (h : a.Tiled live) (hsub : blocks.Subperm live)
    (journal : Journal) : ∃ b journal', Allocator.freeAll blocks a journal = .done () b journal' ∧
      b.Tiled (live.diff blocks) := by
  induction blocks generalizing a live journal with
  | nil => exact ⟨a, journal, rfl, h⟩
  | cons block rest ih =>
      have hb : block ∈ live := hsub.subset (List.mem_cons_self ..)
      obtain ⟨b, journal₁, hfree, htiled, -⟩ := h.free hb journal
      have hrest : rest.Subperm (live.erase block) := by
        have := hsub.erase block
        rwa [List.erase_cons_head] at this
      obtain ⟨c, journal₂, hall, hdiff⟩ := ih htiled hrest journal₁
      refine ⟨c, journal₂, ?_, ?_⟩
      · rw [Allocator.freeAll, Action.bind_of_done hfree, hall]
      · rwa [List.diff_cons]

/-- After every history, live blocks are given back without a fault, and the free list
and the counters do not depend on the order. If all live blocks are given back, each
page is one free block from its first byte to its last, and nothing is allocated. -/
theorem History.freeing_commutes {pageSize : Nat} {grants : Nat → Bool} {xs ys : List Block}
    (h : History pageSize grants a live) (hsub : xs.Subperm live) (hperm : xs.Perm ys)
    (journal journal' : Journal) :
    ∃ b c journal₁ journal₂, freeAll xs a journal = .done () b journal₁ ∧
      freeAll ys a journal' = .done () c journal₂ ∧ c.freeList = b.freeList ∧
      c.allocated = b.allocated ∧ b.mapped = a.mapped ∧ c.mapped = a.mapped ∧
      (xs.Perm live → b.allocated = 0 ∧ b.pages.size = a.pages.size ∧
        b.freeList = (List.range a.pages.size).map fun page => ⟨page, 0, a.lengthOf page - 16⟩) := by
  obtain ⟨b, journal₁, hb, hbt⟩ := h.tiled.freeAll hsub journal
  obtain ⟨c, journal₂, hc, hct⟩ := h.tiled.freeAll (hperm.symm.subperm.trans hsub) journal'
  have hbp : SamePages a b := (within_freeAll xs a journal).of_done hb
  have hcp : SamePages a c := (within_freeAll ys a journal').of_done hc
  have hlive : live.diff xs = live.diff ys := hperm.diff_left live
  refine ⟨b, c, journal₁, journal₂, hb, hc, ?_, ?_, hbp.mapped, hcp.mapped, fun hall => ?_⟩
  · refine hbt.freeList_eq hct (.of_eq hlive) fun page => ?_
    rw [hcp.length, hbp.length]
  · rw [hct.allocated, hbt.allocated, hlive]
  -- nothing is live, so each page is one free block
  · have hnone : live.diff xs = [] := by
      rw [h.tiled.nodup.sdiff_eq_filter, List.filter_eq_nil_iff]
      intro block hb
      simpa using hall.mem_iff.mpr hb
    rw [hnone] at hbt
    refine ⟨hbt.allocated, hbp.size, ?_⟩
    rw [hbt.freeList_nil, hbp.size]
    refine List.map_congr_left fun page _ => ?_
    rw [wholePage, hbp.length, headerSize]

/-- Two blocks on a page, of which one got what was left, and one on another page. -/
theorem History.freeing_commutes_pages :
    ∃ a b c journal₁ journal₂,
      History 128 (fun _ => true) a [⟨1, 88, 40⟩, ⟨0, 16, 56⟩, ⟨0, 88, 40⟩] ∧
      freeAll [⟨0, 16, 56⟩, ⟨1, 88, 40⟩, ⟨0, 88, 40⟩] a .silent = .done () b journal₁ ∧
      freeAll [⟨0, 88, 40⟩, ⟨0, 16, 56⟩, ⟨1, 88, 40⟩] a .silent = .done () c journal₂ ∧
      c.freeList = b.freeList ∧ b.freeList = [⟨0, 0, 112⟩, ⟨1, 0, 112⟩] := by
  have served : History 128 (fun _ => true) _ [⟨1, 88, 40⟩, ⟨0, 16, 56⟩, ⟨0, 88, 40⟩] :=
    (((History.create rfl).allocate 40 .silent rfl).allocate 40 .silent rfl).allocate 40 .silent rfl
  have hall : [⟨0, 16, 56⟩, ⟨1, 88, 40⟩, ⟨0, 88, 40⟩].Perm
      [(⟨1, 88, 40⟩ : Block), ⟨0, 16, 56⟩, ⟨0, 88, 40⟩] := .swap ..
  have hperm : [(⟨0, 16, 56⟩ : Block), ⟨1, 88, 40⟩, ⟨0, 88, 40⟩].Perm
      [⟨0, 88, 40⟩, ⟨0, 16, 56⟩, ⟨1, 88, 40⟩] := by decide
  obtain ⟨b, c, journal₁, journal₂, hb, hc, hsame, -, -, -, hfree⟩ :=
    served.freeing_commutes hall.subperm hperm .silent .silent
  exact ⟨_, b, c, journal₁, journal₂, served, hb, hc, hsame, (hfree hall).2.2⟩

end Allocator

end ScriptMachine.Memory
