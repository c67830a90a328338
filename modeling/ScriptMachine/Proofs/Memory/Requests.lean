import Mathlib.Algebra.Ring.Nat
import ScriptMachine.Proofs.Memory.Allocator

/-!
Serving requests keeps the pages tiled.

* `Tiled.takeFit`: a block is cut out of a free one;
* `Tiled.mapPage`: a further page has room for what it was mapped for;
* `Tiled.allocate`: a new block of zeros, and all other payloads stay;
* `Tiled.grow`: a longer block with the old contents and zeros behind.

A request that is refused leaves everything as it was. When every page is
granted, whether a request is refused depends on its size only: that is
`refusal`.
-/

namespace ScriptMachine.Memory

namespace FreeList

lemma span_append (l l' : FreeList) : span (l ++ l') = span l + span l' := by
  induction l with
  | nil => simp [span]
  | cons free rest ih =>
      rw [List.cons_append, span, span, ih]
      omega

/-- The tile of a block in the middle comes first. -/
lemma tiles_middle (others : List Tile) (pre post : FreeList) (free : FreeBlock) :
    (others ++ tiles (pre ++ free :: post)).Perm
      (free.tile :: (others ++ tiles (pre ++ post))) := by
  simp only [tiles, List.map_append, List.map_cons, ← List.append_assoc]
  exact List.perm_middle

/-- The same for what may be left of a block. -/
lemma tiles_rest (others : List Tile) (pre post : FreeList) (rest : Option FreeBlock) :
    (tiles rest.toList ++ (others ++ tiles (pre ++ post))).Perm
      (others ++ tiles (pre ++ (rest.toList ++ post))) := by
  cases rest with
  | none => exact .refl _
  | some rest => exact (tiles_middle others pre post rest).symm

/-- What is left of a free block may take its place. -/
lemma Ordered.rest {pre post : FreeList} {free : FreeBlock} {rest : Option FreeBlock}
    (h : Ordered (pre ++ free :: post))
    (hrest : ∀ r ∈ rest, r.page = free.page ∧ free.offset ≤ r.offset ∧ r.stop ≤ free.stop) :
    Ordered (pre ++ (rest.toList ++ post)) := by
  cases rest with
  | none => exact h.delete
  | some rest =>
      obtain ⟨hpage, hlow, hhigh⟩ := hrest rest rfl
      exact h.shrink hpage hlow hhigh

/-- A block that is carved out of a free block tiles it, together with what is
left. -/
lemma tiles_carve {length : Nat → Nat} {others : List Tile} {free : FreeBlock} {block : Block}
    {rest : Option FreeBlock} {size : Nat} (h : Tiles length (free.tile :: others))
    (hfit : size ≤ free.size) (hsize : 0 < size ∧ alignment ∣ size)
    (hcarve : free.carve size = (block, rest)) :
    Tiles length (block.tile :: (tiles rest.toList ++ others)) ∧ headerSize ≤ block.offset ∧
      size ≤ block.size ∧
      (∀ r ∈ rest, r.page = free.page ∧ free.offset ≤ r.offset ∧ r.stop ≤ free.stop) ∧
      headerSize + block.size + span rest.toList = headerSize + free.size := by
  obtain ⟨-, hfree⟩ : free.tile.Sized := h.sized _ (by simp)
  change alignment ∣ free.size at hfree
  unfold FreeBlock.carve at hcarve
  split at hcarve
  -- large enough to split: the request is cut from the end, and the start stays free
  · rename_i hsplit
    obtain ⟨rfl, rfl⟩ := Prod.mk.inj hcarve
    unfold leastSplit at hsplit
    refine ⟨?_, Nat.le_add_left _ _, Nat.le_refl _, ?_, ?_⟩
    · let left : FreeBlock := { free with size := free.size - size - headerSize }
      let cut : Block := ⟨free.page, left.stop + headerSize, size⟩
      refine (Tiles.split (s := left.tile) (u := cut.tile) h rfl rfl rfl ?_ ?_ ⟨?_, hsize⟩).perm
        (.swap ..)
      · simp only [Block.tile, Block.header, FreeBlock.stop_tile, cut]
        omega
      · simp only [Block.tile, Block.header, Tile.stop, FreeBlock.tile, FreeBlock.stop, cut, left]
        omega
      · change 0 < free.size - size - headerSize ∧ alignment ∣ free.size - size - headerSize
        unfold headerSize alignment at *
        omega
    · rintro r ⟨⟩
      refine ⟨rfl, Nat.le_refl _, ?_⟩
      simp only [FreeBlock.stop]
      omega
    · simp only [Option.toList, span]
      omega
  -- otherwise the whole block is handed out, and only its header changes its tag
  · obtain ⟨rfl, rfl⟩ := Prod.mk.inj hcarve
    refine ⟨h.replace rfl ?_ rfl, Nat.le_add_left _ _, hfit, by simp, rfl⟩
    simp only [Block.tile, Block.header, FreeBlock.tile]
    omega

/-- A live block that is lengthened into the free block behind it, together
with what is left of that one, tiles both. -/
lemma tiles_extend {length : Nat → Nat} {others : List Tile} {block : Block} {extra : Nat}
    {pre post : FreeList} {next : FreeBlock} {cut : Cut}
    (h : Tiles length (block.tile :: next.tile :: others)) (hhead : headerSize ≤ block.offset)
    (hpage : next.page = block.page) (hoff : next.offset = block.stop) (h8 : alignment ∣ extra)
    (hfit : extra ≤ headerSize + next.size)
    (hcut : (extra + leastSplit ≤ headerSize + next.size ∧
          ∃ rest : FreeBlock, rest = ⟨next.page, next.offset + extra, next.size - extra⟩ ∧
            cut = ⟨{ block with size := block.size + extra }, some rest, pre ++ rest :: post⟩) ∨
        (headerSize + next.size < extra + leastSplit ∧
          cut = ⟨{ block with size := block.size + (headerSize + next.size) }, none,
            pre ++ post⟩)) :
    Tiles length (cut.block.tile :: (tiles cut.rest.toList ++ others)) ∧
      cut.block.page = block.page ∧ cut.block.offset = block.offset ∧
      block.size + extra ≤ cut.block.size ∧ cut.free = pre ++ (cut.rest.toList ++ post) ∧
      (∀ r ∈ cut.rest, r.page = next.page ∧ next.offset ≤ r.offset ∧ r.stop ≤ next.stop) ∧
      cut.block.size + span cut.rest.toList = block.size + (headerSize + next.size) := by
  have hstop := Block.stop_tile hhead
  -- both blocks are joined first; what is too much is then split off again
  let whole : Block := { block with size := block.size + (headerSize + next.size) }
  have hwhole : whole.tile.stop = next.stop := by
    rw [Block.stop_tile (b := whole) hhead, FreeBlock.stop, hoff]
    simp only [Block.stop, whole]
    omega
  have hjoined : Tiles length (whole.tile :: others) :=
    h.join rfl hpage.symm rfl (hoff.trans hstop.symm) hwhole
  obtain ⟨hsize, hblock⟩ : 0 < block.size ∧ alignment ∣ block.size := h.sized block.tile (by simp)
  obtain ⟨-, hnext⟩ : 0 < next.size ∧ alignment ∣ next.size := h.sized next.tile (by simp)
  rcases hcut with ⟨hsplit, rest, rfl, rfl⟩ | ⟨-, rfl⟩
  · unfold leastSplit at hsplit
    have hroom : extra + alignment ≤ next.size := by omega
    let longer : Block := { block with size := block.size + extra }
    let left : FreeBlock := ⟨next.page, next.offset + extra, next.size - extra⟩
    have hleft : left.stop = next.stop := by
      simp only [FreeBlock.stop, left]
      omega
    refine ⟨?_, rfl, rfl, Nat.le_refl _, rfl, ?_, ?_⟩
    · refine hjoined.split (s := longer.tile) (u := left.tile) rfl hpage rfl ?_ ?_ ⟨?_, ?_⟩
      · rw [Block.stop_tile (b := longer) hhead]
        change next.offset + extra = block.offset + (block.size + extra)
        rw [hoff, Block.stop]
        omega
      · rw [hwhole, FreeBlock.stop_tile, hleft]
      · exact ⟨Nat.add_pos_left hsize _, Nat.dvd_add hblock h8⟩
      · refine ⟨?_, Nat.dvd_sub hnext h8⟩
        change 0 < next.size - extra
        unfold alignment at hroom
        omega
    · rintro r ⟨⟩
      exact ⟨rfl, Nat.le_add_right _ _, Nat.le_of_eq hleft⟩
    · simp only [Option.toList, span]
      omega
  · exact ⟨hjoined, rfl, rfl, Nat.add_le_add_left hfit _, rfl, by simp, rfl⟩

end FreeList

/-! ### Lengths of pages -/

lemma isPowerOfTwo_iff {n : Nat} : 1 <<< n.log2 = n ↔ ∃ k, n = 2 ^ k := by
  rw [Nat.one_shiftLeft]
  constructor
  · exact fun h => ⟨n.log2, h.symm⟩
  · rintro ⟨k, rfl⟩
    rw [Nat.log2_two_pow]

/-- The length of a page is a power of two that is large enough. -/
lemma pageLength_eq_some {needed doublings k length : Nat} (hk : k < 64)
    (h : pageLength needed doublings (2 ^ k) = some length) :
    needed ≤ length ∧ ∃ j < 64, length = 2 ^ j := by
  induction doublings generalizing k with
  | zero =>
      rw [pageLength] at h
      split at h
      · cases h
        exact ⟨by assumption, k, hk, rfl⟩
      · cases h
  | succ doublings ih =>
      rw [pageLength] at h
      split at h
      · cases h
        exact ⟨by assumption, k, hk, rfl⟩
      · split at h
        · rename_i hword
          rw [← Nat.pow_succ] at h hword
          refine ih ?_ h
          exact (Nat.pow_lt_pow_iff_right (by decide : 1 < 2)).mp hword
        · cases h

/-- Up to half of what a word can count, there is a length. -/
lemma pageLength_ne_none {needed doublings k : Nat} (hk : k < 64) (hd : 63 ≤ k + doublings)
    (hneeded : needed ≤ 2 ^ 63) : pageLength needed doublings (2 ^ k) ≠ none := by
  induction doublings generalizing k with
  | zero =>
      obtain rfl : k = 63 := by omega
      rw [pageLength, if_pos hneeded]
      exact Option.some_ne_none _
  | succ doublings ih =>
      rw [pageLength]
      split
      · simp
      · rename_i hsmall
        have hlt : k < 63 := by
          refine Nat.lt_of_not_le fun hle => hsmall ?_
          exact Nat.le_trans hneeded (Nat.pow_le_pow_right (by decide) hle)
        have hword : 2 ^ k * 2 < wordLimit := by
          rw [← Nat.pow_succ]
          exact Nat.pow_lt_pow_right (by decide) (by omega : k + 1 < 64)
        rw [if_pos hword, ← Nat.pow_succ]
        exact ih (by omega) (by omega)

/-- Why a request for an aligned number of bytes is refused when every page is
granted. -/
def refusal (size : Nat) : Option Failure :=
  if wordLimit ≤ size + headerSize then some (.fault .wordOverflow)
  else if wordLimit < 2 * (size + headerSize) then some (.error (.outOfMemory size))
  else none

namespace Allocator

variable {a b : Allocator} {live : List Block} {block : Block} {size : Nat}

/-! ### Cutting a block out of a free one -/

/-- The rest of a free block is labelled; the remainder of the block is
reserved. -/
lemma reserved_writeRest {pre post : FreeList} {rest : Option FreeBlock}
    (hsize : 1 <<< a.pageSize.log2 = a.pageSize ∧ headerSize * 2 ≤ a.pageSize)
    (hshort : 2 * a.pageSize ≤ wordLimit ∧ ∀ page, 2 * a.lengthOf page ≤ wordLimit)
    (htiles : Tiles a.lengthOf
      (block.tile :: (live.map Block.tile ++ FreeList.tiles (pre ++ (rest.toList ++ post)))))
    (hlab : a.Labelled (live.map Block.tile ++ FreeList.tiles (pre ++ post)))
    (hhead : ∀ b ∈ block :: live, headerSize ≤ b.offset)
    (hord : FreeList.Ordered (pre ++ (rest.toList ++ post)))
    (hmapped : a.mapped = payload (block :: live) + headerSize * (block :: live).length +
      FreeList.span (pre ++ (rest.toList ++ post)))
    (hb : b = ({ a with freeList := pre ++ (rest.toList ++ post) } : Allocator).writeRest rest) :
    b.Reserved live block ∧ (∀ p, b.lengthOf p = a.lengthOf p) ∧
      ∀ p o, o < a.lengthOf p → (∀ r ∈ rest, ¬ r.tile.Covers p o) →
        b.byteAt p o = a.byteAt p o := by
  subst hb
  cases rest with
  | none =>
      refine ⟨⟨hsize, hshort, htiles, hhead, hord, hlab, hmapped⟩, fun _ => rfl, ?_⟩
      exact fun _ _ _ _ => rfl
  | some rest =>
      have hfirst : Tiles a.lengthOf (rest.tile :: block.tile ::
          (live.map Block.tile ++ FreeList.tiles (pre ++ post))) := by
        refine htiles.perm (.trans (.cons _ ?_) (.swap ..))
        exact FreeList.tiles_middle ..
      -- only the header of the rest is written, which lies in no other tile
      have honly : OnlyIn rest.tile a (({ a with
          freeList := pre ++ ((some rest).toList ++ post) } : Allocator).writeRest (some rest)) :=
        (OnlyIn.writeHeader (a := a) (t := rest.tile) rfl (Nat.le_refl _) (Nat.le_add_right _ _)
          (hfirst.inside _ (by simp))).of_pages rfl rfl
      refine ⟨⟨hsize, ⟨hshort.1, ?_⟩, ?_, hhead, hord, ?_, hmapped⟩, honly.length, ?_⟩
      · exact fun page => (honly.length page).symm ▸ hshort.2 page
      · rw [show Allocator.lengthOf _ = a.lengthOf from funext honly.length]
        exact htiles
      · intro t ht
        have hmem := (FreeList.tiles_middle _ pre post rest).mem_iff.mp ht
        exact hlab.writeHeader hfirst (List.subset_cons_self ..) hshort.2 t hmem
      · exact fun p o ho hc => honly.bytes p o ho (hc rest rfl)

/-- What is left of a free block lies inside it, so that writing its header
leaves alone whatever is apart from the free block. -/
lemma SameBytes.of_rest {free : FreeBlock} {rest : Option FreeBlock}
    (hrest : ∀ r ∈ rest, r.page = free.page ∧ free.offset ≤ r.offset ∧ r.stop ≤ free.stop)
    (hbytes : ∀ p o, o < a.lengthOf p → (∀ r ∈ rest, ¬ r.tile.Covers p o) →
      b.byteAt p o = a.byteAt p o)
    (hapart : free.tile.Apart block.tile) (hhead : headerSize ≤ block.offset)
    (hin : block.stop ≤ a.lengthOf block.page) : SameBytes a b block := by
  intro o hlow hhigh
  refine hbytes _ _ (by omega) fun r hr hcov => ?_
  obtain ⟨hpage, hbelow, habove⟩ := hrest r hr
  have hfar : free.page ≠ block.page ∨ free.stop ≤ block.tile.offset ∨
      block.tile.stop ≤ free.offset := hapart
  have hcovers : r.page = block.page ∧ r.offset ≤ o ∧ o < r.stop := hcov
  have hstop := Block.stop_tile hhead
  have hoff := Block.offset_tile hhead
  omega

/-- A request is served from a free block. -/
lemma Tiled.takeFit (h : a.Tiled live) (hsize : 0 < size ∧ alignment ∣ size)
    (ht : a.takeFit size = (some block, b)) :
    b.Reserved live block ∧ Keeps a b live ∧ b.allocated = a.allocated ∧ size ≤ block.size := by
  unfold Allocator.takeFit at ht
  split at ht
  · cases ht
  rename_i cut hcut
  obtain ⟨pre, free, post, hlist, hfit, hcarve, hfree⟩ := FreeList.take_eq_some hcut
  obtain ⟨hblock, hb⟩ := Prod.mk.inj ht
  obtain rfl := Option.some.inj hblock
  rw [hfree] at hb
  have htiles : Tiles a.lengthOf
      (free.tile :: (live.map Block.tile ++ FreeList.tiles (pre ++ post))) := by
    refine h.tiles.perm ?_
    rw [Allocator.tiles, hlist]
    exact FreeList.tiles_middle ..
  have hlab : a.Labelled (live.map Block.tile ++ FreeList.tiles (pre ++ post)) := by
    intro t ht
    refine h.labelled t ?_
    rw [Allocator.tiles, hlist]
    exact (FreeList.tiles_middle ..).mem_iff.mpr (List.mem_cons_of_mem _ ht)
  -- replace the free block by the block cut from it and what is left
  obtain ⟨hcut, hhead, hlarge, hrest, hspan⟩ := FreeList.tiles_carve htiles hfit hsize hcarve
  have hkept : Tiles a.lengthOf (cut.block.tile ::
      (live.map Block.tile ++ FreeList.tiles (pre ++ (cut.rest.toList ++ post)))) :=
    hcut.perm (.cons _ (FreeList.tiles_rest ..))
  have hmapped : a.mapped = payload (cut.block :: live) +
      headerSize * (cut.block :: live).length +
        FreeList.span (pre ++ (cut.rest.toList ++ post)) := by
    have := h.mapped
    simp only [hlist, FreeList.span_append, FreeList.span, payload, List.length_cons,
      Nat.mul_succ] at this ⊢
    omega
  obtain ⟨hres, hlen, hbytes⟩ := reserved_writeRest h.pageSize h.short hkept hlab
    (List.forall_mem_cons.mpr ⟨hhead, h.headed⟩) (hlist ▸ h.ordered |>.rest hrest) hmapped hb.symm
  have hfields : b.grants = a.grants ∧ b.pageSize = a.pageSize ∧ b.allocated = a.allocated := by
    subst hb
    cases cut.rest <;> exact ⟨rfl, rfl, rfl⟩
  refine ⟨hres, ⟨hfields.1, hfields.2.1, fun c hc => ?_⟩, hfields.2.2, hlarge⟩
  have hapart := htiles.apart_of_mem (List.mem_append_left _ (List.mem_map_of_mem hc))
  exact .of_rest hrest hbytes hapart (h.headed c hc) (h.inside hc)

/-! ### Mapping a page -/

lemma lengthOf_push {page : Page} {p : Nat} :
    ({ a with pages := a.pages.push page } : Allocator).lengthOf p =
      if p = a.pages.size then page.length else a.lengthOf p := by
  unfold lengthOf
  rw [Array.getElem?_push]
  split <;> rfl

lemma byteAt_push {page : Page} {p o : Nat} (hp : p ≠ a.pages.size) :
    ({ a with pages := a.pages.push page } : Allocator).byteAt p o = a.byteAt p o := by
  unfold byteAt byte?
  rw [Array.getElem?_push, if_neg hp]

/-- A further page has room for what it is mapped for. -/
lemma Tiled.addPage (h : a.Tiled live) {j : Nat} (hj : j < 64) (hsize : 0 < size ∧ alignment ∣ size)
    (hroom : size + headerSize ≤ 2 ^ j)
    (hb : b = ({ a with
      pages := a.pages.push (Page.blank (2 ^ j)), mapped := a.mapped + 2 ^ j } : Allocator).release
        ⟨a.pages.size, 0, 2 ^ j - headerSize⟩) :
    b.Tiled live ∧ Keeps a b live ∧ ∃ free ∈ b.freeList, size ≤ free.size := by
  let page : FreeBlock := ⟨a.pages.size, 0, 2 ^ j - headerSize⟩
  let longer : Allocator := { a with
    pages := a.pages.push (Page.blank (2 ^ j)), mapped := a.mapped + 2 ^ j }
  have hblank : (Page.blank (2 ^ j)).length = 2 ^ j :=
    Page.length_blank (isPowerOfTwo_iff.mpr ⟨j, rfl⟩)
  have hlength : ∀ p, longer.lengthOf p = if p = a.pages.size then 2 ^ j else a.lengthOf p := by
    intro p
    rw [← hblank]
    exact lengthOf_push
  have hnone : a.lengthOf a.pages.size = 0 := by simp [lengthOf]
  have hpow : 2 * 2 ^ j ≤ wordLimit := by
    rw [Nat.mul_comm, ← Nat.pow_succ]
    exact Nat.pow_le_pow_right (by decide) (by omega : j + 1 ≤ 64)
  -- a power of two above a header is a multiple of the alignment
  have hsized : page.tile.Sized := by
    have hlow : 3 ≤ j := by
      refine Nat.le_of_not_lt fun hlt => ?_
      have : 2 ^ j ≤ 2 ^ 2 := Nat.pow_le_pow_right (by decide) (by omega)
      unfold headerSize at hroom
      omega
    have h8 : 2 ^ 3 ∣ 2 ^ j := Nat.pow_dvd_pow 2 hlow
    change 0 < 2 ^ j - headerSize ∧ alignment ∣ 2 ^ j - headerSize
    unfold headerSize alignment at *
    omega
  have htiles : Tiles longer.lengthOf (page.tile :: a.tiles live) := by
    refine h.tiles.newPage hnone rfl ?_ hsized fun p hp => ?_
    · rw [hlength, FreeBlock.stop_tile, FreeBlock.stop]
      change 0 + headerSize + (2 ^ j - headerSize) = if a.pages.size = a.pages.size then _ else _
      rw [if_pos rfl]
      omega
    · exact (hlength p).trans (if_neg hp)
  have hshort : ∀ p, 2 * longer.lengthOf p ≤ wordLimit := by
    intro p
    rw [hlength]
    split
    · exact hpow
    · exact h.short.2 p
  -- the tiles that were there before lie on the old pages
  have hold : ∀ t ∈ a.tiles live, t.page ≠ a.pages.size := by
    intro t ht heq
    have := h.tiles.inside t ht
    rw [heq, hnone] at this
    unfold Tile.stop headerSize at this
    omega
  have hlab : longer.Labelled (FreeList.tiles longer.freeList ++ live.map Block.tile) := by
    intro t ht
    have ht' : t ∈ a.tiles live := List.perm_append_comm.mem_iff.mp ht
    have hin := h.tiles.inside t ht'
    rw [← h.labelled t ht']
    have hle : t.offset + headerSize ≤ t.stop := Nat.le_add_right _ _
    refine readHeader_congr (by omega) ?_ fun o _ _ => byteAt_push (hold t ht')
    rw [hlength, if_neg (hold t ht')]
    omega
  -- the new page is one free block, given back like any other
  have hrel : Released longer page (live.map Block.tile) b := by
    rw [hb]
    exact released (htiles.perm (.cons _ List.perm_append_comm)) h.ordered hlab hshort
  have hrest := hrel.rest
  have hkeeps := hrel.keeps h.headed
  refine ⟨⟨?_, ⟨?_, ?_⟩, ?_, h.headed, hrel.ordered, ?_, ?_, ?_⟩, ⟨hrest.2.2.2, hrest.1, ?_⟩, ?_⟩
  · rw [hrest.1]
    exact h.pageSize
  · rw [hrest.1]
    exact h.short.1
  · exact fun p => (hrel.length p).symm ▸ hshort p
  · exact hrel.tiles.perm List.perm_append_comm
  · exact fun t ht => hrel.labelled t (List.perm_append_comm.mem_iff.mp ht)
  · exact hrest.2.1.trans h.allocated
  · rw [hrest.2.2.1, hrel.span]
    have := h.mapped
    dsimp only [longer, page]
    omega
  · intro c hc o hlow hhigh
    rw [hkeeps.bytes c hc o hlow hhigh]
    exact byteAt_push (hold c.tile (mem_tiles hc))
  · obtain ⟨free, hmem, hle⟩ := hrel.largest
    exact ⟨free, hmem, by dsimp only [page] at hle; omega⟩

/-- Every page is granted. -/
def Granted (a : Allocator) : Prop := ∀ length, a.grants length = true

lemma Tiled.pageSize_eq (h : a.Tiled live) : ∃ k < 64, a.pageSize = 2 ^ k := by
  obtain ⟨k, hk⟩ := isPowerOfTwo_iff.mp h.pageSize.1
  refine ⟨k, ?_, hk⟩
  have hlt : 2 ^ k < 2 ^ 64 := by
    have := h.short.1
    have := h.pageSize.2
    unfold wordLimit headerSize at *
    omega
  exact (Nat.pow_lt_pow_iff_right (by decide : 1 < 2)).mp hlt

/-- Mapping a page either leaves room for what it was mapped for, or changes
nothing. -/
lemma Tiled.mapPage (h : a.Tiled live) (hsize : 0 < size ∧ alignment ∣ size) (journal : Journal) :
    Outcome.Ends
      (fun _ b => (b.Tiled live ∧ Keeps a b live ∧ ∃ free ∈ b.freeList, size ≤ free.size) ∧
        refusal size = none)
      (fun error b => b = a ∧ (a.Granted → refusal size = some (.error error)))
      (fun fault => fault = .wordOverflow ∧ refusal size = some (.fault fault))
      (Allocator.mapPage size a journal) := by
  obtain ⟨k, hk, hpage⟩ := h.pageSize_eq
  unfold Allocator.mapPage
  by_cases hword : wordLimit ≤ size + headerSize
  · simp [hword, Outcome.Ends, refusal]
  simp only [hword, if_false, Action.get_bind]
  cases hlength : pageLength (size + headerSize) 64 a.pageSize with
  | none =>
      rw [hpage] at hlength
      refine ⟨rfl, fun _ => ?_⟩
      -- no length is found only if twice the request is more than a word counts
      have hlarge : wordLimit < 2 * (size + headerSize) := by
        refine Nat.lt_of_not_le fun hle => pageLength_ne_none hk (by omega) ?_ hlength
        unfold wordLimit at hle
        omega
      rw [refusal, if_neg hword, if_pos hlarge]
  | some length =>
      rw [hpage] at hlength
      obtain ⟨hroom, j, hj, rfl⟩ := pageLength_eq_some hk hlength
      cases hgrant : a.grants (2 ^ j) with
      -- the host refuses the page before anything is changed
      | false =>
          simp only [hgrant, Bool.not_false, if_true, Action.raise_bind, Action.raise_apply,
            Outcome.Ends, true_and]
          intro hgranted
          rw [hgranted] at hgrant
          cases hgrant
      | true =>
          simp only [hgrant, Bool.not_true, Bool.false_eq_true, if_false, Action.note_bind,
            Action.modify_apply, Outcome.Ends, Array.size_push, Nat.add_sub_cancel]
          refine ⟨h.addPage hj hsize hroom rfl, ?_⟩
          have hpow : 2 ^ j ≤ 2 ^ 63 := Nat.pow_le_pow_right (by decide) (by omega)
          rw [refusal, if_neg hword, if_neg]
          unfold wordLimit
          omega

/-! ### Reserving and allocating -/

/-- Whatever fits into a free block is not refused. -/
lemma Tiled.refusal_eq_none (h : a.Tiled live) {free : FreeBlock} (hmem : free ∈ a.freeList)
    (hfit : size ≤ free.size) : refusal size = none := by
  have hin : free.stop ≤ a.lengthOf free.page :=
    h.tiles.inside free.tile (List.mem_append_right _ (List.mem_map_of_mem hmem))
  have hshort := h.short.2 free.page
  unfold FreeBlock.stop at hin
  rw [refusal, if_neg, if_neg]
  all_goals
    unfold wordLimit headerSize at *
    omega

/-- A request is served from the free list if and only if some free block is
large enough. -/
lemma takeFit_cases (a : Allocator) (size : Nat) :
    (a.takeFit size = (none, a) ∧ ∀ free ∈ a.freeList, free.size < size) ∨
      ∃ block b, a.takeFit size = (some block, b) ∧ ∃ free ∈ a.freeList, size ≤ free.size := by
  unfold takeFit
  cases hcut : FreeList.take size a.freeList with
  | none => exact .inl ⟨rfl, FreeList.take_eq_none.mp hcut⟩
  | some cut =>
      obtain ⟨pre, free, post, hlist, hfit, -⟩ := FreeList.take_eq_some hcut
      exact .inr ⟨_, _, rfl, free, by simp [hlist], hfit⟩

/-- A block is reserved, off the free list or off a new page. -/
lemma Tiled.reserve (h : a.Tiled live) (hsize : 0 < size ∧ alignment ∣ size) (journal : Journal) :
    Outcome.Ends
      (fun block b => (b.Reserved live block ∧ Keeps a b live ∧ b.allocated = payload live ∧
        size ≤ block.size) ∧ refusal size = none)
      (fun error b => b = a ∧ (a.Granted → refusal size = some (.error error)))
      (fun fault => fault = .wordOverflow ∧ refusal size = some (.fault fault))
      (Allocator.reserve size a journal) := by
  unfold Allocator.reserve
  rw [Action.modifyGet_bind]
  rcases takeFit_cases a size with ⟨hnone, -⟩ | ⟨block, b, hsome, free, hmem, hfit⟩
  · rw [hnone]
    refine (h.mapPage hsize journal).bind fun _ b journal' hpage => ?_
    obtain ⟨⟨htiled, hkeeps, free, hmem, hroom⟩, hrefusal⟩ := hpage
    rw [Action.modifyGet_bind]
    rcases takeFit_cases b size with ⟨-, hsmall⟩ | ⟨block, c, hsome, -⟩
    · have := hsmall free hmem
      omega
    · obtain ⟨hres, hkeeps', hcount, hlarge⟩ := htiled.takeFit hsize hsome
      rw [hsome]
      exact ⟨⟨hres, hkeeps.trans hkeeps', hcount.trans htiled.allocated, hlarge⟩, hrefusal⟩
  · obtain ⟨hres, hkeeps, hcount, hlarge⟩ := h.takeFit hsize hsome
    rw [hsome]
    exact ⟨⟨hres, hkeeps, hcount.trans h.allocated, hlarge⟩, h.refusal_eq_none hmem hfit⟩

/-- Why a request is refused when every page is granted. -/
def requestRefusal (size : Nat) : Option Failure :=
  match align? (max size 1) with
  | none => some (.error (.outOfMemory size))
  | some aligned => refusal aligned

lemma align?_eq_some {aligned : Nat} (h : align? size = some aligned) :
    size ≤ aligned ∧ alignment ∣ aligned := by
  unfold align? at h
  split at h
  · cases h
    unfold alignment
    omega
  · cases h

/-- A block is allocated and holds zeros, or the request is refused and nothing
changes. -/
lemma Tiled.allocate (h : a.Tiled live) (size : Nat) (journal : Journal) :
    Outcome.Ends
      (fun block b => (b.Tiled (block :: live) ∧ Keeps a b live ∧ size ≤ block.size ∧
        ∀ o, block.offset ≤ o → o < block.stop → b.byteAt block.page o = 0) ∧
          requestRefusal size = none)
      (fun error b => b = a ∧ (a.Granted → requestRefusal size = some (.error error)))
      (fun fault => fault = .wordOverflow ∧ requestRefusal size = some (.fault fault))
      (Allocator.allocate size a journal) := by
  unfold Allocator.allocate requestRefusal
  cases haligned : align? (max size 1) with
  | none => exact ⟨rfl, fun _ => rfl⟩
  | some aligned =>
      obtain ⟨hle, h8⟩ := align?_eq_some haligned
      refine (h.reserve ⟨by omega, h8⟩ journal).bind fun block b journal' hreserved => ?_
      obtain ⟨⟨hres, hkeeps, hcount, hlarge⟩, hrefusal⟩ := hreserved
      obtain ⟨htiled, hkeeps', hzero⟩ := hres.claim hcount
      exact ⟨⟨htiled, hkeeps.trans hkeeps', by omega, hzero⟩, hrefusal⟩

/-! ### Growing -/

lemma refusal_mono {size' : Nat} (h : size ≤ size') (hlarge : refusal size' = none) :
    refusal size = none := by
  unfold refusal at *
  split at hlarge
  · cases hlarge
  · split at hlarge
    · cases hlarge
    · rw [if_neg (by omega), if_neg (by omega)]

/-- No live block is longer than what can be asked for. -/
lemma Tiled.refusal_live (h : a.Tiled live) (hb : block ∈ live) : refusal block.size = none := by
  have hin := h.inside hb
  have hhead := h.headed block hb
  have hshort := h.short.2 block.page
  unfold Block.stop at hin
  rw [refusal, if_neg, if_neg]
  all_goals
    unfold wordLimit headerSize at *
    omega

lemma align?_aligned {aligned : Nat} (h : align? size = some aligned) :
    align? aligned = some aligned := by
  unfold align? at *
  split at h
  · cases h
    unfold alignment at *
    rw [if_pos]
    · congr 1
      omega
    · unfold wordLimit at *
      omega
  · cases h

lemma requestRefusal_of_pos {aligned : Nat} (h : align? size = some aligned) (hpos : 0 < aligned) :
    requestRefusal size = refusal aligned := by
  have hsize : 0 < size := by
    refine Nat.pos_of_ne_zero ?_
    rintro rfl
    cases h
    cases hpos
  rw [requestRefusal, Nat.max_eq_left hsize, h]

lemma requestRefusal_eq_none {aligned : Nat} (h : align? size = some aligned)
    (hnone : refusal aligned = none) : requestRefusal size = none := by
  rcases Nat.eq_zero_or_pos aligned with rfl | hpos
  · obtain rfl : size = 0 := Nat.le_zero.mp (align?_eq_some h).1
    decide
  · rw [requestRefusal_of_pos h hpos, hnone]

/-- What fits into a live block is not refused. -/
lemma Tiled.requestRefusal_live (h : a.Tiled live) (hb : block ∈ live) (hle : size ≤ block.size) :
    requestRefusal size = none := by
  have hnone := h.refusal_live hb
  have h8 : alignment ∣ block.size := (h.tiles.sized block.tile (mem_tiles hb)).2
  have hin := h.inside hb
  have hshort := h.short.2 block.page
  unfold Block.stop at hin
  have haligned : align? size = some ((size + 7) / 8 * 8) := by
    refine if_pos ?_
    unfold wordLimit alignment at *
    omega
  refine requestRefusal_eq_none haligned (refusal_mono ?_ hnone)
  unfold alignment at h8
  omega

/-- A block grew: the new one has the old contents and zeros behind, and all
other payloads stay. -/
structure Grown (a b : Allocator) (live : List Block) (block grown : Block) (size : Nat) :
    Prop where
  tiled : b.Tiled (grown :: live)
  keeps : Keeps a b live
  large : size ≤ grown.size ∧ block.size ≤ grown.size
  old : ∀ i < block.size,
    b.byteAt grown.page (grown.offset + i) = a.byteAt block.page (block.offset + i)
  zeros : ∀ i, block.size ≤ i → i < grown.size → b.byteAt grown.page (grown.offset + i) = 0

/-- A block grows into the free block behind it. -/
lemma Tiled.growInPlace (h : a.Tiled (block :: live)) {cut : Cut} {extra : Nat}
    (h8 : alignment ∣ extra) (hcut : FreeList.extend block extra a.freeList = some cut)
    (hb : b = (({ a with freeList := cut.free } : Allocator).writeRest cut.rest)) :
    Grown a { (b.writeHeader cut.block.page cut.block.header cut.block.size .used).clear block.page
        block.stop (cut.block.size - block.size) with
      allocated := b.allocated + (cut.block.size - block.size) } live block cut.block
        (block.size + extra) := by
  obtain ⟨pre, next, post, hlist, hpage, hoff, hfit, hcases⟩ := FreeList.extend_eq_some hcut
  have hhead := h.headed block (by simp)
  -- the free block behind is found in the list; everything else tiles the rest of the pages
  have htiles : Tiles a.lengthOf (block.tile :: next.tile ::
      (live.map Block.tile ++ FreeList.tiles (pre ++ post))) := by
    refine h.tiles.perm (.cons _ ?_)
    rw [hlist]
    exact FreeList.tiles_middle ..
  have hlab : a.Labelled (live.map Block.tile ++ FreeList.tiles (pre ++ post)) := by
    intro t ht
    refine h.labelled t (List.mem_cons_of_mem _ ?_)
    rw [hlist]
    exact (FreeList.tiles_middle ..).mem_iff.mpr (List.mem_cons_of_mem _ ht)
  obtain ⟨hnew, hsame, hstart, hlarge, hfree, hrest, hspan⟩ :=
    FreeList.tiles_extend htiles hhead hpage hoff h8 hfit hcases
  -- from here on only what `tiles_extend` says of the longer block is used
  generalize cut.block = grown at *
  rw [hfree] at hb
  have hkept : Tiles a.lengthOf (grown.tile ::
      (live.map Block.tile ++ FreeList.tiles (pre ++ (cut.rest.toList ++ post)))) :=
    hnew.perm (.cons _ (FreeList.tiles_rest ..))
  have hmapped : a.mapped = payload (grown :: live) + headerSize * (grown :: live).length +
      FreeList.span (pre ++ (cut.rest.toList ++ post)) := by
    have := h.mapped
    simp only [hlist, FreeList.span_append, FreeList.span, payload, List.length_cons] at this ⊢
    omega
  have hheads : ∀ c ∈ grown :: live, headerSize ≤ c.offset := by
    refine List.forall_mem_cons.mpr ⟨by omega, fun c hc => h.headed c (by simp [hc])⟩
  obtain ⟨hres, hlen, hbytes⟩ := reserved_writeRest h.pageSize h.short hkept hlab hheads
    (hlist ▸ h.ordered |>.rest hrest) hmapped hb
  have hfields : b.grants = a.grants ∧ b.pageSize = a.pageSize ∧ b.allocated = a.allocated := by
    subst hb
    cases cut.rest <;> exact ⟨rfl, rfl, rfl⟩
  have hstop : block.stop = block.offset + block.size := rfl
  have hend : grown.stop = block.offset + grown.size := by rw [← hstart]; rfl
  -- two writes follow, both inside the longer block: its header and the zeros of the new part
  let labelled := b.writeHeader grown.page grown.header grown.size .used
  have hclear : ∀ {p o}, o < labelled.lengthOf p →
      (labelled.clear block.page block.stop (grown.size - block.size)).byteAt p o =
        if p = block.page ∧ block.stop ≤ o ∧ o < block.stop + (grown.size - block.size) then 0
        else labelled.byteAt p o := fun ho => byteAt_clear ho
  have hw : Within grown labelled { labelled.clear block.page block.stop
      (grown.size - block.size) with
        allocated := b.allocated + (grown.size - block.size) } := by
    refine ⟨fun p => lengthOf_clear, fun p o ho hc => (hclear ho).trans (if_neg ?_)⟩
    rw [hsame, hstart, hend] at hc
    omega
  -- the block is counted with its new size, so it is live like a block just reserved
  have hcount : b.allocated + (grown.size - block.size) = payload (grown :: live) := by
    have := h.allocated
    rw [hfields.2.2]
    simp only [payload] at this ⊢
    omega
  obtain ⟨htiled, honly⟩ := hres.tiled hw rfl rfl rfl hcount
  have hinside : ∀ i < grown.size, block.offset + i < labelled.lengthOf block.page := by
    intro i hi
    have := htiled.inside (List.mem_cons_self ..)
    rw [hw.length, hsame, hend] at this
    omega
  -- writing the rest happened inside the free block, away from the payloads
  have hapart : ∀ c ∈ block :: live, SameBytes a b c := by
    intro c hc
    have hfar : next.tile.Apart c.tile := by
      refine (htiles.perm (.swap ..)).apart_of_mem ?_
      rcases List.mem_cons.mp hc with rfl | hc
      · exact List.mem_cons_self ..
      · exact List.mem_cons_of_mem _ (List.mem_append_left _ (List.mem_map_of_mem hc))
    exact .of_rest hrest hbytes hfar (h.headed c hc) (h.inside hc)
  have hkeeps : Keeps a b live :=
    ⟨hfields.1, hfields.2.1, fun c hc => hapart c (by simp [hc])⟩
  have hbyte : ∀ i, (labelled.clear block.page block.stop (grown.size - block.size)).byteAt
      grown.page (grown.offset + i) = (labelled.clear block.page block.stop
        (grown.size - block.size)).byteAt block.page (block.offset + i) :=
    fun i => congrArg₂ _ hsame (congrArg (· + i) hstart)
  refine ⟨htiled, hkeeps.trans ?_, ⟨hlarge, by omega⟩, fun i hi => (hbyte i).trans ?_,
    fun i hlow hhigh => (hbyte i).trans ?_⟩
  · exact honly.keeps hres.tiles (fun c hc => hheads c (by simp [hc])) rfl rfl
  -- the old contents lie behind the header and before the part that is cleared
  · rw [← hapart block (by simp) _ (Nat.le_add_right _ _) (by omega)]
    refine (hclear (hinside i (by omega))).trans ((if_neg (by omega)).trans ?_)
    have hheader : grown.header = block.header := by rw [Block.header, hstart]; rfl
    have hoff := Block.offset_tile hhead
    change block.header + headerSize = block.offset at hoff
    have hlong := hinside i (by omega)
    rw [lengthOf_writeHeader] at hlong
    refine byteAt_writeHeader_of_outside ?_ hlong (.inr (.inr ?_))
    · rw [hsame]
      omega
    · omega
  · exact (hclear (hinside i hhigh)).trans (if_pos (by omega))

/-- Copying the contents of a block to a new one of zeros changes the new one only. -/
lemma Tiled.within_copy {grown : Block} (h : a.Tiled (grown :: live)) (hb : block ∈ live)
    (hlarge : block.size ≤ grown.size)
    (hzero : ∀ o, grown.offset ≤ o → o < grown.stop → a.byteAt grown.page o = 0) :
    Within grown a (a.copy block grown) := by
  have hin := h.inside (List.mem_cons_of_mem _ hb)
  have hgrown := h.inside (List.mem_cons_self ..)
  have hstop : grown.stop = grown.offset + grown.size := rfl
  refine ⟨fun p => lengthOf_copy, fun p o ho hc => ?_⟩
  rw [byteAt_copy hin (by omega) (fun o hlow hhigh => hzero o hlow (by omega)) ho, if_neg]
  omega

/-- A block moves: its contents are copied to a new block of zeros, and then it
is given back. -/
lemma Tiled.move {grown : Block} (h : a.Tiled (grown :: live)) (hb : block ∈ live)
    (hlarge : block.size ≤ grown.size)
    (hzero : ∀ o, grown.offset ≤ o → o < grown.stop → a.byteAt grown.page o = 0)
    (journal : Journal) :
    ∃ b journal', Allocator.free block (a.copy block grown) journal = .done () b journal' ∧
      Grown a b (live.erase block) block grown grown.size := by
  have hin := h.inside (List.mem_cons_of_mem _ hb)
  have hgrown := h.inside (List.mem_cons_self ..)
  have hstop : grown.stop = grown.offset + grown.size := rfl
  have hcopy : ∀ {p o}, o < a.lengthOf p → (a.copy block grown).byteAt p o = _ := fun ho =>
    byteAt_copy hin (by omega) (fun o hlow hhigh => hzero o hlow (by omega)) ho
  have hw := h.within_copy hb hlarge hzero
  have hfields : (a.copy block grown).pageSize = a.pageSize ∧
      (a.copy block grown).freeList = a.freeList ∧
      (a.copy block grown).allocated = a.allocated ∧ (a.copy block grown).mapped = a.mapped ∧
      (a.copy block grown).grants = a.grants := by
    unfold copy
    split <;> exact ⟨rfl, rfl, rfl, rfl, rfl⟩
  have hcopied : (a.copy block grown).Tiled (grown :: live) :=
    h.within (List.mem_cons_self ..) hw hfields.1 hfields.2.1 hfields.2.2.1 hfields.2.2.2.1
  -- the new block is live beside the old one, so giving back the old one spares it
  have hne : grown ≠ block := by
    rintro rfl
    have hapart := h.tiles.apart_of_mem (List.mem_append_left _ (List.mem_map_of_mem hb))
    unfold Tile.Apart Tile.stop headerSize at hapart
    omega
  have herase : (grown :: live).erase block = grown :: live.erase block :=
    List.erase_cons_tail (by simpa using hne)
  obtain ⟨b, journal', hfree, htiled, hkeeps⟩ :=
    hcopied.free (List.mem_cons_of_mem _ hb) journal
  rw [herase] at htiled hkeeps
  have hfirst : Keeps a (a.copy block grown) (live.erase block) :=
    (hw.keeps h hfields.2.2.2.2 hfields.1).mono fun c hc => List.mem_of_mem_erase hc
  refine ⟨b, journal', hfree, htiled, hfirst.trans (hkeeps.mono fun c hc => by simp [hc]),
    ⟨Nat.le_refl _, hlarge⟩, fun i hi => ?_, fun i hlow hhigh => ?_⟩
  all_goals
    refine (hkeeps.bytes grown (by simp) _ (Nat.le_add_right _ _) (by omega)).trans ?_
    refine (hcopy (by omega)).trans ?_
  · rw [if_pos ⟨rfl, by omega⟩, Nat.add_sub_cancel_left]
  · rw [if_neg (by omega)]
    exact hzero _ (Nat.le_add_right _ _) (by omega)

lemma Grown.mono {grown : Block} {size' : Nat} (h : Grown a b live block grown size')
    (hle : size ≤ size') : Grown a b live block grown size :=
  ⟨h.tiled, h.keeps, ⟨Nat.le_trans hle h.large.1, h.large.2⟩, h.old, h.zeros⟩

/-- A live block grows, or the request is refused and nothing changes. -/
lemma Tiled.grow (h : a.Tiled live) (hb : block ∈ live) (size : Nat) (journal : Journal) :
    Outcome.Ends
      (fun grown b => Grown a b (live.erase block) block grown size ∧ requestRefusal size = none)
      (fun error b => b = a ∧ (a.Granted → requestRefusal size = some (.error error)))
      (fun fault => fault = .wordOverflow ∧ requestRefusal size = some (.fault fault))
      (Allocator.grow block size a journal) := by
  have hperm := h.perm (List.perm_cons_erase hb)
  have h8 : alignment ∣ block.size := (h.tiles.sized block.tile (mem_tiles hb)).2
  unfold Allocator.grow
  cases haligned : align? size with
  -- a size that cannot be aligned is refused before anything is looked at
  | none =>
      refine ⟨rfl, fun _ => ?_⟩
      have hsize : max size 1 = size := by
        refine Nat.max_eq_left (Nat.pos_of_ne_zero ?_)
        rintro rfl
        cases haligned
      rw [requestRefusal, hsize, haligned]
  | some aligned =>
      obtain ⟨hle, haligned8⟩ := align?_eq_some haligned
      by_cases hfits : aligned ≤ block.size
      -- rounding left enough room already
      · simp only [hfits, if_true]
        refine ⟨⟨hperm, .refl _ _, ⟨Nat.le_trans hle hfits, Nat.le_refl _⟩, fun _ _ => rfl, ?_⟩, ?_⟩
        · intro i hlow hhigh
          omega
        · exact requestRefusal_eq_none haligned (refusal_mono hfits (h.refusal_live hb))
      simp only [hfits, if_false, Action.get_bind]
      cases hext : FreeList.extend block (aligned - block.size) a.freeList with
      -- the free block behind is long enough
      | some cut =>
          have hgrown := hperm.growInPlace (Nat.dvd_sub haligned8 h8) hext rfl
          refine ⟨hgrown.mono (by omega), requestRefusal_eq_none haligned ?_⟩
          refine refusal_mono ?_ (hgrown.tiled.refusal_live (List.mem_cons_self ..))
          have := hgrown.large.1
          omega
      -- the block moves: a larger one is reserved, filled and the old one given back
      | none =>
          have hsame : requestRefusal aligned = requestRefusal size := by
            rw [requestRefusal_of_pos haligned (by omega),
              requestRefusal_of_pos (align?_aligned haligned) (by omega)]
          rw [← hsame]
          refine (h.allocate aligned journal).bind fun grown b journal' hnew => ?_
          obtain ⟨⟨htiled, hkeeps, hlarge, hzero⟩, hrefusal⟩ := hnew
          obtain ⟨c, journal'', hfree, hmoved⟩ := htiled.move hb (by omega) hzero journal'
          rw [Action.modify_bind, Action.bind_of_done hfree]
          refine ⟨⟨hmoved.tiled, ?_, ⟨by omega, by omega⟩, ?_, hmoved.zeros⟩, hrefusal⟩
          · exact (hkeeps.mono fun c hc => List.mem_of_mem_erase hc).trans hmoved.keeps
          · intro i hi
            rw [hmoved.old i hi]
            exact hkeeps.bytes block hb _ (Nat.le_add_right _ _)
              (by rw [Block.stop]; omega)

end Allocator

end ScriptMachine.Memory
