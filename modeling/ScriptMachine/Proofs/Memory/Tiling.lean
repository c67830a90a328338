import Mathlib.Tactic.Common
import ScriptMachine.Memory.Allocator

/-!
Tilings of pages.

A tile is a header together with the payload behind it. The tiles of an
allocator are its live blocks and its free blocks, and they tile the pages:
any two of them are apart, none reaches over the end of its page, and every
byte of every page lies in one of them.

Everything an allocator does to its blocks is made of four changes of a tiling:

* `Tiles.split`: a tile is cut in two;
* `Tiles.join`: two tiles that touch become one;
* `Tiles.replace`: a tile gives way to another one with the same bytes;
* `Tiles.newPage`: a page is added with one tile on it.
-/

namespace ScriptMachine.Memory

/-- A header at `offset` with `size` payload bytes behind it, inside a page,
and what the header says about them. -/
structure Tile where
  page : Nat
  offset : Nat
  size : Nat
  tag : Tag
  deriving DecidableEq

namespace Tile

/-- One past the last payload byte. -/
def stop (t : Tile) : Nat := t.offset + headerSize + t.size

/-- Two tiles have no byte in common. -/
def Apart (s t : Tile) : Prop := s.page ≠ t.page ∨ s.stop ≤ t.offset ∨ t.stop ≤ s.offset

/-- A byte of a page lies in a tile. -/
def Covers (t : Tile) (page offset : Nat) : Prop :=
  t.page = page ∧ t.offset ≤ offset ∧ offset < t.stop

/-- The payload of a tile is not empty and fills whole units. -/
def Sized (t : Tile) : Prop := 0 < t.size ∧ alignment ∣ t.size

lemma Apart.symm {s t : Tile} (h : s.Apart t) : t.Apart s := by
  unfold Apart at *
  omega

end Tile

/-- The tile of a live block. -/
def Block.tile (b : Block) : Tile := ⟨b.page, b.header, b.size, .used⟩

/-- The tile of a free block. -/
def FreeBlock.tile (f : FreeBlock) : Tile := ⟨f.page, f.offset, f.size, .free⟩

@[simp] lemma FreeBlock.stop_tile (f : FreeBlock) : f.tile.stop = f.stop := rfl

/-- Tiles that fill pages of the given lengths without gap and overlap. A page
that is not there has length zero. -/
structure Tiles (length : Nat → Nat) (tiles : List Tile) : Prop where
  apart : tiles.Pairwise Tile.Apart
  inside : ∀ t ∈ tiles, t.stop ≤ length t.page
  sized : ∀ t ∈ tiles, t.Sized
  covered : ∀ page offset, offset < length page → ∃ t ∈ tiles, t.Covers page offset

namespace Tiles

variable {length : Nat → Nat} {tiles others : List Tile} {s t u : Tile}

/-- The order in which tiles are listed does not matter. -/
lemma perm (h : Tiles length tiles) (p : tiles.Perm others) : Tiles length others where
  apart := (p.pairwise_iff fun h => h.symm).mp h.apart
  inside t ht := h.inside t (p.mem_iff.mpr ht)
  sized t ht := h.sized t (p.mem_iff.mpr ht)
  covered page offset hlt := by
    obtain ⟨t, ht, hc⟩ := h.covered page offset hlt
    exact ⟨t, p.mem_iff.mp ht, hc⟩

lemma apart_of_mem (h : Tiles length (t :: tiles)) (hs : s ∈ tiles) : t.Apart s :=
  (List.pairwise_cons.mp h.apart).1 s hs

/-- Two different tiles of a tiling are apart. -/
lemma apart_of_ne (h : Tiles length tiles) (hs : s ∈ tiles) (ht : t ∈ tiles) (hne : s ≠ t) :
    s.Apart t := by
  have hp := List.perm_cons_erase hs
  have ht' : t ∈ tiles.erase s := (List.mem_erase_of_ne hne.symm).mpr ht
  exact (h.perm hp).apart_of_mem ht'

/-- A tile gives way to another one with the same bytes. -/
lemma replace (h : Tiles length (t :: tiles)) (hp : s.page = t.page) (ho : s.offset = t.offset)
    (hs : s.size = t.size) : Tiles length (s :: tiles) where
  apart := by
    have := List.pairwise_cons.mp h.apart
    refine List.pairwise_cons.mpr ⟨fun u hu => ?_, this.2⟩
    have := this.1 u hu
    unfold Tile.Apart Tile.stop at *
    rwa [hp, ho, hs]
  inside := by
    intro u hu
    rcases List.mem_cons.mp hu with rfl | hu
    · have := h.inside t (by simp)
      unfold Tile.stop at *
      rwa [hp, ho, hs]
    · exact h.inside u (by simp [hu])
  sized := by
    intro u hu
    rcases List.mem_cons.mp hu with rfl | hu
    · have := h.sized t (by simp)
      unfold Tile.Sized at *
      rwa [hs]
    · exact h.sized u (by simp [hu])
  covered page offset hlt := by
    obtain ⟨u, hu, hc⟩ := h.covered page offset hlt
    rcases List.mem_cons.mp hu with rfl | hu
    · refine ⟨s, by simp, ?_⟩
      unfold Tile.Covers Tile.stop at *
      rwa [hp, ho, hs]
    · exact ⟨u, by simp [hu], hc⟩

/-- A tile is cut in two, the second piece beginning where the first stops. -/
lemma split (h : Tiles length (t :: tiles)) (hs : s.page = t.page) (hu : u.page = t.page)
    (first : s.offset = t.offset) (next : u.offset = s.stop) (last : u.stop = t.stop)
    (sizes : s.Sized ∧ u.Sized) : Tiles length (s :: u :: tiles) where
  apart := by
    have := List.pairwise_cons.mp h.apart
    refine List.pairwise_cons.mpr ⟨?_, List.pairwise_cons.mpr ⟨?_, this.2⟩⟩
    · rintro v (_ | ⟨_, hv⟩)
      · exact .inr (.inl (by omega))
      · have := this.1 v hv
        unfold Tile.Apart Tile.stop at *
        omega
    · intro v hv
      have := this.1 v hv
      unfold Tile.Apart Tile.stop at *
      omega
  inside := by
    have bound := h.inside t (by simp)
    intro v hv
    rcases List.mem_cons.mp hv with rfl | hv
    · rw [hs]
      unfold Tile.stop at *
      omega
    · rcases List.mem_cons.mp hv with rfl | hv
      · rw [hu]
        omega
      · exact h.inside v (by simp [hv])
  sized := by
    intro v hv
    rcases List.mem_cons.mp hv with rfl | hv
    · exact sizes.1
    · rcases List.mem_cons.mp hv with rfl | hv
      · exact sizes.2
      · exact h.sized v (by simp [hv])
  covered page offset hlt := by
    obtain ⟨v, hv, hc⟩ := h.covered page offset hlt
    rcases List.mem_cons.mp hv with rfl | hv
    · obtain ⟨hpage, hlow, hhigh⟩ := hc
      -- a byte of the old tile is before the cut or behind it
      by_cases hmid : offset < s.stop
      · exact ⟨s, by simp, by omega, by omega, hmid⟩
      · exact ⟨u, by simp, by omega, by omega, by omega⟩
    · exact ⟨v, by simp [hv], hc⟩

/-- Two tiles of which one begins where the other stops become one. -/
lemma join (h : Tiles length (s :: u :: tiles)) (hs : t.page = s.page) (hu : t.page = u.page)
    (first : t.offset = s.offset) (next : u.offset = s.stop) (last : t.stop = u.stop) :
    Tiles length (t :: tiles) where
  apart := by
    have hfirst := List.pairwise_cons.mp h.apart
    have hsecond := List.pairwise_cons.mp hfirst.2
    refine List.pairwise_cons.mpr ⟨fun v hv => ?_, hsecond.2⟩
    have hsv := hfirst.1 v (by simp [hv])
    have huv := hsecond.1 v hv
    -- a tile between the two would have to end where it begins
    have hpos : v.offset < v.stop := by
      unfold Tile.stop headerSize
      omega
    unfold Tile.Apart at *
    omega
  inside := by
    have bound := h.inside u (by simp)
    intro v hv
    rcases List.mem_cons.mp hv with rfl | hv
    · rw [hu]
      omega
    · exact h.inside v (by simp [hv])
  sized := by
    intro v hv
    rcases List.mem_cons.mp hv with rfl | hv
    · obtain ⟨-, hs8⟩ := h.sized s (by simp)
      obtain ⟨hu0, hu8⟩ := h.sized u (by simp)
      unfold Tile.Sized Tile.stop headerSize alignment at *
      omega
    · exact h.sized v (by simp [hv])
  covered page offset hlt := by
    obtain ⟨v, hv, hpage, hlow, hhigh⟩ := h.covered page offset hlt
    have hsu : s.offset ≤ s.stop ∧ u.offset ≤ u.stop := by
      unfold Tile.stop
      omega
    rcases List.mem_cons.mp hv with rfl | hv
    · exact ⟨t, by simp, by omega, by omega, by omega⟩
    · rcases List.mem_cons.mp hv with rfl | hv
      · exact ⟨t, by simp, by omega, by omega, by omega⟩
      · exact ⟨v, by simp [hv], hpage, hlow, hhigh⟩

/-- A page is added with one tile that fills it. -/
lemma newPage {length' : Nat → Nat} (h : Tiles length tiles) (hnew : length t.page = 0)
    (hstart : t.offset = 0) (hfill : t.stop = length' t.page) (hsize : t.Sized)
    (hold : ∀ page, page ≠ t.page → length' page = length page) :
    Tiles length' (t :: tiles) := by
  -- no tile lies on a page that was not there
  have off : ∀ u ∈ tiles, u.page ≠ t.page := by
    intro u hu heq
    have := h.inside u hu
    rw [heq, hnew] at this
    unfold Tile.stop headerSize at this
    omega
  refine ⟨?_, ?_, ?_, ?_⟩
  · exact List.pairwise_cons.mpr ⟨fun u hu => .inl (Ne.symm (off u hu)), h.apart⟩
  · intro u hu
    rcases List.mem_cons.mp hu with rfl | hu
    · exact Nat.le_of_eq hfill
    · rw [hold _ (off u hu)]
      exact h.inside u hu
  · intro u hu
    rcases List.mem_cons.mp hu with rfl | hu
    · exact hsize
    · exact h.sized u hu
  · intro page offset hlt
    by_cases hpage : page = t.page
    · subst hpage
      exact ⟨t, by simp, rfl, by omega, by omega⟩
    · rw [hold page hpage] at hlt
      obtain ⟨u, hu, hc⟩ := h.covered page offset hlt
      exact ⟨u, by simp [hu], hc⟩

end Tiles

end ScriptMachine.Memory
