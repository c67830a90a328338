import ScriptMachine.Proofs.Memory.Tiling

/-!
What the operations on the free list do to the tiling.

* `FreeList.take_eq_some`, `FreeList.extend_eq_some`: which free block is used
  and what is left of it;
* `FreeList.Ordered`: the list is increasing and there are other bytes between
  any two of its blocks;
* `FreeList.insert_inserted`: a block that is given back keeps the tiling and the
  order.
-/

namespace ScriptMachine.Memory

namespace FreeBlock

variable {s t u : FreeBlock}

lemma before_iff : s.before t = true ↔
    s.page < t.page ∨ s.page = t.page ∧ s.offset < t.offset := by
  simp [before]

lemma touches_iff : s.touches t = true ↔ s.page = t.page ∧ s.stop = t.offset := by
  simp [touches]

lemma offset_lt_stop (s : FreeBlock) : s.offset < s.stop := by
  unfold stop headerSize
  omega

@[simp] lemma stop_merge (s t : FreeBlock) :
    (s.merge t).stop = s.stop + (headerSize + t.size) := by
  simp only [stop, merge]
  omega

/-- One free block comes before another one and does not reach it. -/
def Clear (s t : FreeBlock) : Prop :=
  s.page < t.page ∨ s.page = t.page ∧ s.stop < t.offset

lemma Clear.trans (h : s.Clear t) (h' : t.Clear u) : s.Clear u := by
  have := t.offset_lt_stop
  unfold Clear at *
  omega

lemma Clear.before (h : s.Clear t) : s.before t = true := by
  have := s.offset_lt_stop
  unfold Clear at h
  rw [before_iff]
  omega

lemma Clear.touches (h : s.Clear t) : s.touches t = false := by
  rw [← Bool.not_eq_true, touches_iff]
  unfold Clear at h
  omega

/-- Of two blocks that are apart and do not touch, the first is clear of the
second. -/
lemma clear_of_apart (h : s.tile.Apart t.tile) (hb : s.before t = true)
    (ht : s.touches t = false) : s.Clear t := by
  have := s.offset_lt_stop
  have := t.offset_lt_stop
  rw [before_iff] at hb
  rw [← Bool.not_eq_true, touches_iff] at ht
  have happ : s.page ≠ t.page ∨ s.stop ≤ t.offset ∨ t.stop ≤ s.offset := h
  unfold Clear
  omega

end FreeBlock

namespace FreeList

open FreeBlock

variable {size extra : Nat} {block free : FreeBlock} {list pre post : FreeList} {cut : Cut}

/-- The free blocks are increasing by address, and there are other bytes
between any two of them. -/
def Ordered (list : FreeList) : Prop := list.Pairwise Clear

/-! ### Serving requests -/

/-- Serving a request uses one free block that is large enough. -/
lemma take_eq_some (h : take size list = some cut) :
    ∃ pre free post, list = pre ++ free :: post ∧ size ≤ free.size ∧
      free.carve size = (cut.block, cut.rest) ∧ cut.free = pre ++ (cut.rest.toList ++ post) := by
  induction list generalizing cut with
  | nil => simp [take] at h
  | cons free others ih =>
      rw [take] at h
      split at h
      · rename_i hfit
        cases h
        exact ⟨[], free, others, rfl, hfit, rfl, rfl⟩
      · obtain ⟨rest, hrest, rfl⟩ := Option.map_eq_some_iff.mp h
        obtain ⟨pre, used, post, rfl, hfit, hcarve, hfree⟩ := ih hrest
        exact ⟨free :: pre, used, post, rfl, hfit, hcarve, by simp [hfree]⟩

/-- A request is refused if and only if every free block is too small. -/
lemma take_eq_none : take size list = none ↔ ∀ free ∈ list, free.size < size := by
  induction list with
  | nil => simp [take]
  | cons free others ih =>
      rw [take]
      split
      · rename_i hfit
        simp only [reduceCtorEq, List.mem_cons, forall_eq_or_imp, false_iff, not_and]
        omega
      · rename_i hfit
        simp only [Option.map_eq_none_iff, ih, List.mem_cons, forall_eq_or_imp]
        exact ⟨fun h => ⟨by omega, h⟩, fun h => h.2⟩

/-- Lengthening a block uses the free block behind it: a part of it, or the
whole block if the rest would be too small. -/
lemma extend_eq_some {live : Block} (h : extend live extra list = some cut) :
    ∃ pre next post, list = pre ++ next :: post ∧ next.page = live.page ∧
      next.offset = live.stop ∧ extra ≤ headerSize + next.size ∧
      ((extra + leastSplit ≤ headerSize + next.size ∧
          ∃ rest : FreeBlock, rest = ⟨next.page, next.offset + extra, next.size - extra⟩ ∧
            cut = ⟨{ live with size := live.size + extra }, some rest, pre ++ rest :: post⟩) ∨
        (headerSize + next.size < extra + leastSplit ∧
          cut = ⟨{ live with size := live.size + (headerSize + next.size) }, none,
            pre ++ post⟩)) := by
  induction list generalizing cut with
  | nil => simp [extend] at h
  | cons next others ih =>
      rw [extend] at h
      -- the first block that begins where the live one stops decides
      split at h
      · rename_i hnext
        dsimp only at h
        split at h
        · rename_i hfit
          split at h
          · rename_i hsplit
            cases h
            exact ⟨[], next, others, rfl, hnext.1, hnext.2, hfit,
              .inl ⟨by omega, _, rfl, rfl⟩⟩
          · rename_i hsplit
            cases h
            exact ⟨[], next, others, rfl, hnext.1, hnext.2, hfit, .inr ⟨by omega, rfl⟩⟩
        · cases h
      · obtain ⟨rest, hrest, rfl⟩ := Option.map_eq_some_iff.mp h
        obtain ⟨pre, used, post, rfl, hpage, hoff, hfit, hcut⟩ := ih hrest
        refine ⟨next :: pre, used, post, rfl, hpage, hoff, hfit, ?_⟩
        rcases hcut with ⟨hsplit, piece, hpiece, rfl⟩ | ⟨hwhole, rfl⟩
        · exact .inl ⟨hsplit, piece, hpiece, rfl⟩
        · exact .inr ⟨hwhole, rfl⟩

/-- No two free blocks touch. -/
lemma Ordered.touches (h : Ordered list) {s t : FreeBlock} (hs : s ∈ list) (ht : t ∈ list) :
    s.touches t = false := by
  induction list with
  | nil => cases hs
  | cons first others ih =>
      obtain ⟨hfirst, hothers⟩ := List.pairwise_cons.mp h
      have hback : ∀ u ∈ others, u.touches first = false := by
        intro u hu
        have hclear := hfirst u hu
        have := u.offset_lt_stop
        have := first.offset_lt_stop
        rw [← Bool.not_eq_true, touches_iff]
        unfold Clear at hclear
        omega
      rcases List.mem_cons.mp hs with rfl | hs'
      · rcases List.mem_cons.mp ht with rfl | ht'
        · have := t.offset_lt_stop
          rw [← Bool.not_eq_true, touches_iff]
          omega
        · exact (hfirst t ht').touches
      · rcases List.mem_cons.mp ht with rfl | ht'
        · exact hback s hs'
        · exact ih hothers hs' ht'

/-- A free block may shrink in its place. -/
lemma Ordered.shrink {rest : FreeBlock} (h : Ordered (pre ++ free :: post))
    (hpage : rest.page = free.page) (hlow : free.offset ≤ rest.offset)
    (hhigh : rest.stop ≤ free.stop) : Ordered (pre ++ rest :: post) := by
  obtain ⟨hpre, hrest, hcross⟩ := List.pairwise_append.mp h
  obtain ⟨hpost, htail⟩ := List.pairwise_cons.mp hrest
  refine List.pairwise_append.mpr ⟨hpre, List.pairwise_cons.mpr ⟨fun t ht => ?_, htail⟩, ?_⟩
  · have := hpost t ht
    unfold Clear at *
    omega
  · intro s hs t ht
    rcases List.mem_cons.mp ht with rfl | ht
    · have := hcross s hs free (by simp)
      unfold Clear at *
      omega
    · exact hcross s hs t (by simp [ht])

/-- A free block may be taken out. -/
lemma Ordered.delete (h : Ordered (pre ++ free :: post)) : Ordered (pre ++ post) :=
  h.sublist ((List.sublist_cons_self free post).append_left pre)

/-! ### Giving blocks back -/

/-- The payload bytes and the headers of free blocks. -/
def span : FreeList → Nat
  | [] => 0
  | free :: rest => headerSize + free.size + span rest

lemma span_eq (list : FreeList) : span list = bytes list + headerSize * list.length := by
  induction list with
  | nil => rfl
  | cons free rest ih =>
      rw [span, bytes, ih, List.length_cons, Nat.mul_succ]
      omega

/-- The tiles of free blocks. -/
def tiles (list : FreeList) : List Tile := list.map FreeBlock.tile

/-- What giving a block back does: with the block, the new list tiles what the
old one left open; it is ordered; and only one of its blocks is new, which
begins where the block or an old free block began. -/
structure Inserted (block : FreeBlock) (list : FreeList) (merged : FreeBlock)
    (result : FreeList) : Prop where
  tiles : ∀ {length : Nat → Nat} {others : List Tile},
    Tiles length (block.tile :: FreeList.tiles list ++ others) →
      Tiles length (FreeList.tiles result ++ others)
  ordered : list.Pairwise Clear → (∀ free ∈ list, block.tile.Apart free.tile) →
    result.Pairwise Clear
  mem : merged ∈ result
  old : ∀ free ∈ result, free = merged ∨ free ∈ list
  begins : (merged.page = block.page ∧ merged.offset = block.offset) ∨
    ∃ free ∈ list, merged.page = free.page ∧ merged.offset = free.offset
  large : block.size ≤ merged.size
  span : FreeList.span result = headerSize + block.size + FreeList.span list

/-- A block is merged with the one behind it exactly if they touch. -/
lemma absorbNext_cases (block : FreeBlock) (list : FreeList) :
    (absorbNext block list = (block, list) ∧ ∀ next ∈ list.head?, block.touches next = false) ∨
      ∃ next others, list = next :: others ∧ block.touches next = true ∧
        absorbNext block list = (block.merge next, others) := by
  cases list with
  | nil => exact .inl ⟨rfl, by simp⟩
  | cons next others =>
      rw [absorbNext]
      split
      · rename_i htouch
        exact .inr ⟨next, others, rfl, htouch, rfl⟩
      · rename_i htouch
        exact .inl ⟨rfl, by simpa using htouch⟩

/-- Whatever is clear of the first block of an ordered list is clear of all of
them. -/
lemma clear_all {s : FreeBlock} (hlist : list.Pairwise Clear)
    (hs : ∀ next ∈ list.head?, s.Clear next) : ∀ t ∈ list, s.Clear t := by
  cases list with
  | nil => simp
  | cons next others =>
      have hnext := hs next (by simp)
      intro t ht
      rcases List.mem_cons.mp ht with rfl | ht
      · exact hnext
      · exact hnext.trans ((List.pairwise_cons.mp hlist).1 t ht)

/-- A block that comes first among its like. -/
lemma inserted_front (hfirst : ∀ next ∈ list.head?, next.before block = false) :
    Inserted block list (absorbNext block list).1
      ((absorbNext block list).1 :: (absorbNext block list).2) := by
  rcases absorbNext_cases block list with ⟨heq, hfar⟩ | ⟨next, others, rfl, htouch, heq⟩
  · rw [heq]
    dsimp only
    refine ⟨fun h => h, fun hlist hapart => ?_, by simp, by simp, .inl ⟨rfl, rfl⟩,
      Nat.le_refl _, rfl⟩
    refine List.pairwise_cons.mpr ⟨clear_all hlist fun next hnext => ?_, hlist⟩
    have hmem : next ∈ list := List.mem_of_mem_head? hnext
    refine clear_of_apart (hapart next hmem) ?_ (hfar next hnext)
    -- neither begins where the other does, since they are apart
    have hnot := hfirst next hnext
    have happ : block.page ≠ next.page ∨ block.stop ≤ next.offset ∨ next.stop ≤ block.offset :=
      hapart next hmem
    have := next.offset_lt_stop
    rw [← Bool.not_eq_true, before_iff] at hnot
    have := block.offset_lt_stop
    rw [before_iff]
    omega
  · obtain ⟨hpage, hstop⟩ := touches_iff.mp htouch
    rw [heq]
    dsimp only
    have hend : (block.merge next).stop = next.stop := by
      rw [stop_merge, hstop, FreeBlock.stop]
      omega
    refine ⟨fun h => ?_, fun hlist hapart => ?_, by simp, by simp; tauto, .inl ⟨rfl, rfl⟩,
      Nat.le_add_right _ _, ?_⟩
    · exact Tiles.join (s := block.tile) (u := next.tile) h rfl hpage rfl hstop.symm hend
    · obtain ⟨hnext, hothers⟩ := List.pairwise_cons.mp hlist
      refine List.pairwise_cons.mpr ⟨fun t ht => ?_, hothers⟩
      have hclear := hnext t ht
      have hsame : (block.merge next).page = next.page := hpage
      unfold Clear at *
      omega
    · simp only [FreeList.span, merge]
      omega

/-- A block that begins where the first one stops. -/
lemma inserted_touching (htouch : free.touches block = true) :
    Inserted block (free :: list) (free.merge (absorbNext block list).1)
      (free.merge (absorbNext block list).1 :: (absorbNext block list).2) := by
  obtain ⟨hpage, hstop⟩ := touches_iff.mp htouch
  -- the gap between two free blocks is closed, or the block only joins the first
  rcases absorbNext_cases block list with ⟨heq, hfar⟩ | ⟨next, others, rfl, hnear, heq⟩
  · rw [heq]
    dsimp only
    have hend : (free.merge block).stop = block.stop := by
      rw [stop_merge, hstop, FreeBlock.stop]
      omega
    refine ⟨fun h => ?_, fun hlist hapart => ?_, by simp, by simp; tauto,
      .inr ⟨free, by simp, rfl, rfl⟩, by simp only [merge]; omega, ?_⟩
    · exact Tiles.join (s := free.tile) (u := block.tile) (h.perm (.swap ..)) rfl hpage rfl
        hstop.symm hend
    · obtain ⟨hfree, hothers⟩ := List.pairwise_cons.mp hlist
      refine List.pairwise_cons.mpr ⟨clear_all hothers fun next hnext => ?_, hothers⟩
      have hmem : next ∈ list := List.mem_of_mem_head? hnext
      have hclear := hfree next hmem
      -- the next block lies behind `free`, hence behind the block that touches `free`
      have hbefore : block.before next = true := by
        rw [before_iff]
        unfold Clear at hclear
        omega
      have := clear_of_apart (hapart next (by simp [hmem])) hbefore (hfar next hnext)
      have hsame : (free.merge block).page = free.page := rfl
      unfold Clear at *
      omega
    · simp only [FreeList.span, merge]
      omega
  · obtain ⟨hpage', hstop'⟩ := touches_iff.mp hnear
    rw [heq]
    dsimp only
    have hmid : (block.merge next).stop = next.stop := by
      rw [stop_merge, hstop', FreeBlock.stop]
      omega
    have hend : (free.merge (block.merge next)).stop = next.stop := by
      rw [stop_merge, hstop, ← hmid, FreeBlock.stop]
      simp only [merge]
      omega
    refine ⟨fun {length rest} h => ?_, fun hlist hapart => ?_, by simp, by simp; tauto,
      .inr ⟨free, by simp, rfl, rfl⟩, by simp only [merge]; omega, ?_⟩
    · have hnext : Tiles length (block.tile :: next.tile :: (free.tile :: (tiles others ++ rest))) :=
        h.perm (.cons _ (.swap ..))
      have hjoined : Tiles length ((block.merge next).tile :: free.tile :: (tiles others ++ rest)) :=
        hnext.join rfl hpage' rfl hstop'.symm hmid
      exact Tiles.join (s := free.tile) (u := (block.merge next).tile) (hjoined.perm (.swap ..)) rfl
        hpage rfl hstop.symm (hend.trans hmid.symm)
    · obtain ⟨hfree, hlist⟩ := List.pairwise_cons.mp hlist
      obtain ⟨hnext, hothers⟩ := List.pairwise_cons.mp hlist
      refine List.pairwise_cons.mpr ⟨fun t ht => ?_, hothers⟩
      have hclear := hnext t ht
      have hsame : (free.merge (block.merge next)).page = free.page := rfl
      unfold Clear at *
      omega
    · simp only [FreeList.span, merge]
      omega

/-- A block that is given back keeps the tiling and the order. -/
lemma insert_inserted (block : FreeBlock) (list : FreeList) :
    Inserted block list (insert block list).1 (insert block list).2 := by
  induction list with
  | nil => exact ⟨fun h => h, by simp [insert], by simp [insert], by simp [insert],
      .inl ⟨rfl, rfl⟩, Nat.le_refl _, rfl⟩
  | cons free others ih =>
      rw [insert]
      split
      · rename_i hfirst
        exact inserted_front (by simpa using hfirst)
      · split
        · rename_i htouch
          exact inserted_touching htouch
        -- neither in front nor touching: the block goes further down, past the first
        · rename_i hbefore hfar
          simp only [Bool.not_eq_true, Bool.not_eq_false'] at hbefore hfar
          refine ⟨fun {length rest} h => ?_, fun hlist hapart => ?_, by simp [ih.mem], ?_, ?_, ih.large, ?_⟩
          · have hlater : Tiles length (block.tile :: tiles others ++ (free.tile :: rest)) :=
              h.perm (.cons _ List.perm_middle.symm)
            exact (ih.tiles hlater).perm List.perm_middle
          · obtain ⟨hfree, hothers⟩ := List.pairwise_cons.mp hlist
            have hrest := ih.ordered hothers fun t ht => hapart t (by simp [ht])
            have hblock := clear_of_apart (hapart free (by simp)).symm hbefore hfar
            refine List.pairwise_cons.mpr ⟨fun t ht => ?_, hrest⟩
            rcases ih.old t ht with rfl | ht
            · rcases ih.begins with ⟨hp, ho⟩ | ⟨o, hmem, hp, ho⟩
              · unfold Clear at *
                rwa [hp, ho]
              · have := hfree o hmem
                unfold Clear at *
                rwa [hp, ho]
            · exact hfree t ht
          · intro t ht
            rcases List.mem_cons.mp ht with rfl | ht
            · exact .inr (by simp)
            · rcases ih.old t ht with h | h
              · exact .inl h
              · exact .inr (by simp [h])
          · rcases ih.begins with h | ⟨o, hmem, h⟩
            · exact .inl h
            · exact .inr ⟨o, by simp [hmem], h⟩
          · have := ih.span
            simp only [FreeList.span] at this ⊢
            omega

end FreeList

end ScriptMachine.Memory
