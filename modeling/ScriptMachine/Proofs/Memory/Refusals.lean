import ScriptMachine.Proofs.Memory.History
import ScriptMachine.Proofs.Raising

/-!
How requests for memory end.

A request is for at least one byte and is rounded up to whole units
(`rounded`). It is served by a block that is at most one header longer
(`Tiled.allocate_sizes`, `Tiled.grow_sizes`), or it raises an error for want of memory and
leaves the allocator as it was. There is one exception: in front of its payload a
block has a header, and for the two largest units that a word can count, header
and payload together are no longer a word. Such a request is a fault
(`Tiled.reserve_of_overflow`). Main result: `History.requests_atomic`.
-/

namespace ScriptMachine

/-- The only errors for want of memory are those of requests. -/
lemma Error.eq_outOfMemory {error : Error} (h : error.kind = .memory) :
    ∃ requested, error = .outOfMemory requested := by
  cases error with
  | outOfMemory requested => exact ⟨requested, rfl⟩
  | _ => cases h

/-- An action that is starved raises nothing but the errors of requests. -/
lemma Action.Starved.eq_outOfMemory {σ α : Type} {action : Action σ α} (h : action.Starved)
    {state state' : σ} {journal journal' : Journal} {error : Error}
    (hrun : action state journal = .raised error state' journal') :
    ∃ requested, error = .outOfMemory requested :=
  Error.eq_outOfMemory (Decidable.of_not_not ((h state journal).of_raised hrun))

namespace Memory

/-! ### Sizes -/

/-- A request, for at least one byte, rounded up to whole units. -/
def rounded (size : Nat) : Nat := (max size 1 + (alignment - 1)) / alignment * alignment

lemma rounded_pos (size : Nat) : 0 < rounded size ∧ alignment ∣ rounded size := by
  unfold rounded alignment
  omega

/-- Rounded up, the request is a word; together with a header it is not. -/
def Overflows (size : Nat) : Prop := wordLimit < size + leastSplit ∧ size + alignment ≤ wordLimit

instance (size : Nat) : Decidable (Overflows size) := inferInstanceAs (Decidable (_ ∧ _))

/-- What is not too large can be rounded up. -/
lemma align?_of_le {size : Nat} (hword : size + alignment ≤ wordLimit) :
    align? (max size 1) = some (rounded size) := by
  refine if_pos ?_
  unfold alignment wordLimit at *
  omega

lemma align?_eq_none_iff {size : Nat} : align? size = none ↔ wordLimit < size + alignment := by
  unfold align?
  split
  all_goals
    simp only [reduceCtorEq, false_iff, true_iff]
    unfold alignment wordLimit at *
    omega

/-- A positive request is rounded up by the alignment. -/
lemma align?_eq_rounded {size aligned : Nat} (h : align? size = some aligned) (hpos : 0 < aligned) :
    aligned = rounded size := by
  unfold align? at h
  split at h
  · cases h
    unfold rounded alignment at *
    omega
  · cases h

lemma overflows_iff {size : Nat} (hword : size + alignment ≤ wordLimit) :
    Overflows size ↔ wordLimit ≤ rounded size + headerSize := by
  unfold Overflows leastSplit rounded alignment headerSize wordLimit at *
  omega

/-- A block that is cut out of a free one is longer than asked for by a header at
most: a larger surplus is split off. -/
lemma FreeBlock.carve_size_le {free : FreeBlock} {size : Nat} (hfree : alignment ∣ free.size)
    (hsize : alignment ∣ size) : (free.carve size).1.size ≤ size + headerSize := by
  unfold carve
  split
  · exact Nat.le_add_right _ _
  · rename_i hwhole
    change free.size ≤ size + headerSize
    unfold leastSplit alignment headerSize at *
    omega

/-- The same for a block that is lengthened. -/
lemma FreeList.extend_size_le {block : Block} {extra : Nat} {list : FreeList} {cut : Cut}
    (hlist : ∀ free ∈ list, alignment ∣ free.size) (hextra : alignment ∣ extra)
    (h : extend block extra list = some cut) : cut.block.size ≤ block.size + extra + headerSize := by
  obtain ⟨pre, next, post, rfl, -, -, -, hcut⟩ := extend_eq_some h
  have hnext : alignment ∣ next.size := hlist next (by simp)
  rcases hcut with ⟨-, rest, -, rfl⟩ | ⟨hwhole, rfl⟩
  · exact Nat.le_add_right _ _
  · change block.size + (headerSize + next.size) ≤ _
    unfold leastSplit alignment headerSize at *
    omega

namespace Allocator

open Outcome (Ends)

variable {a b : Allocator} {live : List Block} {block : Block} {size : Nat}

lemma Tiled.dvd_size (h : a.Tiled live) : ∀ free ∈ a.freeList, alignment ∣ free.size :=
  fun free hf => (h.tiles.sized free.tile (List.mem_append_right _ (List.mem_map_of_mem hf))).2

lemma Tiled.takeFit_size_le (h : a.Tiled live) (hsize : alignment ∣ size)
    (ht : a.takeFit size = (some block, b)) : block.size ≤ size + headerSize := by
  unfold Allocator.takeFit at ht
  split at ht
  · cases ht
  · rename_i cut hcut
    obtain ⟨pre, free, post, hlist, -, hcarve, -⟩ := FreeList.take_eq_some hcut
    obtain rfl := Option.some.inj (Prod.mk.inj ht).1
    have hfree : alignment ∣ free.size := h.dvd_size free (by simp [hlist])
    have hle := FreeBlock.carve_size_le hfree hsize
    rwa [hcarve] at hle

/-! ### Requests that are served -/

/-- A reserved block is longer than asked for by a header at most. -/
lemma Tiled.reserve_sizes (h : a.Tiled live) (hsize : 0 < size ∧ alignment ∣ size)
    (journal : Journal) : Ends
      (fun block _ => size ≤ block.size ∧ block.size ≤ size + headerSize) (fun _ _ => True)
      (fun _ => True) (Allocator.reserve size a journal) := by
  unfold Allocator.reserve
  rw [Action.modifyGet_bind]
  rcases takeFit_cases a size with ⟨hnone, -⟩ | ⟨block, b, hsome, -⟩
  · rw [hnone]
    refine Ends.bind ((h.mapPage hsize journal).imp (fun _ _ hpage => hpage.1.1)
      (fun _ _ _ => trivial) fun _ _ => trivial) fun _ b journal' htiled => ?_
    rw [Action.modifyGet_bind]
    rcases takeFit_cases b size with ⟨hnone, -⟩ | ⟨block, c, hsome, -⟩
    · rw [hnone]
      trivial
    · rw [hsome]
      exact ⟨(htiled.takeFit hsize hsome).2.2.2, htiled.takeFit_size_le hsize.2 hsome⟩
  · rw [hsome]
    exact ⟨(h.takeFit hsize hsome).2.2.2, h.takeFit_size_le hsize.2 hsome⟩

/-- A new block has the size that was asked for, rounded up, or a header more. -/
lemma Tiled.allocate_sizes (h : a.Tiled live) (size : Nat) (journal : Journal) :
    Ends (fun block _ => rounded size ≤ block.size ∧ block.size ≤ rounded size + headerSize)
      (fun _ _ => True) (fun _ => True) (Allocator.allocate size a journal) := by
  unfold Allocator.allocate
  cases haligned : align? (max size 1) with
  | none => trivial
  | some aligned =>
      obtain rfl : rounded size = aligned := by
        have hpos : 0 < aligned := by
          have := (align?_eq_some haligned).1
          omega
        rw [align?_eq_rounded haligned hpos, rounded, rounded, Nat.max_eq_left (Nat.le_max_right ..)]
      exact (h.reserve_sizes (rounded_pos size) journal).bind fun block b journal' hsizes => hsizes

/-- Giving a block back after a copy ends as it may; if it is done, so is the move. -/
lemma ends_move (block grown : Block) (b : Allocator) (journal : Journal) :
    Ends (fun value _ => value = grown) (fun _ _ => True) (fun _ => True) ((do
      modify (·.copy block grown)
      Allocator.free block
      pure grown : Action Allocator Block) b journal) := by
  rw [Action.modify_bind, Action.bind_apply]
  cases Allocator.free block (b.copy block grown) journal with
  | done value c journal' => exact rfl
  | raised error c journal' => trivial
  | aborted fault => trivial

/-- A block that is long enough stays as it is; one that grows has the size that was
asked for, rounded up, or a header more. -/
lemma Tiled.grow_sizes (h : a.Tiled live) (hb : block ∈ live) (size : Nat) (journal : Journal) :
    (rounded size ≤ block.size → Allocator.grow block size a journal = .done block a journal) ∧
      (block.size < rounded size → Ends
        (fun grown _ => rounded size ≤ grown.size ∧ grown.size ≤ rounded size + headerSize)
        (fun _ _ => True) (fun _ => True) (Allocator.grow block size a journal)) := by
  obtain ⟨hpos, h8⟩ : 0 < block.size ∧ alignment ∣ block.size :=
    h.tiles.sized block.tile (mem_tiles hb)
  unfold Allocator.grow
  cases haligned : align? size with
  | none =>
      refine ⟨fun hle => ?_, fun _ => trivial⟩
      have hlarge := align?_eq_none_iff.mp haligned
      have hin := h.inside hb
      have hshort := h.short.2 block.page
      unfold Block.stop at hin
      unfold rounded alignment wordLimit at *
      omega
  | some aligned =>
      dsimp only
      -- nothing is asked for if and only if nothing is left after rounding up
      rcases Nat.eq_zero_or_pos aligned with rfl | haligned0
      · obtain rfl : size = 0 := Nat.le_zero.mp (align?_eq_some haligned).1
        rw [if_pos (Nat.zero_le _)]
        refine ⟨fun _ => rfl, fun hlt => ?_⟩
        unfold rounded alignment at *
        omega
      obtain rfl := align?_eq_rounded haligned haligned0
      refine ⟨fun hle => ?_, fun hlt => ?_⟩
      · rw [if_pos hle]
        rfl
      rw [if_neg (Nat.not_le_of_lt hlt), Action.get_bind]
      cases hext : FreeList.extend block (rounded size - block.size) a.freeList with
      | some cut =>
          have hextra := Nat.dvd_sub (rounded_pos size).2 h8
          have hlow := (h.perm (List.perm_cons_erase hb)).growInPlace hextra hext rfl |>.large.1
          have hhigh := FreeList.extend_size_le h.dvd_size hextra hext
          exact ⟨by omega, by omega⟩
      | none =>
          refine (h.allocate_sizes (rounded size) journal).bind fun grown b journal' hsizes => ?_
          have hsame : rounded (rounded size) = rounded size := by
            unfold rounded alignment
            omega
          rw [hsame] at hsizes
          exact (ends_move block grown b journal').imp_done fun _ _ heq => heq ▸ hsizes

/-! ### Requests that overflow -/

/-- A request that is no word together with its header is a fault, whether pages are
granted or not: no free block is as large, and no page length is computed. -/
lemma Tiled.reserve_of_overflow (h : a.Tiled live) (hword : wordLimit ≤ size + headerSize)
    (journal : Journal) : Allocator.reserve size a journal = .aborted .wordOverflow := by
  unfold Allocator.reserve
  rw [Action.modifyGet_bind]
  rcases takeFit_cases a size with ⟨hnone, -⟩ | ⟨block, b, -, free, hmem, hfit⟩
  · rw [hnone]
    dsimp only
    rw [Allocator.mapPage, if_pos hword]
    rfl
  · have hnone := h.refusal_eq_none hmem hfit
    rw [refusal, if_pos hword] at hnone
    cases hnone

lemma Tiled.allocate_of_overflow (h : a.Tiled live) (hover : Overflows size) (journal : Journal) :
    Allocator.allocate size a journal = .aborted .wordOverflow := by
  unfold Allocator.allocate
  rw [align?_of_le hover.2]
  dsimp only
  rw [Action.bind_apply, h.reserve_of_overflow ((overflows_iff hover.2).mp hover)]

/-- A request that overflows is a fault, however long the block is. -/
lemma Tiled.grow_of_overflow (h : a.Tiled live) (hb : block ∈ live) (hover : Overflows size)
    (journal : Journal) : Allocator.grow block size a journal = .aborted .wordOverflow := by
  have hword : wordLimit ≤ rounded size + headerSize := (overflows_iff hover.2).mp hover
  have haligned : align? size = some (rounded size) := by
    have hmax : max size 1 = size := by
      have := hover.1
      unfold leastSplit headerSize alignment wordLimit at this
      omega
    rw [← align?_of_le hover.2, hmax]
  -- no live block is as long, and none can be made so in its place
  have hlong : ∀ {b : Allocator} {longer : Block} {others : List Block},
      b.Tiled (longer :: others) → ¬ rounded size ≤ longer.size := by
    intro b longer others hb hle
    have hnone := refusal_mono hle (hb.refusal_live (List.mem_cons_self ..))
    rw [refusal, if_pos hword] at hnone
    cases hnone
  have hperm := h.perm (List.perm_cons_erase hb)
  have hextra : alignment ∣ rounded size - block.size :=
    Nat.dvd_sub (rounded_pos size).2 (h.tiles.sized block.tile (mem_tiles hb)).2
  unfold Allocator.grow
  rw [haligned]
  dsimp only
  rw [if_neg (hlong hperm), Action.get_bind]
  cases hext : FreeList.extend block (rounded size - block.size) a.freeList with
  | some cut =>
      have hgrown := hperm.growInPlace hextra hext rfl
      have := hgrown.large.1
      exact absurd (by omega) (hlong hgrown.tiled)
  | none =>
      have hover' : Overflows (rounded size) := by
        unfold Overflows rounded leastSplit headerSize alignment wordLimit at *
        omega
      dsimp only
      rw [Action.bind_apply, h.allocate_of_overflow hover']

/-- Only requests that overflow are faults. -/
lemma overflows_of_requestRefusal {fault : Fault} (h : requestRefusal size = some (.fault fault)) :
    Overflows size := by
  unfold requestRefusal at h
  cases haligned : align? (max size 1) with
  | none =>
      rw [haligned] at h
      cases h
  | some aligned =>
      have hword : size + alignment ≤ wordLimit := by
        refine Nat.le_of_not_lt fun hlt => ?_
        have hnone : align? (max size 1) = none := by
          rw [align?_eq_none_iff]
          omega
        rw [haligned] at hnone
        cases hnone
      rw [align?_of_le hword] at h
      refine (overflows_iff hword).mpr (Nat.le_of_not_lt fun hlt => ?_)
      dsimp only at h
      rw [refusal, if_neg (Nat.not_le_of_lt hlt)] at h
      split at h <;> cases h

/-! ### All requests -/

/-- After every history, a request that does not overflow is served with the size that
was asked for, at least one byte and rounded up to units of eight, or with up to sixteen
bytes more; or it is refused for want of memory, and then the allocator is as it was. A
block that is long enough does not grow. A request that overflows is a fault. All else that is
added up is in bounds: no tile reaches over the end of its page, no page is longer
than half of what a word counts, and live payloads are part of what is mapped. -/
theorem History.requests_atomic {pageSize : Nat} {grants : Nat → Bool}
    (h : History pageSize grants a live) (size : Nat) (journal : Journal) :
    (¬ Overflows size →
      ((∃ block b journal', Allocator.allocate size a journal = .done block b journal' ∧
          rounded size ≤ block.size ∧ block.size ≤ rounded size + 16) ∨
        ∃ requested journal',
          Allocator.allocate size a journal = .raised (.outOfMemory requested) a journal') ∧
      ∀ block ∈ live,
        (rounded size ≤ block.size ∧ Allocator.grow block size a journal = .done block a journal) ∨
        (block.size < rounded size ∧ ∃ grown b journal',
          Allocator.grow block size a journal = .done grown b journal' ∧
            rounded size ≤ grown.size ∧ grown.size ≤ rounded size + 16) ∨
        ∃ requested journal',
          Allocator.grow block size a journal = .raised (.outOfMemory requested) a journal') ∧
    (Overflows size → Allocator.allocate size a journal = .aborted .wordOverflow ∧
      ∀ block ∈ live, Allocator.grow block size a journal = .aborted .wordOverflow) ∧
    (∀ t ∈ live.map Block.tile ++ a.freeList.map FreeBlock.tile,
      t.stop ≤ a.lengthOf t.page ∧ 2 * a.lengthOf t.page ≤ wordLimit) ∧
    a.allocated ≤ a.mapped := by
  have ht := h.tiled
  refine ⟨fun hfits => ⟨?_, fun block hb => ?_⟩, fun hover => ?_, fun t hmem => ?_, ?_⟩
  · have hends := ht.allocate size journal
    cases hrun : Allocator.allocate size a journal with
    | done block b journal' =>
        exact .inl ⟨block, b, journal', rfl, (ht.allocate_sizes size journal).of_done hrun⟩
    -- the only error of a request is want of memory
    | raised error b journal' =>
        obtain ⟨requested, rfl⟩ := (starved_allocate size).eq_outOfMemory hrun
        obtain rfl := (hends.of_raised hrun).1
        exact .inr ⟨requested, journal', rfl⟩
    -- a fault is an overflow, which is excluded here
    | aborted fault =>
        exact absurd (overflows_of_requestRefusal (hends.of_aborted hrun).2) hfits
  · obtain ⟨hstays, hgrows⟩ := ht.grow_sizes hb size journal
    rcases Nat.lt_or_ge block.size (rounded size) with hlt | hle
    · refine .inr ?_
      have hends := ht.grow hb size journal
      cases hrun : Allocator.grow block size a journal with
      | done grown b journal' =>
          exact .inl ⟨hlt, grown, b, journal', rfl, (hgrows hlt).of_done hrun⟩
      | raised error b journal' =>
          obtain ⟨requested, rfl⟩ := (starved_grow block size).eq_outOfMemory hrun
          obtain rfl := (hends.of_raised hrun).1
          exact .inr ⟨requested, journal', rfl⟩
      | aborted fault =>
          exact absurd (overflows_of_requestRefusal (hends.of_aborted hrun).2) hfits
    · exact .inl ⟨hle, hstays hle⟩
  · exact ⟨ht.allocate_of_overflow hover journal, fun block hb =>
      ht.grow_of_overflow hb hover journal⟩
  · exact ⟨ht.tiles.inside t hmem, ht.short.2 t.page⟩
  · rw [ht.mapped, ht.allocated]
    omega

/-- A page of 128 bytes was handed out, but no second one is to be had. A request that the
page has no room for is refused, though it asks for as little as the one that was served, and
so is growing to the largest word; eight less than what a word counts is a fault. -/
theorem History.requests_atomic_refused :
    ∃ a, History 128 (fun length => length < 256) a [⟨0, 40, 88⟩] ∧
      (∃ requested journal',
        Allocator.allocate 80 a .silent = .raised (.outOfMemory requested) a journal') ∧
      (∃ requested journal', Allocator.grow ⟨0, 40, 88⟩ 18446744073709551615 a .silent =
        .raised (.outOfMemory requested) a journal') ∧
      Allocator.allocate 18446744073709551608 a .silent = .aborted .wordOverflow := by
  have served : History 128 (fun length => length < 256) _ [⟨0, 40, 88⟩] :=
    ((History.create rfl).allocate 81 .silent rfl).grant fun _ => false
  refine ⟨_, served, ?_, ?_, ?_⟩
  · obtain ⟨block, b, journal', hrun, -⟩ | hrefused :=
      ((served.requests_atomic 80 .silent).1 (by decide)).1
    · cases hrun
    · exact hrefused
  · obtain ⟨hle, -⟩ | ⟨-, grown, b, journal', hrun, -⟩ | hrefused :=
      ((served.requests_atomic 18446744073709551615 .silent).1 (by decide)).2 ⟨0, 40, 88⟩ (by simp)
    · exact absurd hle (by decide)
    · cases hrun
    · exact hrefused
  · exact ((served.requests_atomic 18446744073709551608 .silent).2.1 (by decide)).1

end Allocator

end Memory

end ScriptMachine
