import ScriptMachine.Proofs.Table.Dictionary

/-!
What a hash table looks like inside.

`WellFormed` spells out how slots, nodes, the list of vacant places and the count of
a table fit together, given the nodes of each chain. Most of it follows from what ties a
table to a map. The rest are bounds: a table has a power of two of slots, fills no more than
three quarters of them, and has still fewer places in its arena (`Roomy`).

The bound on the arena comes from the three ways in which it can change. A node goes
to a vacant place if there is one; only when all places are taken is there a new
one, and then the entries are all these nodes and at least one head more. A removal
keeps the places. And a table that grows starts with no places at all.

* `Linked.size_nodes`: every place of the arena has a node or is listed as vacant;
* `Linked.size_nodes_place`: how an entry that comes in changes the arena;
* `Roomy.perform`: a request keeps the bounds, and does not take slots away.

Main result: `serve_wellFormed`.
-/

namespace ScriptMachine.Table

variable {t t' u : Table} {chain : Nat → List Nat} {key : Key} {value : Value} {d : Dictionary}

/-! ### Links and their neighbours -/

namespace Linked

/-- What a link points to points back to it. -/
lemma exists_next (h : t.Linked chain) {link : Link} {entry : Entry} {index : Nat}
    (hat : t.At link entry) (hnext : entry.next = some index) :
    ∃ node, t.nodes[index]? = some (some node) ∧ node.prev = link := by
  -- either way a path starts behind the link
  obtain ⟨list, last, hpath⟩ : ∃ list last, Path t.nodes link entry.next list last none := by
    cases link with
    | slot slot => exact ⟨chain slot, (h.heads slot entry hat).2⟩
    | node i =>
        obtain ⟨prev, hnode⟩ := hat
        obtain ⟨head, pre, post, last, -, -, -, hpost⟩ := h.exists_split hnode
        exact ⟨post, last, hpost⟩
  rw [hnext] at hpath
  cases list with
  | nil => cases hpath.2
  | cons i rest =>
      obtain ⟨hi, node, hnode, hprev, -⟩ := hpath
      cases hi
      exact ⟨node, hnode, hprev⟩

end Linked

/-! ### Counting places -/

lemma length_pairs {α β : Type} (f : α → β) (places : Array (Option α)) :
    (pairs f places).length = places.countP Option.isSome := by
  rw [pairs, List.length_filterMap_eq_countP, ← Array.countP_toList]
  simp

lemma length_entries (t : Table) :
    t.entries.length = t.slots.countP Option.isSome + t.nodes.countP Option.isSome := by
  rw [entries_eq, List.length_append, length_pairs, length_pairs]

/-- A place of the arena has a node or is listed as vacant. -/
lemma Linked.size_nodes (h : t.Linked chain) :
    t.nodes.size = t.nodes.countP Option.isSome + t.vacant.length := by
  have hperm : t.vacant.Perm ((List.range t.nodes.size).filter (t.nodes[·]? = some none)) := by
    refine (List.perm_ext_iff_of_nodup h.vacant.1 (List.nodup_range.filter _)).mpr fun index => ?_
    rw [h.vacant.2, List.mem_filter, List.mem_range, decide_eq_true_iff]
    exact (and_iff_right_of_imp fun hnone => (Array.getElem?_eq_some_iff.mp hnone).1).symm
  have hplaces : t.nodes.toList.map some = (List.range t.nodes.size).map (t.nodes[·]?) := by
    refine List.ext_getElem (by simp) fun i hi hi' => ?_
    simp at hi
    simp [hi]
  -- the vacant list has no index twice, so its length counts the empty places
  have hnone : t.vacant.length = t.nodes.toList.countP Option.isNone := by
    calc t.vacant.length
        = (List.range t.nodes.size).countP (t.nodes[·]? = some none) := by
          rw [hperm.length_eq, List.countP_eq_length_filter]
      _ = (t.nodes.toList.map some).countP (· = some none) := by
          rw [hplaces, List.countP_map]
          rfl
      _ = t.nodes.toList.countP Option.isNone := by
          rw [List.countP_map]
          refine List.countP_congr fun place _ => ?_
          cases place <;> simp
  rw [hnone, ← Array.countP_toList, ← Array.length_toList,
    List.length_eq_countP_add_countP Option.isSome]
  congr 2
  funext place
  cases place <;> rfl

/-! ### How the arena changes -/

@[simp] lemma size_nodes_updateEntry {link : Link} {f : Entry → Entry} :
    (t.updateEntry link f).nodes.size = t.nodes.size := by
  cases link <;> simp [updateEntry]

/-- An entry that comes in needs a new place only if all places are taken; then there
are more entries than places, since a head has its place elsewhere. -/
lemma Linked.size_nodes_place (h : t.Linked chain) (hplace : t.place key value = .ok t') :
    t'.nodes.size ≤ max t.nodes.size t.entries.length := by
  rcases h.head?_cases key.hash with hbare | ⟨head, hhead⟩
  · rw [place_of_bare hbare] at hplace
    cases hplace
    exact Nat.le_max_left ..
  · obtain ⟨-, tail, hpath⟩ := h.heads _ head hhead
    have hlast := lastFrom_of_path hpath (h.length_le _)
    cases hvacant : t.vacant with
    | cons index vacant =>
        have hlt := (Array.getElem?_eq_some_iff.mp ((h.vacant.2 index).mp (by simp [hvacant]))).1
        rw [place_of_head hhead hlast (by rw [Table.acquire, hvacant]; exact if_pos hlt)] at hplace
        cases hplace
        simp
    | nil =>
        rw [place_of_head hhead hlast (by rw [Table.acquire, hvacant])] at hplace
        cases hplace
        have hheads : 0 < t.slots.countP Option.isSome :=
          Array.countP_pos_iff.mpr ⟨some head, Array.mem_of_getElem? hhead, rfl⟩
        have hfull := h.size_nodes
        rw [hvacant, List.length_nil] at hfull
        rw [length_entries, size_nodes_updateEntry, Array.size_push]
        omega

/-- From a table with fewer places than entries, entries that come in one by one keep
it so. -/
lemma Linked.size_nodes_placeAll (h : t.Linked chain) {entries : List (Key × Value)}
    (hsize : t.nodes.size ≤ t.entries.length - 1) (hall : Table.placeAll entries t = .ok t') :
    t'.nodes.size ≤ t'.entries.length - 1 := by
  induction entries generalizing t chain with
  | nil =>
      cases hall
      exact hsize
  | cons pair entries ih =>
      obtain ⟨key, value⟩ := pair
      obtain ⟨u, chain', hplace, hlinked, -, -, hperm⟩ := h.place key value
      rw [Table.placeAll, hplace] at hall
      refine ih hlinked ?_ hall
      have hle := h.size_nodes_place hplace
      have hlength := hperm.length_eq
      rw [List.length_cons] at hlength
      omega

/-- Two tables have as many slots, and as many places in their arenas. -/
def SameSize (t t' : Table) : Prop := t'.slots.size = t.slots.size ∧ t'.nodes.size = t.nodes.size

lemma SameSize.trans (h : SameSize t t') (h' : SameSize t' u) : SameSize t u :=
  ⟨h'.1.trans h.1, h'.2.trans h.2⟩

lemma sameSize_relink {next : Option Nat} {prev : Link} (h : t.relink next prev = .ok t') :
    SameSize t t' := by
  cases next with
  | none =>
      cases h
      exact ⟨rfl, rfl⟩
  | some index =>
      obtain ⟨node, -, h⟩ := Result.exists_of_bind_ok h
      cases h
      exact ⟨rfl, Array.size_modify⟩

lemma sameSize_release {index : Nat} {node : Node} (h : t.release index = .ok (node, t')) :
    SameSize t t' := by
  obtain ⟨node, -, h⟩ := Result.exists_of_bind_ok h
  cases h
  exact ⟨rfl, Array.size_setIfInBounds⟩

lemma sameSize_setNext {link : Link} {next : Option Nat} (h : t.setNext link next = .ok t') :
    SameSize t t' := by
  cases link with
  | slot index | node index =>
      obtain ⟨_, -, h⟩ := Result.exists_of_bind_ok h
      cases h
      exact ⟨size_updateEntry, size_nodes_updateEntry⟩

/-- A removal keeps the slots and the places of the arena. -/
lemma sameSize_unlink {entry : Entry} {link : Link} (h : t.unlink entry link = .ok t') :
    SameSize t t' := by
  cases link with
  | slot index =>
      rw [unlink] at h
      cases hnext : entry.next with
      | none =>
          rw [hnext] at h
          cases h
          exact ⟨Array.size_setIfInBounds, rfl⟩
      | some next =>
          rw [hnext] at h
          obtain ⟨⟨node, t₁⟩, hrelease, h⟩ := Result.exists_of_bind_ok h
          obtain ⟨t₂, hrelink, h⟩ := Result.exists_of_bind_ok h
          cases h
          obtain ⟨hslots, hnodes⟩ := (sameSize_release hrelease).trans (sameSize_relink hrelink)
          exact ⟨Array.size_setIfInBounds.trans hslots, hnodes⟩
  | node index =>
      obtain ⟨⟨node, t₁⟩, hrelease, h⟩ := Result.exists_of_bind_ok h
      obtain ⟨t₂, hset, hrelink⟩ := Result.exists_of_bind_ok h
      exact (sameSize_release hrelease).trans ((sameSize_setNext hset).trans (sameSize_relink hrelink))

/-! ### Powers of two -/

lemma exists_powerOfTwoFrom (n : Nat) : ∃ k, powerOfTwoFrom n = 2 ^ k := by
  rw [powerOfTwoFrom]
  split
  · rename_i heq
    exact ⟨n.log2, by rw [← Nat.one_shiftLeft, heq]⟩
  · exact ⟨n.log2 + 1, Nat.one_shiftLeft _⟩

lemma powerOfTwoFrom_two_pow (k : Nat) : powerOfTwoFrom (2 ^ k) = 2 ^ k := by
  rw [powerOfTwoFrom, Nat.log2_two_pow, Nat.one_shiftLeft, if_pos rfl]

lemma eq_of_withCapacity {capacity : Nat} (h : withCapacity capacity = .ok t) :
    t = blank (powerOfTwoFrom (max capacity leastSlots)) := by
  rw [withCapacity] at h
  split at h
  · cases h
    rfl
  · cases h

/-! ### Bounds -/

/-- The sizes of a table. -/
structure Roomy (t : Table) : Prop where
  power : ∃ k, t.capacity = 2 ^ k
  least : leastSlots ≤ t.capacity
  load : 4 * t.count ≤ 3 * t.capacity
  arena : 4 * (t.nodes.size + 1) ≤ 3 * t.capacity

lemma roomy_of_withCapacity {capacity : Nat} (h : withCapacity capacity = .ok t) : t.Roomy := by
  rw [eq_of_withCapacity h]
  have hcapacity : ∀ slots, (blank slots).capacity = slots := by simp [blank, Table.capacity]
  have hleast : leastSlots ≤ powerOfTwoFrom (max capacity leastSlots) :=
    Nat.le_trans (Nat.le_max_right ..) (le_powerOfTwoFrom _)
  refine ⟨?_, ?_, ?_, ?_⟩
  · rw [hcapacity]
    exact exists_powerOfTwoFrom _
  · rw [hcapacity]
    exact hleast
  · exact Nat.zero_le _
  · rw [hcapacity]
    change 4 ≤ _
    rw [leastSlots] at hleast ⊢
    omega

/-- What an insertion can do: it changes a value in its place, or places a new entry,
perhaps after the table has grown. -/
lemma insert_cases {journal journal' : Journal} {old : Option Value}
    (h : Table.insert key value t journal = .done old t' journal') :
    (∃ link, t' = t.updateEntry link fun entry => { entry with value := value }) ∨
      ∃ u v, (t.isCrowded = false ∧ u = t ∨
          t.isCrowded = true ∧ t.rehash (t.capacity * 2) = .ok u) ∧
        u.place key value = .ok v ∧ t' = { v with count := v.count + 1 } := by
  rw [Table.insert, Action.get_bind] at h
  obtain ⟨found, -, h⟩ := Action.exists_of_lift_bind_done h
  cases found with
  | some link =>
      obtain ⟨entry, -, h⟩ := Action.exists_of_lift_bind_done h
      cases h
      exact .inl ⟨link, rfl⟩
  | none =>
      dsimp only at h
      cases hcrowded : t.isCrowded with
      | false =>
          rw [if_neg (by simp [hcrowded]), pure_bind] at h
          obtain ⟨v, hplace, h⟩ := Action.exists_of_lift_bind_done h
          cases h
          exact .inr ⟨t, v, .inl ⟨rfl, rfl⟩, hplace, rfl⟩
      | true =>
          rw [if_pos hcrowded, Action.note_bind] at h
          obtain ⟨u, hrehash, h⟩ := Action.exists_of_lift_bind_done h
          obtain ⟨v, hplace, h⟩ := Action.exists_of_lift_bind_done h
          cases h
          exact .inr ⟨u, v, .inr ⟨rfl, hrehash⟩, hplace, rfl⟩

/-- What a removal can do: nothing, or it unlinks an entry. -/
lemma remove_cases {hash : UInt64} {journal journal' : Journal} {old : Option Value}
    (h : Table.remove hash t journal = .done old t' journal') :
    t' = t ∨ ∃ entry link u, t.unlink entry link = .ok u ∧
      t' = { u with count := u.count - 1 } := by
  rw [Table.remove, Action.get_bind] at h
  obtain ⟨found, -, h⟩ := Action.exists_of_lift_bind_done h
  cases found with
  | none =>
      cases h
      exact .inl rfl
  | some link =>
      obtain ⟨entry, -, h⟩ := Action.exists_of_lift_bind_done h
      obtain ⟨u, hunlink, h⟩ := Action.exists_of_lift_bind_done h
      cases h
      exact .inr ⟨entry, link, u, hunlink, rfl⟩

namespace Roomy

variable {v : Table}

/-- The bounds are about the sizes only. -/
lemma congr (hr : t.Roomy) (hsize : SameSize t t') (hcount : t'.count ≤ t.count) : t'.Roomy := by
  obtain ⟨hslots, hnodes⟩ := hsize
  have hcapacity : t'.capacity = t.capacity := hslots
  have hload := hr.load
  refine ⟨hcapacity ▸ hr.power, hcapacity ▸ hr.least, by omega, ?_⟩
  rw [hcapacity, hnodes]
  exact hr.arena

/-- A table that grows has twice as many slots. Its arena is made anew, with fewer
places than entries. -/
lemma rehash (hr : t.Roomy) (h : t.Holds d) (hrehash : t.rehash (t.capacity * 2) = .ok u) :
    u.Roomy ∧ u.capacity = t.capacity * 2 ∧ u.isCrowded = false := by
  obtain ⟨new, hnew, hrehash⟩ := Result.exists_of_bind_ok hrehash
  obtain ⟨grown, hall, hrehash⟩ := Result.exists_of_bind_ok hrehash
  cases hrehash
  obtain ⟨k, hk⟩ := hr.power
  have hleast := hr.least
  have hload := hr.load
  rw [leastSlots] at hleast
  have hslots : powerOfTwoFrom (max (t.capacity * 2) leastSlots) = t.capacity * 2 := by
    rw [Nat.max_eq_left (by rw [leastSlots]; omega), hk, ← Nat.pow_succ, powerOfTwoFrom_two_pow]
  have hblank := eq_of_withCapacity hnew
  rw [hslots] at hblank
  have hlinked := linked_blank (t.capacity * 2) (by omega)
  rw [← hblank] at hlinked
  obtain ⟨grown', chain, hall', -, hsize, hperm⟩ := hlinked.placeAll t.entries
  cases hall.symm.trans hall'
  have hcapacity : grown.capacity = t.capacity * 2 := by
    rw [Table.capacity, hsize, hblank]
    exact Array.size_replicate
  have hcount : grown.entries.length = t.count := by
    rw [hperm.length_eq, hblank, entries_blank, List.append_nil, h.count]
  -- some entry is a head, outside the arena, so there are fewer places than entries
  have harena := hlinked.size_nodes_placeAll (by simp [hblank, blank]) hall
  refine ⟨⟨⟨k + 1, ?_⟩, ?_, ?_, ?_⟩, hcapacity, ?_⟩
  · exact hcapacity.trans (by rw [hk, Nat.pow_succ])
  · change 8 ≤ grown.capacity
    omega
  · change 4 * t.count ≤ 3 * grown.capacity
    omega
  · change 4 * (grown.nodes.size + 1) ≤ 3 * grown.capacity
    omega
  · refine decide_eq_false (Nat.not_lt.mpr ?_)
    change 4 * (t.count + 1) ≤ 3 * grown.capacity
    omega

/-- An entry comes into a table that is not crowded. -/
lemma place (hr : t.Roomy) (h : t.Holds d) (hroom : t.isCrowded = false)
    (hplace : t.place key value = .ok v) :
    ({ v with count := v.count + 1 } : Table).Roomy ∧ v.capacity = t.capacity := by
  obtain ⟨chain, hlinked⟩ := h.linked
  obtain ⟨v', chain', hplace', -, hsize, hcount, -⟩ := hlinked.place key value
  cases hplace.symm.trans hplace'
  have hcapacity : v.capacity = t.capacity := hsize
  have hnodes := hlinked.size_nodes_place hplace
  rw [← h.count] at hnodes
  have harena := hr.arena
  rw [isCrowded, decide_eq_false_iff_not, Nat.not_lt] at hroom
  refine ⟨⟨?_, ?_, ?_, ?_⟩, hcapacity⟩
  · exact hcapacity ▸ hr.power
  · exact Nat.le_trans hr.least (Nat.le_of_eq hcapacity.symm)
  · change 4 * (v.count + 1) ≤ 3 * v.capacity
    omega
  · change 4 * (v.nodes.size + 1) ≤ 3 * v.capacity
    omega

lemma insert (hr : t.Roomy) (h : t.Holds d) {journal journal' : Journal} {old : Option Value}
    (hinsert : Table.insert key value t journal = .done old t' journal') :
    t'.Roomy ∧ t.capacity ≤ t'.capacity := by
  rcases insert_cases hinsert with ⟨link, rfl⟩ | ⟨u, v, hgrow, hplace, rfl⟩
  · have hsize : SameSize t (t.updateEntry link fun entry => { entry with value := value }) :=
      ⟨size_updateEntry, size_nodes_updateEntry⟩
    exact ⟨hr.congr hsize (Nat.le_of_eq count_updateEntry), Nat.le_of_eq hsize.1.symm⟩
  · rcases hgrow with ⟨hroom, rfl⟩ | ⟨hcrowded, hrehash⟩
    · obtain ⟨hr', hcapacity⟩ := hr.place h hroom hplace
      exact ⟨hr', Nat.le_of_eq hcapacity.symm⟩
    · obtain ⟨hru, hcapacity, hroom⟩ := hr.rehash h hrehash
      rcases h.grow hcrowded with ⟨u', hrehash', hholds, -⟩ | ⟨hfault, -⟩
      · cases hrehash.symm.trans hrehash'
        obtain ⟨hr', hcapacity'⟩ := hru.place hholds hroom hplace
        refine ⟨hr', ?_⟩
        change t.capacity ≤ v.capacity
        omega
      · cases hrehash.symm.trans hfault

lemma remove (hr : t.Roomy) {hash : UInt64} {journal journal' : Journal} {old : Option Value}
    (hremove : Table.remove hash t journal = .done old t' journal') (hcount : t'.count ≤ t.count) :
    t'.Roomy ∧ t.capacity ≤ t'.capacity := by
  rcases remove_cases hremove with rfl | ⟨entry, link, u, hunlink, rfl⟩
  · exact ⟨hr, Nat.le_refl _⟩
  · have hsize := sameSize_unlink hunlink
    exact ⟨hr.congr hsize hcount, Nat.le_of_eq hsize.1.symm⟩

/-- A request keeps the bounds, and takes no slots away. -/
lemma perform (hr : t.Roomy) (h : t.Holds d) (request : Request) (journal : Journal) :
    Outcome.Ends
      (fun _ t' => t'.Roomy ∧ t'.Holds (request.apply d) ∧ t.capacity ≤ t'.capacity ∧
        t'.count ≤ t.count + 1)
      (fun _ _ => False) (fun fault => fault = .bufferOverflow ∧ 2 ^ 54 ≤ t.count + 1)
      (request.perform t journal) := by
  have hends := h.perform request journal
  cases hrun : request.perform t journal with
  | raised error t' journal' => exact hends.of_raised hrun
  | aborted fault => exact hends.of_aborted hrun
  | done answer t' journal' =>
      obtain ⟨-, hholds, hcount⟩ := hends.of_done hrun
      have hsizes : t'.Roomy ∧ t.capacity ≤ t'.capacity := by
        cases request with
        | insert key value => exact hr.insert h hrun
        | get hash =>
            change (liftM (t.get? hash) : Action Table (Option Value)) t journal = _ at hrun
            rw [h.get? hash] at hrun
            cases hrun
            exact ⟨hr, Nat.le_refl _⟩
        | remove hash =>
            obtain ⟨t₁, hremove, -, hless⟩ := h.remove hash journal
            cases hrun.symm.trans hremove
            exact hr.remove hrun hless
      exact ⟨hsizes.1, hholds, hsizes.2, hcount⟩

/-- Requests one after the other. -/
lemma serve (hr : t.Roomy) (h : t.Holds d) (requests : List Request) (journal : Journal) :
    Outcome.Ends
      (fun _ t' => t'.Roomy ∧ t'.Holds (d.after requests) ∧ t.capacity ≤ t'.capacity ∧
        t'.count ≤ t.count + requests.length)
      (fun _ _ => False) (fun fault => fault = .bufferOverflow ∧ 2 ^ 54 ≤ t.count + requests.length)
      (Table.serve requests t journal) := by
  induction requests generalizing t d journal with
  | nil => exact ⟨hr, h, Nat.le_refl _, Nat.le_refl _⟩
  | cons request requests ih =>
      have hfirst := (hr.perform h request journal).imp (fun _ _ => id) (fun _ _ => id)
        (fun fault hfault => show fault = .bufferOverflow ∧
          2 ^ 54 ≤ t.count + (request :: requests).length from
            ⟨hfault.1, Nat.le_trans hfault.2 (by simp)⟩)
      refine hfirst.bind fun answer t' journal' hanswer => ?_
      obtain ⟨hr', hholds, hcapacity, hcount⟩ := hanswer
      have hrest := (ih hr' hholds journal').imp (fun _ _ => id) (fun _ _ => id)
        (fun fault hfault => show fault = .bufferOverflow ∧
          2 ^ 54 ≤ t.count + (request :: requests).length from
            ⟨hfault.1, Nat.le_trans hfault.2 (by rw [List.length_cons]; omega)⟩)
      refine hrest.bind fun answers t'' journal'' hanswers => ?_
      obtain ⟨hr'', hholds', hcapacity', hcount'⟩ := hanswers
      refine ⟨hr'', hholds', Nat.le_trans hcapacity hcapacity', ?_⟩
      rw [List.length_cons]
      omega

end Roomy

/-! ### The whole invariant -/

/-- How the parts of a table fit together. The chain of a slot with a head follows the
links from there to the end; the other chains are empty. -/
structure WellFormed (t : Table) (chain : Nat → List Nat) : Prop where
  power : ∃ k, t.capacity = 2 ^ k
  least : 8 ≤ t.capacity
  whole : ∀ slot head, t.slots[slot]? = some (some head) →
    ∃ last, Path t.nodes (.slot slot) head.next (chain slot) last none
  bare : ∀ slot, (∀ head, t.slots[slot]? ≠ some (some head)) → chain slot = []
  acyclic : ∀ slot, (chain slot).Nodup
  /-- The low bits of its hash tell where a head belongs, -/
  head : ∀ slot head, t.slots[slot]? = some (some head) →
    head.key.hash.toNat &&& (t.capacity - 1) = slot
  /-- and where a node belongs. -/
  member : ∀ slot, ∀ index ∈ chain slot, ∃ node, t.nodes[index]? = some (some node) ∧
    node.entry.key.hash.toNat &&& (t.capacity - 1) = slot
  /-- What a link points to points back, -/
  next : ∀ link entry index, t.At link entry → entry.next = some index →
    ∃ node, t.nodes[index]? = some (some node) ∧ node.prev = link
  /-- and what a node points back to points to it. -/
  prev : ∀ index node, t.nodes[index]? = some (some node) →
    ∃ entry, t.At node.prev entry ∧ entry.next = some index
  once : ∀ index node, t.nodes[index]? = some (some node) → ∃! slot, index ∈ chain slot
  vacant : t.vacant.Nodup ∧ ∀ index, index ∈ t.vacant ↔ t.nodes[index]? = some none
  /-- No place of the arena is lost. -/
  places : t.nodes.size = t.nodes.countP Option.isSome + t.vacant.length
  count : t.count = t.slots.countP Option.isSome + t.nodes.countP Option.isSome
  load : 4 * t.count ≤ 3 * t.capacity
  arena : 4 * t.nodes.size < 3 * t.capacity
  /-- Searches come to an end, and so does placing an entry. -/
  find : ∀ hash, ∃ found, t.find hash = .ok found
  place : ∀ key value, ∃ t', t.place key value = .ok t'

/-- A table with room is all that its representation promises. -/
lemma Roomy.wellFormed (hr : t.Roomy) (h : t.Holds d) : ∃ chain, t.WellFormed chain := by
  obtain ⟨chain, hlinked⟩ := h.linked
  have hmask : ∀ hash : UInt64, hash.toNat &&& (t.capacity - 1) = t.slotOf hash := by
    intro hash
    obtain ⟨k, hk⟩ := hr.power
    rw [slotOf, hk, Nat.and_two_pow_sub_one_eq_mod]
  have hbare : ∀ slot, (∀ head, t.slots[slot]? ≠ some (some head)) → chain slot = [] := by
    intro slot hno
    refine List.eq_nil_iff_forall_not_mem.mpr fun index hindex => ?_
    obtain ⟨node, hnode, rfl⟩ := (hlinked.mem slot index).mp hindex
    obtain ⟨head, -, -, -, hhead, -⟩ := hlinked.exists_split hnode
    exact hno head hhead
  refine ⟨chain, hr.power, hr.least, fun slot head hhead => (hlinked.heads slot head hhead).2,
    hbare, hlinked.nodup, fun slot head hhead => ?_, fun slot index hindex => ?_,
    fun link entry index => hlinked.exists_next, fun index node => hlinked.exists_prev,
    fun index node hnode => ?_, hlinked.vacant, hlinked.size_nodes, ?_, hr.load, ?_,
    fun hash => ?_, fun key value => ?_⟩
  · rw [hmask]
    exact (hlinked.heads slot head hhead).1
  · obtain ⟨node, hnode, hslot⟩ := (hlinked.mem slot index).mp hindex
    exact ⟨node, hnode, (hmask _).trans hslot⟩
  · refine ⟨_, (hlinked.mem _ index).mpr ⟨node, hnode, rfl⟩, fun slot hslot => ?_⟩
    obtain ⟨node', hnode', rfl⟩ := (hlinked.mem slot index).mp hslot
    rw [hnode] at hnode'
    cases hnode'
    rfl
  · rw [h.count, length_entries]
  · have harena := hr.arena
    omega
  · rcases hlinked.find hash with ⟨link, -, hfind, -⟩ | ⟨hfind, -⟩
    · exact ⟨_, hfind⟩
    · exact ⟨_, hfind⟩
  · obtain ⟨t', -, hplace, -⟩ := hlinked.place key value
    exact ⟨t', hplace⟩

/-- From a new table on, whatever its capacity, the parts of a table fit together after
every sequence of requests, and further requests take no slots away. The one possible
fault is that no buffer can have so many slots, and this takes more requests than can be
made. -/
theorem serve_wellFormed {capacity : Nat} (h : withCapacity capacity = .ok t)
    (requests later : List Request) (journal : Journal) :
    Outcome.Ends
      (fun _ t' => (∃ chain, t'.WellFormed chain) ∧ t.capacity ≤ t'.capacity ∧
        ∀ journal', Outcome.Ends (fun _ t'' => t'.capacity ≤ t''.capacity) (fun _ _ => False)
          (fun fault => fault = .bufferOverflow ∧ 2 ^ 54 ≤ requests.length + later.length)
          (serve later t' journal'))
      (fun _ _ => False) (fun fault => fault = .bufferOverflow ∧ 2 ^ 54 ≤ requests.length)
      (serve requests t journal) := by
  have hholds := holds_of_withCapacity h
  have hzero : t.count = 0 := by
    rw [eq_of_withCapacity h]
    rfl
  have hends := (roomy_of_withCapacity h).serve hholds requests journal
  rw [hzero, Nat.zero_add] at hends
  refine hends.imp_done ?_
  rintro answers t' ⟨hr', hholds', hcapacity, hcount⟩
  refine ⟨hr'.wellFormed hholds', hcapacity, fun journal' => ?_⟩
  refine (hr'.serve hholds' later journal').imp (fun _ _ hlater => hlater.2.2.1) (fun _ _ => id) ?_
  rintro fault ⟨hfault, hmany⟩
  exact ⟨hfault, by omega⟩

/-- Seven keys of one slot, the last of which makes the table grow; then two of them
leave and another one comes, which takes one of the places they had in the arena. -/
theorem serve_wellFormed_grown :
    ∃ t answers t' journal chain, withCapacity 3 = .ok t ∧ t.capacity = 8 ∧
      serve ([1, 9, 17, 25, 33, 41, 49].map (fun n => .insert ⟨n, .bool true⟩ .null) ++
        [.remove 17, .remove 1, .insert ⟨65, .null⟩ .null]) t .silent = .done answers t' journal ∧
      t'.WellFormed chain ∧
      (t'.capacity, t'.count, t'.nodes.size, t'.vacant) = (16, 6, 5, [0]) := by
  generalize hrequests : (List.map _ _ ++ _ : List Request) = requests
  have hsizes : (serve requests (blank 8) .silent).state?.map
      (fun t' => (t'.capacity, t'.count, t'.nodes.size, t'.vacant)) = some (16, 6, 5, [0]) := by
    subst hrequests
    decide +kernel
  have h := serve_wellFormed (t := blank 8) (show withCapacity 3 = _ from rfl) requests [] .silent
  generalize hrun : serve requests (blank 8) .silent = outcome at h hsizes
  cases outcome with
  | done answers t' journal =>
      obtain ⟨⟨chain, hchain⟩, -⟩ := h
      exact ⟨blank 8, answers, t', journal, chain, rfl, rfl, hrun, hchain, Option.some.inj hsizes⟩
  | raised error t' journal => exact h.elim
  | aborted fault => cases hsizes

end ScriptMachine.Table
