import Mathlib.Data.List.Perm.Basic
import Mathlib.Data.List.Nodup
import ScriptMachine.Proofs.Heap.Slots
import ScriptMachine.Table

/-!
Chains of a hash table.

A chain starts in a slot and goes on through nodes of the arena, each of which
points to the next one and back to the place before it. `Path` says this of a
stretch of a chain, so that a chain can be cut and joined where it changes.
`Table.Linked` says that all chains are whole: every node is on the chain of
the slot that its key belongs to, and the places without a node are the vacant
ones.

* `Linked.find`: the search for a hash finds its entry, if there is one;
* `lastFrom_of_path`: the search for the end of a chain finds it.

Neither ever follows a link that leads nowhere.
-/

namespace ScriptMachine.Table

variable {t : Table} {nodes nodes' : Array (Option Node)} {index fuel : Nat} {hash : UInt64}
  {prev last prev' mid : Link} {next final mid' : Option Nat} {list rest : List Nat}

/-! ### What the places of an array hold -/

section Pairs

variable {α β : Type} {f : α → β} {places : Array (Option α)} {x : α}

/-- The contents of the places that are not empty. -/
def pairs (f : α → β) (places : Array (Option α)) : List β :=
  places.toList.filterMap (·.map f)

/-- A place that is not empty contributes what it holds. -/
lemma exists_pairs_modify (h : places[index]? = some (some x)) :
    ∃ pre post, pairs f places = pre ++ f x :: post ∧
      ∀ g, pairs f (places.modify index (·.map g)) = pre ++ f (g x) :: post := by
  obtain ⟨pre, post, hlist, -, hmodify⟩ := Heap.exists_focus h
  refine ⟨pre.filterMap (·.map f), post.filterMap (·.map f), ?_, fun g => ?_⟩
  · simp [pairs, hlist]
  · unfold pairs
    rw [hmodify]
    simp

lemma mem_pairs (h : places[index]? = some (some x)) : f x ∈ pairs f places := by
  obtain ⟨pre, post, hlist, -⟩ := exists_pairs_modify (f := f) h
  simp [hlist]

lemma exists_of_mem_pairs {y : β} (h : y ∈ pairs f places) :
    ∃ (index : Nat) (x : α), places[index]? = some (some x) ∧ f x = y := by
  obtain ⟨place, hmem, hplace⟩ := List.mem_filterMap.mp h
  obtain ⟨x, rfl, hx⟩ := Option.map_eq_some_iff.mp hplace
  obtain ⟨index, hindex⟩ := List.getElem?_of_mem hmem
  exact ⟨index, x, by rw [← hindex, Array.getElem?_toList], hx⟩

/-- A place that is filled. -/
lemma pairs_fill (h : places[index]? = some none) :
    (pairs f (places.setIfInBounds index (some x))).Perm (f x :: pairs f places) := by
  obtain ⟨pre, post, hlist, -, hmodify⟩ := Heap.exists_focus h
  unfold pairs
  rw [Heap.setIfInBounds_eq_modify, hmodify, hlist]
  simp

/-- A place that is emptied. -/
lemma pairs_clear (h : places[index]? = some (some x)) :
    (pairs f places).Perm (f x :: pairs f (places.setIfInBounds index none)) := by
  obtain ⟨pre, post, hlist, -, hmodify⟩ := Heap.exists_focus h
  unfold pairs
  rw [Heap.setIfInBounds_eq_modify, hmodify, hlist]
  simp

/-- A place more. -/
lemma pairs_push : pairs f (places.push (some x)) = pairs f places ++ [f x] := by
  simp [pairs]

/-- A change that does not show. -/
lemma pairs_modify_of_eq {g : α → α} (h : ∀ x, f (g x) = f x) :
    pairs f (places.modify index (·.map g)) = pairs f places := by
  cases hx : places[index]? with
  | none =>
      have hsame : places.modify index (·.map g) = places := by
        refine Array.ext_getElem? fun i => ?_
        rw [Array.getElem?_modify]
        split
        · rename_i heq
          rw [← heq, hx]
          rfl
        · rfl
      rw [hsame]
  | some place =>
      cases place with
      | none =>
          obtain ⟨pre, post, hlist, -, hmodify⟩ := Heap.exists_focus hx
          unfold pairs
          rw [hmodify, hlist]
          rfl
      | some x =>
          obtain ⟨pre, post, hlist, hmodify⟩ := exists_pairs_modify (f := f) hx
          rw [hmodify, hlist, h]

end Pairs

/-- What an entry holds. -/
def Entry.pair (entry : Entry) : Key × Value := (entry.key, entry.value)

/-- What a node holds. -/
def Node.pair (node : Node) : Key × Value := node.entry.pair

lemma entries_eq (t : Table) : t.entries = pairs Entry.pair t.slots ++ pairs Node.pair t.nodes := by
  unfold entries pairs
  rw [List.map_append, List.map_filterMap, List.map_filterMap]
  congr 1
  refine List.filterMap_congr fun node _ => ?_
  cases node <;> rfl

/-- The entry that stands at a link. -/
def At (t : Table) : Link → Entry → Prop
  | .slot index, entry => t.slots[index]? = some (some entry)
  | .node index, entry => ∃ prev, t.nodes[index]? = some (some ⟨entry, prev⟩)

lemma node_eq {node : Node} (h : t.nodes[index]? = some (some node)) : t.node index = .ok node := by
  unfold Table.node
  rw [h]

lemma head?_eq {head : Option Entry} (h : t.slots[index]? = some head) : t.head? index = .ok head := by
  unfold head?
  rw [h]

lemma At.entry_eq {link : Link} {entry : Entry} (h : t.At link entry) : t.entry link = .ok entry := by
  cases link with
  | slot index =>
      rw [Table.entry, head?_eq h]
      rfl
  | node index =>
      obtain ⟨prev, hnode⟩ := h
      rw [Table.entry, node_eq hnode]
      rfl

lemma At.mem {link : Link} {entry : Entry} (h : t.At link entry) : entry.pair ∈ t.entries := by
  rw [entries_eq]
  cases link with
  | slot index => exact List.mem_append_left _ (mem_pairs h)
  | node index =>
      obtain ⟨prev, hnode⟩ := h
      exact List.mem_append_right _ (mem_pairs (f := Node.pair) hnode)

lemma exists_at_of_mem {pair : Key × Value} (h : pair ∈ t.entries) :
    ∃ link entry, t.At link entry ∧ entry.pair = pair := by
  rw [entries_eq] at h
  rcases List.mem_append.mp h with h | h
  · obtain ⟨index, entry, hentry, hpair⟩ := exists_of_mem_pairs h
    exact ⟨.slot index, entry, hentry, hpair⟩
  · obtain ⟨index, node, hnode, hpair⟩ := exists_of_mem_pairs h
    exact ⟨.node index, node.entry, ⟨node.prev, hnode⟩, hpair⟩

/-! ### Stretches of a chain -/

/-- The nodes `list` of the arena, in this order: `next` points to the first of
them, `prev` being the place before it, and so on; `last` is the last place and
`final` what it points to. -/
def Path (nodes : Array (Option Node)) :
    (prev : Link) → (next : Option Nat) → List Nat → (last : Link) → (final : Option Nat) → Prop
  | prev, next, [], last, final => last = prev ∧ final = next
  | prev, next, index :: rest, last, final =>
      next = some index ∧ ∃ node, nodes[index]? = some (some node) ∧ node.prev = prev ∧
        Path nodes (.node index) node.entry.next rest last final

namespace Path

/-- A path is cut anywhere in two, the second beginning where the first stops. -/
lemma append_iff {list' : List Nat} :
    Path nodes prev next (list ++ list') last final ↔
      ∃ mid mid', Path nodes prev next list mid mid' ∧ Path nodes mid mid' list' last final := by
  induction list generalizing prev next with
  | nil =>
      constructor
      · exact fun h => ⟨prev, next, ⟨rfl, rfl⟩, h⟩
      · rintro ⟨mid, mid', ⟨rfl, rfl⟩, h⟩
        exact h
  | cons index rest ih =>
      simp only [List.cons_append, Path, ih]
      constructor
      · rintro ⟨hnext, node, hnode, hprev, mid, mid', hfirst, hsecond⟩
        exact ⟨mid, mid', ⟨hnext, node, hnode, hprev, hfirst⟩, hsecond⟩
      · rintro ⟨mid, mid', ⟨hnext, node, hnode, hprev, hfirst⟩, hsecond⟩
        exact ⟨hnext, node, hnode, hprev, mid, mid', hfirst, hsecond⟩

/-- All places on a path hold nodes. -/
lemma exists_node (h : Path nodes prev next list last final) (hmem : index ∈ list) :
    ∃ node, nodes[index]? = some (some node) := by
  induction list generalizing prev next with
  | nil => cases hmem
  | cons i rest ih =>
      obtain ⟨-, node, hnode, -, hrest⟩ := h
      rcases List.mem_cons.mp hmem with rfl | hmem
      · exact ⟨node, hnode⟩
      · exact ih hrest hmem

/-- A path that is not empty ends at one of its nodes. -/
lemma exists_last (h : Path nodes prev next list last final) (hne : list ≠ []) :
    ∃ index ∈ list, last = .node index := by
  induction list generalizing prev next with
  | nil => exact absurd rfl hne
  | cons i rest ih =>
      obtain ⟨-, node, -, -, hrest⟩ := h
      cases rest with
      | nil => exact ⟨i, by simp, hrest.1⟩
      | cons j rest =>
          obtain ⟨index, hmem, hlast⟩ := ih hrest (by simp)
          exact ⟨index, List.mem_cons_of_mem _ hmem, hlast⟩

/-- A chain that goes on goes on with its next node. -/
lemma head_mem (h : Path nodes prev (some index) list last none) : index ∈ list := by
  cases list with
  | nil => cases h.2
  | cons i rest =>
      cases h.1
      exact List.mem_cons_self ..

/-- A path from a slot ends there only if it is empty. -/
lemma last_eq_slot_iff {slot other : Nat} (h : Path nodes (.slot slot) next list last final) :
    last = .slot other ↔ list = [] ∧ other = slot := by
  constructor
  · rintro rfl
    rcases eq_or_ne list [] with rfl | hne
    · exact ⟨rfl, Link.slot.inj h.1⟩
    · obtain ⟨j, -, hlast⟩ := h.exists_last hne
      cases hlast
  · rintro ⟨rfl, rfl⟩
    exact h.1

lemma mem_of_last {slot : Nat} (h : Path nodes (.slot slot) next list (.node index) final) :
    index ∈ list := by
  rcases eq_or_ne list [] with rfl | hne
  · cases h.1
  · obtain ⟨j, hj, hlast⟩ := h.exists_last hne
    cases hlast
    exact hj

/-- The end of a path is given a new pointer. -/
lemma setFinal {final' : Option Nat} (h : Path nodes prev next list last final)
    (hnodup : list.Nodup)
    (hsame : ∀ i ∈ list, ∀ node, nodes[i]? = some (some node) →
      ∃ node', nodes'[i]? = some (some node') ∧ node'.prev = node.prev ∧
        node'.entry.next = if last = .node i then final' else node.entry.next) :
    Path nodes' prev (if list = [] then final' else next) list last final' := by
  induction list generalizing prev next with
  | nil => exact ⟨h.1, rfl⟩
  | cons i rest ih =>
      obtain ⟨hnext, node, hnode, hprev, hrest⟩ := h
      obtain ⟨hi, hnodup⟩ := List.nodup_cons.mp hnodup
      obtain ⟨node', hnode', hprev', hnext'⟩ := hsame i (by simp) node hnode
      refine ⟨hnext, node', hnode', hprev'.trans hprev, ?_⟩
      have hstep := ih hrest hnodup fun j hj => hsame j (List.mem_cons_of_mem _ hj)
      have hlast : last = .node i ↔ rest = [] := by
        constructor
        · intro hlast
          by_contra hne
          obtain ⟨j, hj, hlast'⟩ := hrest.exists_last hne
          cases hlast.symm.trans hlast'
          exact hi hj
        · rintro rfl
          exact hrest.1
      rw [hnext', if_congr hlast rfl rfl]
      exact hstep

/-- A path goes on where nothing of it changes. -/
lemma congr (h : Path nodes prev next list last final)
    (hsame : ∀ i ∈ list, ∀ node, nodes[i]? = some (some node) →
      ∃ node', nodes'[i]? = some (some node') ∧ node'.prev = node.prev ∧
        node'.entry.next = node.entry.next) : Path nodes' prev next list last final := by
  induction list generalizing prev next with
  | nil => exact h
  | cons i rest ih =>
      obtain ⟨hnext, node, hnode, hprev, hrest⟩ := h
      obtain ⟨node', hnode', hprev', hnext'⟩ := hsame i (by simp) node hnode
      refine ⟨hnext, node', hnode', hprev'.trans hprev, ?_⟩
      rw [hnext']
      exact ih hrest fun j hj => hsame j (List.mem_cons_of_mem _ hj)

/-- The first node of a path is given a new place before it. -/
lemma setPrev (h : Path nodes prev next list last final) (hnodup : list.Nodup)
    (hsame : ∀ i ∈ list, ∀ node, nodes[i]? = some (some node) →
      ∃ node', nodes'[i]? = some (some node') ∧
        node'.prev = (if next = some i then prev' else node.prev) ∧
        node'.entry.next = node.entry.next) :
    ∃ last', Path nodes' prev' next list last' final := by
  cases list with
  | nil => exact ⟨prev', rfl, h.2⟩
  | cons i rest =>
      obtain ⟨hnext, node, hnode, hprev, hrest⟩ := h
      obtain ⟨hi, -⟩ := List.nodup_cons.mp hnodup
      obtain ⟨node', hnode', hprev', hnext'⟩ := hsame i (by simp) node hnode
      refine ⟨last, hnext, node', hnode', by rw [hprev', if_pos hnext], ?_⟩
      rw [hnext']
      refine hrest.congr fun j hj node hnode => ?_
      obtain ⟨node', hnode', hprev', hnext'⟩ := hsame j (List.mem_cons_of_mem _ hj) node hnode
      refine ⟨node', hnode', ?_, hnext'⟩
      rw [hprev', if_neg]
      rw [hnext]
      rintro ⟨⟩
      exact hi hj

end Path

/-! ### Whole chains -/

/-- All chains of a table are whole, `chain` giving the nodes of each. -/
structure Linked (t : Table) (chain : Nat → List Nat) : Prop where
  pos : 0 < t.capacity
  heads : ∀ slot head, t.slots[slot]? = some (some head) → t.slotOf head.key.hash = slot ∧
    ∃ last, Path t.nodes (.slot slot) head.next (chain slot) last none
  bare : ∀ slot, t.slots[slot]? = some none → chain slot = []
  nodup : ∀ slot, (chain slot).Nodup
  /-- A node is on the chain that its key belongs to, and on no other. -/
  mem : ∀ slot index, index ∈ chain slot ↔
    ∃ node, t.nodes[index]? = some (some node) ∧ t.slotOf node.entry.key.hash = slot
  vacant : t.vacant.Nodup ∧ ∀ index, index ∈ t.vacant ↔ t.nodes[index]? = some none

/-- Where a path starts at an entry, it ends at an entry that points to what comes
next. -/
lemma Path.exists_at {prev last : Link} {next final : Option Nat} {list : List Nat}
    (h : Path t.nodes prev next list last final) {entry : Entry} (hat : t.At prev entry)
    (hnext : entry.next = next) : ∃ entry, t.At last entry ∧ entry.next = final := by
  induction list generalizing prev next entry with
  | nil =>
      obtain ⟨rfl, rfl⟩ := h
      exact ⟨entry, hat, hnext⟩
  | cons index rest ih =>
      obtain ⟨-, node, hnode, -, hrest⟩ := h
      exact ih hrest ⟨node.prev, hnode⟩ rfl

namespace Linked

variable {chain : Nat → List Nat} {slot : Nat}

lemma slotOf_lt (h : t.Linked chain) (hash : UInt64) : t.slotOf hash < t.slots.size :=
  Nat.mod_lt _ h.pos

/-- The slot of a hash holds a head or is empty. -/
lemma head?_cases (h : t.Linked chain) (hash : UInt64) :
    t.slots[t.slotOf hash]? = some none ∨
      ∃ head, t.slots[t.slotOf hash]? = some (some head) := by
  obtain ⟨head, hhead⟩ : ∃ head, t.slots[t.slotOf hash]? = some head :=
    ⟨_, Array.getElem?_eq_getElem (h.slotOf_lt hash)⟩
  cases head with
  | none => exact .inl hhead
  | some head => exact .inr ⟨head, hhead⟩

/-- The number of entries has no part in the chains. -/
lemma withCount (h : t.Linked chain) (count : Nat) :
    ({ t with count := count } : Table).Linked chain :=
  ⟨h.pos, h.heads, h.bare, h.nodup, h.mem, h.vacant⟩

/-- A chain has at most as many nodes as the arena. -/
lemma length_le (h : t.Linked chain) (slot : Nat) : (chain slot).length ≤ t.nodes.size := by
  have hsub : chain slot ⊆ List.range t.nodes.size := by
    intro index hindex
    obtain ⟨node, hnode, -⟩ := (h.mem slot index).mp hindex
    exact List.mem_range.mpr (Array.getElem?_eq_some_iff.mp hnode).1
  simpa using (List.subperm_of_subset (h.nodup slot) hsub).length_le

/-- A node stands on its chain between the place before it and what it points to. -/
lemma exists_split (h : t.Linked chain) {node : Node} (hnode : t.nodes[index]? = some (some node)) :
    ∃ head pre post last, t.slots[t.slotOf node.entry.key.hash]? = some (some head) ∧
      chain (t.slotOf node.entry.key.hash) = pre ++ index :: post ∧
      Path t.nodes (.slot (t.slotOf node.entry.key.hash)) head.next pre node.prev (some index) ∧
      Path t.nodes (.node index) node.entry.next post last none := by
  have hmem := (h.mem (t.slotOf node.entry.key.hash) index).mpr ⟨node, hnode, rfl⟩
  obtain ⟨pre, post, hchain⟩ := List.append_of_mem hmem
  rcases h.head?_cases node.entry.key.hash with hbare | ⟨head, hhead⟩
  · rw [h.bare _ hbare] at hmem
    cases hmem
  obtain ⟨-, last, hpath⟩ := h.heads _ head hhead
  rw [hchain] at hpath
  obtain ⟨mid, next, hpre, hnext, node', hnode', hprev, hpost⟩ := Path.append_iff.mp hpath
  rw [hnode] at hnode'
  cases hnode'
  subst hnext hprev
  exact ⟨head, pre, post, last, hhead, hchain, hpre, hpost⟩

/-- What comes before a node points to it. -/
lemma exists_prev (h : t.Linked chain) {index : Nat} {node : Node}
    (hnode : t.nodes[index]? = some (some node)) :
    ∃ entry, t.At node.prev entry ∧ entry.next = some index := by
  obtain ⟨head, pre, post, last, hhead, -, hpre, -⟩ := h.exists_split hnode
  exact hpre.exists_at (show t.At (.slot _) head from hhead) rfl

end Linked

/-- A search along a path finds an entry with the hash, or there is none. -/
lemma findFrom_of_path (h : Path t.nodes prev next list last none) (hfuel : list.length ≤ fuel) :
    (∃ index entry, t.findFrom hash fuel next = .ok (some (.node index)) ∧
        t.At (.node index) entry ∧ entry.key.hash = hash) ∨
      (t.findFrom hash fuel next = .ok none ∧
        ∀ index ∈ list, ∀ node, t.nodes[index]? = some (some node) →
          node.entry.key.hash ≠ hash) := by
  induction list generalizing prev next fuel with
  | nil =>
      obtain ⟨-, rfl⟩ := h
      refine .inr ⟨?_, nofun⟩
      cases fuel <;> rfl
  | cons i rest ih =>
      obtain ⟨rfl, node, hnode, -, hrest⟩ := h
      obtain ⟨fuel, rfl⟩ : ∃ n, fuel = n + 1 := Nat.exists_eq_succ_of_ne_zero (by simp at hfuel; omega)
      have hstep : t.findFrom hash (fuel + 1) (some i) =
          if node.entry.key.hash = hash then .ok (some (.node i))
          else t.findFrom hash fuel node.entry.next := by
        rw [findFrom, node_eq hnode]
        rfl
      rw [hstep]
      by_cases hhash : node.entry.key.hash = hash
      · exact .inl ⟨i, node.entry, if_pos hhash, ⟨node.prev, hnode⟩, hhash⟩
      · rw [if_neg hhash]
        refine (ih hrest (by simp at hfuel; omega)).imp_right ?_
        rintro ⟨hfind, hother⟩
        refine ⟨hfind, fun index hindex other hother' => ?_⟩
        rcases List.mem_cons.mp hindex with rfl | hindex
        · rw [hnode] at hother'
          cases hother'
          exact hhash
        · exact hother index hindex other hother'

lemma lastFrom_of_path (h : Path t.nodes prev next list last none) (hfuel : list.length ≤ fuel) :
    t.lastFrom fuel prev next = .ok last := by
  induction list generalizing prev next fuel with
  | nil =>
      obtain ⟨rfl, rfl⟩ := h
      cases fuel <;> rfl
  | cons i rest ih =>
      obtain ⟨rfl, node, hnode, -, hrest⟩ := h
      obtain ⟨fuel, rfl⟩ : ∃ n, fuel = n + 1 := Nat.exists_eq_succ_of_ne_zero (by simp at hfuel; omega)
      rw [lastFrom, node_eq hnode]
      exact ih hrest (by simp at hfuel; omega)

lemma find_of_bare (h : t.slots[t.slotOf hash]? = some none) : t.find hash = .ok none := by
  change (t.head? (t.slotOf hash) >>= _) = _
  rw [head?_eq h]
  rfl

lemma find_of_head {head : Entry} (h : t.slots[t.slotOf hash]? = some (some head)) :
    t.find hash = if head.key.hash = hash then .ok (some (.slot (t.slotOf hash)))
      else t.findFrom hash t.nodes.size head.next := by
  change (t.head? (t.slotOf hash) >>= _) = _
  rw [head?_eq h]
  rfl

/-- The search for a hash finds its entry, or there is none. -/
lemma Linked.find {chain : Nat → List Nat} (h : t.Linked chain) (hash : UInt64) :
    (∃ link entry, t.find hash = .ok (some link) ∧ t.At link entry ∧ entry.key.hash = hash) ∨
      (t.find hash = .ok none ∧ ∀ pair ∈ t.entries, pair.1.hash ≠ hash) := by
  -- whatever has the hash is the head of its chain or on it
  have hplace : ∀ link entry, t.At link entry → entry.key.hash = hash →
      t.slots[t.slotOf hash]? = some (some entry) ∨
        ∃ index ∈ chain (t.slotOf hash), ∃ node, t.nodes[index]? = some (some node) ∧
          node.entry.key.hash = hash := by
    rintro (slot | index) entry hat rfl
    · have hslot := (h.heads slot entry hat).1
      exact .inl (by rw [hslot]; exact hat)
    · obtain ⟨prev, hnode⟩ := hat
      exact .inr ⟨index, (h.mem _ _).mpr ⟨_, hnode, rfl⟩, _, hnode, rfl⟩
  rcases h.head?_cases hash with hbare | ⟨head, hhead⟩
  · refine .inr ⟨find_of_bare hbare, fun pair hpair hhash => ?_⟩
    obtain ⟨link, entry, hat, rfl⟩ := exists_at_of_mem hpair
    rcases hplace link entry hat hhash with hslot | ⟨index, hindex, -⟩
    · rw [hbare] at hslot
      cases hslot
    · rw [h.bare _ hbare] at hindex
      cases hindex
  · rw [find_of_head hhead]
    obtain ⟨last, hpath⟩ := (h.heads _ head hhead).2
    by_cases hhash : head.key.hash = hash
    · exact .inl ⟨.slot (t.slotOf hash), head, if_pos hhash, hhead, hhash⟩
    · rcases findFrom_of_path hpath (h.length_le _) with
        ⟨index, entry, hfind, hat, hentry⟩ | ⟨hfind, hother⟩
      · exact .inl ⟨.node index, entry, (if_neg hhash).trans hfind, hat, hentry⟩
      · refine .inr ⟨(if_neg hhash).trans hfind, fun pair hpair hpairhash => ?_⟩
        obtain ⟨link, entry, hat, rfl⟩ := exists_at_of_mem hpair
        rcases hplace link entry hat hpairhash with hslot | ⟨index, hindex, node, hnode, hnodehash⟩
        · rw [hhead] at hslot
          cases hslot
          exact hhash hpairhash
        · exact hother index hindex node hnode hnodehash

end ScriptMachine.Table
