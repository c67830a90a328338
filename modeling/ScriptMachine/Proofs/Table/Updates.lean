import Mathlib.Logic.Function.Basic
import ScriptMachine.Proofs.Table.Chains

/-!
What happens to the chains when a table changes.

Each operation keeps the chains whole and changes the list of entries by one
member, up to order:

* `Linked.setValue`: an entry gets another value, in its place;
* `Linked.place`: a key and its value come in, at the end of their chain;
* `Linked.unlink`: the entry at a link leaves, and the chain closes up;
* `rehash_cases`: the entries move to a table with more slots.
-/

namespace ScriptMachine.Table

variable {t t' : Table} {chain : Nat → List Nat} {link : Link} {entry : Entry} {node : Node}
  {index slot i : Nat} {f : Entry → Entry}

/-! ### One entry changes -/

lemma slotOf_congr (h : t'.slots.size = t.slots.size) (hash : UInt64) :
    t'.slotOf hash = t.slotOf hash := by
  unfold slotOf capacity
  rw [h]

@[simp] lemma slots_updateEntry : (t.updateEntry link f).slots[slot]? =
    if link = .slot slot then (t.slots[slot]?).map (·.map f) else t.slots[slot]? := by
  cases link with
  | slot index => simp [updateEntry, Array.getElem?_modify]
  | node index => simp [updateEntry]

@[simp] lemma nodes_updateEntry : (t.updateEntry link f).nodes[i]? =
    if link = .node i then (t.nodes[i]?).map (·.map (·.mapEntry f)) else t.nodes[i]? := by
  cases link with
  | slot index => simp [updateEntry]
  | node index => simp [updateEntry, Array.getElem?_modify]

@[simp] lemma size_updateEntry : (t.updateEntry link f).slots.size = t.slots.size := by
  cases link <;> simp [updateEntry]

@[simp] lemma vacant_updateEntry : (t.updateEntry link f).vacant = t.vacant := by
  cases link <;> rfl

@[simp] lemma count_updateEntry : (t.updateEntry link f).count = t.count := by
  cases link <;> rfl

/-- The head of a chain is exchanged. -/
lemma setHead_eq {head head' : Entry} (h : t.slots[slot]? = some (some head)) :
    ({ t with slots := t.slots.setIfInBounds slot (some head') } : Table) =
      t.updateEntry (.slot slot) fun _ => head' := by
  rw [updateEntry, Table.mk.injEq]
  refine ⟨Array.ext_getElem? fun i => ?_, rfl, rfl, rfl⟩
  rw [Heap.setIfInBounds_eq_modify, Array.getElem?_modify, Array.getElem?_modify]
  by_cases hi : slot = i
  · subst hi
    rw [h]
    rfl
  · rw [if_neg hi, if_neg hi]

/-- An entry that changes is one member of the list of entries. -/
lemma At.exists_entries (h : t.At link entry) :
    ∃ pre post, t.entries = pre ++ entry.pair :: post ∧
      ∀ f, (t.updateEntry link f).entries = pre ++ (f entry).pair :: post := by
  simp only [entries_eq]
  cases link with
  | slot index =>
      obtain ⟨pre, post, hlist, hmodify⟩ := exists_pairs_modify (f := Entry.pair) h
      refine ⟨pre, post ++ pairs Node.pair t.nodes, by simp [hlist], fun f => ?_⟩
      simp [updateEntry, hmodify]
  | node index =>
      obtain ⟨prev, hnode⟩ := h
      obtain ⟨pre, post, hlist, hmodify⟩ := exists_pairs_modify (f := Node.pair) hnode
      refine ⟨pairs Entry.pair t.slots ++ pre, post, by simp [hlist, Node.pair], fun f => ?_⟩
      simp [updateEntry, hmodify, Node.pair, Node.mapEntry]

/-- Pointers do not show in the list of entries. -/
lemma entries_updateEntry (hf : ∀ entry, (f entry).pair = entry.pair) :
    (t.updateEntry link f).entries = t.entries := by
  rw [entries_eq, entries_eq]
  cases link with
  | slot index => rw [updateEntry, pairs_modify_of_eq hf]
  | node index =>
      rw [updateEntry, pairs_modify_of_eq]
      exact fun node => hf node.entry

lemma entries_setPrev {prev : Link} : (t.setPrev index prev).entries = t.entries := by
  rw [entries_eq, entries_eq, setPrev, pairs_modify_of_eq]
  exact fun _ => rfl

/-- A change that leaves hashes and pointers alone leaves the chains whole. -/
lemma Linked.updateEntry (h : t.Linked chain)
    (hf : ∀ entry, (f entry).key.hash = entry.key.hash ∧ (f entry).next = entry.next) :
    (t.updateEntry link f).Linked chain := by
  have hsize : (t.updateEntry link f).slots.size = t.slots.size := size_updateEntry
  -- nodes correspond both ways, and with them the members of a chain
  have hnodes : ∀ (i : Nat) (node : Node), t.nodes[i]? = some (some node) →
      ∃ node' : Node, (t.updateEntry link f).nodes[i]? = some (some node') ∧ node'.prev = node.prev ∧
        node'.entry.next = node.entry.next ∧ node'.entry.key.hash = node.entry.key.hash := by
    intro i node hnode
    rw [nodes_updateEntry, hnode]
    split
    · exact ⟨_, rfl, rfl, (hf node.entry).2, (hf node.entry).1⟩
    · exact ⟨_, rfl, rfl, rfl, rfl⟩
  have hback : ∀ (i : Nat) (node' : Node), (t.updateEntry link f).nodes[i]? = some (some node') →
      ∃ node : Node, t.nodes[i]? = some (some node) := by
    intro i node' hnode'
    rw [nodes_updateEntry] at hnode'
    split at hnode'
    · simp only [Option.map_eq_some_iff] at hnode'
      obtain ⟨place, hplace, node, rfl, -⟩ := hnode'
      exact ⟨node, hplace⟩
    · exact ⟨node', hnode'⟩
  refine ⟨Nat.lt_of_lt_of_eq h.pos hsize.symm, fun slot head hhead => ?_, fun slot hbare => ?_, h.nodup,
    fun slot index => ?_, ⟨by rw [vacant_updateEntry]; exact h.vacant.1, fun index => ?_⟩⟩
  · obtain ⟨head', hhead', hhash, hnext⟩ : ∃ head', t.slots[slot]? = some (some head') ∧
        head.key.hash = head'.key.hash ∧ head.next = head'.next := by
      rw [slots_updateEntry] at hhead
      split at hhead
      · simp only [Option.map_eq_some_iff] at hhead
        obtain ⟨place, hplace, head', rfl, rfl⟩ := hhead
        exact ⟨head', hplace, hf head'⟩
      · exact ⟨head, hhead, rfl, rfl⟩
    obtain ⟨hslot, last, hpath⟩ := h.heads slot head' hhead'
    rw [slotOf_congr hsize, hhash, hnext]
    refine ⟨hslot, last, hpath.congr fun i _ node hnode => ?_⟩
    obtain ⟨node', hnode', hprev, hnext, -⟩ := hnodes i node hnode
    exact ⟨node', hnode', hprev, hnext⟩
  · refine h.bare slot ?_
    rw [slots_updateEntry] at hbare
    split at hbare
    · simp only [Option.map_eq_some_iff, Option.map_eq_none_iff] at hbare
      obtain ⟨place, hplace, rfl⟩ := hbare
      exact hplace
    · exact hbare
  · rw [h.mem]
    constructor
    · rintro ⟨node, hnode, hslot⟩
      obtain ⟨node', hnode', -, -, hhash⟩ := hnodes index node hnode
      exact ⟨node', hnode', by rw [slotOf_congr hsize, hhash, hslot]⟩
    · rintro ⟨node', hnode', hslot⟩
      obtain ⟨node, hnode⟩ := hback index node' hnode'
      obtain ⟨node'', hnode'', -, -, hhash⟩ := hnodes index node hnode
      rw [hnode'] at hnode''
      cases hnode''
      exact ⟨node, hnode, by rw [← hhash, ← slotOf_congr hsize, hslot]⟩
  · rw [vacant_updateEntry, h.vacant.2, nodes_updateEntry]
    split
    · simp [Option.map_eq_some_iff]
    · rfl

/-- An entry gets another value, in its place. -/
lemma Linked.setValue (h : t.Linked chain) (hat : t.At link entry) (value : Value) :
    (t.updateEntry link fun entry => { entry with value := value }).Linked chain ∧
      ∃ pre post, t.entries = pre ++ (entry.key, entry.value) :: post ∧
        (t.updateEntry link fun entry => { entry with value := value }).entries =
          pre ++ (entry.key, value) :: post := by
  obtain ⟨pre, post, hlist, hmodify⟩ := hat.exists_entries
  exact ⟨h.updateEntry fun _ => ⟨rfl, rfl⟩, pre, post, hlist, hmodify _⟩

/-! ### One chain changes -/

/-- Chains stay whole when one of them is exchanged for another that is whole,
nothing else being touched. -/
lemma Linked.rechain (h : t.Linked chain) {list : List Nat}
    (hsize : t'.slots.size = t.slots.size)
    (hslots : ∀ other, other ≠ slot → t'.slots[other]? = t.slots[other]?)
    (hhead : ∀ head, t'.slots[slot]? = some (some head) → t.slotOf head.key.hash = slot ∧
      ∃ last, Path t'.nodes (.slot slot) head.next list last none)
    (hbare : t'.slots[slot]? = some none → list = []) (hnodup : list.Nodup)
    (hkept : ∀ i ∈ list, ∃ node, t'.nodes[i]? = some (some node) ∧
      t.slotOf node.entry.key.hash = slot)
    (hlist : ∀ i ∈ list, i ∈ chain slot ∨ ∀ node, t.nodes[i]? ≠ some (some node))
    (hgone : ∀ i ∈ chain slot, i ∉ list → ∀ node, t'.nodes[i]? ≠ some (some node))
    (hother : ∀ i, i ∉ chain slot → i ∉ list → t'.nodes[i]? = t.nodes[i]?)
    (hvacant : t'.vacant.Nodup ∧ ∀ index, index ∈ t'.vacant ↔ t'.nodes[index]? = some none) :
    t'.Linked (Function.update chain slot list) := by
  -- nodes of other chains stay what they are
  have hstays : ∀ {other i : Nat}, other ≠ slot → i ∈ chain other → t'.nodes[i]? = t.nodes[i]? := by
    intro other i hne hi
    obtain ⟨node, hnode, hslot⟩ := (h.mem other i).mp hi
    have hout : i ∉ chain slot := by
      intro hi'
      obtain ⟨node', hnode', hslot'⟩ := (h.mem slot i).mp hi'
      rw [hnode] at hnode'
      cases hnode'
      exact hne (hslot.symm.trans hslot')
    refine hother i hout fun hi' => ?_
    rcases hlist i hi' with hi' | hfree
    · exact hout hi'
    · exact hfree node hnode
  -- each clause asks whether the slot is the one whose chain is exchanged
  refine ⟨Nat.lt_of_lt_of_eq h.pos hsize.symm, fun other head hother' => ?_, fun other hother' => ?_,
    fun other => ?_, fun other i => ?_, hvacant⟩
  · rw [slotOf_congr hsize]
    rcases eq_or_ne other slot with rfl | hne
    · rw [Function.update_self]
      exact hhead head hother'
    · rw [hslots other hne] at hother'
      obtain ⟨hslot, last, hpath⟩ := h.heads other head hother'
      rw [Function.update_of_ne hne]
      refine ⟨hslot, last, hpath.congr fun i hi node hnode => ?_⟩
      exact ⟨node, (hstays hne hi).trans hnode, rfl, rfl⟩
  · rcases eq_or_ne other slot with rfl | hne
    · rw [Function.update_self]
      exact hbare hother'
    · rw [Function.update_of_ne hne]
      exact h.bare other (hslots other hne ▸ hother')
  · rcases eq_or_ne other slot with rfl | hne
    · rw [Function.update_self]
      exact hnodup
    · rw [Function.update_of_ne hne]
      exact h.nodup other
  · simp only [slotOf_congr hsize]
    rcases eq_or_ne other slot with rfl | hne
    · rw [Function.update_self]
      refine ⟨hkept i, ?_⟩
      rintro ⟨node, hnode, hslot⟩
      -- a node that hashes here was on the old chain and left it, or was never touched
      by_contra hi
      by_cases hold : i ∈ chain other
      · exact hgone i hold hi node hnode
      · rw [hother i hold hi] at hnode
        exact hold ((h.mem other i).mpr ⟨node, hnode, hslot⟩)
    · rw [Function.update_of_ne hne]
      constructor
      · intro hi
        rw [hstays hne hi]
        exact (h.mem other i).mp hi
      · rintro ⟨node, hnode, hslot⟩
        have hi : i ∉ list := by
          intro hi
          obtain ⟨node', hnode', hslot'⟩ := hkept i hi
          rw [hnode] at hnode'
          cases hnode'
          exact hne (hslot.symm.trans hslot')
        have hold : i ∉ chain slot := fun hold => hgone i hold hi node hnode
        rw [hother i hold hi] at hnode
        exact (h.mem other i).mpr ⟨node, hnode, hslot⟩

/-- A chain that has only a head, or nothing at all. -/
lemma Linked.setHead (h : t.Linked chain) (hslot : slot < t.slots.size) (hchain : chain slot = [])
    {head : Option Entry}
    (hhead : ∀ entry ∈ head, t.slotOf entry.key.hash = slot ∧ entry.next = none) :
    ({ t with slots := t.slots.setIfInBounds slot head } : Table).Linked chain := by
  have hget : ∀ other : Nat, (t.slots.setIfInBounds slot head)[other]? =
      if slot = other then some head else t.slots[other]? := by
    intro other
    rw [Array.getElem?_setIfInBounds]
    by_cases heq : slot = other
    · subst heq
      simp [hslot]
    · rw [if_neg heq, if_neg heq]
  have hchain' : Function.update chain slot [] = chain := by
    rw [← hchain, Function.update_eq_self]
  rw [← hchain']
  refine h.rechain Array.size_setIfInBounds (fun other hne => ?_) (fun entry hentry => ?_)
    (fun _ => rfl) .nil nofun nofun ?_ (fun _ _ _ => rfl) h.vacant
  · exact (hget other).trans (if_neg (Ne.symm hne))
  · rw [show _ = _ from hget slot, if_pos rfl] at hentry
    obtain ⟨hhash, hnext⟩ := hhead entry (Option.some.inj hentry)
    exact ⟨hhash, .slot slot, rfl, hnext.symm⟩
  · rw [hchain]
    exact nofun

/-! ### An entry comes in -/

/-- A node gets a place that was vacant, or a new one. -/
lemma Linked.acquire (h : t.Linked chain) (node : Node) :
    ∃ (index : Nat) (t' : Table), t.acquire node = .ok (index, t') ∧ t'.slots = t.slots ∧
      t'.count = t.count ∧ (∀ i : Nat, t'.nodes[i]? = if i = index then some (some node) else t.nodes[i]?) ∧
      (∀ other, t.nodes[index]? ≠ some (some other)) ∧
      (t'.vacant.Nodup ∧ ∀ i, i ∈ t'.vacant ↔ t'.nodes[i]? = some none) ∧
      t'.entries.Perm (node.pair :: t.entries) := by
  simp only [entries_eq]
  cases hv : t.vacant with
  -- no place is vacant: the arena grows by one
  | nil =>
      refine ⟨t.nodes.size, { t with nodes := t.nodes.push (some node) }, ?_, rfl, rfl,
        fun i => Array.getElem?_push, ?_, ?_, ?_⟩
      · rw [Table.acquire, hv]
      · rw [Array.getElem?_eq_none (Nat.le_refl _)]
        exact nofun
      · refine ⟨h.vacant.1, fun i => ?_⟩
        rw [h.vacant.2, Array.getElem?_push]
        split
        · rename_i heq
          simp [heq]
        · rfl
      · rw [pairs_push]
        exact (List.Perm.append_left _ (List.perm_append_singleton ..)).trans List.perm_middle
  -- the first vacant place is taken, and by `Nodup` it is vacant no longer
  | cons index vacant =>
      have hindex : t.nodes[index]? = some none := (h.vacant.2 index).mp (by simp [hv])
      have hlt := (Array.getElem?_eq_some_iff.mp hindex).1
      obtain ⟨hfresh, hnodup⟩ := List.nodup_cons.mp (hv ▸ h.vacant.1)
      have hnodes : ∀ i, (t.nodes.setIfInBounds index (some node))[i]? =
          if i = index then some (some node) else t.nodes[i]? := by
        intro i
        rw [Array.getElem?_setIfInBounds]
        by_cases hi : i = index
        · subst hi
          simp [hlt]
        · rw [if_neg hi, if_neg (Ne.symm hi)]
      refine ⟨index, { t with
          nodes := t.nodes.setIfInBounds index (some node), vacant := vacant }, ?_, rfl, rfl, hnodes,
        ?_, ?_, ?_⟩
      · rw [Table.acquire, hv]
        exact if_pos hlt
      · rw [hindex]
        exact nofun
      · refine ⟨hnodup, fun i => ?_⟩
        have hv' := h.vacant.2 i
        rw [hv, List.mem_cons] at hv'
        rw [hnodes]
        by_cases hi : i = index
        · subst hi
          simp [hfresh]
        · rw [if_neg hi, ← hv']
          simp [hi]
      · exact (List.Perm.append_left _ (pairs_fill hindex)).trans List.perm_middle

lemma place_of_bare {key : Key} {value : Value} (h : t.slots[t.slotOf key.hash]? = some none) :
    t.place key value = .ok { t with
      slots := t.slots.setIfInBounds (t.slotOf key.hash) (some ⟨key, value, none⟩) } := by
  change (t.head? (t.slotOf key.hash) >>= _) = _
  rw [head?_eq h]
  rfl

lemma place_of_head {key : Key} {value : Value} {head : Entry} {tail : Link}
    (h : t.slots[t.slotOf key.hash]? = some (some head))
    (hlast : t.lastFrom t.nodes.size (.slot (t.slotOf key.hash)) head.next = .ok tail)
    (hacquire : t.acquire ⟨⟨key, value, none⟩, tail⟩ = .ok (index, t')) :
    t.place key value = .ok (t'.updateEntry tail fun entry => { entry with next := some index }) := by
  change (t.head? (t.slotOf key.hash) >>= _) = _
  rw [head?_eq h]
  change (t.lastFrom t.nodes.size (.slot (t.slotOf key.hash)) head.next >>= _) = _
  rw [hlast]
  change (t.acquire ⟨⟨key, value, none⟩, tail⟩ >>= _) = _
  rw [hacquire]
  rfl

/-- A key and its value come in, at the end of their chain. -/
lemma Linked.place (h : t.Linked chain) (key : Key) (value : Value) :
    ∃ t' chain', t.place key value = .ok t' ∧ t'.Linked chain' ∧ t'.slots.size = t.slots.size ∧
      t'.count = t.count ∧ t'.entries.Perm ((key, value) :: t.entries) := by
  rcases h.head?_cases key.hash with hbare | ⟨head, hhead⟩
  · refine ⟨_, chain, place_of_bare hbare, ?_, Array.size_setIfInBounds, rfl, ?_⟩
    · refine h.setHead (h.slotOf_lt _) (h.bare _ hbare) ?_
      rintro entry ⟨⟩
      exact ⟨rfl, rfl⟩
    · simp only [entries_eq]
      exact List.Perm.append_right _ (pairs_fill hbare)
  -- the chain has a head: the entry goes to a fresh node behind the last link
  obtain ⟨-, tail, hpath⟩ := h.heads _ head hhead
  obtain ⟨index, t', hacquire, hslots, hcount, hnodes, hfresh, hvacant, hperm⟩ :=
    h.acquire ⟨⟨key, value, none⟩, tail⟩
  have hplace := place_of_head hhead (lastFrom_of_path hpath (h.length_le _)) hacquire
  generalize hslot : t.slotOf key.hash = slot at *
  have hout : ∀ {i : Nat}, i ∈ chain slot → i ≠ index := by
    rintro i hi rfl
    obtain ⟨node, hnode, -⟩ := (h.mem slot i).mp hi
    exact hfresh node hnode
  have htail : ∀ {i : Nat}, tail = .node i → i ∈ chain slot := by
    rintro i rfl
    exact hpath.mem_of_last
  have hsize : (t'.updateEntry tail fun entry => { entry with next := some index }).slots.size =
      t.slots.size := by
    rw [size_updateEntry, hslots]
  have hnew : (t'.updateEntry tail fun entry => { entry with next := some index }).nodes[index]? =
      some (some ⟨⟨key, value, none⟩, tail⟩) := by
    rw [nodes_updateEntry, if_neg fun heq => hout (htail heq) rfl, hnodes, if_pos rfl]
  -- of the old nodes only the last changes, and of that one only where it points
  have hold : ∀ i ∈ chain slot, ∀ node, t.nodes[i]? = some (some node) →
      ∃ node', (t'.updateEntry tail fun entry => { entry with next := some index }).nodes[i]? =
        some (some node') ∧ node'.prev = node.prev ∧
        node'.entry.next = (if tail = .node i then some index else node.entry.next) ∧
        node'.entry.key = node.entry.key := by
    intro i hi node hnode
    rw [nodes_updateEntry, hnodes, if_neg (hout hi), hnode]
    split
    · exact ⟨_, rfl, rfl, rfl, rfl⟩
    · exact ⟨_, rfl, rfl, rfl, rfl⟩
  refine ⟨_, Function.update chain slot (chain slot ++ [index]), hplace, ?_, hsize,
    count_updateEntry.trans hcount, ?_⟩
  · refine h.rechain hsize (fun other hne => ?_) (fun head' hhead' => ?_) (fun hbare => ?_) ?_
      (fun i hi => ?_) (fun i hi => ?_) (fun i hi hgone => ?_) (fun i hi hi' => ?_) ?_
    · rw [slots_updateEntry, hslots, if_neg]
      exact fun heq => hne (hpath.last_eq_slot_iff.mp heq).2
    · rw [slots_updateEntry, hslots, hhead] at hhead'
      -- the head itself is the last link exactly when it had no nodes behind it
      have hhead'' : head'.key = head.key ∧
          head'.next = if chain slot = [] then some index else head.next := by
        by_cases hnil : chain slot = []
        · rw [if_pos (hpath.last_eq_slot_iff.mpr ⟨hnil, rfl⟩)] at hhead'
          cases hhead'
          exact ⟨rfl, (if_pos hnil).symm⟩
        · rw [if_neg fun heq => hnil (hpath.last_eq_slot_iff.mp heq).1] at hhead'
          cases hhead'
          exact ⟨rfl, (if_neg hnil).symm⟩
      rw [hhead''.1, hhead''.2]
      refine ⟨(h.heads slot head hhead).1, .node index, Path.append_iff.mpr ⟨tail, some index, ?_, ?_⟩⟩
      · refine hpath.setFinal (h.nodup slot) fun i hi node hnode => ?_
        obtain ⟨node', hnode', hprev, hnext, -⟩ := hold i hi node hnode
        exact ⟨node', hnode', hprev, hnext⟩
      · exact ⟨rfl, _, hnew, rfl, rfl, rfl⟩
    · rw [slots_updateEntry, hslots, hhead] at hbare
      split at hbare <;> cases hbare
    · rw [List.nodup_append]
      exact ⟨h.nodup slot, by simp, by
        rintro i hi j hj rfl
        exact hout hi (List.mem_singleton.mp hj)⟩
    · rcases List.mem_append.mp hi with hi | hi
      · obtain ⟨node, hnode, hnodeslot⟩ := (h.mem slot i).mp hi
        obtain ⟨node', hnode', -, -, hkey⟩ := hold i hi node hnode
        exact ⟨node', hnode', by rw [hkey, hnodeslot]⟩
      · obtain rfl := List.mem_singleton.mp hi
        exact ⟨_, hnew, hslot⟩
    · rcases List.mem_append.mp hi with hi | hi
      · exact .inl hi
      · obtain rfl := List.mem_singleton.mp hi
        exact .inr hfresh
    · exact absurd (List.mem_append_left _ hi) hgone
    · rw [nodes_updateEntry, if_neg fun heq => hi (htail heq), hnodes, if_neg]
      rintro rfl
      exact hi' (by simp)
    · refine ⟨by rw [vacant_updateEntry]; exact hvacant.1, fun i => ?_⟩
      rw [vacant_updateEntry, hvacant.2, nodes_updateEntry]
      split
      · simp [Option.map_eq_some_iff]
      · rfl
  · refine (List.Perm.of_eq (entries_updateEntry ?_)).trans hperm
    exact fun _ => rfl

/-! ### An entry leaves -/

/-- The table without what stands at a place of the arena. -/
def vacating (t : Table) (index : Nat) : Table :=
  { t with nodes := t.nodes.setIfInBounds index none, vacant := index :: t.vacant }

lemma release_eq (h : t.nodes[index]? = some (some node)) :
    t.release index = .ok (node, t.vacating index) := by
  rw [release, node_eq h]
  rfl

lemma nodes_vacating (h : t.nodes[index]? = some (some node)) (i : Nat) :
    (t.vacating index).nodes[i]? = if i = index then some none else t.nodes[i]? := by
  have hlt := (Array.getElem?_eq_some_iff.mp h).1
  rw [vacating, Array.getElem?_setIfInBounds]
  by_cases hi : i = index
  · subst hi
    simp [hlt]
  · rw [if_neg hi, if_neg (Ne.symm hi)]

lemma entries_vacating (h : t.nodes[index]? = some (some node)) :
    t.entries.Perm (node.pair :: (t.vacating index).entries) := by
  simp only [entries_eq]
  exact (List.Perm.append_left _ (pairs_clear h)).trans List.perm_middle

/-- A place that a node leaves is listed as vacant. -/
lemma Linked.vacate (h : t.Linked chain) (hnode : t.nodes[index]? = some (some node)) :
    (t.vacating index).vacant.Nodup ∧
      ∀ i, i ∈ (t.vacating index).vacant ↔ (t.vacating index).nodes[i]? = some none := by
  refine ⟨List.nodup_cons.mpr ⟨fun hmem => ?_, h.vacant.1⟩, fun i => ?_⟩
  · rw [(h.vacant.2 index).mp hmem] at hnode
    cases hnode
  · rw [nodes_vacating hnode]
    change i ∈ index :: t.vacant ↔ _
    rw [List.mem_cons, h.vacant.2]
    by_cases hi : i = index <;> simp [hi]

/-- The node behind a link, if there is one, is told what comes before it. -/
lemma exists_relink (t : Table) (next : Option Nat) (prev : Link)
    (h : ∀ i ∈ next, ∃ node, t.nodes[i]? = some (some node)) :
    ∃ t', t.relink next prev = .ok t' ∧ t'.slots = t.slots ∧ t'.vacant = t.vacant ∧
      t'.count = t.count ∧ t'.entries = t.entries ∧
      ∀ i : Nat, t'.nodes[i]? = if next = some i then
        (t.nodes[i]?).map (·.map fun node => { node with prev := prev }) else t.nodes[i]? := by
  cases next with
  | none => exact ⟨t, rfl, rfl, rfl, rfl, rfl, fun i => by simp⟩
  | some j =>
      obtain ⟨node, hnode⟩ := h j rfl
      refine ⟨t.setPrev j prev, ?_, rfl, rfl, rfl, entries_setPrev, fun i => ?_⟩
      · rw [relink, node_eq hnode]
        rfl
      · rw [setPrev, Array.getElem?_modify]
        simp

lemma unlink_slot_of_none (h : entry.next = none) : t.unlink entry (.slot index) =
    .ok { t with slots := t.slots.setIfInBounds index none } := by
  rw [unlink, h]
  rfl

lemma unlink_slot_of_some (h : entry.next = some i) (hnode : t.nodes[i]? = some (some node))
    (hrelink : (t.vacating i).relink node.entry.next (.slot index) = .ok t') :
    t.unlink entry (.slot index) =
      .ok { t' with slots := t'.slots.setIfInBounds index (some node.entry) } := by
  rw [unlink, h]
  change (t.release i >>= _) = _
  rw [release_eq hnode]
  change (Table.relink _ _ _ >>= _) = _
  rw [hrelink]
  rfl

/-- What comes next can be set where there is an entry. -/
lemma At.setNext_eq {link : Link} (h : t.At link entry) (next : Option Nat) :
    t.setNext link next = .ok (t.updateEntry link fun entry => { entry with next := next }) := by
  cases link with
  | slot index =>
      rw [setNext, head?_eq h]
      rfl
  | node index =>
      obtain ⟨prev, hnode⟩ := h
      rw [setNext, node_eq hnode]
      rfl

/-- Entries elsewhere stay when a node leaves. -/
lemma At.vacating {link : Link} {before : Entry} (h : t.At link before)
    (hnode : t.nodes[index]? = some (some node)) (hne : link ≠ .node index) :
    (t.vacating index).At link before := by
  cases link with
  | slot index => exact h
  | node i =>
      obtain ⟨prev, hi⟩ := h
      exact ⟨prev, by rw [nodes_vacating hnode, if_neg fun heq => hne (congrArg _ heq), hi]⟩

lemma unlink_node {before : Entry} (hnode : t.nodes[index]? = some (some node))
    (hprev : (t.vacating index).At node.prev before) :
    t.unlink entry (.node index) =
      ((t.vacating index).updateEntry node.prev fun before =>
        { before with next := node.entry.next }).relink node.entry.next node.prev := by
  rw [unlink, release_eq hnode]
  change (Table.setNext _ _ _ >>= _) = _
  rw [hprev.setNext_eq]
  rfl

/-- A node is cut out of its chain: the place before it points to the place
behind it, and back. -/
lemma Linked.cut (h : t.Linked chain) {pre post : List Nat} {mid : Link}
    (hchain : chain slot = pre ++ index :: post) (hnode : t.nodes[index]? = some (some node))
    {head : Entry} (hhead : t.slots[slot]? = some (some head))
    (hpre : Path t.nodes (.slot slot) head.next pre mid (some index))
    {last : Link} (hpost : Path t.nodes (.node index) node.entry.next post last none)
    (hf : ∀ entry, (f entry).next = node.entry.next ∧
      (t.slotOf entry.key.hash = slot → t.slotOf (f entry).key.hash = slot))
    (hsize : t'.slots.size = t.slots.size)
    (hslots : ∀ i : Nat, t'.slots[i]? =
      if mid = .slot i then (t.slots[i]?).map (·.map f) else t.slots[i]?)
    (hnodes : ∀ i : Nat, t'.nodes[i]? = if i = index then some none else
      (t.nodes[i]?).map (·.map fun other => ⟨if mid = .node i then f other.entry else other.entry,
        if node.entry.next = some i then mid else other.prev⟩))
    (hvacant : t'.vacant.Nodup ∧ ∀ i, i ∈ t'.vacant ↔ t'.nodes[i]? = some none) :
    t'.Linked (Function.update chain slot (pre ++ post)) := by
  have hnodup := h.nodup slot
  rw [hchain] at hnodup
  obtain ⟨hcut, hnodup'⟩ := List.nodup_middle.mp hnodup |> List.nodup_cons.mp
  obtain ⟨hnodupPre, hnodupPost, hdisjoint⟩ := List.nodup_append.mp hnodup'
  have hold : ∀ i, i ∈ pre ++ post → i ∈ chain slot ∧ i ≠ index := by
    intro i hi
    refine ⟨?_, fun heq => hcut (heq ▸ hi)⟩
    rw [hchain]
    rcases List.mem_append.mp hi with hi | hi
    · exact List.mem_append_left _ hi
    · exact List.mem_append_right _ (List.mem_cons_of_mem _ hi)
  -- the two places that are written: the last one before the node and the first one behind
  have hmid : ∀ {i : Nat}, mid = .node i → i ∈ pre := by
    rintro i rfl
    exact hpre.mem_of_last
  have hnext : ∀ {i : Nat}, node.entry.next = some i → i ∈ post := by
    intro i heq
    rw [heq] at hpost
    exact hpost.head_mem
  have hkept : ∀ i ∈ pre ++ post, ∀ other, t.nodes[i]? = some (some other) → t'.nodes[i]? =
      some (some ⟨if mid = .node i then f other.entry else other.entry,
        if node.entry.next = some i then mid else other.prev⟩) := by
    intro i hi other hother
    rw [hnodes, if_neg (hold i hi).2, hother]
    rfl
  -- only the chain of the node differs, so the other slots need no look
  refine h.rechain hsize (fun other hne => ?_) (fun head' hhead' => ?_) (fun hbare => ?_) hnodup'
    (fun i hi => ?_) (fun i hi => .inl (hold i hi).1) (fun i hi hgone => ?_) (fun i hi _ => ?_) hvacant
  · rw [hslots, if_neg]
    exact fun heq => hne (hpre.last_eq_slot_iff.mp heq).2
  · rw [hslots, hhead] at hhead'
    have hslot := (h.heads slot head hhead).1
    -- the head is written only if the node came right behind it
    have hhead'' : t.slotOf head'.key.hash = slot ∧
        head'.next = if pre = [] then node.entry.next else head.next := by
      by_cases hnil : pre = []
      · rw [if_pos (hpre.last_eq_slot_iff.mpr ⟨hnil, rfl⟩)] at hhead'
        cases hhead'
        exact ⟨(hf head).2 hslot, by rw [if_pos hnil, (hf head).1]⟩
      · rw [if_neg fun heq => hnil (hpre.last_eq_slot_iff.mp heq).1] at hhead'
        cases hhead'
        exact ⟨hslot, (if_neg hnil).symm⟩
    rw [hhead''.2]
    refine ⟨hhead''.1, ?_⟩
    -- the part before now ends at what the node pointed to, and the part behind starts there
    have hpre' : Path t'.nodes (.slot slot) (if pre = [] then node.entry.next else head.next) pre mid
        node.entry.next := by
      refine hpre.setFinal hnodupPre fun i hi other hother => ?_
      refine ⟨_, hkept i (List.mem_append_left _ hi) other hother, if_neg fun heq => ?_, ?_⟩
      · exact hdisjoint i hi i (hnext heq) rfl
      · split
        · exact (hf other.entry).1
        · rfl
    obtain ⟨last', hpost'⟩ : ∃ last', Path t'.nodes mid node.entry.next post last' none := by
      refine hpost.setPrev hnodupPost fun i hi other hother => ?_
      refine ⟨_, hkept i (List.mem_append_right _ hi) other hother, rfl, ?_⟩
      rw [if_neg fun heq => hdisjoint i (hmid heq) i hi rfl]
    exact ⟨last', Path.append_iff.mpr ⟨mid, node.entry.next, hpre', hpost'⟩⟩
  -- the slot is still occupied
  · rw [hslots, hhead] at hbare
    split at hbare <;> cases hbare
  · obtain ⟨other, hother, hslot⟩ := (h.mem slot i).mp (hold i hi).1
    refine ⟨_, hkept i hi other hother, ?_⟩
    dsimp only
    split
    · exact (hf other.entry).2 hslot
    · exact hslot
  · rw [hchain, (List.perm_middle).mem_iff, List.mem_cons] at hi
    obtain rfl := hi.resolve_right hgone
    rw [hnodes, if_pos rfl]
    exact nofun
  -- off the chain nothing is written: neither neighbour of the node can be there
  · have hout : i ∉ pre ++ post ∧ i ≠ index := by
      refine ⟨fun hmem => hi (hold i hmem).1, ?_⟩
      rintro rfl
      exact hi (by simp [hchain])
    rw [hnodes, if_neg hout.2]
    cases t.nodes[i]? with
    | none => rfl
    | some place =>
        cases place with
        | none => rfl
        | some other =>
            have hmid' : mid ≠ .node i := fun heq => hout.1 (List.mem_append_left _ (hmid heq))
            have hnext' : node.entry.next ≠ some i := fun heq =>
              hout.1 (List.mem_append_right _ (hnext heq))
            simp [hmid', hnext']

/-- The head of a chain leaves, and the first node moves up. -/
lemma Linked.unlinkHead (h : t.Linked chain) (hat : t.slots[slot]? = some (some entry)) :
    ∃ t' chain', t.unlink entry (.slot slot) = .ok t' ∧ t'.Linked chain' ∧ t'.count = t.count ∧
      t.entries.Perm (entry.pair :: t'.entries) := by
  have hlt : slot < t.slots.size := (Array.getElem?_eq_some_iff.mp hat).1
  obtain ⟨hslot, last, hpath⟩ := h.heads slot entry hat
  cases hchain : chain slot with
  -- a head alone leaves its slot bare
  | nil =>
      rw [hchain] at hpath
      refine ⟨_, chain, unlink_slot_of_none hpath.2.symm, h.setHead hlt hchain nofun, rfl, ?_⟩
      simp only [entries_eq]
      exact List.Perm.append_right _ (pairs_clear hat)
  -- otherwise the first node's entry moves into the slot: that node is cut with nothing before it
  | cons i rest =>
      rw [hchain] at hpath
      obtain ⟨hnext, node, hnode, -, hpath⟩ := hpath
      have hnodup := h.nodup slot
      rw [hchain] at hnodup
      have hi := (List.nodup_cons.mp hnodup).1
      have hclear := nodes_vacating hnode
      have hbehind : ∀ j ∈ node.entry.next, ∃ other, (t.vacating i).nodes[j]? = some (some other) := by
        intro j hj
        rw [Option.mem_def.mp hj] at hpath
        obtain ⟨other, hother⟩ := hpath.exists_node hpath.head_mem
        have hne : j ≠ i := fun heq => hi (heq ▸ hpath.head_mem)
        exact ⟨other, by rw [hclear, if_neg hne, hother]⟩
      obtain ⟨t', hrelink, hslots, hvacant, hcount, hentries, hnodes⟩ :=
        exists_relink (t.vacating i) node.entry.next (.slot slot) hbehind
      have hat' : t'.slots[slot]? = some (some entry) := by
        rw [hslots]
        exact hat
      have hunlink := unlink_slot_of_some hnext hnode hrelink
      rw [setHead_eq hat'] at hunlink
      refine ⟨_, _, hunlink, h.cut hchain hnode hat (show Path _ _ _ [] _ _ from ⟨rfl, hnext.symm⟩)
        hpath (fun _ => ⟨rfl, fun _ => ?_⟩) ?_ (fun k => ?_) (fun k => ?_) ⟨?_, fun k => ?_⟩, hcount,
        ?_⟩
      · obtain ⟨node', hnode', hslot'⟩ := (h.mem slot i).mp (by simp [hchain])
        rw [hnode] at hnode'
        cases hnode'
        exact hslot'
      · rw [size_updateEntry, hslots]
        rfl
      · rw [slots_updateEntry, hslots]
        rfl
      · rw [nodes_updateEntry, if_neg nofun, hnodes, hclear]
        by_cases hk : k = i
        · rw [if_pos hk, if_pos hk]
          split <;> rfl
        · rw [if_neg hk, if_neg hk]
          cases t.nodes[k]? with
          | none => split <;> rfl
          | some place => cases place <;> split <;> simp_all
      · rw [vacant_updateEntry, hvacant]
        exact (h.vacate hnode).1
      · rw [vacant_updateEntry, hvacant, (h.vacate hnode).2, nodes_updateEntry, if_neg nofun, hnodes]
        split
        · simp [Option.map_eq_some_iff]
        · rfl
      -- the entry that left the arena is the one the slot now holds
      · obtain ⟨pre, post, hlist, hmodify⟩ :=
          (show t'.At (.slot slot) entry from hat').exists_entries
        have hperm := entries_vacating hnode
        rw [← hentries, hlist] at hperm
        rw [hmodify]
        exact hperm.trans (((List.perm_middle.cons _).trans (.swap ..)).trans
          (List.perm_middle.symm.cons _))

/-- A node leaves, and its chain closes up. -/
lemma Linked.unlinkNode (h : t.Linked chain) (hnode : t.nodes[index]? = some (some node)) :
    ∃ t' chain', t.unlink entry (.node index) = .ok t' ∧ t'.Linked chain' ∧ t'.count = t.count ∧
      t.entries.Perm (node.pair :: t'.entries) := by
  obtain ⟨head, pre, post, last, hhead, hchain, hpre, hpost⟩ := h.exists_split hnode
  generalize hslot : t.slotOf node.entry.key.hash = slot at *
  have hcut : index ∉ pre ++ post := by
    have hnodup := h.nodup slot
    rw [hchain, List.nodup_middle] at hnodup
    exact (List.nodup_cons.mp hnodup).1
  have hclear := nodes_vacating hnode
  -- the place before the node is there, and is not the one that is vacated
  obtain ⟨before, hbefore, -⟩ := h.exists_prev hnode
  have hprev : (t.vacating index).At node.prev before := by
    refine hbefore.vacating hnode fun heq => hcut (List.mem_append_left _ ?_)
    rw [heq] at hpre
    exact hpre.mem_of_last
  -- first the place before is pointed past the node, then the place behind is pointed back
  let pointed := (t.vacating index).updateEntry node.prev fun before =>
    { before with next := node.entry.next }
  have hpointed : ∀ k : Nat, pointed.nodes[k]? = if k = index then some none else
      (t.nodes[k]?).map (·.map fun other => if node.prev = .node k then
        other.mapEntry fun before => { before with next := node.entry.next } else other) := by
    intro k
    rw [nodes_updateEntry, hclear]
    by_cases hk : k = index
    · rw [if_pos hk, if_pos hk]
      split <;> rfl
    · rw [if_neg hk, if_neg hk]
      cases t.nodes[k]? with
      | none => split <;> rfl
      | some place => cases place <;> split <;> simp_all
  have hbehind : ∀ j ∈ node.entry.next, ∃ other, pointed.nodes[j]? = some (some other) := by
    intro j hj
    rw [Option.mem_def.mp hj] at hpost
    obtain ⟨other, hother⟩ := hpost.exists_node hpost.head_mem
    have hne : j ≠ index := fun heq => hcut (List.mem_append_right _ (heq ▸ hpost.head_mem))
    exact ⟨_, by rw [hpointed, if_neg hne, hother]; rfl⟩
  obtain ⟨t', hrelink, hslots, hvacant, hcount, hentries, hnodes⟩ :=
    exists_relink pointed node.entry.next node.prev hbehind
  have hvacant' : t'.vacant = (t.vacating index).vacant := hvacant.trans vacant_updateEntry
  refine ⟨t', _, (unlink_node hnode hprev).trans hrelink,
    h.cut (f := fun before => { before with next := node.entry.next }) hchain hnode hhead hpre hpost
      (fun _ => ⟨rfl, id⟩) ?_ (fun k => ?_) (fun k => ?_) ⟨?_, fun k => ?_⟩,
    hcount.trans count_updateEntry, ?_⟩
  · rw [hslots]
    exact size_updateEntry
  · rw [hslots]
    exact slots_updateEntry
  · rw [hnodes, hpointed]
    by_cases hk : k = index
    · rw [if_pos hk, if_pos hk]
      split <;> rfl
    · rw [if_neg hk, if_neg hk]
      cases t.nodes[k]? with
      | none => split <;> rfl
      | some place => cases place <;> split <;> split <;> simp_all [Node.mapEntry]
  · rw [hvacant']
    exact (h.vacate hnode).1
  · rw [hvacant', (h.vacate hnode).2, hnodes, hpointed, hclear]
    by_cases hk : k = index
    · rw [if_pos hk, if_pos hk]
      split <;> simp
    · rw [if_neg hk, if_neg hk]
      split <;> simp [Option.map_eq_some_iff]
  · rw [hentries, entries_updateEntry]
    · exact entries_vacating hnode
    · exact fun _ => rfl

/-- The entry at a link leaves. -/
lemma Linked.unlink (h : t.Linked chain) (hat : t.At link entry) :
    ∃ t' chain', t.unlink entry link = .ok t' ∧ t'.Linked chain' ∧ t'.count = t.count ∧
      t.entries.Perm ((entry.key, entry.value) :: t'.entries) := by
  cases link with
  | slot index => exact h.unlinkHead hat
  | node index =>
      obtain ⟨prev, hnode⟩ := hat
      exact h.unlinkNode hnode

/-! ### All entries move -/

/-- Entries come in one by one. -/
lemma Linked.placeAll (h : t.Linked chain) (entries : List (Key × Value)) :
    ∃ t' chain', placeAll entries t = .ok t' ∧ t'.Linked chain' ∧ t'.slots.size = t.slots.size ∧
      t'.entries.Perm (entries ++ t.entries) := by
  induction entries generalizing t chain with
  | nil => exact ⟨t, chain, rfl, h, rfl, .refl _⟩
  | cons pair entries ih =>
      obtain ⟨key, value⟩ := pair
      obtain ⟨t', chain', hplace, hlinked, hsize, -, hperm⟩ := h.place key value
      obtain ⟨t'', chain'', hall, hlinked', hsize', hperm'⟩ := ih hlinked
      refine ⟨t'', chain'', ?_, hlinked', hsize'.trans hsize, ?_⟩
      · rw [Table.placeAll, hplace]
        exact hall
      · exact hperm'.trans ((List.Perm.append_left _ hperm).trans List.perm_middle)

lemma linked_blank (slots : Nat) (h : 0 < slots) : (blank slots).Linked fun _ => [] := by
  refine ⟨by simpa [blank, capacity] using h, fun slot head hhead => ?_, fun _ _ => rfl,
    fun _ => .nil, fun slot index => ?_, .nil, fun index => ?_⟩
  · simp [blank, Array.getElem?_replicate] at hhead
  · simp [blank]
  · simp [blank]

lemma entries_blank (slots : Nat) : (blank slots).entries = [] := by
  simp [blank, entries]

lemma le_powerOfTwoFrom (n : Nat) : n ≤ powerOfTwoFrom n := by
  unfold powerOfTwoFrom
  split
  · exact Nat.le_refl n
  · rw [Nat.one_shiftLeft]
    exact Nat.le_of_lt Nat.lt_log2_self

lemma powerOfTwoFrom_le {n : Nat} (h : 0 < n) : powerOfTwoFrom n ≤ 2 * n := by
  unfold powerOfTwoFrom
  split
  · omega
  · rw [Nat.one_shiftLeft, Nat.pow_succ, Nat.mul_comm]
    exact Nat.mul_le_mul_left 2 (Nat.log2_self_le (by omega))

/-- The entries move to a table with more slots, if there can be so many. -/
lemma rehash_cases (t : Table) {slots : Nat} (hpos : 0 < slots) :
    (∃ t' chain', t.rehash slots = .ok t' ∧ t'.Linked chain' ∧ t'.count = t.count ∧
        t'.entries.Perm t.entries) ∨
      (t.rehash slots = Result.abort .bufferOverflow ∧
        bufferLimit ≤ 2 * max slots leastSlots * slotWidth) := by
  have hfrom := le_powerOfTwoFrom (max slots leastSlots)
  by_cases hroom : powerOfTwoFrom (max slots leastSlots) * slotWidth < bufferLimit
  · obtain ⟨t', chain', hall, hlinked, -, hperm⟩ :=
      (linked_blank (powerOfTwoFrom (max slots leastSlots)) (by omega)).placeAll t.entries
    refine .inl ⟨{ t' with count := t.count }, chain', ?_, hlinked.withCount _, rfl, ?_⟩
    · rw [rehash, withCapacity, if_pos hroom]
      change (Table.placeAll t.entries _ >>= _) = _
      rw [hall]
      rfl
    · rw [entries_blank, List.append_nil] at hperm
      exact hperm
  · refine .inr ⟨?_, ?_⟩
    · rw [rehash, withCapacity, if_neg hroom]
      rfl
    · have hle := powerOfTwoFrom_le (n := max slots leastSlots) (by omega)
      exact Nat.le_trans (Nat.le_of_not_lt hroom) (Nat.mul_le_mul_right _ hle)

end ScriptMachine.Table
