import ScriptMachine.Proofs.Simulation.Outcome

/-!
Tables that stand for each other.

Such tables have the same slots, chains and arena, with related keys and values
in them. Keys are found by their hashes alone, so a search takes the same way in
both, and every operation keeps them related.

* `Table.Rel.get?`: what is found is related;
* `Table.Tied.insert`, `Table.Tied.remove`: tables stay related;
* `Table.Rel.entries`: the entries are listed in one order.
-/

namespace ScriptMachine

variable {w w' : World} {ρ : ObjectId → ObjectId}

/-- Keys with one hash and related scalars. -/
structure Key.Rel (w : World) (key key' : Key) : Prop where
  hash : key.hash = key'.hash
  scalar : key.scalar.Rel w key'.scalar

lemma Key.Rel.le {key key' : Key} (h : key.Rel w key') (hle : w ≤ w') : key.Rel w' key' :=
  ⟨h.hash, h.scalar.le hle⟩

namespace Table

/-- Entries with related keys and values and one place after them. -/
structure Entry.Rel (w : World) (e e' : Entry) : Prop where
  key : e.key.Rel w e'.key
  value : e.value.Rel w e'.value
  next : e.next = e'.next

/-- Nodes with related entries and one place before them. -/
structure Node.Rel (w : World) (n n' : Node) : Prop where
  entry : n.entry.Rel w n'.entry
  prev : n.prev = n'.prev

/-- Tables that stand for each other. -/
structure Rel (w : World) (t t' : Table) : Prop where
  slots : ArrayRel (Option.Rel (Entry.Rel w)) t.slots t'.slots
  nodes : ArrayRel (Option.Rel (Node.Rel w)) t.nodes t'.nodes
  vacant : t.vacant = t'.vacant
  count : t.count = t'.count

/-- The handles of a table. -/
def handles (t : Table) : List Handle :=
  t.entries.flatMap fun (key, value) => key.scalar.handles ++ value.handles

/-- An entry with all ids renamed. -/
def Entry.rename (ρ : ObjectId → ObjectId) (e : Entry) : Entry :=
  ⟨⟨e.key.hash, e.key.scalar.rename ρ⟩, e.value.rename ρ, e.next⟩

/-- A table with all ids renamed. -/
def rename (ρ : ObjectId → ObjectId) (t : Table) : Table :=
  ⟨t.slots.map (Option.map (Entry.rename ρ)), t.nodes.map (Option.map (Node.mapEntry (.rename ρ))),
    t.vacant, t.count⟩

variable {t t' : Table} {e e' : Entry} {n n' : Node} {i : Nat} {hash : UInt64}

/-! ### Looking entries up -/

namespace Rel

lemma capacity_eq (h : Rel w t t') : t.capacity = t'.capacity := h.slots.size_eq

lemma slotOf_eq (h : Rel w t t') (hash : UInt64) : t.slotOf hash = t'.slotOf hash := by
  unfold slotOf
  rw [h.capacity_eq]

lemma node (h : Rel w t t') (i : Nat) : Result.Rel (Node.Rel w) (t.node i) (t'.node i) := by
  unfold Table.node
  have hrel := h.nodes i
  generalize t.nodes[i]? = a, t'.nodes[i]? = b at hrel
  cases hrel with
  | none => exact .abort (by decide)
  | some hnode =>
      cases hnode with
      | none => exact .abort (by decide)
      | some hnode => exact .ok hnode

lemma head? (h : Rel w t t') (i : Nat) :
    Result.Rel (Option.Rel (Entry.Rel w)) (t.head? i) (t'.head? i) := by
  unfold Table.head?
  have hrel := h.slots i
  generalize t.slots[i]? = a, t'.slots[i]? = b at hrel
  cases hrel with
  | none => exact .abort (by decide)
  | some hhead => exact .ok hhead

lemma entry (h : Rel w t t') (link : Link) :
    Result.Rel (Entry.Rel w) (t.entry link) (t'.entry link) := by
  cases link with
  | slot i =>
      refine (h.head? i).bind fun head head' hhead => ?_
      cases hhead with
      | none => exact .abort (by decide)
      | some hentry => exact .ok hentry
  | node i => exact (h.node i).bind fun _ _ hnode => .ok hnode.entry

lemma findFrom (h : Rel w t t') (hash : UInt64) (fuel : Nat) (next : Option Nat) :
    Result.Rel Eq (t.findFrom hash fuel next) (t'.findFrom hash fuel next) := by
  induction fuel generalizing next with
  | zero =>
      cases next with
      | none => exact .ok rfl
      | some i => exact .abort (by decide)
  | succ fuel ih =>
      cases next with
      | none => exact .ok rfl
      | some i =>
          refine (h.node i).bind fun n n' hn => ?_
          rw [hn.entry.key.hash, hn.entry.next]
          exact .ite (fun _ => .ok rfl) fun _ => ih _

lemma find (h : Rel w t t') (hash : UInt64) : Result.Rel Eq (t.find hash) (t'.find hash) := by
  unfold Table.find
  rw [h.slotOf_eq, h.nodes.size_eq]
  refine (h.head? _).bind fun head head' hhead => ?_
  cases hhead with
  | none => exact .ok rfl
  | some hentry =>
      dsimp only
      rw [hentry.key.hash, hentry.next]
      exact .ite (fun _ => .ok rfl) fun _ => h.findFrom hash _ _

lemma lastFrom (h : Rel w t t') (fuel : Nat) (tail : Link) (next : Option Nat) :
    Result.Rel Eq (t.lastFrom fuel tail next) (t'.lastFrom fuel tail next) := by
  induction fuel generalizing tail next with
  | zero =>
      cases next with
      | none => exact .ok rfl
      | some i => exact .abort (by decide)
  | succ fuel ih =>
      cases next with
      | none => exact .ok rfl
      | some i =>
          refine (h.node i).bind fun n n' hn => ?_
          rw [hn.entry.next]
          exact ih _ _

lemma get? (h : Rel w t t') (hash : UInt64) :
    Result.Rel (Option.Rel (Value.Rel w)) (t.get? hash) (t'.get? hash) := by
  refine (h.find hash).bind fun link link' heq => ?_
  subst heq
  cases link with
  | none => exact .ok .none
  | some link => exact (h.entry link).bind fun _ _ hentry => .ok (.some hentry.value)

/-! ### Changing entries -/

lemma updateEntry {f g : Entry → Entry} (h : Rel w t t') (link : Link)
    (hfg : ∀ e e', e.Rel w e' → (f e).Rel w (g e')) :
    Rel w (t.updateEntry link f) (t'.updateEntry link g) := by
  cases link with
  | slot i =>
      refine ⟨h.slots.modify i fun head head' hhead => ?_, h.nodes, h.vacant, h.count⟩
      cases hhead with
      | none => exact .none
      | some hentry => exact .some (hfg _ _ hentry)
  | node i =>
      refine ⟨h.slots, h.nodes.modify i fun node node' hnode => ?_, h.vacant, h.count⟩
      cases hnode with
      | none => exact .none
      | some hnode => exact .some ⟨hfg _ _ hnode.entry, hnode.prev⟩

lemma setPrev (h : Rel w t t') (i : Nat) (prev : Link) :
    Rel w (t.setPrev i prev) (t'.setPrev i prev) := by
  refine ⟨h.slots, h.nodes.modify i fun node node' hnode => ?_, h.vacant, h.count⟩
  cases hnode with
  | none => exact .none
  | some hnode => exact .some ⟨hnode.entry, rfl⟩

lemma relink (h : Rel w t t') (next : Option Nat) (prev : Link) :
    Result.Rel (Rel w) (t.relink next prev) (t'.relink next prev) := by
  cases next with
  | none => exact .ok h
  | some i => exact (h.node i).bind fun _ _ _ => .ok (h.setPrev i prev)

lemma setNext (h : Rel w t t') (link : Link) (next : Option Nat) :
    Result.Rel (Rel w) (t.setNext link next) (t'.setNext link next) := by
  have hset := h.updateEntry link (f := fun e => { e with next := next })
    (g := fun e => { e with next := next }) fun e e' he => ⟨he.key, he.value, rfl⟩
  cases link with
  | slot i => exact (h.head? i).bind fun _ _ _ => .ok hset
  | node i => exact (h.node i).bind fun _ _ _ => .ok hset

lemma acquire (h : Rel w t t') (hn : n.Rel w n') :
    Result.Rel (fun p p' => p.1 = p'.1 ∧ Rel w p.2 p'.2) (t.acquire n) (t'.acquire n') := by
  unfold Table.acquire
  rw [h.vacant, h.nodes.size_eq]
  cases t'.vacant with
  | nil => exact .ok ⟨rfl, h.slots, h.nodes.push (.some hn), rfl, h.count⟩
  | cons i vacant =>
      dsimp only
      split
      · exact .ok ⟨rfl, h.slots, h.nodes.setIfInBounds i (.some hn), rfl, h.count⟩
      · exact .abort (show Fault.outOfRange ≠ .staleReference by decide)

lemma release (h : Rel w t t') (i : Nat) :
    Result.Rel (fun p p' => p.1.Rel w p'.1 ∧ Rel w p.2 p'.2) (t.release i) (t'.release i) := by
  refine (h.node i).bind fun n n' hn => .ok ⟨hn, h.slots, h.nodes.setIfInBounds i .none, ?_, h.count⟩
  exact congrArg (i :: ·) h.vacant

lemma setSlot (h : Rel w t t') (i : Nat) {head head' : Option Entry}
    (hhead : Option.Rel (Entry.Rel w) head head') :
    Rel w { t with slots := t.slots.setIfInBounds i head }
      { t' with slots := t'.slots.setIfInBounds i head' } :=
  ⟨h.slots.setIfInBounds i hhead, h.nodes, h.vacant, h.count⟩

lemma place (h : Rel w t t') {key key' : Key} {value value' : Value} (hkey : key.Rel w key')
    (hvalue : value.Rel w value') :
    Result.Rel (Rel w) (t.place key value) (t'.place key' value') := by
  unfold Table.place
  rw [hkey.hash, h.slotOf_eq, h.nodes.size_eq]
  refine (h.head? _).bind fun head head' hhead => ?_
  cases hhead with
  | none => exact .ok (h.setSlot _ (.some ⟨hkey, hvalue, rfl⟩))
  | some hentry =>
      dsimp only
      rw [hentry.next]
      refine (h.lastFrom _ _ _).bind fun tail tail' heq => ?_
      subst heq
      have hnode : Node.Rel w ⟨⟨key, value, none⟩, tail⟩ ⟨⟨key', value', none⟩, tail⟩ :=
        ⟨⟨hkey, hvalue, rfl⟩, rfl⟩
      refine (h.acquire hnode).bind fun p p' hp => ?_
      obtain ⟨i, u⟩ := p
      obtain ⟨i', u'⟩ := p'
      obtain ⟨rfl, htable⟩ := hp
      exact .ok (htable.updateEntry tail fun e e' he => ⟨he.key, he.value, rfl⟩)

/-! ### Entries -/

lemma entries (h : Rel w t t') :
    List.Forall₂ (fun p p' => p.1.Rel w p'.1 ∧ p.2.Rel w p'.2) t.entries t'.entries := by
  have hheads : List.Forall₂ (Entry.Rel w) (t.slots.toList.filterMap id)
      (t'.slots.toList.filterMap id) := by
    have hrow := h.slots.toList
    generalize t.slots.toList = l, t'.slots.toList = l' at hrow
    induction hrow with
    | nil => exact .nil
    | cons hhead _ ih =>
        cases hhead with
        | none => exact ih
        | some hentry => exact .cons hentry ih
  have hchained : List.Forall₂ (Entry.Rel w)
      (t.nodes.toList.filterMap fun node => node.map Node.entry)
      (t'.nodes.toList.filterMap fun node => node.map Node.entry) := by
    have hrow := h.nodes.toList
    generalize t.nodes.toList = l, t'.nodes.toList = l' at hrow
    induction hrow with
    | nil => exact .nil
    | cons hnode _ ih =>
        cases hnode with
        | none => exact ih
        | some hnode => exact .cons hnode.entry ih
  unfold Table.entries
  refine List.forall₂_map_left_iff.mpr (List.forall₂_map_right_iff.mpr ?_)
  exact (List.rel_append hheads hchained).imp fun _ _ hentry => ⟨hentry.key, hentry.value⟩

lemma placeAll {l l' : List (Key × Value)}
    (hl : List.Forall₂ (fun p p' => p.1.Rel w p'.1 ∧ p.2.Rel w p'.2) l l') (h : Rel w t t') :
    Result.Rel (Rel w) (Table.placeAll l t) (Table.placeAll l' t') := by
  induction hl generalizing t t' with
  | nil => exact .ok h
  | cons hp _ ih => exact (h.place hp.1 hp.2).bind fun _ _ htable => ih htable

lemma blank (slots : Nat) : Rel w (Table.blank slots) (Table.blank slots) :=
  ⟨.replicate slots .none, .empty, rfl, rfl⟩

lemma withCapacity (capacity : Nat) :
    Result.Rel (Rel w) (Table.withCapacity capacity) (Table.withCapacity capacity) := by
  unfold Table.withCapacity
  exact .ite (fun _ => .ok (blank _)) fun _ => .abort (by decide)

lemma rehash (h : Rel w t t') (slots : Nat) :
    Result.Rel (Rel w) (t.rehash slots) (t'.rehash slots) := by
  refine Result.Rel.bind (withCapacity (w := w) slots) fun _ _ hblank => ?_
  refine (placeAll h.entries hblank).bind fun _ _ hgrown => .ok ?_
  exact ⟨hgrown.slots, hgrown.nodes, hgrown.vacant, h.count⟩

end Rel

/-! ### Handles -/

lemma mem_entries_slots {head : Option Entry} (hmem : head ∈ t.slots) (he : head = some e) :
    (e.key, e.value) ∈ t.entries := by
  subst he
  refine List.mem_map.mpr ⟨e, List.mem_append_left _ (List.mem_filterMap.mpr ⟨some e, ?_, rfl⟩), rfl⟩
  exact Array.mem_toList_iff.mpr hmem

lemma mem_entries_nodes {node : Option Node} (hmem : node ∈ t.nodes) (hn : node = some n) :
    (n.entry.key, n.entry.value) ∈ t.entries := by
  subst hn
  refine List.mem_map.mpr ⟨n.entry,
    List.mem_append_right _ (List.mem_filterMap.mpr ⟨some n, ?_, rfl⟩), rfl⟩
  exact Array.mem_toList_iff.mpr hmem

lemma handles_subset {key : Key} {value : Value} (hmem : (key, value) ∈ t.entries) :
    key.scalar.handles ++ value.handles ⊆ t.handles :=
  fun _ hh => List.mem_flatMap.mpr ⟨(key, value), hmem, hh⟩

lemma Entry.Rel.mono (h : e.Rel w e')
    (hk : w.Keeps w' (e.key.scalar.handles ++ e.value.handles)
      (e'.key.scalar.handles ++ e'.value.handles)) : e.Rel w' e' :=
  ⟨⟨h.key.hash, h.key.scalar.mono (hk.subset (List.subset_append_left _ _)
      (List.subset_append_left _ _))⟩,
    h.value.mono (hk.subset (List.subset_append_right _ _) (List.subset_append_right _ _)), h.next⟩

lemma Rel.mono (h : Rel w t t') (hk : w.Keeps w' t.handles t'.handles) : Rel w' t t' := by
  refine ⟨h.slots.mono fun x hx y hy hxy => ?_, h.nodes.mono fun x hx y hy hxy => ?_, h.vacant,
    h.count⟩
  · cases hxy with
    | none => exact .none
    | some he =>
        exact .some (he.mono (hk.subset (handles_subset (mem_entries_slots hx rfl))
          (handles_subset (mem_entries_slots hy rfl))))
  · cases hxy with
    | none => exact .none
    | some hn =>
        exact .some ⟨hn.entry.mono (hk.subset (handles_subset (mem_entries_nodes hx rfl))
          (handles_subset (mem_entries_nodes hy rfl))), hn.prev⟩

lemma Rel.le (h : Rel w t t') (hle : w ≤ w') : Rel w' t t' := h.mono (hle.keeps _ _)

lemma Entry.Rel.refl_of
    (h : ∀ k a, (k, a) ∈ e.key.scalar.handles ++ e.value.handles → w.rel k a a) : e.Rel w e :=
  ⟨⟨rfl, .refl_of fun k a ha => h k a (List.mem_append_left _ ha)⟩,
    .refl_of fun k a ha => h k a (List.mem_append_right _ ha), rfl⟩

lemma Rel.refl_of (h : ∀ k a, (k, a) ∈ t.handles → w.rel k a a) : Rel w t t := by
  refine ⟨.refl_of fun head hhead => ?_, .refl_of fun node hnode => ?_, rfl, rfl⟩
  · cases head with
    | none => exact .none
    | some e =>
        exact .some (.refl_of fun k a ha => h k a (handles_subset (mem_entries_slots hhead rfl) ha))
  · cases node with
    | none => exact .none
    | some n =>
        refine .some ⟨.refl_of fun k a ha => h k a ?_, rfl⟩
        exact handles_subset (mem_entries_nodes hnode rfl) ha

lemma Entry.Rel.rename (h : e.Rel w e') (hρ : w.Follows ρ) : e' = e.rename ρ := by
  obtain ⟨⟨hash, scalar⟩, value, next⟩ := e
  obtain ⟨⟨hash', scalar'⟩, value', next'⟩ := e'
  obtain ⟨⟨hhash, hscalar⟩, hvalue, hnext⟩ := h
  dsimp only at hhash hscalar hvalue hnext
  rw [Entry.rename, hscalar.rename hρ, hvalue.rename hρ, hhash, hnext]

lemma Rel.rename (h : Rel w t t') (hρ : w.Follows ρ) : t' = t.rename ρ := by
  have hslots : t'.slots = t.slots.map (Option.map (Entry.rename ρ)) := by
    refine h.slots.eq_map fun head head' hhead => ?_
    cases hhead with
    | none => rfl
    | some he => exact congrArg some (he.rename hρ)
  have hnodes : t'.nodes = t.nodes.map (Option.map (Node.mapEntry (.rename ρ))) := by
    refine h.nodes.eq_map fun node node' hnode => ?_
    cases hnode with
    | none => rfl
    | @some n n' hn =>
        obtain ⟨entry, prev⟩ := n
        obtain ⟨entry', prev'⟩ := n'
        have hentry : entry' = entry.rename ρ := hn.entry.rename hρ
        have hprev : prev = prev' := hn.prev
        rw [hentry, hprev]
        rfl
  obtain ⟨slots, nodes, vacant, count⟩ := t'
  dsimp only at hslots hnodes
  rw [Table.rename, hslots, hnodes, h.vacant, h.count]

lemma Rel.exists_handle (h : Rel w t t') {k : Kind} {a : ObjectId} (hmem : (k, a) ∈ t.handles) :
    ∃ b, w.rel k a b := by
  obtain ⟨p, hp, hh⟩ := List.mem_flatMap.mp hmem
  obtain ⟨p', -, hkey, hvalue⟩ := exists_partner h.entries hp
  rcases List.mem_append.mp hh with hh | hh
  · exact hkey.scalar.exists_handle hh
  · exact hvalue.exists_handle hh

@[simp] lemma rename_id (t : Table) : t.rename id = t := by
  have hentry : Entry.rename id = id := by
    funext e
    simp [Entry.rename]
  have hnode : Node.mapEntry id = id := rfl
  simp [Table.rename, hentry, hnode]

lemma map_handles (t : Table) : t.handles.map Prod.snd = t.children := by
  unfold handles children
  rw [List.map_flatMap]
  simp only [List.map_append, Scalar.map_handles, Value.map_handles]

/-! ### Storing and removing -/

/-- Related tables, and one journal if the two runs are one. -/
def Tied (w : World) (t : Table) (j : Journal) (t' : Table) (j' : Journal) : Prop :=
  t.Rel w t' ∧ (w.twin → j = j')

variable {j j' : Journal} {key key' : Key} {value value' : Value}

/-- Storing related values under related keys. -/
lemma Tied.insert (h : Tied w t j t' j') (hkey : key.Rel w key') (hvalue : value.Rel w value') :
    Match (Tied w) (Option.Rel (Value.Rel w)) (Table.insert key value t j)
      (Table.insert key' value' t' j') := by
  unfold Table.insert
  rw [Action.get_bind, Action.get_bind, hkey.hash]
  refine Match.lift_bind (h.1.find key'.hash) h fun link link' heq => ?_
  subst heq
  cases link with
  | some link =>
      refine Match.lift_bind (h.1.entry link) h fun entry entry' hentry => ?_
      exact Match.done ⟨h.1.updateEntry link fun e e' he => ⟨he.key, hvalue, he.next⟩, h.2⟩
        (.some hentry.value)
  | none =>
      -- a new key is placed into the table, or into the larger one it was moved to
      have hplace : ∀ {u u' : Table} {j j' : Journal}, u.Rel w u' → (w.twin → j = j') →
          Match (Tied w) (Option.Rel (Value.Rel w))
            ((do
              let u ← u.place key value
              set { u with count := u.count + 1 }
              return none : Action Table (Option Value)) t j)
            ((do
              let u' ← u'.place key' value'
              set { u' with count := u'.count + 1 }
              return none : Action Table (Option Value)) t' j') := by
        intro u u' j j' hu hj
        refine Match.lift_bind (hu.place hkey hvalue) ⟨h.1, hj⟩ fun p p' hp => ?_
        exact Match.done ⟨⟨hp.slots, hp.nodes, hp.vacant, congrArg (· + 1) hp.count⟩, hj⟩ .none
      have hcrowded : t.isCrowded = t'.isCrowded := by
        unfold isCrowded
        rw [h.1.capacity_eq, h.1.count]
      dsimp only
      rw [hcrowded, h.1.capacity_eq]
      cases t'.isCrowded with
      | false => exact hplace h.1 h.2
      | true =>
          simp only [if_true, Action.note_bind]
          have hnoted : w.twin → j.note (.tableGrew t'.capacity (t'.capacity * 2)) =
              j'.note (.tableGrew t'.capacity (t'.capacity * 2)) := fun htwin => by rw [h.2 htwin]
          refine Match.lift_bind (h.1.rehash _) ⟨h.1, hnoted⟩ fun u u' hu => hplace hu hnoted

lemma Rel.unlink (h : Rel w t t') (he : e.Rel w e') (link : Link) :
    Result.Rel (Rel w) (t.unlink e link) (t'.unlink e' link) := by
  cases link with
  | slot i =>
      unfold Table.unlink
      dsimp only
      rw [he.next]
      cases e'.next with
      | none => exact .ok (h.setSlot i .none)
      | some next =>
          refine (h.release next).bind fun p p' hp => ?_
          obtain ⟨n, u⟩ := p
          obtain ⟨n', u'⟩ := p'
          dsimp only at hp ⊢
          rw [hp.1.entry.next]
          exact (hp.2.relink _ _).bind fun _ _ htable => .ok (htable.setSlot i (.some hp.1.entry))
  | node i =>
      unfold Table.unlink
      refine (h.release i).bind fun p p' hp => ?_
      obtain ⟨n, u⟩ := p
      obtain ⟨n', u'⟩ := p'
      dsimp only at hp ⊢
      rw [hp.1.entry.next, hp.1.prev]
      exact (hp.2.setNext _ _).bind fun _ _ htable => htable.relink _ _

lemma Tied.remove (h : Tied w t j t' j') (hash : UInt64) :
    Match (Tied w) (Option.Rel (Value.Rel w)) (Table.remove hash t j)
      (Table.remove hash t' j') := by
  unfold Table.remove
  rw [Action.get_bind, Action.get_bind]
  refine Match.lift_bind (h.1.find hash) h fun link link' heq => ?_
  subst heq
  cases link with
  | none => exact Match.done h .none
  | some link =>
      refine Match.lift_bind (h.1.entry link) h fun e e' he => ?_
      refine Match.lift_bind (h.1.unlink he link) h fun u u' hu => ?_
      exact Match.done ⟨⟨hu.slots, hu.nodes, hu.vacant, congrArg (· - 1) hu.count⟩, h.2⟩
        (.some he.value)

end Table

end ScriptMachine
