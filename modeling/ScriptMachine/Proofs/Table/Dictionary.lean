import Mathlib.Data.Set.Card
import ScriptMachine.Proofs.Action
import ScriptMachine.Proofs.Table.Updates

/-!
A hash table is a dictionary.

A `Dictionary` maps hashes to the scalar and the value that are stored under
them. An insertion into it keeps the scalar that is there. `Table.Holds` ties a
table to a dictionary, and every request keeps the two tied and is answered by
what the dictionary has under the hash:

* `Holds.get?`, `Holds.insert`, `Holds.remove`: the requests one by one;
* `Holds.serve`: requests one after the other;
* `serve_withCapacity`: from an empty table on, all answers, the count and the
  list of entries are those of the dictionary, and the only fault is that there
  is no room for so many slots.
-/

namespace ScriptMachine

/-- The scalar and the value stored under each hash. -/
abbrev Dictionary := UInt64 → Option (Scalar × Value)

namespace Dictionary

/-- The value under a hash. -/
def value? (d : Dictionary) (hash : UInt64) : Option Value := (d hash).map Prod.snd

/-- Stores a value. The scalar that is there is kept. -/
def insert (d : Dictionary) (key : Key) (value : Value) : Dictionary :=
  Function.update d key.hash (some (((d key.hash).map Prod.fst).getD key.scalar, value))

/-- Deletes what is under a hash. -/
def remove (d : Dictionary) (hash : UInt64) : Dictionary := Function.update d hash none

lemma value?_insert (d : Dictionary) (key : Key) (value : Value) (hash : UInt64) :
    (d.insert key value).value? hash = if hash = key.hash then some value else d.value? hash := by
  rw [value?, insert, Function.update_apply]
  split_ifs <;> rfl

/-! ### Dictionaries and their entries -/

/-- A list of all entries of a dictionary, each of them once. -/
structure ListedBy (d : Dictionary) (entries : List (Key × Value)) : Prop where
  distinct : (entries.map (·.1.hash)).Nodup
  mem_iff : ∀ key value, (key, value) ∈ entries ↔ d key.hash = some (key.scalar, value)

namespace ListedBy

variable {d : Dictionary} {entries entries' : List (Key × Value)} {key new : Key}
  {value old stored : Value} {hash : UInt64}

lemma nil : ListedBy (fun _ => none) [] := ⟨.nil, fun _ _ => by simp⟩

lemma perm (h : d.ListedBy entries) (p : entries.Perm entries') : d.ListedBy entries' :=
  ⟨(p.map _).nodup_iff.mp h.distinct, fun key value => p.mem_iff.symm.trans (h.mem_iff key value)⟩

/-- A hash that no entry has is not in the dictionary. -/
lemma eq_none (h : d.ListedBy entries) (hout : ∀ pair ∈ entries, pair.1.hash ≠ hash) :
    d hash = none := by
  cases hd : d hash with
  | none => rfl
  | some pair => exact absurd rfl (hout (⟨hash, pair.1⟩, pair.2) ((h.mem_iff _ _).mpr hd))

lemma cons (h : d.ListedBy entries) (hout : d key.hash = none) :
    ListedBy (Function.update d key.hash (some (key.scalar, value))) ((key, value) :: entries) := by
  refine ⟨List.nodup_cons.mpr ⟨fun hmem => ?_, h.distinct⟩, fun other value' => ?_⟩
  · obtain ⟨⟨other, value'⟩, hmem, hhash⟩ := List.mem_map.mp hmem
    have hsome := (h.mem_iff other value').mp hmem
    rw [show other.hash = key.hash from hhash, hout] at hsome
    cases hsome
  · rw [List.mem_cons, h.mem_iff]
    by_cases heq : other.hash = key.hash
    · rw [heq, Function.update_self, hout]
      obtain ⟨hash, scalar⟩ := key
      obtain ⟨hash', scalar'⟩ := other
      cases heq
      simp [eq_comm]
    · rw [Function.update_of_ne heq]
      refine or_iff_right fun hpair => heq ?_
      rw [(Prod.mk.inj hpair).1]

lemma tail (h : d.ListedBy ((key, value) :: entries)) : ListedBy (d.remove key.hash) entries := by
  obtain ⟨hout, hnodup⟩ := List.nodup_cons.mp h.distinct
  refine ⟨hnodup, fun other value' => ?_⟩
  unfold remove
  by_cases heq : other.hash = key.hash
  · rw [heq, Function.update_self]
    refine iff_of_false (fun hmem => hout ?_) nofun
    exact List.mem_map.mpr ⟨_, hmem, heq⟩
  · rw [Function.update_of_ne heq, ← h.mem_iff, List.mem_cons]
    refine (or_iff_right fun hpair => heq ?_).symm
    rw [(Prod.mk.inj hpair).1]

/-- Storing a new key. -/
lemma insert_new (h : d.ListedBy entries) (hout : d key.hash = none) :
    ListedBy (d.insert key value) ((key, value) :: entries) := by
  have hinsert : d.insert key value = Function.update d key.hash (some (key.scalar, value)) := by
    rw [insert, hout]
    rfl
  rw [hinsert]
  exact h.cons hout

/-- Storing under a hash that is there: the key stays. -/
lemma insert_old {key' : Key} (h : d.ListedBy ((key', old) :: entries))
    (heq : key'.hash = key.hash) :
    ListedBy (d.insert key value) ((key', value) :: entries) := by
  have hold : d key.hash = some (key'.scalar, old) := by
    rw [← heq]
    exact (h.mem_iff key' old).mp (by simp)
  have hinsert : d.insert key value =
      Function.update (d.remove key'.hash) key'.hash (some (key'.scalar, value)) := by
    rw [insert, hold, remove, Function.update_idem, heq]
    rfl
  rw [hinsert]
  exact h.tail.cons (Function.update_self ..)

/-- After an insertion a key was there before or is the new one. The scalar that was
there under the hash of the new one is kept. -/
lemma of_insert (h : d.ListedBy entries) (h' : ListedBy (d.insert new stored) entries')
    (hmem : (key, value) ∈ entries') : (∃ old, (key, old) ∈ entries) ∨ key = new := by
  have hentry := (h'.mem_iff key value).mp hmem
  unfold insert at hentry
  by_cases hhash : key.hash = new.hash
  · rw [hhash, Function.update_self] at hentry
    obtain ⟨hscalar, -⟩ := Prod.mk.inj (Option.some.inj hentry)
    cases hold : d new.hash with
    | none =>
        rw [hold] at hscalar
        cases key
        cases new
        exact .inr (congrArg₂ Key.mk hhash hscalar.symm)
    | some pair =>
        rw [hold] at hscalar
        refine .inl ⟨pair.2, (h.mem_iff key pair.2).mpr ?_⟩
        rw [hhash, hold]
        exact congrArg some (Prod.ext hscalar rfl)
  · rw [Function.update_of_ne hhash] at hentry
    exact .inl ⟨value, (h.mem_iff key value).mpr hentry⟩

lemma of_remove (h : d.ListedBy entries) (h' : ListedBy (d.remove hash) entries')
    (hmem : (key, value) ∈ entries') : (key, value) ∈ entries := by
  have hentry := (h'.mem_iff key value).mp hmem
  unfold remove at hentry
  by_cases hhash : key.hash = hash
  · rw [hhash, Function.update_self] at hentry
    cases hentry
  · rw [Function.update_of_ne hhash] at hentry
    exact (h.mem_iff key value).mpr hentry

/-- There are as many entries as hashes with something under them. -/
lemma length_eq (h : d.ListedBy entries) : entries.length = Set.ncard {hash | d hash ≠ none} := by
  have hset : {hash | d hash ≠ none} = ((entries.map (·.1.hash)).toFinset : Set UInt64) := by
    ext hash
    simp only [Set.mem_ofPred_eq, Finset.mem_coe, List.mem_toFinset, List.mem_map]
    constructor
    · intro hne
      obtain ⟨⟨scalar, value⟩, hd⟩ := Option.ne_none_iff_exists'.mp hne
      exact ⟨(⟨hash, scalar⟩, value), (h.mem_iff _ _).mpr hd, rfl⟩
    · rintro ⟨⟨key, value⟩, hmem, rfl⟩
      rw [(h.mem_iff key value).mp hmem]
      exact nofun
  rw [hset, Set.ncard_coe_finset, List.toFinset_card_of_nodup h.distinct, List.length_map]

/-- An insertion adds an entry if there was none with that hash. -/
lemma length_insert (h : d.ListedBy entries) (h' : ListedBy (d.insert key value) entries') :
    entries'.length =
      if entries.any (·.1.hash = key.hash) then entries.length else entries.length + 1 := by
  cases hd : d key.hash with
  | none =>
      have hout : entries.any (·.1.hash = key.hash) = false := by
        refine List.any_eq_false.mpr fun pair hmem hhash => ?_
        have hsome := (h.mem_iff pair.1 pair.2).mp hmem
        rw [of_decide_eq_true hhash, hd] at hsome
        cases hsome
      rw [if_neg (by simp [hout]), h'.length_eq, ← (h.insert_new hd).length_eq, List.length_cons]
  | some pair =>
      have hmem : ((⟨key.hash, pair.1⟩, pair.2) : Key × Value) ∈ entries := (h.mem_iff _ _).mpr hd
      obtain ⟨pre, post, rfl⟩ := List.append_of_mem hmem
      have hlisted : ListedBy (d.insert key value) ((⟨key.hash, pair.1⟩, value) :: (pre ++ post)) :=
        (h.perm List.perm_middle).insert_old rfl
      rw [if_pos (List.any_eq_true.mpr ⟨_, hmem, decide_eq_true rfl⟩), h'.length_eq,
        ← hlisted.length_eq, List.length_cons, List.perm_middle.length_eq, List.length_cons]

end ListedBy

end Dictionary

namespace Table

/-! ### Requests -/

/-- What a table can be asked for. -/
inductive Request where
  | insert (key : Key) (value : Value)
  | get (hash : UInt64)
  | remove (hash : UInt64)

namespace Request

/-- The hash that a request is about. -/
def hash : Request → UInt64
  | insert key _ => key.hash
  | get hash | remove hash => hash

/-- What a table does. -/
def perform : Request → Action Table (Option Value)
  | insert key value => Table.insert key value
  | get hash => do (← MonadState.get).get? hash
  | remove hash => Table.remove hash

/-- What becomes of a dictionary. -/
def apply (d : Dictionary) : Request → Dictionary
  | insert key value => d.insert key value
  | get _ => d
  | remove hash => d.remove hash

end Request

/-- Requests one after the other, with their answers. -/
def serve : List Request → Action Table (List (Option Value))
  | [] => pure []
  | request :: requests => do
      let answer ← request.perform
      return answer :: (← serve requests)

end Table

namespace Dictionary

/-- What becomes of a dictionary in the end. -/
def after (d : Dictionary) (requests : List Table.Request) : Dictionary :=
  requests.foldl Table.Request.apply d

/-- The answers to requests: what is under the hash when its turn comes. -/
def answers (d : Dictionary) : List Table.Request → List (Option Value)
  | [] => []
  | request :: requests => d.value? request.hash :: answers (request.apply d) requests

end Dictionary

namespace Table

variable {t : Table} {d : Dictionary}

/-- A table whose chains are whole and whose entries are those of a
dictionary. -/
structure Holds (t : Table) (d : Dictionary) : Prop where
  linked : ∃ chain, t.Linked chain
  count : t.count = t.entries.length
  listed : d.ListedBy t.entries

namespace Holds

/-- The search for a hash finds what the dictionary has there. -/
lemma find (h : t.Holds d) (hash : UInt64) :
    (∃ link entry, t.find hash = .ok (some link) ∧ t.At link entry ∧ entry.key.hash = hash ∧
        d hash = some (entry.key.scalar, entry.value)) ∨
      (t.find hash = .ok none ∧ d hash = none) := by
  obtain ⟨chain, hlinked⟩ := h.linked
  rcases hlinked.find hash with ⟨link, entry, hfind, hat, rfl⟩ | ⟨hfind, hout⟩
  · exact .inl ⟨link, entry, hfind, hat, rfl, (h.listed.mem_iff _ _).mp hat.mem⟩
  · exact .inr ⟨hfind, h.listed.eq_none hout⟩

lemma get? (h : t.Holds d) (hash : UInt64) : t.get? hash = .ok (d.value? hash) := by
  rw [Table.get?, Dictionary.value?]
  rcases h.find hash with ⟨link, entry, hfind, hat, -, hd⟩ | ⟨hfind, hd⟩
  · rw [hfind, hd]
    change (t.entry link >>= _) = _
    rw [hat.entry_eq]
    rfl
  · rw [hfind, hd]
    rfl

/-- Placing an entry whose hash is not there. -/
lemma place (h : t.Holds d) {key : Key} (value : Value) (hout : d key.hash = none) :
    ∃ t', t.place key value = .ok t' ∧
      ({ t' with count := t'.count + 1 } : Table).Holds (d.insert key value) ∧
      t'.count = t.count := by
  obtain ⟨chain, hlinked⟩ := h.linked
  obtain ⟨t', chain', hplace, hlinked', -, hcount, hperm⟩ := hlinked.place key value
  refine ⟨t', hplace, ⟨⟨chain', hlinked'.withCount _⟩, ?_, ?_⟩, hcount⟩
  · change t'.count + 1 = t'.entries.length
    rw [hperm.length_eq, hcount, h.count, List.length_cons]
  · exact (h.listed.insert_new hout).perm hperm.symm

/-- A table that grows holds the same, if there is room for it. -/
lemma grow (h : t.Holds d) (hcrowded : t.isCrowded = true) :
    (∃ t', t.rehash (t.capacity * 2) = .ok t' ∧ t'.Holds d ∧ t'.count = t.count) ∨
      (t.rehash (t.capacity * 2) = Result.abort .bufferOverflow ∧ 2 ^ 54 ≤ t.count + 1) := by
  obtain ⟨chain, hlinked⟩ := h.linked
  have hpos := hlinked.pos
  rcases t.rehash_cases (show 0 < t.capacity * 2 by omega) with
    ⟨t', chain', hrehash, hlinked', hcount, hperm⟩ | ⟨hrehash, hroom⟩
  · refine .inl ⟨t', hrehash, ⟨⟨chain', hlinked'⟩, ?_, h.listed.perm hperm.symm⟩, hcount⟩
    rw [hcount, h.count, hperm.length_eq]
  · refine .inr ⟨hrehash, ?_⟩
    simp only [isCrowded, decide_eq_true_eq] at hcrowded
    unfold bufferLimit leastSlots slotWidth at hroom
    omega

/-- Storing under a key, which may make the table larger first. -/
lemma insert (h : t.Holds d) (key : Key) (value : Value) (journal : Journal) :
    Outcome.Ends
      (fun old t' => old = d.value? key.hash ∧ t'.Holds (d.insert key value) ∧
        t'.count ≤ t.count + 1)
      (fun _ _ => False) (fun fault => fault = .bufferOverflow ∧ 2 ^ 54 ≤ t.count + 1)
      (Table.insert key value t journal) := by
  unfold Table.insert
  rw [Action.get_bind]
  rcases h.find key.hash with ⟨link, entry, hfind, hat, hhash, hd⟩ | ⟨hfind, hd⟩
  -- the key is there: its entry gets the value
  · obtain ⟨chain, hlinked⟩ := h.linked
    obtain ⟨hlinked', pre, post, hentries, hentries'⟩ := hlinked.setValue hat value
    rw [hfind, Action.lift_ok, pure_bind]
    dsimp only
    rw [hat.entry_eq, Action.lift_ok, pure_bind]
    refine ⟨by simp [Dictionary.value?, hd], ⟨⟨chain, hlinked'⟩, ?_, ?_⟩, ?_⟩
    · rw [count_updateEntry, h.count, hentries, hentries']
      simp
    · have hlisted := h.listed.perm (hentries ▸ List.perm_middle)
      rw [hentries']
      exact (hlisted.insert_old hhash).perm List.perm_middle.symm
    · rw [count_updateEntry]
      exact Nat.le_succ _
  · rw [hfind, Action.lift_ok, pure_bind]
    dsimp only
    -- it is new: it is placed into this table, or into one of twice the capacity
    have hplaced : ∀ {t' : Table} (journal : Journal), t'.Holds d → t'.count = t.count →
        Outcome.Ends
          (fun old t' => old = d.value? key.hash ∧ t'.Holds (d.insert key value) ∧
            t'.count ≤ t.count + 1)
          (fun _ _ => False) (fun fault => fault = .bufferOverflow ∧ 2 ^ 54 ≤ t.count + 1)
          ((do
            let t ← (t'.place key value : Result Table)
            set { t with count := t.count + 1 }
            return none : Action Table (Option Value)) t journal) := by
      intro t' journal hholds hcount
      obtain ⟨t'', hplace, hholds', hcount'⟩ := hholds.place value hd
      rw [hplace, Action.lift_ok, pure_bind]
      refine ⟨by simp [Dictionary.value?, hd], hholds', ?_⟩
      change t''.count + 1 ≤ t.count + 1
      rw [hcount', hcount]
    by_cases hcrowded : t.isCrowded = true
    · rw [if_pos hcrowded]
      rcases h.grow hcrowded with ⟨t', hgrow, hholds, hcount⟩ | ⟨hgrow, hmany⟩
      · rw [hgrow]
        exact hplaced _ hholds hcount
      · rw [hgrow]
        exact ⟨rfl, hmany⟩
    · rw [if_neg hcrowded, pure_bind]
      exact hplaced journal h rfl

/-- Removing a key, if it is there. -/
lemma remove (h : t.Holds d) (hash : UInt64) (journal : Journal) :
    ∃ t', Table.remove hash t journal = .done (d.value? hash) t' journal ∧
      t'.Holds (d.remove hash) ∧ t'.count ≤ t.count := by
  unfold Table.remove
  rw [Action.get_bind]
  rcases h.find hash with ⟨link, entry, hfind, hat, rfl, hd⟩ | ⟨hfind, hd⟩
  · obtain ⟨chain, hlinked⟩ := h.linked
    obtain ⟨t', chain', hunlink, hlinked', hcount, hperm⟩ := hlinked.unlink hat
    rw [hfind, Action.lift_ok, pure_bind]
    dsimp only
    rw [hat.entry_eq, Action.lift_ok, pure_bind, hunlink, Action.lift_ok, pure_bind]
    refine ⟨{ t' with count := t'.count - 1 }, ?_, ⟨⟨chain', hlinked'.withCount _⟩, ?_, ?_⟩, ?_⟩
    · rw [Dictionary.value?, hd]
      rfl
    · change t'.count - 1 = t'.entries.length
      rw [hcount, h.count, hperm.length_eq]
      rfl
    · exact (h.listed.perm hperm).tail
    · change t'.count - 1 ≤ t.count
      omega
  · refine ⟨t, ?_, ⟨h.linked, h.count, ?_⟩, Nat.le_refl _⟩
    · rw [hfind, Action.lift_ok, pure_bind, Dictionary.value?, hd]
      rfl
    · rw [Dictionary.remove, ← hd, Function.update_eq_self]
      exact h.listed

/-- Any request is answered by what the dictionary has under its hash. -/
lemma perform (h : t.Holds d) (request : Request) (journal : Journal) :
    Outcome.Ends
      (fun answer t' => answer = d.value? request.hash ∧ t'.Holds (request.apply d) ∧
        t'.count ≤ t.count + 1)
      (fun _ _ => False) (fun fault => fault = .bufferOverflow ∧ 2 ^ 54 ≤ t.count + 1)
      (request.perform t journal) := by
  cases request with
  | insert key value => exact h.insert key value journal
  | get hash =>
      change Outcome.Ends _ _ _ ((liftM (t.get? hash) : Action Table (Option Value)) t journal)
      rw [h.get? hash]
      exact ⟨rfl, h, Nat.le_succ _⟩
  | remove hash =>
      obtain ⟨t', hremove, hholds, hcount⟩ := h.remove hash journal
      change Outcome.Ends _ _ _ (Table.remove hash t journal)
      rw [hremove]
      exact ⟨rfl, hholds, by omega⟩

/-- Requests one after the other. -/
lemma serve (h : t.Holds d) (requests : List Request) (journal : Journal) :
    Outcome.Ends (fun answers t' => answers = d.answers requests ∧ t'.Holds (d.after requests))
      (fun _ _ => False)
      (fun fault => fault = .bufferOverflow ∧ 2 ^ 54 ≤ t.count + requests.length)
      (Table.serve requests t journal) := by
  induction requests generalizing t d journal with
  | nil => exact ⟨rfl, h⟩
  | cons request requests ih =>
      have hfirst := (h.perform request journal).imp (fun _ _ => id) (fun _ _ => id)
        (fun fault hfault => show fault = .bufferOverflow ∧
          2 ^ 54 ≤ t.count + (request :: requests).length from
            ⟨hfault.1, Nat.le_trans hfault.2 (by simp)⟩)
      refine hfirst.bind fun answer t' journal' hanswer => ?_
      obtain ⟨rfl, hholds, hcount⟩ := hanswer
      have hrest := (ih hholds journal').imp (fun _ _ => id) (fun _ _ => id)
        (fun fault hfault => show fault = .bufferOverflow ∧
          2 ^ 54 ≤ t.count + (request :: requests).length from
            ⟨hfault.1, Nat.le_trans hfault.2 (by rw [List.length_cons]; omega)⟩)
      refine hrest.bind fun answers t'' journal'' hanswers => ?_
      obtain ⟨rfl, hholds'⟩ := hanswers
      exact ⟨rfl, hholds'⟩

end Holds

/-- A new table holds nothing. -/
lemma holds_of_withCapacity {capacity : Nat} (h : withCapacity capacity = .ok t) :
    t.Holds fun _ => none := by
  unfold withCapacity at h
  dsimp only at h
  split at h
  · cases h
    have hpos : 0 < powerOfTwoFrom (max capacity leastSlots) :=
      Nat.lt_of_lt_of_le (Nat.lt_of_lt_of_le (by decide) (Nat.le_max_right ..))
        (le_powerOfTwoFrom _)
    refine ⟨⟨_, linked_blank _ hpos⟩, ?_, ?_⟩
    · rw [entries_blank]
      rfl
    · rw [entries_blank]
      exact .nil
  · cases h

/-- From a new table on, whatever its capacity, a hash table is a dictionary.
Every request is answered by the value that was last stored under its hash and
not removed since. In the end so is every search; the count is the number of
hashes with something under them; the entries are those of the dictionary, each
of them once, under the scalar that was stored first. No link leads nowhere:
the one possible fault is that no buffer can have so many slots, and this takes
more requests than can be made. -/
theorem serve_withCapacity {capacity : Nat} (h : withCapacity capacity = .ok t)
    (requests : List Request) (journal : Journal) :
    Outcome.Ends
      (fun answers t' =>
        answers = Dictionary.answers (fun _ => none) requests ∧
          (∀ hash, t'.get? hash = .ok ((Dictionary.after (fun _ => none) requests).value? hash)) ∧
          t'.count = Set.ncard {hash | Dictionary.after (fun _ => none) requests hash ≠ none} ∧
          (t'.entries.map (·.1.hash)).Nodup ∧
          ∀ key value, (key, value) ∈ t'.entries ↔
            Dictionary.after (fun _ => none) requests key.hash = some (key.scalar, value))
      (fun _ _ => False) (fun fault => fault = .bufferOverflow ∧ 2 ^ 54 ≤ requests.length)
      (serve requests t journal) := by
  have hholds := holds_of_withCapacity h
  have hzero : t.count = 0 := by
    rw [hholds.count]
    refine List.length_eq_zero_iff.mpr (List.eq_nil_iff_forall_not_mem.mpr ?_)
    rintro ⟨key, value⟩ hmem
    cases (hholds.listed.mem_iff key value).mp hmem
  refine (hholds.serve requests journal).imp ?_ (fun _ _ => id) ?_
  · rintro answers t' ⟨hanswers, hholds'⟩
    refine ⟨hanswers, hholds'.get?, ?_, hholds'.listed.distinct, hholds'.listed.mem_iff⟩
    rw [hholds'.count, hholds'.listed.length_eq]
  · rintro fault ⟨hfault, hmany⟩
    rw [hzero, Nat.zero_add] at hmany
    exact ⟨hfault, hmany⟩

/-- Seven keys of one slot, the last of which makes the table grow; then the
first of them is removed, and the second is stored again under another scalar. -/
theorem serve_withCapacity_grown :
    ∃ t t' journal, withCapacity 3 = .ok t ∧
      serve ([1, 9, 17, 25, 33, 41, 49].map (fun n => .insert ⟨n, .bool true⟩ .null) ++
        [.remove 1, .insert ⟨9, .null⟩ (.scalar (.bool true)), .get 9, .get 1]) t .silent =
          .done [none, none, none, none, none, none, none, some .null, some .null,
            some (.scalar (.bool true)), none] t' journal ∧
      (t'.entries.map (·.1.hash)).Nodup ∧
      (⟨9, .bool true⟩, .scalar (.bool true)) ∈ t'.entries := by
  refine ⟨blank 8, ?_⟩
  generalize hrequests : (List.map _ _ ++ _ : List Request) = requests
  have h := serve_withCapacity (t := blank 8) (show withCapacity 3 = _ from rfl) requests .silent
  generalize serve requests (blank 8) .silent = outcome at h ⊢
  cases outcome with
  | done answers t' journal =>
      obtain ⟨rfl, -, -, hdistinct, hentries⟩ := h
      subst hrequests
      exact ⟨t', journal, rfl, rfl, hdistinct, (hentries _ _).mpr rfl⟩
  | raised error t' journal => exact h.elim
  | aborted fault =>
      subst hrequests
      exact absurd h.2 (by decide)

end Table

end ScriptMachine
