import ScriptMachine.Proofs.Machine.Course

/-!
Stored keys can be found.

A table stores an entry under the hash that its key has at that time. A string can
be a key and be changed afterwards, by a store into it; then the entry is still in
the table, but not under the hash that the string has now, and a search for the
string does not find it: the key is stale. Nothing else makes an entry unfindable,
and an entry that is stored under the string later has another key, with the hash
that the string has then.

* `Keyed`: tables are whole, and keys are current unless they are stale;
* `Turn.keyed`: a turn keeps this, if the keys of the strings that it writes are stale;
* `Watched`: the machines of every run, and the keys whose strings were changed;
* `Watched.findable`: all other entries are found under the scalars of their keys.
-/

namespace ScriptMachine

open ScriptMachine.Action

/-! ### Tables -/

namespace Table

variable {t : Table} {key : Key} {value : Value}

lemma mem_children {ref : Ref .string} (hmem : (key, value) ∈ t.entries) (hkey : key.scalar = .str ref) :
    ref.id ∈ t.children := by
  refine List.mem_flatMap.mpr ⟨_, hmem, List.mem_append_left _ ?_⟩
  rw [hkey]
  exact List.mem_singleton_self _

end Table

/-! ### Keys -/

lemma Object.table?_of_string {object : Object} (hkind : object.kind = .string) :
    object.table? = none := by
  cases object with
  | string record => rfl
  | _ => cases hkind

namespace Heap

variable {h h₁ : Heap} {key : Key} {id : ObjectId} {t : Table} {written : ObjectId → Prop}
  {strict : Prop} {roots freed : List ObjectId}

/-- A key that is current has a live string. -/
lemma Current.exists_record {ref : Ref .string} (hkey : h.Current key) (hscalar : key.scalar = .str ref) :
    ∃ record, h.get? ref = some record ∧ record.hash = key.hash := by
  rw [Current, hscalar] at hkey
  obtain ⟨record, hread, hhash⟩ := Result.exists_of_bind_ok hkey
  exact ⟨record, get?_of_read hread, Option.some.inj (Except.ok.inj hhash)⟩

/-- A key stays current if its string keeps its hash. -/
lemma Current.of_hash (hkey : h.Current key)
    (hhash : ∀ ref record, key.scalar = .str ref → h.get? ref = some record →
      ∃ record', h₁.get? ref = some record' ∧ record'.hash = record.hash) : h₁.Current key := by
  cases hscalar : key.scalar with
  | str ref =>
      obtain ⟨record, hget, heq⟩ := hkey.exists_record hscalar
      obtain ⟨record', hget', heq'⟩ := hhash ref record hscalar hget
      rw [Current, hscalar, hash?, read_of_get? hget', ← heq, ← heq']
      rfl
  | _ =>
      rw [Current, hscalar] at hkey ⊢
      exact hkey

/-- A string that was revised has kept its hash, unless it may be written. -/
lemma Revised.hash_or_written {k : Kind} {revision : Ref k} {record : StringRecord}
    (he : Revised written revision h h₁) (hget : h.get? (⟨revision.id⟩ : Ref .string) = some record) :
    (∃ record', h₁.get? (⟨revision.id⟩ : Ref .string) = some record' ∧ record'.hash = record.hash) ∨
      written revision.id := by
  obtain ⟨entry, old, block, new, hfind, hobject, hfind₁⟩ := he.found
  obtain rfl := kind_eq (get?_eq_some_iff.mpr ⟨entry, hfind, hobject⟩) hget
  have hget₁ : h₁.get? revision = some new := get?_eq_some_iff.mpr ⟨_, hfind₁, rfl⟩
  obtain ⟨record₀, hget₀, heq⟩ := he.hash new hget₁
  cases hget.symm.trans hget₀
  exact heq.imp_left fun heq => ⟨new, hget₁, heq⟩

lemma Change.current (hc : Change written strict h h₁) (hkey : h.Current key)
    (hnot : ∀ ref, key.scalar = .str ref → ¬ written ref.id) : h₁.Current key := by
  refine hkey.of_hash ?_
  rintro ⟨id⟩ record hscalar hget
  cases hc with
  | added added =>
      have hne := added.isFresh.ne (contains_of_get? hget)
      exact ⟨record, (added.only.intact hne).get?.trans hget, rfl⟩
  | @revised k revision _ _ revised room =>
      by_cases hsame : id = revision.id
      · subst hsame
        exact (revised.hash_or_written hget).resolve_right (hnot _ hscalar)
      · exact ⟨record, (revised.only.intact hsame).get?.trans hget, rfl⟩

/-- A table is new, or was there before, or one that was there has been updated. -/
lemma Change.exists_table (hc : Change written strict h h₁) (ht : h₁.table? id = some t) :
    t.IsNew ∨ ∃ other t₀, h.table? other = some t₀ ∧ (t = t₀ ∨ t₀.Updated h.Current t) := by
  cases hc with
  | @added _ _ object pinned contents new added pin table =>
      by_cases hsame : id = new
      · subst hsame
        obtain ⟨block, -, hfind, -⟩ := added.found
        rw [table?_of_find? hfind] at ht
        exact (table t ht).imp_right fun ⟨other, hother⟩ => ⟨other, t, hother, .inl rfl⟩
      · exact .inr ⟨id, t, (added.only.intact hsame).table?.symm.trans ht, .inl rfl⟩
  | @revised k revision _ _ revised room =>
      by_cases hsame : id = revision.id
      · subst hsame
        obtain ⟨t₀, ht₀, hupdated⟩ := revised.table t ht
        exact .inr ⟨_, t₀, ht₀, hupdated⟩
      · exact .inr ⟨id, t, (revised.only.intact hsame).table?.symm.trans ht, .inl rfl⟩

/-- Nothing but strings is pinned. -/
def PinsStrings (h : Heap) : Prop :=
  ∀ id entry, h.find? id = some entry → entry.pinned = true → entry.object.kind = .string

lemma Change.pinsStrings (hc : Change written strict h h₁) (hp : h.PinsStrings) : h₁.PinsStrings := by
  intro id entry hentry hpinned
  cases hc with
  | @added _ _ object pinned contents new added pin table =>
      by_cases hsame : id = new
      · subst hsame
        obtain ⟨block, -, hfind, -⟩ := added.found
        obtain rfl := Option.some.inj (hfind.symm.trans hentry)
        exact pin hpinned
      · exact hp id entry ((added.only.others id hsame).symm.trans hentry) hpinned
  | @revised k revision _ _ revised room =>
      by_cases hsame : id = revision.id
      · subst hsame
        obtain ⟨entry₀, old, block, new, hfind, hobject, hfind₁⟩ := revised.found
        obtain rfl := Option.some.inj (hfind₁.symm.trans hentry)
        have hkind := hp _ entry₀ hfind hpinned
        rw [hobject, Object.kind_ofContent] at hkind
        exact (Object.kind_ofContent new).trans hkind
      · exact hp id entry ((revised.only.others id hsame).symm.trans hentry) hpinned

/-! ### Collections -/

lemma Collected.pinsStrings (hc : Collected roots freed h h₁) (hp : h.PinsStrings) :
    h₁.PinsStrings :=
  fun id entry hfind => hp id entry (hc.find?_of_some hfind).2

/-- A table that is left was there and was reached, since it is not pinned. -/
lemma Collected.exists_table (hc : Collected roots freed h h₁) (hp : h.PinsStrings)
    (ht : h₁.table? id = some t) : h.table? id = some t ∧ Reach h roots id := by
  obtain ⟨entry, hfind₁, htable⟩ := exists_find?_of_table? ht
  obtain ⟨hkept, hfind⟩ := hc.find?_of_some hfind₁
  refine ⟨(table?_of_find? hfind).trans htable, hkept.resolve_left ?_⟩
  rintro ⟨entry', hfind', hpinned⟩
  cases hfind.symm.trans hfind'
  cases (Object.table?_of_string (hp id entry hfind hpinned)).symm.trans htable

/-- A key whose string is reached stays current. -/
lemma Collected.current (hc : Collected roots freed h h₁) (hkey : h.Current key)
    (hreach : ∀ ref, key.scalar = .str ref → h.contains ref.id = true → Reach h roots ref.id) :
    h₁.Current key := by
  refine hkey.of_hash fun ref record hscalar hget => ⟨record, ?_, rfl⟩
  have hkept := hc.kept ref.id (.inr (hreach ref hscalar (contains_of_get? hget)))
  rwa [get?, object?, hkept]

/-- The objects that the table of an object refers to. -/
lemma mem_children_of_table {child : ObjectId} (ht : h.table? id = some t) (hmem : child ∈ t.children) :
    child ∈ h.children id := by
  obtain ⟨entry, hfind, htable⟩ := exists_find?_of_table? ht
  simp only [children, hfind]
  cases hobject : entry.object with
  | table t₀ =>
      rw [hobject] at htable
      cases htable
      exact hmem
  | inst inst =>
      rw [hobject] at htable
      cases htable
      exact List.mem_cons_of_mem _ hmem
  | cls cls =>
      rw [hobject] at htable
      cases htable
      exact List.mem_append_right _ hmem
  | _ =>
      rw [hobject] at htable
      cases htable

end Heap

namespace Machine

variable {m m₁ : Machine} {written : ObjectId → Prop} {stale : Key → Prop} {strict : Prop}
  {host : Host} {t : Table} {key : Key} {value : Value}

/-- The tables of a machine: its global variables, and among its live objects the
tables, the fields of instances and the methods of classes. -/
def HasTable (m : Machine) (t : Table) : Prop := t = m.globals ∨ ∃ id, m.heap.table? id = some t

/-- An entry is stored under the key, in one of the tables. -/
def IsKey (m : Machine) (key : Key) : Prop := ∃ t value, m.HasTable t ∧ (key, value) ∈ t.entries

/-- The string of a key has become another one. -/
def Outdates (m m₁ : Machine) (key : Key) : Prop :=
  m.IsKey key ∧ ∃ ref, key.scalar = .str ref ∧ m.Overwrites m₁ ref.id

lemma SameTables.hasTable_iff (hs : SameTables m m₁) : m₁.HasTable t ↔ m.HasTable t := by
  simp only [HasTable, hs.globals, hs.heap]

/-! ### Turns -/

/-- A table is new, or was there before, or one that was there has been updated. -/
lemma Turn.exists_table (ht : Turn written strict m m₁) (hp : m.heap.PinsStrings)
    (htable : m₁.HasTable t) :
    t.IsNew ∨ ∃ t₀, m.HasTable t₀ ∧ (t = t₀ ∨ t₀.Updated m.heap.Current t) := by
  rcases htable with rfl | ⟨id, htable⟩
  · cases ht with
    | heap _ globals => exact .inr ⟨m.globals, .inl rfl, .inl globals⟩
    | collected _ _ globals => exact .inr ⟨m.globals, .inl rfl, .inl globals⟩
    | assigned updated => exact .inr ⟨m.globals, .inl rfl, .inr updated⟩
    | other _ _ globals => exact .inr ⟨m.globals, .inl rfl, .inl globals⟩
  · cases ht with
    | heap change =>
        refine (change.exists_table htable).imp_right ?_
        rintro ⟨other, t₀, hother, hfrom⟩
        exact ⟨t₀, .inr ⟨other, hother⟩, hfrom⟩
    | collected collected =>
        exact .inr ⟨t, .inr ⟨id, (collected.exists_table hp htable).1⟩, .inl rfl⟩
    | assigned _ heap => exact .inr ⟨t, .inr ⟨id, heap ▸ htable⟩, .inl rfl⟩
    | other grants heap =>
        rw [heap] at htable
        exact .inr ⟨t, .inr ⟨id, htable⟩, .inl rfl⟩

/-- A key of a table stays current, if its string is not written. A collection keeps
the string, since it keeps the table. -/
lemma Turn.current (ht : Turn written strict m m₁) (hp : m.heap.PinsStrings)
    (htable : m₁.HasTable t) (hmem : (key, value) ∈ t.entries) (hkey : m.heap.Current key)
    (hnot : ∀ ref, key.scalar = .str ref → ¬ written ref.id) : m₁.heap.Current key := by
  cases ht with
  | heap change => exact change.current hkey hnot
  | collected collected held globals =>
      refine collected.current hkey fun ref hscalar hlive => ?_
      have hchild := Table.mem_children hmem hscalar
      rcases htable with rfl | ⟨id, htable⟩
      · exact .root (held _ (globals ▸ hchild)) hlive
      · obtain ⟨htable₀, hreach⟩ := collected.exists_table hp htable
        exact .child hreach (Heap.mem_children_of_table htable₀ hchild) hlive
  | assigned _ heap => exact heap ▸ hkey
  | other grants heap =>
      rw [heap]
      exact hkey

lemma Turn.pinsStrings (ht : Turn written strict m m₁) (hp : m.heap.PinsStrings) :
    m₁.heap.PinsStrings := by
  cases ht with
  | heap change => exact change.pinsStrings hp
  | collected collected => exact collected.pinsStrings hp
  | assigned _ heap => exact heap ▸ hp
  | other grants heap =>
      rw [heap]
      exact hp

/-- The tables of a machine are whole, and their keys are current unless they are
stale. -/
structure Keyed (stale : Key → Prop) (m : Machine) : Prop where
  pins : m.heap.PinsStrings
  whole : ∀ t, m.HasTable t → ∃ d, t.Holds d
  current : ∀ t key value, m.HasTable t → (key, value) ∈ t.entries → ¬ stale key →
    m.heap.Current key

/-- A turn keeps tables whole and keys current, if the keys of the strings that it writes are
stale. -/
lemma Turn.keyed (ht : Turn written strict m m₁)
    (hw : ∀ key ref, key.scalar = .str ref → written ref.id → stale key)
    (hk : Keyed stale m) : Keyed stale m₁ := by
  refine ⟨ht.pinsStrings hk.pins, fun t htable => ?_, fun t key value htable hmem hnot => ?_⟩
  · rcases ht.exists_table hk.pins htable with hnew | ⟨t₀, htable₀, rfl | hupdated⟩
    · exact hnew.entries_eq.1
    · exact hk.whole t htable₀
    · exact (hupdated.holds (hk.whole t₀ htable₀)).1
  · refine ht.current hk.pins htable hmem ?_ fun ref hscalar hwritten =>
      hnot (hw key ref hscalar hwritten)
    rcases ht.exists_table hk.pins htable with hnew | ⟨t₀, htable₀, rfl | hupdated⟩
    · exact (hnew.entries_eq.2 key value hmem).elim
    · exact hk.current t key value htable₀ hmem hnot
    · rcases (hupdated.holds (hk.whole t₀ htable₀)).2 key value hmem with ⟨old, hold⟩ | hkey
      · exact hk.current t₀ key old htable₀ hold hnot
      · exact hkey

lemma Turns.keyed (ht : Turns written strict m m₁)
    (hw : ∀ key ref, key.scalar = .str ref → written ref.id → stale key)
    (hk : Keyed stale m) : Keyed stale m₁ := by
  induction ht with
  | refl => exact hk
  | tail _ turn ih => exact turn.keyed hw ih

/-- It is enough that those are stale that are keys. -/
lemma Keyed.mono {stale' : Key → Prop} (hk : Keyed stale m)
    (himp : ∀ key, m.IsKey key → stale key → stale' key) : Keyed stale' m := by
  refine ⟨hk.pins, hk.whole, fun t key value htable hmem hnot => ?_⟩
  refine hk.current t key value htable hmem fun hstale => ?_
  exact hnot (himp key ⟨t, value, htable, hmem⟩ hstale)

/-! ### Runs -/

/-- The machines of every run, with the keys that are stale: those whose strings were
changed while entries were stored under them, as long as there are such entries. Errors may
have been raised, for want of memory or for other reasons. -/
inductive Watched (host : Host) : Machine → (Key → Prop) → Prop
  | create {config : Config} {grants : Nat → Bool} {journal journal' : Journal} {m : Machine}
      (created : create config grants journal = .ok (m, journal')) : Watched host m fun _ => False
  | used {m m' : Machine} {stale : Key → Prop} {α : Type} {action : Action Machine α}
      {journal : Journal} (past : Watched host m stale) (use : Use Loading action)
      (run : (action m journal).state? = some m') :
      Watched host m' fun key => m'.IsKey key ∧ stale key
  | stepped {m m' : Machine} {stale : Key → Prop} {journal : Journal}
      (past : Watched host m stale) (run : (step host m journal).state? = some m') :
      Watched host m' fun key => m'.IsKey key ∧ (stale key ∨ m.Outdates m' key)

lemma Blank.keyed (hb : m.Blank) : Keyed (fun _ => False) m := by
  have hnone : ∀ id, m.heap.table? id = none := fun id => by
    rw [Heap.table?, Heap.object?, hb.find? id]
    rfl
  have hnew : ∀ {t}, m.HasTable t → t.IsNew := by
    rintro t (rfl | ⟨id, htable⟩)
    · exact hb.globals
    · cases (hnone id).symm.trans htable
  refine ⟨fun id entry hfind => ?_, fun t htable => (hnew htable).entries_eq.1,
    fun t key value htable hmem => ((hnew htable).entries_eq.2 key value hmem).elim⟩
  cases (hb.find? id).symm.trans hfind

/-- Keys hold, step by step, but for what was recorded as stale. -/
lemma Watched.keyed (hm : Watched host m stale) (horderly : host.Orderly) :
    m.heap.Sound ∧ m.heap.Idle ∧ Keyed stale m := by
  induction hm with
  | create created =>
      obtain ⟨new, hblank, ht⟩ : ∃ new, Blank new ∧ Turns (fun _ => False) True new _ :=
        turns_of_create created
      obtain ⟨hs₁, hi₁⟩ := ht.sound_idle hblank.sound hblank.idle
      exact ⟨hs₁, hi₁, ht.keyed (fun _ _ _ => id) hblank.keyed⟩
  | used _ use run ih =>
      obtain ⟨hs, hi, hk⟩ := ih
      obtain ⟨strict, hcourse⟩ : ∃ strict, Course (fun _ => False) strict _ _ :=
        (use.keeps _ _).of_state? run
      have ht := hcourse hs hi
      obtain ⟨hs₁, hi₁⟩ := ht.sound_idle hs hi
      exact ⟨hs₁, hi₁, (ht.keyed (fun _ _ _ => False.elim) hk).mono fun _ => And.intro⟩
  | @stepped m m₁ stale journal _ run ih =>
      obtain ⟨hs, hi, hk⟩ := ih
      obtain ⟨strict, hcourse⟩ := (step_kept horderly _ _).of_state? run
      have ht := hcourse hs hi
      obtain ⟨hs₁, hi₁⟩ := ht.sound_idle hs hi
      -- All keys of the string that is written count as stale, at first also those that the
      -- instruction itself might store; but such an instruction stores no entry.
      have hk₁ : Keyed (fun key => stale key ∨
          ∃ ref, key.scalar = .str ref ∧ m.Overwrites m₁ ref.id) m₁ :=
        ht.keyed (fun key ref hscalar hover => .inr ⟨ref, hscalar, hover⟩)
          (hk.mono fun _ _ => .inl)
      refine ⟨hs₁, hi₁, hk₁.mono fun key hkey hstale => ⟨hkey, hstale.imp_right ?_⟩⟩
      rintro ⟨ref, hscalar, hover⟩
      obtain ⟨t, value, htable, hmem⟩ := hkey
      have htable₀ := (step_tables hs hover run).hasTable_iff.mp htable
      exact ⟨⟨t, value, htable₀, hmem⟩, ref, hscalar, hover⟩

/-- In every run every entry of every table is found under the hash of its key, and unless
the key is stale, this is the hash that the scalar of the key has, so a search for this
scalar gives the value. A key gets stale only if its string is changed in place, and this
leaves all entries in their tables. -/
theorem Watched.findable (hm : Watched host m stale) (horderly : host.Orderly) :
    (∀ t key value, m.HasTable t → (key, value) ∈ t.entries →
      t.get? key.hash = .ok (some value) ∧
      (¬ stale key → m.heap.hash? key.scalar = .ok (some key.hash) ∧
        ∀ ref, m.heap.get? ref = some t →
          Container.getIndex m.heap (.table ref) (.scalar key.scalar) = .ok value)) ∧
    ∀ journal m' key, (step host m journal).state? = some m' → m.Outdates m' key →
      ∀ t, m'.HasTable t ↔ m.HasTable t := by
  obtain ⟨hs, -, hk⟩ := hm.keyed horderly
  refine ⟨fun t key value htable hmem => ?_, fun journal m' key hrun hout t => ?_⟩
  · obtain ⟨d, hd⟩ := hk.whole t htable
    have hget : t.get? key.hash = .ok (some value) := by
      rw [hd.get?, Dictionary.value?, (hd.listed.mem_iff key value).mp hmem]
      rfl
    refine ⟨hget, fun hnot => ?_⟩
    have hhash : m.heap.hash? key.scalar = .ok (some key.hash) :=
      hk.current t key value htable hmem hnot
    refine ⟨hhash, fun ref href => ?_⟩
    have hkey : Container.key m.heap (.scalar key.scalar) = .ok key := by
      rw [Container.key, hhash]
      rfl
    rw [Container.getIndex, hkey]
    change (m.heap.read ref >>= fun t => _) = _
    rw [Heap.read_of_get? href]
    change (t.get? key.hash >>= fun v => _) = _
    rw [hget]
    rfl
  · obtain ⟨-, ref, -, hover⟩ := hout
    exact (step_tables hs hover hrun).hasTable_iff

/-- Whether no store goes into a string during the steps of a run. -/
def spares (host : Host) (id : ObjectId) : (fuel : Nat) → Machine → Journal → Bool
  | 0, _, _ => true
  | fuel + 1, m, journal =>
      !(m.nextOpcode? == some .setIndex && m.stack.peek? 2 == some (.scalar (.str ⟨id⟩))) &&
        match step host m journal with
        | .done .running m journal => spares host id fuel m journal
        | _ => true

lemma not_outdates_of_spares {ref : Ref .string} {fuel : Nat} {journal : Journal}
    (hscalar : key.scalar = .str ref) (hspares : spares host ref.id (fuel + 1) m journal = true) :
    ¬ m.Outdates m₁ key := by
  rintro ⟨-, ref', hscalar', hop, hpeek, -⟩
  cases hscalar.symm.trans hscalar'
  simp [spares, hop, hpeek] at hspares

/-- Every moment of a run. The keys of a string into which nothing is stored do not get
stale. -/
lemma Watched.steps {ref : Ref .string} {fuel : Nat} {journal : Journal} (hm : Watched host m stale)
    (hscalar : key.scalar = .str ref) (hnot : ¬ stale key)
    (hspares : spares host ref.id fuel m journal = true)
    (hrun : (runFor host fuel m journal).state? = some m₁) :
    ∃ stale', Watched host m₁ stale' ∧ ¬ stale' key := by
  have hcases := runFor_cases host (P := fun fuel m journal =>
    spares host ref.id fuel m journal = true ∧ ∃ stale, Watched host m stale ∧ ¬ stale key)
    ⟨hspares, stale, hm, hnot⟩ ?_
  · obtain ⟨m', journal', ⟨-, stale', hm', hnot'⟩, heq⟩ | ⟨_, m', journal', ⟨hspares', stale', hm',
      hnot'⟩, heq⟩ := hcases
    · rw [heq] at hrun
      exact ⟨stale', Option.some.inj hrun ▸ hm', hnot'⟩
    · rw [heq] at hrun
      exact ⟨_, hm'.stepped hrun, fun h => h.2.elim hnot' (not_outdates_of_spares hscalar hspares')⟩
  · rintro fuel m m' journal journal' ⟨hspares, stale, hm, hnot⟩ hstep
    refine ⟨?_, _, hm.stepped (congrArg Outcome.state? hstep), fun h =>
      h.2.elim hnot (not_outdates_of_spares hscalar hspares)⟩
    rw [spares, hstep] at hspares
    exact (Bool.and_eq_true_iff.mp hspares).2

/-- While a machine is loaded, no key gets stale. -/
lemma Watched.loads {α : Type} {action : Action Machine α} {journal : Journal}
    (hl : Loads action) (hm : ∃ stale, Watched host m stale ∧ ∀ key, ¬ stale key)
    (hrun : (action m journal).state? = some m₁) :
    ∃ stale, Watched host m₁ stale ∧ ∀ key, ¬ stale key := by
  have hends := hl.ends (P := fun m => ∃ stale, Watched host m stale ∧ ∀ key, ¬ stale key)
    (E := fun _ => True) (fun {_ action m} journal use hm => ?_) hm journal
  · exact (hends.imp (fun _ _ => id) (fun _ _ h => h trivial) fun _ => id).of_state? hrun
  · obtain ⟨stale, hm, hnot⟩ := hm
    cases hrun : action m journal with
    | done value m' journal' =>
        exact ⟨_, hm.used use (congrArg Outcome.state? hrun), fun key h => hnot key h.2⟩
    | raised error m' journal' =>
        exact fun _ => ⟨_, hm.used use (congrArg Outcome.state? hrun), fun key h => hnot key h.2⟩
    | aborted fault => trivial

/-- A script that stores two entries under two strings, and then stores a character
into the second string. -/
def rekeying : Action Machine Unit := do
  let first ← onHeap (Heap.insertText "k" false)
  let second ← onHeap (Heap.insertText "j" false)
  let words := [Opcode.constant.toWord, 2, Opcode.newTable.toWord,
    Opcode.dup.toWord, Opcode.constant.toWord, 0, Opcode.pushTrue.toWord, Opcode.setIndex.toWord,
    Opcode.pop.toWord,
    Opcode.dup.toWord, Opcode.constant.toWord, 1, Opcode.pushTrue.toWord, Opcode.setIndex.toWord,
    Opcode.pop.toWord,
    Opcode.constant.toWord, 1, Opcode.constant.toWord, 2, Opcode.constant.toWord, 3,
    Opcode.setIndex.toWord]
  let script ← onHeap (Heap.alloc .function ⟨"", 0, 0, ⟨words.toArray, .empty, #[],
    .ofList [.scalar (.str first), .scalar (.str second), .scalar (.int 0), .scalar (.char 120)]⟩⟩)
  start script

lemma loads_rekeying : Loads rekeying :=
  .seq (loads_text _ _) fun _ => .seq (loads_text _ _) fun _ => .seq (loads_function _) fun _ =>
    loads_start _

/-- What the script makes of a new machine. Nothing is stored into the first string. -/
lemma exists_watched {p : Machine → Prop} [DecidablePred p]
    (hrun : ((Machine.create ⟨4096, 65536, 2, 8, .stress⟩ (fun _ => true) .silent).toOption.bind
      fun new => (rekeying new.1 new.2).done?.bind fun r =>
        if spares (.builtin ⟨0⟩) ⟨8, 0⟩ 16 r.2.1 r.2.2 = true then
          (runFor (.builtin ⟨0⟩) 16 r.2.1 r.2.2).state? else none).any (p ·) = true) :
    ∃ m, p m ∧ ∀ key : Key, key.scalar = .str ⟨⟨8, 0⟩⟩ →
      ∃ stale, Watched (.builtin ⟨0⟩) m stale ∧ ¬ stale key := by
  obtain ⟨m, hstate, hp⟩ := (Option.any_eq_true _ _).mp hrun
  obtain ⟨new, hnew, hstate⟩ := Option.bind_eq_some_iff.mp hstate
  obtain ⟨r, hload, hstate⟩ := Option.bind_eq_some_iff.mp hstate
  obtain ⟨hspares, hsteps⟩ := Option.ite_none_right_eq_some.mp hstate
  have hm₀ : Watched (.builtin ⟨0⟩) new.1 _ := .create (Outcome.eq_of_toOption hnew)
  obtain ⟨stale, hm₁, hnot⟩ := Watched.loads loads_rekeying ⟨_, hm₀, fun _ => id⟩
    (congrArg Outcome.state? (Outcome.eq_of_done? hload))
  exact ⟨m, of_decide_eq_true hp, fun key hscalar => hm₁.steps hscalar (hnot key) hspares hsteps⟩

/-- The entry under the first string is found. -/
theorem Watched.findable_beside : (Host.builtin ⟨0⟩).Orderly ∧
    ∃ m stale, ∃ (ref : Ref .table) (t : Table) (key : Key) (value : Value),
    Watched (.builtin ⟨0⟩) m stale ∧ m.heap.get? ref = some t ∧ (key, value) ∈ t.entries ∧
    key.scalar = .str ⟨⟨8, 0⟩⟩ ∧ ¬ stale key ∧
    Container.getIndex m.heap (.table ref) (.scalar key.scalar) = .ok value := by
  obtain ⟨m, hp, hwatched⟩ := exists_watched (p := fun m =>
    (m.heap.get? (⟨⟨12, 0⟩⟩ : Ref .table)).any (fun (t : Table) => t.entries.any fun pair =>
      pair.1.scalar == .str ⟨⟨8, 0⟩⟩) = true) (by decide +kernel)
  obtain ⟨t, ht, hp⟩ := (Option.any_eq_true _ _).mp hp
  obtain ⟨⟨key, value⟩, hmem, hscalar⟩ := List.any_eq_true.mp hp
  have hscalar : key.scalar = .str ⟨⟨8, 0⟩⟩ := eq_of_beq hscalar
  obtain ⟨stale, hm, hnot⟩ := hwatched key hscalar
  have htable : m.HasTable t := .inr ⟨⟨12, 0⟩, Heap.table?_of_get? ht⟩
  refine ⟨Host.builtin_orderly _, m, stale, _, t, key, value, hm, ht, hmem, hscalar, hnot, ?_⟩
  exact (((hm.findable (Host.builtin_orderly _)).1 t key value htable hmem).2 hnot).2 _ ht

/-- The entry under the second string is in the table, but is not found. -/
theorem overwritten_key_lost :
    ∃ m stale, ∃ (ref : Ref .table) (t : Table) (key : Key) (value : Value),
    Watched (.builtin ⟨0⟩) m stale ∧ m.heap.get? ref = some t ∧ (key, value) ∈ t.entries ∧
    m.heap.hash? key.scalar ≠ .ok (some key.hash) ∧ value ≠ .null ∧
    Container.getIndex m.heap (.table ref) (.scalar key.scalar) = .ok .null := by
  obtain ⟨m, hp, hwatched⟩ := exists_watched (p := fun m =>
    (m.heap.get? (⟨⟨12, 0⟩⟩ : Ref .table)).any (fun (t : Table) => t.entries.any fun pair =>
      decide ((m.heap.hash? pair.1.scalar).toOption ≠ some (some pair.1.hash) ∧ pair.2 ≠ .null ∧
        (Container.getIndex m.heap (.table ⟨⟨12, 0⟩⟩) (.scalar pair.1.scalar)).toOption =
          some .null)) = true) (by decide +kernel)
  obtain ⟨stale, hm, -⟩ := hwatched ⟨0, .str ⟨⟨8, 0⟩⟩⟩ rfl
  obtain ⟨t, ht, hp⟩ := (Option.any_eq_true _ _).mp hp
  obtain ⟨⟨key, value⟩, hmem, hp⟩ := List.any_eq_true.mp hp
  obtain ⟨hhash, hvalue, hindex⟩ := of_decide_eq_true hp
  refine ⟨m, stale, _, t, key, value, hm, ht, hmem, fun heq => hhash ?_, hvalue,
    Outcome.eq_of_toOption hindex⟩
  rw [heq]
  rfl

end Machine

end ScriptMachine
