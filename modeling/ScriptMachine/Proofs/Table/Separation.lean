import ScriptMachine.Proofs.Heap.Course
import ScriptMachine.Proofs.Table.Dictionary

/-!
Hashes tell keys of one kind apart.

A number is mixed into the hash by an exclusive or and multiplied with the factor of its
kind. The factors of the integer kinds are odd, so both steps can be undone, and a number
of such a kind is determined by its hash. A table compares hashes only; so what is stored
in it under other keys of that kind does not matter for a key.

* `Hash.ofInt_inj`: what two numbers with one hash have in common;
* `Hash.ofScalar?_inj`, `Hash.ofScalar?_int_ne`: hashes of the integer kinds;
* `Dictionary.after_filter`: requests under other hashes do not matter;
* `Table.serve_apart`: nor do stores under other keys of one kind.
-/

namespace ScriptMachine

namespace Scalar

/-- Truth values, bytes, characters and integers: the kinds whose hash keeps everything. -/
def isDiscrete : Scalar → Bool
  | bool _ | byte _ | char _ | int _ | long _ | size _ => true
  | _ => false

end Scalar

/-! ### Hashes of numbers -/

namespace Hash

variable {a b : Scalar}

/-- Numbers with one hash agree up to a multiple of the number of words, if the factor can be
undone. -/
lemma ofInt_inj {n m : Int} {factor inverse : UInt64} (hfactor : factor * inverse = 1)
    (h : ofInt n factor = ofInt m factor) : n % Int64.size = m % Int64.size := by
  have hmixed : start ^^^ (Int64.ofInt n).toUInt64 = start ^^^ (Int64.ofInt m).toUInt64 := by
    have hundone := congrArg (· * inverse) h
    dsimp only [ofInt] at hundone
    rwa [UInt64.mul_assoc, UInt64.mul_assoc, hfactor, UInt64.mul_one, UInt64.mul_one] at hundone
  have hlong : (Int64.ofInt n).toInt = (Int64.ofInt m).toInt :=
    congrArg (fun word => (Int64.ofUInt64 word).toInt) ((UInt64.xor_right_inj start).mp hmixed)
  rw [Int64.toInt_ofInt, Int64.toInt_ofInt] at hlong
  rw [← Int.bmod_emod, hlong, Int.bmod_emod]

/-- Numbers from one range of words are determined by their hash. -/
lemma ofInt_eq_iff {n m : Int} {factor inverse : UInt64} (least : Int)
    (hfactor : factor * inverse = 1) (hn : least ≤ n ∧ n < least + 0x10000000000000000)
    (hm : least ≤ m ∧ m < least + 0x10000000000000000) :
    ofInt n factor = ofInt m factor ↔ n = m := by
  refine ⟨fun h => ?_, fun h => h ▸ rfl⟩
  have hmod : n % 0x10000000000000000 = m % 0x10000000000000000 := ofInt_inj hfactor h
  omega

/-- A scalar of an integer kind has a hash, and no other scalar of its kind has the same. -/
lemma ofScalar?_inj (ha : a.isDiscrete = true) (hkind : a.sameKind b = true) :
    ∃ x y, ofScalar? a = some x ∧ ofScalar? b = some y ∧ (x = y ↔ a = b) := by
  -- the inverses of the three odd factors
  have hint : (16777669 : UInt64) * 4535239863697134861 = 1 := by decide
  have hlong : (16776969 : UInt64) * 9220271918179237689 = 1 := by decide
  have hbyte : (16742069 : UInt64) * 17176372222110484381 = 1 := by decide
  cases a with
  | bool x =>
      cases b with
      | bool y =>
          refine ⟨_, _, rfl, rfl, (ofInt_eq_iff 0 hint ?_ ?_).trans ?_⟩
          · cases x <;> decide
          · cases y <;> decide
          · cases x <;> cases y <;> decide
      | _ => cases hkind
  | byte x =>
      cases b with
      | byte y =>
          have hx := x.toNat_lt
          have hy := y.toNat_lt
          refine ⟨_, _, rfl, rfl, (ofInt_eq_iff 0 hbyte ?_ ?_).trans ?_⟩
          · omega
          · omega
          · rw [Int.natCast_inj, UInt8.toNat_inj, Scalar.byte.injEq]
      | _ => cases hkind
  | char x =>
      cases b with
      | char y =>
          have hx := x.toNat_lt
          have hy := y.toNat_lt
          refine ⟨_, _, rfl, rfl, (ofInt_eq_iff 0 hbyte ?_ ?_).trans ?_⟩
          · omega
          · omega
          · rw [Int.natCast_inj, UInt8.toNat_inj, Scalar.char.injEq]
      | _ => cases hkind
  | int x =>
      cases b with
      | int y =>
          have hx := And.intro x.le_toInt x.toInt_lt
          have hy := And.intro y.le_toInt y.toInt_lt
          refine ⟨_, _, rfl, rfl, (ofInt_eq_iff (-0x80000000) hint ?_ ?_).trans ?_⟩
          · omega
          · omega
          · rw [Int32.toInt_inj, Scalar.int.injEq]
      | _ => cases hkind
  | long x =>
      cases b with
      | long y =>
          have hx := And.intro x.le_toInt x.toInt_lt
          have hy := And.intro y.le_toInt y.toInt_lt
          refine ⟨_, _, rfl, rfl, (ofInt_eq_iff (-0x8000000000000000) hlong ?_ ?_).trans ?_⟩
          · omega
          · omega
          · rw [Int64.toInt_inj, Scalar.long.injEq]
      | _ => cases hkind
  | size x =>
      cases b with
      | size y =>
          have hx := x.toNat_lt
          have hy := y.toNat_lt
          refine ⟨_, _, rfl, rfl, (ofInt_eq_iff 0 hlong ?_ ?_).trans ?_⟩
          · omega
          · omega
          · rw [Int.natCast_inj, UInt64.toNat_inj, Scalar.size.injEq]
      | _ => cases hkind
  | _ => cases ha

/-- The hash of null is the hash of a number that no `int` has. -/
lemma ofScalar?_int_ne (i : Int32) : ofScalar? (.int i) ≠ ofScalar? .null := by
  intro h
  have hzero : ofInt i.toInt 16777669 = ofInt 2166136261 16777669 := Option.some.inj h
  have hint : (16777669 : UInt64) * 4535239863697134861 = 1 := by decide
  have hi := And.intro i.le_toInt i.toInt_lt
  have heq := (ofInt_eq_iff (-0x80000000) hint (by omega) (by decide)).mp hzero
  omega

end Hash

namespace Heap

variable {h h' : Heap} {a b : Scalar} {key key' : Key}

/-- The hash of a scalar of an integer kind is the same in every heap. -/
lemma hash?_of_isDiscrete (h : Heap) (ha : a.isDiscrete = true) :
    h.hash? a = .ok (Hash.ofScalar? a) := by
  cases a with
  | str ref => cases ha
  | _ => rfl

lemma hash?_inj (h h' : Heap) (ha : a.isDiscrete = true) (hkind : a.sameKind b = true) :
    ∃ x y, h.hash? a = .ok (some x) ∧ h'.hash? b = .ok (some y) ∧ (x = y ↔ a = b) := by
  obtain ⟨x, y, hx, hy, hiff⟩ := Hash.ofScalar?_inj ha hkind
  have hb : b.isDiscrete = true := by
    cases a <;> cases b <;> trivial
  exact ⟨x, y, by rw [hash?_of_isDiscrete h ha, hx], by rw [hash?_of_isDiscrete h' hb, hy], hiff⟩

/-- Different keys of one kind have different hashes, whenever they were made. -/
lemma Current.hash_ne (hkey : h.Current key) (hkey' : h'.Current key')
    (hdiscrete : key.scalar.isDiscrete = true) (hkind : key.scalar.sameKind key'.scalar = true)
    (hne : key'.scalar ≠ key.scalar) : key'.hash ≠ key.hash := by
  obtain ⟨x, y, hx, hy, hiff⟩ := hash?_inj h h' hdiscrete hkind
  rw [hkey] at hx
  rw [hkey'] at hy
  cases hx
  cases hy
  exact fun heq => hne (hiff.mp heq.symm).symm

end Heap

/-! ### Requests about other hashes -/

namespace Table.Request

variable {d d' : Dictionary} {hash : UInt64} {request : Request}

lemma apply_of_ne (hne : request.hash ≠ hash) : request.apply d hash = d hash := by
  cases request with
  | insert key value => exact Function.update_of_ne hne.symm _ _
  | get _ => rfl
  | remove _ => exact Function.update_of_ne hne.symm _ _

/-- What becomes of a hash depends on what was under it. -/
lemma apply_congr (hd : d hash = d' hash) (request : Request) :
    request.apply d hash = request.apply d' hash := by
  by_cases hhash : request.hash = hash
  · subst hhash
    cases request with
    | insert key value =>
        change d key.hash = d' key.hash at hd
        simp only [apply, Dictionary.insert, Request.hash, hd, Function.update_self]
    | get _ => exact hd
    | remove _ => simp only [apply, Dictionary.remove, Request.hash, Function.update_self]
  · rw [apply_of_ne hhash, apply_of_ne hhash, hd]

end Table.Request

namespace Dictionary

open Table

variable {d d' : Dictionary} {hash : UInt64} {requests : List Request}

/-- Requests about other hashes can be left out. -/
lemma after_filter {keep : Request → Bool} (hd : d hash = d' hash)
    (hkeep : ∀ request ∈ requests, request.hash = hash → keep request = true) :
    d.after (requests.filter keep) hash = d'.after requests hash := by
  induction requests generalizing d d' with
  | nil => exact hd
  | cons request requests ih =>
      obtain ⟨hfirst, hrest⟩ := List.forall_mem_cons.mp hkeep
      rw [List.filter_cons]
      split
      · exact ih (Request.apply_congr hd request) hrest
      · rename_i hdrop
        have hne : request.hash ≠ hash := fun heq => hdrop (hfirst heq)
        refine ih (hd.trans ?_) hrest
        rw [Request.apply_of_ne hne]

/-- What is stored under a hash stays as long as all requests are about other hashes. -/
lemma value?_after_insert {before later : List Request} {key : Key} (value : Value)
    (hlater : ∀ request ∈ later, request.hash ≠ key.hash) :
    (d.after (before ++ .insert key value :: later)).value? key.hash = some value := by
  have hfilter : later.filter (·.hash = key.hash) = [] :=
    List.filter_eq_nil_iff.mpr fun request hmem hhash =>
      hlater request hmem (of_decide_eq_true hhash)
  have hkeep : ∀ request ∈ later, request.hash = key.hash →
      decide (request.hash = key.hash) = true := fun _ _ => decide_eq_true
  rw [value?, after, List.foldl_append, List.foldl_cons, ← after, ← after_filter rfl hkeep, hfilter]
  simp only [after, List.foldl_nil, Request.apply, insert, Function.update_self, Option.map_some]

end Dictionary

/-! ### Stores under keys of one kind -/

namespace Table

variable {key : Key} {requests : List Request}

/-- The keys that are stored had the hashes of their scalars when they were made. -/
def Request.Made : Request → Prop
  | insert key _ => ∃ h : Heap, h.Current key
  | get _ | remove _ => True

/-- The request stores under another key of the kind of a scalar. -/
def Request.storesBeside (scalar : Scalar) : Request → Bool
  | insert key _ => scalar.sameKind key.scalar && key.scalar != scalar
  | get _ | remove _ => false

lemma Request.hash_ne {h : Heap} {request : Request} (hkey : h.Current key)
    (hdiscrete : key.scalar.isDiscrete = true) (hmade : request.Made)
    (hbeside : request.storesBeside key.scalar = true) : request.hash ≠ key.hash := by
  cases request with
  | insert other value =>
      obtain ⟨h', hother⟩ := hmade
      obtain ⟨hkind, hne⟩ := Bool.and_eq_true_iff.mp hbeside
      exact hkey.hash_ne hother hdiscrete hkind (bne_iff_ne.mp hne)
  | get _ => cases hbeside
  | remove _ => cases hbeside

/-- A new table after some requests holds what they leave. -/
lemma holds_of_serve {capacity : Nat} {t t' : Table} {answers : List (Option Value)}
    {journal journal' : Journal} (hnew : withCapacity capacity = .ok t)
    (hserve : serve requests t journal = .done answers t' journal') :
    t'.Holds (Dictionary.after (fun _ => none) requests) :=
  (((holds_of_withCapacity hnew).serve requests journal).of_done hserve).2

/-- Among truth values, bytes, characters, `int`s, `long`s and sizes, hashes of one kind are
equal exactly if the scalars are, and no `int` has the hash of null. So in a table no store
under one key of such a kind reaches what is under another: a table is the same under a key
whether or not values were stored under other keys of its kind, and a value is found as long
as all later stores are under such keys. -/
theorem serve_apart :
    (∀ (h : Heap) (a b : Scalar), a.isDiscrete = true → a.sameKind b = true →
      ∃ x y, h.hash? a = .ok (some x) ∧ h.hash? b = .ok (some y) ∧ (x = y ↔ a = b)) ∧
    (∀ (h : Heap) (i : Int32), h.hash? (.int i) ≠ h.hash? .null) ∧
    ∀ {h : Heap} {key : Key}, h.Current key → key.scalar.isDiscrete = true →
      (∀ {capacity capacity₁ : Nat} {t t' t₁ t₁' : Table} {requests : List Request}
        {answers answers₁ : List (Option Value)} {journal journal' journal₁ journal₁' : Journal},
        (∀ request ∈ requests, request.Made) →
        withCapacity capacity = .ok t → serve requests t journal = .done answers t' journal' →
        withCapacity capacity₁ = .ok t₁ →
        serve (requests.filter (!·.storesBeside key.scalar)) t₁ journal₁ =
          .done answers₁ t₁' journal₁' →
        t'.get? key.hash = t₁'.get? key.hash ∧
        ∀ scalar value,
          (⟨key.hash, scalar⟩, value) ∈ t'.entries ↔ (⟨key.hash, scalar⟩, value) ∈ t₁'.entries) ∧
      ∀ (before later : List Request) (value : Value) {capacity : Nat} {t t' : Table}
        {answers : List (Option Value)} {journal journal' : Journal},
        (∀ request ∈ later, request.Made ∧ request.storesBeside key.scalar = true) →
        withCapacity capacity = .ok t →
        serve (before ++ .insert key value :: later) t journal = .done answers t' journal' →
        t'.get? key.hash = .ok (some value) := by
  refine ⟨fun h a b ha hkind => Heap.hash?_inj h h ha hkind, fun h i heq => ?_, ?_⟩
  · exact Hash.ofScalar?_int_ne i (Except.ok.inj heq)
  · intro h key hkey hdiscrete
    constructor
    · intro capacity capacity₁ t t' t₁ t₁' requests answers answers₁ journal journal' journal₁
        journal₁' hmade hnew hserve hnew₁ hserve₁
      have hholds := holds_of_serve hnew hserve
      have hholds₁ := holds_of_serve hnew₁ hserve₁
      -- stores under other keys have other hashes, so here the dictionary is the same without them
      have hsame : Dictionary.after (fun _ => none) (requests.filter (!·.storesBeside key.scalar))
          key.hash = Dictionary.after (fun _ => none) requests key.hash := by
        refine Dictionary.after_filter rfl fun request hmem hhash => ?_
        cases hbeside : request.storesBeside key.scalar with
        | false => rfl
        | true => exact absurd hhash (Request.hash_ne hkey hdiscrete (hmade request hmem) hbeside)
      constructor
      · rw [hholds.get?, hholds₁.get?, Dictionary.value?, Dictionary.value?, hsame]
      · intro scalar value
        rw [hholds.listed.mem_iff, hholds₁.listed.mem_iff, hsame]
    · intro before later value capacity t t' answers journal journal' hlater hnew hserve
      rw [(holds_of_serve hnew hserve).get?, Dictionary.value?_after_insert]
      intro request hmem
      obtain ⟨hmade, hbeside⟩ := hlater request hmem
      exact Request.hash_ne hkey hdiscrete hmade hbeside

/-- The key of an `int`. -/
def intKey (i : Int32) : Key := ⟨Hash.ofInt i.toInt 16777669, .int i⟩

lemma current_intKey (h : Heap) (i : Int32) : h.Current (intKey i) := rfl

/-- Two `int`s that are the same up to their sign are told apart, whichever was stored last. -/
theorem serve_apart_negated : ∃ (h : Heap) (t t' : Table) (answers : List (Option Value))
    (journal : Journal),
    h.Current (intKey 5) ∧ h.Current (intKey (-5)) ∧ withCapacity 3 = .ok t ∧
    serve [.insert (intKey 5) .null, .insert (intKey (-5)) (.ofBool true)] t .silent =
      .done answers t' journal ∧
    t'.get? (intKey 5).hash = .ok (some .null) ∧
    t'.get? (intKey (-5)).hash = .ok (some (.ofBool true)) := by
  obtain ⟨h, -⟩ := Option.isSome_iff_exists.mp
    (show (Heap.create 4096 fun _ => true).toOption.isSome = true by decide +kernel)
  have hnew : withCapacity 3 = .ok (blank 8) := rfl
  have hserve : ∃ answers t' journal,
      serve [.insert (intKey 5) .null, .insert (intKey (-5)) (.ofBool true)] (blank 8) .silent =
        .done answers t' journal := ⟨_, _, _, rfl⟩
  obtain ⟨answers, t', journal, hserve⟩ := hserve
  refine ⟨h, _, t', answers, journal, rfl, rfl, hnew, hserve, ?_, ?_⟩
  · refine (serve_apart.2.2 (current_intKey h 5) rfl).2 [] _ _ ?_ hnew hserve
    intro request hmem
    obtain rfl := List.mem_singleton.mp hmem
    exact ⟨⟨h, rfl⟩, rfl⟩
  · refine (serve_apart.2.2 (current_intKey h (-5)) rfl).2 [_] [] _ ?_ hnew hserve
    exact fun request hmem => absurd hmem List.not_mem_nil

end Table

end ScriptMachine
