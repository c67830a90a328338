/-!
Cells: the bytes of a region of memory, all zero at first.

The `2 ^ depth` bytes are a binary tree over their addresses, the highest bit
of an address deciding first. A part that was never written to is a single
`blank`, so a region costs what was stored into it and not what it spans.
Operations on ranges take the `size` of the tree, `2 ^ depth`, beside its
depth, and halve it on the way down.

* `Cells.list_eq`: a range is listed byte by byte;
* `Cells.get_set`: a byte reads back as it was written, and no other byte
  changes;
* `Cells.get_store`: a list of bytes reads back as it was written, and no other
  byte changes;
* `Cells.get_clear`: clearing zeroes a range and leaves the rest;
* `Cells.get_overlay`: laying a range over other cells copies its bytes, except
  for the zeros, which leave what is below.
-/

namespace ScriptMachine.Memory

/-- Bytes as a tree over the bits of the address. -/
inductive Cells where
  /-- Nothing but zeros. -/
  | blank
  | byte (value : UInt8)
  | fork (low high : Cells)

namespace Cells

/-- The half with the lower addresses. -/
def low : Cells → Cells
  | fork low _ => low
  | _ => blank

/-- The half with the higher addresses. -/
def high : Cells → Cells
  | fork _ high => high
  | _ => blank

/-- The byte at an address of `depth` bits. -/
def get : (depth : Nat) → Cells → (address : Nat) → UInt8
  | _, blank, _ => 0
  | 0, byte value, _ => value
  | 0, fork .., _ => 0
  | depth + 1, cells, address =>
      if address.testBit depth then get depth cells.high address
      else get depth cells.low address

/-- Stores a byte at an address of `depth` bits. -/
def set (value : UInt8) : (depth : Nat) → Cells → (address : Nat) → Cells
  | 0, _, _ => byte value
  | depth + 1, cells, address =>
      if address.testBit depth then fork cells.low (set value depth cells.high address)
      else fork (set value depth cells.low address) cells.high

/-- The bytes at the addresses from `start` up to, but not including, `stop`,
followed by `rest`. -/
def list : (depth size : Nat) → Cells → (start stop : Nat) → (rest : List UInt8) → List UInt8
  | _, _, blank, start, stop, rest => List.replicate (stop - start) 0 ++ rest
  | 0, _, cells, start, stop, rest =>
      if start = 0 ∧ 0 < stop then get 0 cells 0 :: rest else rest
  | depth + 1, size, cells, start, stop, rest =>
      if stop ≤ start then rest
      else list depth (size / 2) cells.low start (min stop (size / 2))
        (list depth (size / 2) cells.high (start - size / 2) (stop - size / 2) rest)

/-- Stores bytes from an address of `depth` bits on, and returns those that do
not fit behind it. -/
def store : (depth : Nat) → Cells → (address : Nat) → List UInt8 → Cells × List UInt8
  | _, cells, _, [] => (cells, [])
  | 0, _, _, value :: values => (byte value, values)
  | depth + 1, cells, address, value :: values =>
      if address.testBit depth then
        match store depth cells.high address (value :: values) with
        | (high, values) => (fork cells.low high, values)
      else
        match store depth cells.low address (value :: values) with
        | (low, values) =>
          match store depth cells.high 0 values with
          | (high, values) => (fork low high, values)

/-- Zeroes the addresses from `start` up to, but not including, `stop`. -/
def clear : (depth size : Nat) → Cells → (start stop : Nat) → Cells
  | _, _, blank, _, _ => blank
  | 0, _, cells, start, stop => if start = 0 ∧ 0 < stop then blank else cells
  | depth + 1, size, cells, start, stop =>
      if stop ≤ start then cells
      else if start = 0 ∧ size ≤ stop then blank
      else fork (clear depth (size / 2) cells.low start (min stop (size / 2)))
        (clear depth (size / 2) cells.high (start - size / 2) (stop - size / 2))

/-- Lays `count` bytes, those from the address `start` on, over `target`, a
tree of depth `depth`, from `offset` on. Zeros do not cover what is there, so
parts that were never written to are passed over as a whole. The bytes come
out of `cells`, a tree over the addresses from `base` on. -/
def overlay (start count offset depth : Nat) :
    (bits size : Nat) → (cells : Cells) → (base : Nat) → (target : Cells) → Cells
  | _, _, blank, _, target => target
  | 0, _, byte value, base, target =>
      if value ≠ 0 ∧ start ≤ base ∧ base < start + count then
        set value depth target (offset + (base - start))
      else target
  | bits + 1, size, fork low high, base, target =>
      if start + count ≤ base ∨ base + size ≤ start then target
      else overlay start count offset depth bits (size / 2) high (base + size / 2)
        (overlay start count offset depth bits (size / 2) low base target)
  | _, _, _, _, target => target

/-! ### Laws -/

@[simp] theorem get_blank (depth address : Nat) : get depth blank address = 0 := by
  cases depth <;> rfl

theorem get_succ (depth : Nat) (cells : Cells) (address : Nat) :
    get (depth + 1) cells address =
      if address.testBit depth then get depth cells.high address
      else get depth cells.low address := by
  cases cells <;> simp [get, low, high]

/-- There is at least one address. -/
theorem size_pos (depth : Nat) : 0 < 1 <<< depth := by
  rw [Nat.one_shiftLeft]
  exact Nat.two_pow_pos depth

/-- Half the size of a tree is that of its halves. -/
theorem half_size (depth : Nat) : 1 <<< (depth + 1) / 2 = 1 <<< depth := by
  rw [Nat.shiftLeft_succ, Nat.mul_div_cancel_left _ (by decide)]

/-- Only the low `depth` bits of an address matter. -/
theorem get_congr {depth : Nat} (cells : Cells) {a b : Nat}
    (same : ∀ i < depth, a.testBit i = b.testBit i) : get depth cells a = get depth cells b := by
  induction depth generalizing cells with
  | zero => cases cells <;> rfl
  | succ depth ih =>
      rw [get_succ, get_succ, same depth (by omega)]
      have below : ∀ i < depth, a.testBit i = b.testBit i := fun i hi => same i (by omega)
      rw [ih cells.high below, ih cells.low below]

/-- A byte reads back as it was written and no other byte changes. -/
theorem get_set (value : UInt8) (depth : Nat) (cells : Cells) (a b : Nat) :
    get depth (set value depth cells a) b =
      if ∀ i < depth, a.testBit i = b.testBit i then value else get depth cells b := by
  induction depth generalizing cells with
  | zero => simp [set, get]
  | succ depth ih =>
      have split : (∀ i < depth + 1, a.testBit i = b.testBit i) ↔
          a.testBit depth = b.testBit depth ∧ ∀ i < depth, a.testBit i = b.testBit i := by
        constructor
        · exact fun h => ⟨h depth (by omega), fun i hi => h i (by omega)⟩
        · rintro ⟨top, rest⟩ i hi
          rcases Nat.lt_succ_iff_lt_or_eq.mp hi with below | same
          · exact rest i below
          · exact same ▸ top
      rw [set]
      simp only [split]
      by_cases ha : a.testBit depth <;> by_cases hb : b.testBit depth <;>
        simp [get_succ, ha, hb, low, high, ih]

/-- The tree of depth `depth + 1` read half by half. -/
theorem get_succ_of_lt (depth : Nat) (cells : Cells) {a : Nat}
    (ha : a < 1 <<< (depth + 1)) :
    get (depth + 1) cells a =
      if a < 1 <<< depth then get depth cells.low a
      else get depth cells.high (a - 1 <<< depth) := by
  rw [Nat.one_shiftLeft] at ha ⊢
  rw [get_succ]
  by_cases h : a < 2 ^ depth
  · simp [h, Nat.testBit_lt_two_pow h]
  · have top : a.testBit depth = true := by
      rw [Nat.testBit_eq_decide_div_mod_eq]
      have : a / 2 ^ depth = 1 := by
        rw [Nat.pow_succ] at ha
        exact Nat.div_eq_of_lt_le (by omega) (by omega)
      simp [this]
    rw [if_pos top, if_neg h]
    apply get_congr
    intro i hi
    have key : (a - 2 ^ depth + 2 ^ depth).testBit i = (a - 2 ^ depth).testBit i := by
      rw [Nat.add_comm, Nat.testBit_two_pow_add_gt hi]
    rwa [Nat.sub_add_cancel (by omega)] at key

/-- A range of the lower half, listed there or in the whole tree. -/
theorem map_get_low (depth : Nat) (cells : Cells) {start count : Nat}
    (fits : start + count ≤ 1 <<< depth) :
    (List.range' start count).map (get depth cells.low) =
      (List.range' start count).map (get (depth + 1) cells) := by
  refine List.map_congr_left fun a ha => ?_
  have := List.mem_range'_1.mp ha
  rw [get_succ_of_lt depth cells (by rw [Nat.shiftLeft_succ]; omega), if_pos (by omega)]

/-- A range of the upper half, listed there or in the whole tree. -/
theorem map_get_high (depth : Nat) (cells : Cells) {start count : Nat}
    (fits : start + count ≤ 1 <<< depth) :
    (List.range' start count).map (get depth cells.high) =
      (List.range' (1 <<< depth + start) count).map (get (depth + 1) cells) := by
  rw [← List.map_add_range', List.map_map]
  refine List.map_congr_left fun a ha => ?_
  have := List.mem_range'_1.mp ha
  rw [Function.comp_apply, get_succ_of_lt depth cells (by rw [Nat.shiftLeft_succ]; omega),
    if_neg (by omega), Nat.add_sub_cancel_left]

/-- A range of a tree without stored bytes. -/
theorem map_get_blank (depth start count : Nat) :
    (List.range' start count).map (get depth blank) = List.replicate count 0 := by
  rw [show get depth blank = fun _ => 0 from funext (get_blank depth), List.map_const',
    List.length_range']

/-- A range is listed byte by byte. -/
theorem list_eq {depth stop : Nat} (fits : stop ≤ 1 <<< depth) (cells : Cells) (start : Nat)
    (rest : List UInt8) :
    list depth (1 <<< depth) cells start stop rest =
      (List.range' start (stop - start)).map (get depth cells) ++ rest := by
  induction depth generalizing cells start stop rest with
  | zero =>
      have stop_le : stop ≤ 1 := by simpa using fits
      cases cells with
      | blank => rw [list, map_get_blank]
      | _ =>
        rw [list]
        · split
          · rename_i h
            obtain rfl : stop = 1 := by omega
            simp [h.1]
          · rw [show stop - start = 0 by omega]; rfl
        · simp
  | succ depth ih =>
      have split_fits := fits
      rw [Nat.shiftLeft_succ] at split_fits
      cases cells with
      | blank => rw [list, map_get_blank]
      | _ =>
        rw [list, half_size]
        · split
          · rw [show stop - start = 0 by omega]; rfl
          · rw [ih (by omega), ih (by omega), ← List.append_assoc]
            congr 1
            -- the range lies in the upper half, or starts in the lower one and may reach over
            by_cases upper : 1 <<< depth ≤ start
            · rw [map_get_high _ _ (by omega), show min stop (1 <<< depth) - start = 0 by omega,
                show 1 <<< depth + (start - 1 <<< depth) = start by omega,
                show stop - 1 <<< depth - (start - 1 <<< depth) = stop - start by omega]
              rfl
            · rw [map_get_low _ _ (by omega), map_get_high _ _ (by omega), ← List.map_append]
              congr 1
              rw [show start - 1 <<< depth = 0 by omega]
              by_cases lower : stop ≤ 1 <<< depth
              · rw [show stop - 1 <<< depth - 0 = 0 by omega, Nat.min_eq_left lower]
                simp
              · rw [Nat.min_eq_right (by omega), show stop - start =
                  (1 <<< depth - start) + (stop - 1 <<< depth - 0) by omega, ← List.range'_append_1,
                  show start + (1 <<< depth - start) = 1 <<< depth + 0 by omega]
        · simp

/-- Clearing zeroes the bytes of the range and keeps all others. -/
theorem get_clear (depth : Nat) (cells : Cells) (start stop a : Nat)
    (ha : a < 1 <<< depth) :
    get depth (clear depth (1 <<< depth) cells start stop) a =
      if start ≤ a ∧ a < stop then 0 else get depth cells a := by
  induction depth generalizing cells start stop a with
  | zero =>
      have : a = 0 := by simpa using ha
      subst this
      cases cells with
      | blank => simp [clear]
      | byte value =>
          simp only [clear]
          by_cases h : start = 0 ∧ 0 < stop
          · rw [if_pos h, if_pos (by omega), get_blank]
          · rw [if_neg h, if_neg (by omega)]
      | fork l h => simp only [clear]; split <;> simp_all [get]
  | succ depth ih =>
      cases cells with
      | blank => simp [clear]
      | _ =>
        simp only [clear, half_size]
        split
        · rename_i h; rw [if_neg (by omega)]
        · split
          · rename_i h; simp only [get_blank]; rw [if_pos (by omega)]
          · rw [get_succ_of_lt _ _ ha, get_succ_of_lt _ _ ha]
            simp only [low, high]
            rw [Nat.shiftLeft_succ] at ha
            -- each half clears its own part of the range
            by_cases h : a < 1 <<< depth
            · rw [if_pos h, if_pos h, ih _ _ _ _ h]
              simp only [Nat.lt_min]
              simp [h]
            · rw [if_neg h, if_neg h, ih _ _ _ _ (by omega)]
              congr 1
              simp only [eq_iff_iff]
              omega

/-- Two addresses of `depth` bits are the same if their bits are. -/
theorem forall_testBit_eq_iff {depth a b : Nat} (ha : a < 1 <<< depth) (hb : b < 1 <<< depth) :
    (∀ i < depth, a.testBit i = b.testBit i) ↔ a = b := by
  rw [Nat.one_shiftLeft] at ha hb
  refine ⟨fun same => Nat.eq_of_testBit_eq fun i => ?_, fun h i _ => h ▸ rfl⟩
  by_cases hi : i < depth
  · exact same i hi
  · have wide : 2 ^ depth ≤ 2 ^ i := Nat.pow_le_pow_right (by decide) (by omega)
    rw [Nat.testBit_lt_two_pow (by omega), Nat.testBit_lt_two_pow (by omega)]

/-- An address below the size of a tree, by the half in which it lies. -/
theorem mod_size_succ (depth address : Nat) :
    address % 1 <<< (depth + 1) =
      if address.testBit depth then 1 <<< depth + address % 1 <<< depth
      else address % 1 <<< depth := by
  simp only [Nat.one_shiftLeft, Nat.mod_pow_succ, Nat.testBit_eq_decide_div_mod_eq,
    decide_eq_true_eq]
  split
  · rename_i h
    rw [h]
    omega
  · rename_i h
    rw [show address / 2 ^ depth % 2 = 0 by omega]
    omega

/-- What does not fit is left over. -/
theorem store_snd (depth : Nat) (cells : Cells) (address : Nat) (values : List UInt8) :
    (store depth cells address values).2 =
      values.drop (1 <<< depth - address % 1 <<< depth) := by
  induction depth generalizing cells address values with
  | zero =>
      cases values with
      | nil => simp [store]
      | cons value values => simp [store, Nat.mod_one]
  | succ depth ih =>
      have below := Nat.mod_lt address (size_pos depth)
      cases values with
      | nil => simp [store]
      | cons value values =>
          rw [store, mod_size_succ, Nat.shiftLeft_succ]
          split
          · rw [ih]
            congr 1
            omega
          · rw [ih, ih, List.drop_drop, Nat.zero_mod]
            congr 1
            omega

/-- Reading after bytes were stored from an address on, of which only the low
`depth` bits matter. -/
theorem get_store_mod (depth : Nat) (cells : Cells) (address : Nat) (values : List UInt8) {a : Nat}
    (ha : a < 1 <<< depth) :
    get depth (store depth cells address values).1 a =
      if address % 1 <<< depth ≤ a ∧ a < address % 1 <<< depth + values.length then
        values.getD (a - address % 1 <<< depth) 0
      else get depth cells a := by
  induction depth generalizing cells address values a with
  | zero =>
      obtain rfl : a = 0 := by simpa using ha
      cases values with
      | nil => rw [store, if_neg (by rw [List.length_nil]; omega)]
      | cons value values => simp [store, Nat.mod_one, get]
  | succ depth ih =>
      have below := Nat.mod_lt address (size_pos depth)
      cases values with
      | nil => rw [store, if_neg (by rw [List.length_nil]; omega)]
      | cons value values =>
          rw [store, get_succ_of_lt _ cells ha, mod_size_succ]
          have ha' := ha
          rw [Nat.shiftLeft_succ] at ha'
          split
          -- the address is in the upper half, where the bytes past the end are lost
          · rw [get_succ_of_lt _ _ ha]
            by_cases lower : a < 1 <<< depth
            · rw [if_pos lower, if_pos lower, if_neg (by omega)]
              rfl
            · rw [if_neg lower, if_neg lower]
              refine (ih _ _ _ (by omega)).trans ?_
              rw [show a - 1 <<< depth - address % 1 <<< depth =
                a - (1 <<< depth + address % 1 <<< depth) by omega]
              congr 1
              simp only [eq_iff_iff]
              omega
          -- it is in the lower half, and what that has no room for goes on in the upper
          · rw [get_succ_of_lt _ _ ha]
            by_cases lower : a < 1 <<< depth
            · rw [if_pos lower, if_pos lower]
              exact ih _ _ _ lower
            · rw [if_neg lower, if_neg lower]
              refine (ih _ _ _ (by omega)).trans ?_
              rw [store_snd, List.length_drop, List.getD_eq_getElem?_getD, List.getElem?_drop,
                ← List.getD_eq_getElem?_getD, Nat.zero_mod,
                show 1 <<< depth - address % 1 <<< depth + (a - 1 <<< depth - 0) =
                  a - address % 1 <<< depth by omega]
              congr 1
              simp only [eq_iff_iff]
              omega

/-- Bytes that are stored from an address on read back as they were written,
and no other byte changes. -/
theorem get_store (depth : Nat) (cells : Cells) {start : Nat} (values : List UInt8) {a : Nat}
    (hs : start < 1 <<< depth) (ha : a < 1 <<< depth) :
    get depth (store depth cells start values).1 a =
      if start ≤ a ∧ a < start + values.length then values.getD (a - start) 0
      else get depth cells a := by
  rw [get_store_mod _ _ _ _ ha, Nat.mod_eq_of_lt hs]

/-- Laying a range over other cells: within reach of the range a byte that is
not zero is copied, and all else stays. -/
theorem get_overlay {start count offset depth : Nat} (fits : offset + count ≤ 1 <<< depth)
    (bits : Nat) (cells : Cells) (base : Nat) (target : Cells) {a : Nat} (ha : a < 1 <<< depth) :
    get depth (overlay start count offset depth bits (1 <<< bits) cells base target) a =
      if (offset ≤ a ∧ a < offset + count) ∧
          (base ≤ start + (a - offset) ∧ start + (a - offset) < base + 1 <<< bits) ∧
          get bits cells (start + (a - offset) - base) ≠ 0
      then get bits cells (start + (a - offset) - base)
      else get depth target a := by
  induction bits generalizing cells base target with
  | zero =>
      rw [Nat.shiftLeft_zero]
      cases cells with
      | blank => simp [overlay]
      | fork => simp [overlay, get]
      | byte value =>
          have stored : ∀ x, get 0 (byte value) x = value := fun _ => rfl
          rw [overlay]
          split
          · rename_i h
            rw [get_set]
            simp only [forall_testBit_eq_iff (show offset + (base - start) < 1 <<< depth by omega) ha]
            by_cases here : offset + (base - start) = a
            · rw [if_pos here, if_pos ⟨by omega, by omega, by rw [stored]; exact h.1⟩, stored]
            · rw [if_neg here, if_neg (by omega)]
          · rename_i h
            rw [if_neg]
            rintro ⟨_, _, nonzero⟩
            rw [stored] at nonzero
            exact h ⟨nonzero, by omega⟩
  | succ bits ih =>
      have double : 1 <<< (bits + 1) = 1 <<< bits * 2 := by rw [Nat.shiftLeft_succ, Nat.mul_comm]
      cases cells with
      | blank => simp [overlay]
      | byte value => simp [overlay, get_succ, low, high]
      | fork l h =>
          rw [overlay, half_size]
          split
          · rw [if_neg (by omega)]
          · by_cases reach : base ≤ start + (a - offset) ∧
                start + (a - offset) < base + 1 <<< (bits + 1)
            · rw [get_succ_of_lt _ _ (by omega)]
              -- the address reads from the lower half, which is laid first, or from the upper
              by_cases lower : start + (a - offset) - base < 1 <<< bits
              · have below : start + (a - offset) < base + 1 <<< bits := by omega
                rw [ih, if_neg (by omega), ih]
                simp only [lower, below, reach, low, if_true, true_and]
              · have above : base + 1 <<< bits ≤ start + (a - offset) ∧
                    start + (a - offset) < base + 1 <<< bits + 1 <<< bits := by omega
                have covered := ih l base target
                rw [if_neg (by omega)] at covered
                rw [ih, covered, ← Nat.sub_sub]
                simp only [lower, above, reach, high, if_false, true_and]
            · rw [ih, ih, if_neg (by omega), if_neg (by omega), if_neg (by omega)]

end Cells

end ScriptMachine.Memory
