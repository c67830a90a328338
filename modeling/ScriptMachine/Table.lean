import ScriptMachine.Action
import ScriptMachine.Hash

/-!
Hash tables with chains.

The head of every chain stands in a slot; the rest of the chain is a doubly
linked list of nodes in an arena, in which vacated places are used again, last
vacated first. Keys are compared by hash alone: two keys with one hash are the
same key, and the scalar of the first one stored is kept.

`Table.entries` lists the contents, heads by slot and then nodes by place in
the arena; this is the order in which a table is printed and rehashed. A table
doubles its slots before an insertion would fill more than three quarters of
them.
-/

namespace ScriptMachine

/-- A scalar with its hash. -/
structure Key where
  hash : UInt64
  scalar : Scalar
  deriving DecidableEq

namespace Table

/-- A key with its value, and the node that comes next in the chain. -/
structure Entry where
  key : Key
  value : Value
  next : Option Nat
  deriving DecidableEq

/-- A place where an entry stands: the head of a chain or a later member. -/
inductive Link where
  | slot (index : Nat)
  | node (index : Nat)
  deriving DecidableEq

/-- A member of a chain behind the head, and the place before it. -/
structure Node where
  entry : Entry
  prev : Link
  deriving DecidableEq

/-- The node with its entry changed. -/
def Node.mapEntry (f : Entry → Entry) (node : Node) : Node := { node with entry := f node.entry }

/-- The least number of slots. -/
def leastSlots : Nat := 8

/-- Bytes charged for a slot. -/
def slotWidth : Nat := 56

/-- Bytes charged for a place in the arena. -/
def nodeWidth : Nat := 72

end Table

/-- A hash table. -/
structure Table where
  slots : Array (Option Table.Entry)
  nodes : Array (Option Table.Node)
  /-- Places of the arena without a node, last vacated first. -/
  vacant : List Nat
  count : Nat
  deriving DecidableEq

namespace Table

/-- The least power of two that is at least `n`. -/
def powerOfTwoFrom (n : Nat) : Nat :=
  if 1 <<< n.log2 = n then n else 1 <<< (n.log2 + 1)

/-- An empty table with `slots` slots. -/
def blank (slots : Nat) : Table := ⟨Array.replicate slots none, #[], [], 0⟩

/-- An empty table with the least number of slots. -/
def empty : Table := blank leastSlots

instance : Inhabited Table := ⟨empty⟩

/-- An empty table with at least `capacity` slots, a power of two, if the
address space has that room. -/
def withCapacity (capacity : Nat) : Result Table :=
  let slots := powerOfTwoFrom (max capacity leastSlots)
  if slots * slotWidth < bufferLimit then .ok (blank slots) else Result.abort .bufferOverflow

/-- The number of slots. -/
def capacity (t : Table) : Nat := t.slots.size

/-- Whether there are no entries. -/
def isEmpty (t : Table) : Bool := t.count = 0

/-- The keys with their values: heads of chains first. -/
def entries (t : Table) : List (Key × Value) :=
  let heads := t.slots.toList.filterMap id
  let chained := t.nodes.toList.filterMap fun node => node.map Node.entry
  (heads ++ chained).map fun entry => (entry.key, entry.value)

/-- The bytes that a table is charged for. -/
def footprint (t : Table) : Nat := t.slots.size * slotWidth + t.nodes.size * nodeWidth

/-! ### Following chains -/

/-- The slot where the chain for a hash begins. -/
def slotOf (t : Table) (hash : UInt64) : Nat := hash.toNat % t.capacity

/-- The node at a place of the arena. -/
def node (t : Table) (index : Nat) : Result Node :=
  match t.nodes[index]? with
  | some (some node) => .ok node
  | some none => Result.abort .brokenChain
  | none => Result.abort .outOfRange

/-- The head of a chain, if the slot holds one. -/
def head? (t : Table) (index : Nat) : Result (Option Entry) :=
  match t.slots[index]? with
  | some head => .ok head
  | none => Result.abort .outOfRange

/-- The entry at a link. -/
def entry (t : Table) : Link → Result Entry
  | .slot index => do
      match ← t.head? index with
      | some entry => .ok entry
      | none => Result.abort .brokenChain
  | .node index => return (← t.node index).entry

/-- Looks for a hash from the node `next` on. A chain has at most as many
nodes as the arena, which bounds the search. -/
def findFrom (t : Table) (hash : UInt64) : (fuel : Nat) → (next : Option Nat) → Result (Option Link)
  | _, none => .ok none
  | 0, some _ => Result.abort .brokenChain
  | fuel + 1, some index => do
      let node ← t.node index
      if node.entry.key.hash = hash then .ok (some (.node index))
      else findFrom t hash fuel node.entry.next

/-- The link to the entry with a hash. -/
def find (t : Table) (hash : UInt64) : Result (Option Link) := do
  let slot := t.slotOf hash
  match ← t.head? slot with
  | none => .ok none
  | some head =>
      if head.key.hash = hash then .ok (some (.slot slot))
      else findFrom t hash t.nodes.size head.next

/-- The last link of a chain, `tail` being a link of it and `next` what
follows there. -/
def lastFrom (t : Table) : (fuel : Nat) → (tail : Link) → (next : Option Nat) → Result Link
  | _, tail, none => .ok tail
  | 0, _, some _ => Result.abort .brokenChain
  | fuel + 1, _, some index => do
      let node ← t.node index
      lastFrom t fuel (.node index) node.entry.next

/-- The value stored under a hash. -/
def get? (t : Table) (hash : UInt64) : Result (Option Value) := do
  match ← t.find hash with
  | some link => return some (← t.entry link).value
  | none => return none

/-! ### Changing entries -/

/-- Changes the entry at a link. -/
def updateEntry (t : Table) (link : Link) (f : Entry → Entry) : Table :=
  match link with
  | .slot index => { t with slots := t.slots.modify index (·.map f) }
  | .node index => { t with nodes := t.nodes.modify index (·.map (·.mapEntry f)) }

/-- Sets what comes before a node. -/
def setPrev (t : Table) (index : Nat) (prev : Link) : Table :=
  { t with nodes := t.nodes.modify index (·.map fun node => { node with prev := prev }) }

/-- Sets what comes before the node `next`, if there is one. -/
def relink (t : Table) (next : Option Nat) (prev : Link) : Result Table :=
  match next with
  | none => .ok t
  | some index => do
      let _ ← t.node index
      return t.setPrev index prev

/-- Sets what comes after the entry at a link. A slot without an entry is
left as it is. -/
def setNext (t : Table) (link : Link) (next : Option Nat) : Result Table := do
  match link with
  | .slot index => let _ ← t.head? index
  | .node index => let _ ← t.node index
  return t.updateEntry link fun entry => { entry with next := next }

/-- Puts a node into the arena, at the place vacated last if there is one. -/
def acquire (t : Table) (node : Node) : Result (Nat × Table) :=
  match t.vacant with
  | index :: vacant =>
      if index < t.nodes.size then
        .ok (index, { t with nodes := t.nodes.setIfInBounds index (some node), vacant := vacant })
      else Result.abort .outOfRange
  | [] => .ok (t.nodes.size, { t with nodes := t.nodes.push (some node) })

/-- Takes a node out of the arena. -/
def release (t : Table) (index : Nat) : Result (Node × Table) := do
  let node ← t.node index
  return (node, { t with nodes := t.nodes.setIfInBounds index none, vacant := index :: t.vacant })

/-- Adds an entry whose key is not in the table, at the end of its chain. -/
def place (t : Table) (key : Key) (value : Value) : Result Table := do
  let slot := t.slotOf key.hash
  let entry : Entry := ⟨key, value, none⟩
  match ← t.head? slot with
  | none => return { t with slots := t.slots.setIfInBounds slot (some entry) }
  | some head =>
      let tail ← t.lastFrom t.nodes.size (.slot slot) head.next
      let (index, t) ← t.acquire ⟨entry, tail⟩
      return t.updateEntry tail fun entry => { entry with next := some index }

/-- Adds entries one by one. -/
def placeAll : (entries : List (Key × Value)) → (t : Table) → Result Table
  | [], t => .ok t
  | (key, value) :: entries, t => do placeAll entries (← t.place key value)

/-- A table with `slots` slots and the same entries. -/
def rehash (t : Table) (slots : Nat) : Result Table := do
  let grown ← placeAll t.entries (← withCapacity slots)
  return { grown with count := t.count }

/-- Whether one more entry would fill more than three quarters of the slots. -/
def isCrowded (t : Table) : Bool := 3 * t.capacity < 4 * (t.count + 1)

/-- Stores a value under a key and returns the value it replaces. -/
def insert (key : Key) (value : Value) : Action Table (Option Value) := do
  let t ← get
  match ← t.find key.hash with
  | some link =>
      let entry ← t.entry link
      set (t.updateEntry link fun entry => { entry with value := value })
      return some entry.value
  | none =>
      let t ← if t.isCrowded then do
          Action.note (.tableGrew t.capacity (t.capacity * 2))
          t.rehash (t.capacity * 2)
        else pure t
      let t ← t.place key value
      set { t with count := t.count + 1 }
      return none

/-- The table without the entry at a link, `entry` being that entry. The first
node of a chain moves up when the head is removed. -/
def unlink (t : Table) (entry : Entry) : Link → Result Table
  | .slot index => do
      match entry.next with
      | none => return { t with slots := t.slots.setIfInBounds index none }
      | some next =>
          let (node, t) ← t.release next
          let t ← t.relink node.entry.next (.slot index)
          return { t with slots := t.slots.setIfInBounds index (some node.entry) }
  | .node index => do
      let (node, t) ← t.release index
      let t ← t.setNext node.prev node.entry.next
      t.relink node.entry.next node.prev

/-- Removes the entry with a hash and returns its value. -/
def remove (hash : UInt64) : Action Table (Option Value) := do
  let t ← get
  match ← t.find hash with
  | none => return none
  | some link =>
      let entry ← t.entry link
      let t ← t.unlink entry link
      set { t with count := t.count - 1 }
      return some entry.value

end Table

end ScriptMachine
