/-!
Blocks of memory and the list of those that are free.

Every block has a header of 16 bytes in front of its payload. A live block is
named by the offset of its payload, a free one by that of its header. The free
list is kept in address order, and neighbours are merged as soon as both are
free; `take` serves a request from the first block that is large enough,
`insert` gives a block back, and `extend` lengthens a live block into the free
block behind it.
-/

namespace ScriptMachine.Memory

/-- Bytes in front of every payload. -/
def headerSize : Nat := 16

/-- Payload sizes are multiples of this. -/
def alignment : Nat := 8

/-- The least surplus that is worth a free block of its own. -/
def leastSplit : Nat := headerSize + alignment

/-- A live block: `size` payload bytes from `offset` on, inside one page. -/
structure Block where
  page : Nat
  offset : Nat
  size : Nat
  deriving DecidableEq

namespace Block

/-- The offset of the header. -/
def header (block : Block) : Nat := block.offset - headerSize

/-- One past the last payload byte. -/
def stop (block : Block) : Nat := block.offset + block.size

end Block

/-- A free block: a header at `offset` and `size` payload bytes behind it. -/
structure FreeBlock where
  page : Nat
  offset : Nat
  size : Nat
  deriving DecidableEq

namespace FreeBlock

/-- One past the last payload byte. -/
def stop (free : FreeBlock) : Nat := free.offset + headerSize + free.size

/-- Address order: by page, then by offset. -/
def before (a b : FreeBlock) : Bool :=
  a.page < b.page || (a.page == b.page && a.offset < b.offset)

/-- Whether `b` starts where `a` stops. -/
def touches (a b : FreeBlock) : Bool :=
  a.page == b.page && a.stop == b.offset

/-- The two blocks as one, the header of `b` becoming payload. -/
def merge (a b : FreeBlock) : FreeBlock :=
  { a with size := a.size + (headerSize + b.size) }

/-- A payload of `size` bytes cut off the end of a free block, and what is
left of the block; the header of the rest stays where it is. A rest too small
to hold a block goes to the payload. -/
def carve (free : FreeBlock) (size : Nat) : Block × Option FreeBlock :=
  if size + leastSplit ≤ free.size then
    let rest := { free with size := free.size - size - headerSize }
    (⟨free.page, rest.stop + headerSize, size⟩, some rest)
  else (⟨free.page, free.offset + headerSize, free.size⟩, none)

end FreeBlock

/-- The free blocks in address order. -/
abbrev FreeList := List FreeBlock

/-- What serving a request leaves: the block, the free block whose size has
changed, if any, and the new list. -/
structure Cut where
  block : Block
  rest : Option FreeBlock
  free : FreeList

namespace FreeList

/-- Serves a request of `size` bytes from the first block that fits. -/
def take (size : Nat) : FreeList → Option Cut
  | [] => none
  | free :: others =>
      if size ≤ free.size then
        match free.carve size with
        | (block, rest) => some ⟨block, rest, rest.toList ++ others⟩
      else (take size others).map fun cut => { cut with free := free :: cut.free }

/-- Merges a block with the first of the blocks behind it, if they touch. -/
def absorbNext (block : FreeBlock) : FreeList → FreeBlock × FreeList
  | [] => (block, [])
  | next :: others =>
      if block.touches next then (block.merge next, others) else (block, next :: others)

/-- Gives a block back. Also returns the block it became part of. -/
def insert (block : FreeBlock) : FreeList → FreeBlock × FreeList
  | [] => (block, [block])
  | free :: others =>
      if !free.before block then
        match absorbNext block (free :: others) with
        | (block, later) => (block, block :: later)
      else if free.touches block then
        match absorbNext block others with
        | (block, later) => (free.merge block, free.merge block :: later)
      else
        match insert block others with
        | (merged, others) => (merged, free :: others)

/-- Lengthens a live block by at least `extra` bytes into the free block that
starts where it stops, if that is large enough. -/
def extend (block : Block) (extra : Nat) : FreeList → Option Cut
  | [] => none
  | next :: others =>
      if next.page = block.page ∧ next.offset = block.stop then
        let available := headerSize + next.size
        if extra ≤ available then
          if leastSplit ≤ available - extra then
            let rest := { next with offset := next.offset + extra, size := next.size - extra }
            some ⟨{ block with size := block.size + extra }, some rest, rest :: others⟩
          else some ⟨{ block with size := block.size + available }, none, others⟩
        else none
      else (extend block extra others).map fun cut => { cut with free := next :: cut.free }

/-- The payload bytes of all free blocks. -/
def bytes : FreeList → Nat
  | [] => 0
  | free :: rest => free.size + bytes rest

end FreeList

end ScriptMachine.Memory
