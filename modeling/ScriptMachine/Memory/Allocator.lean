import ScriptMachine.Action
import ScriptMachine.Memory.FreeList
import ScriptMachine.Memory.LittleEndian
import ScriptMachine.Memory.Page

/-!
A first-fit allocator over pages.

`Allocator.allocate` serves a request from the free list and maps a further
page when nothing fits; `Allocator.free` gives a block back; `Allocator.grow`
makes a block longer, in place if the block behind it is free and large
enough, and else by moving its contents. Each block's header holds the size of
its payload and a tag that tells live blocks from free ones.

Whether a page of some length can be had is not up to the allocator:
`Allocator.grants` decides.
-/

namespace ScriptMachine.Memory

/-- What the header says about a block. -/
inductive Tag where
  | free
  | used
  deriving DecidableEq

/-- The word that stands for a tag. -/
def Tag.code : Tag → Nat
  | free => 0xF4EE
  | used => 0x05ED

/-- The state of the allocator. -/
structure Allocator where
  /-- The length of the smallest page, a power of two. -/
  pageSize : Nat
  pages : Array Page
  freeList : FreeList
  /-- Payload bytes of all live blocks. -/
  allocated : Nat
  /-- Bytes of all pages. -/
  mapped : Nat
  /-- Whether a page of this length can be mapped. -/
  grants : Nat → Bool

/-- Rounds a size up to a multiple of the alignment, if that is a word. -/
def align? (size : Nat) : Option Nat :=
  if size + (alignment - 1) < wordLimit then
    some ((size + (alignment - 1)) / alignment * alignment)
  else none

/-- The first of `length`, its double, and so on, that is at least `needed`;
none if that is no longer a word. No word can be doubled 64 times. -/
def pageLength (needed : Nat) : (doublings length : Nat) → Option Nat
  | 0, length => if needed ≤ length then some length else none
  | doublings + 1, length =>
      if needed ≤ length then some length
      else if length * 2 < wordLimit then pageLength needed doublings (length * 2)
      else none

namespace Allocator

/-- An allocator without pages. The page size has to be a machine word and a
power of two with room for two headers. -/
def create (pageSize : Nat) (grants : Nat → Bool) : Result Allocator :=
  if 1 <<< pageSize.log2 = pageSize ∧ headerSize * 2 ≤ pageSize ∧ pageSize < wordLimit then
    .ok ⟨pageSize, #[], [], 0, 0, grants⟩
  else Result.abort .badPageSize

/-- Payload bytes of all free blocks. -/
def freeBytes (a : Allocator) : Nat := a.freeList.bytes

/-- The byte of a page at an offset. -/
def byte? (a : Allocator) (page offset : Nat) : Option UInt8 :=
  (a.pages[page]?).map (·.byte offset)

/-- The bytes of a page from `offset` on. -/
def read (a : Allocator) (page offset count : Nat) : List UInt8 :=
  match a.pages[page]? with
  | some p => p.read offset count
  | none => []

/-- Stores bytes into a page from `offset` on. -/
def write (a : Allocator) (page offset : Nat) (bytes : List UInt8) : Allocator :=
  { a with pages := a.pages.modify page (·.write offset bytes) }

/-- Zeroes bytes of a page. -/
def clear (a : Allocator) (page offset count : Nat) : Allocator :=
  { a with pages := a.pages.modify page (·.clear offset count) }

/-- The payload of a block. -/
def bytes (a : Allocator) (block : Block) : List UInt8 :=
  a.read block.page block.offset block.size

/-- Copies the payload of `source` to the start of that of `target`, which is
still all zero and not shorter. -/
def copy (a : Allocator) (source target : Block) : Allocator :=
  match a.pages[source.page]? with
  | some page =>
      let lay (below : Page) := below.overlay target.offset page source.offset source.size
      { a with pages := a.pages.modify target.page lay }
  | none => a

/-- Writes the header at `offset`. -/
def writeHeader (a : Allocator) (page offset size : Nat) (tag : Tag) : Allocator :=
  a.write page offset (littleEndian 8 size ++ littleEndian 8 tag.code)

/-- The size and the tag word in the header at `offset`. -/
def readHeader (a : Allocator) (page offset : Nat) : Nat × Nat :=
  (ofLittleEndian (a.read page offset 8), ofLittleEndian (a.read page (offset + 8) 8))

/-- Writes the header of a free block whose size has changed. -/
def writeFree (a : Allocator) (free : FreeBlock) : Allocator :=
  a.writeHeader free.page free.offset free.size .free

/-- Writes the header of what is left of a free block, if anything is. -/
def writeRest (a : Allocator) : Option FreeBlock → Allocator
  | some rest => a.writeFree rest
  | none => a

/-- Gives a block back to the free list, merged with its neighbours. -/
def release (a : Allocator) (block : FreeBlock) : Allocator :=
  match a.freeList.insert block with
  | (merged, free) => { a with freeList := free }.writeFree merged

/-- Cuts `size` bytes out of the first free block that fits. -/
def takeFit (a : Allocator) (size : Nat) : Option Block × Allocator :=
  match a.freeList.take size with
  | none => (none, a)
  | some cut =>
      (some cut.block, { a with freeList := cut.free }.writeRest cut.rest)

/-- Maps a page with room for `size` bytes and puts it on the free list. -/
def mapPage (size : Nat) : Action Allocator Unit := do
  if wordLimit ≤ size + headerSize then Action.abort .wordOverflow
  let a ← get
  match pageLength (size + headerSize) 64 a.pageSize with
  | none => Action.raise (.outOfMemory size)
  | some length =>
      if !a.grants length then Action.raise (.outOfMemory length)
      Action.note (.pageMapped a.pages.size length)
      modify fun a =>
        let a := { a with pages := a.pages.push (Page.blank length), mapped := a.mapped + length }
        a.release ⟨a.pages.size - 1, 0, length - headerSize⟩

/-- A block of at least `size` bytes, which is aligned, off the free list. A
page is mapped first if nothing fits. -/
def reserve (size : Nat) : Action Allocator Block := do
  match ← modifyGet (·.takeFit size) with
  | some block => pure block
  | none =>
      mapPage size
      match ← modifyGet (·.takeFit size) with
      | some block => pure block
      | none => Action.raise (.outOfMemory size)

/-- Marks a block as live and zeroes its payload. -/
def claim (a : Allocator) (block : Block) : Allocator :=
  let a := a.writeHeader block.page block.header block.size .used
  let a := a.clear block.page block.offset block.size
  { a with allocated := a.allocated + block.size }

/-- Allocates `size` zero bytes, at least one and aligned. -/
def allocate (size : Nat) : Action Allocator Block := do
  match align? (max size 1) with
  | none => Action.raise (.outOfMemory size)
  | some aligned =>
      let block ← reserve aligned
      modify (·.claim block)
      Action.note (.blockAllocated block.size block.page block.offset)
      pure block

/-- Gives a live block back. Its header has to say that it is live. -/
def free (block : Block) : Action Allocator Unit := do
  let a ← get
  if a.readHeader block.page block.header ≠ (block.size, Tag.used.code) then
    Action.abort .deadBlock
  if a.allocated < block.size then Action.abort .wordOverflow
  Action.note (.blockFreed block.size block.page block.offset)
  if a.freeList.any fun b => b.page = block.page ∧ b.offset = block.header then
    Action.abort .deadBlock
  modify fun a =>
    { a with allocated := a.allocated - block.size }.release
      ⟨block.page, block.header, block.size⟩

/-- A block of at least `size` bytes with the contents of `block` at its
start and zeros behind; `block` itself is no longer live if it had to move. -/
def grow (block : Block) (size : Nat) : Action Allocator Block := do
  match align? size with
  | none => Action.raise (.outOfMemory size)
  | some aligned =>
      if aligned ≤ block.size then return block
      match (← get).freeList.extend block (aligned - block.size) with
      | some cut =>
          let grown := cut.block
          modify fun a =>
            let a := { a with freeList := cut.free }.writeRest cut.rest
            let a := a.writeHeader grown.page grown.header grown.size .used
            let a := a.clear block.page block.stop (grown.size - block.size)
            { a with allocated := a.allocated + (grown.size - block.size) }
          pure grown
      | none =>
          let grown ← allocate aligned
          modify (·.copy block grown)
          free block
          pure grown

end Allocator

end ScriptMachine.Memory
