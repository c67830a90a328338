import ScriptMachine.Memory.Cells

/-!
Pages: regions of memory that are all zero when they are mapped. The length of
a page is a power of two.
-/

namespace ScriptMachine.Memory

/-- A region of `2 ^ depth` bytes. -/
structure Page where
  depth : Nat
  cells : Cells

namespace Page

/-- A fresh page of `length` bytes, which is a power of two. -/
def blank (length : Nat) : Page := ⟨length.log2, .blank⟩

/-- The number of bytes of a page. -/
def length (page : Page) : Nat := 1 <<< page.depth

/-- The byte at an offset. -/
def byte (page : Page) (offset : Nat) : UInt8 := page.cells.get page.depth offset

/-- The `count` bytes from `offset` on, which all lie in the page. -/
def read (page : Page) (offset count : Nat) : List UInt8 :=
  page.cells.list page.depth page.length offset (offset + count) []

/-- Stores bytes from `offset` on. -/
def write (page : Page) (offset : Nat) (values : List UInt8) : Page :=
  { page with cells := (page.cells.store page.depth offset values).1 }

/-- Zeroes `count` bytes from `offset` on. -/
def clear (page : Page) (offset count : Nat) : Page :=
  { page with cells := page.cells.clear page.depth page.length offset (offset + count) }

/-- Lays `count` bytes of another page, those from `start` on, over the bytes
from `offset` on. Zeros do not cover what is there. -/
def overlay (page : Page) (offset : Nat) (source : Page) (start count : Nat) : Page :=
  { page with
    cells := .overlay start count offset page.depth source.depth source.length source.cells 0
      page.cells }

end Page

end ScriptMachine.Memory
