import PacketPath.Memory.Page

/-! Memory: all pages ever made, and the addresses at which the device finds them.

A page is alive while a handle to it exists. Handles are counted and never inferred: whoever keeps
a page takes a handle with `retain` and gives it back with `release`. -/

set_option autoImplicit false

namespace PacketPath

structure Memory where
  pages : Array Page := #[]
  /-- The pages the device can reach, by ascending base address and at most one for each. An entry
  holds no handle, so it may outlive its page. -/
  reachable : List (UInt64 × PageId) := []
  deriving Repr, Inhabited

namespace Memory

def empty : Memory := {}

def page (memory : Memory) (id : PageId) : Page :=
  memory.pages[id.index]?.getD Page.absent

def modify (memory : Memory) (id : PageId) (change : Page → Page) : Memory :=
  { memory with pages := memory.pages.modify id.index change }

/-! ### Handles -/

def handles (memory : Memory) (id : PageId) : Nat :=
  (memory.page id).handles

def isAlive (memory : Memory) (id : PageId) : Bool :=
  0 < memory.handles id

/-- Nobody else holds the page when there is one handle. -/
def isExclusive (memory : Memory) (id : PageId) : Bool :=
  memory.handles id == 1

def retain (memory : Memory) (id : PageId) : Memory :=
  memory.modify id fun page => { page with handles := page.handles + 1 }

def release (memory : Memory) (id : PageId) : Memory :=
  memory.modify id fun page => { page with handles := page.handles - 1 }

def handleText (memory : Memory) (id : PageId) : String :=
  let base := Text.hex (memory.page id).base.toNat
  let handles := memory.handles id
  s!"PageRef \x7b paddr: {base}, refs: {handles} \x7d"

def retainAll (memory : Memory) (ids : List PageId) : Memory :=
  ids.foldl retain memory

def releaseAll (memory : Memory) (ids : List PageId) : Memory :=
  ids.foldl release memory

/-! ### New pages -/

/-- Take up bytes that exist already, under the first handle to them. -/
def adopt (memory : Memory) (base : UInt64) (bytes : Array UInt8) : PageId × Memory :=
  (⟨memory.pages.size⟩, { memory with pages := memory.pages.push ⟨base, bytes, 1⟩ })

def largestPage : Nat := 0x1000000000

/-- A page of zeros under its first handle, unless it would be empty or too large. -/
def allocate (memory : Memory) (base : UInt64) (size : Nat) : Option (PageId × Memory) :=
  if size = 0 ∨ largestPage < size then none
  else some (memory.adopt base (Array.replicate size 0))

/-! ### Bytes -/

/-- An access to a page is refused before its first byte unless the page covers all of it. -/
def access (memory : Memory) (id : PageId) (offset length : Nat) : Except Violation Unit :=
  let page := memory.page id
  if page.covers offset length then .ok () else .error (page.outside offset length)

def slice (memory : Memory) (id : PageId) (offset length : Nat) : List UInt8 :=
  (memory.page id).slice offset length

def overwrite (memory : Memory) (id : PageId) (offset : Nat) (data : List UInt8) : Memory :=
  memory.modify id (·.overwrite offset data)

/-- Copy bytes one at a time in ascending order, so that a source that overlaps the target from
below repeats. -/
def copyBytes (memory : Memory) (target : PageId) (targetOffset : Nat) (source : PageId)
    (sourceOffset : Nat) : (length : Nat) → Memory
  | 0 => memory
  | length + 1 =>
    let byte := (memory.page source).byte sourceOffset
    (memory.overwrite target targetOffset [byte]).copyBytes target (targetOffset + 1) source
      (sourceOffset + 1) length

end Memory

end PacketPath
