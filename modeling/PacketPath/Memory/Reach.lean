import PacketPath.Memory.Basic

/-! The device's view of memory: an address belongs to the page registered at the greatest base
that is not above it, if that page is alive and long enough. -/

set_option autoImplicit false

namespace PacketPath

inductive AddressFault where
  /-- No live page holds the address. -/
  | unmapped (address : UInt64)
  /-- The access begins in a page and ends outside it. -/
  | crossesPage (address : UInt64) (length : Nat)
  deriving DecidableEq, Repr

def AddressFault.message : AddressFault → String
  | .unmapped address =>
    let place := Text.hex address.toNat
    s!"dma to unmapped address {place}"
  | .crossesPage address length =>
    let place := Text.hex address.toNat
    s!"dma of {length} bytes at {place} crosses a page boundary"

namespace Memory

/-- Enter a page under its base, in place of whatever was there. -/
def enter (base : UInt64) (id : PageId) : List (UInt64 × PageId) → List (UInt64 × PageId)
  | [] => [(base, id)]
  | entry :: rest =>
    if base < entry.1 then (base, id) :: entry :: rest
    else if base = entry.1 then (base, id) :: rest
    else entry :: enter base id rest

/-- Make a page reachable at its base address. -/
def register (memory : Memory) (id : PageId) : Memory :=
  { memory with reachable := enter (memory.page id).base id memory.reachable }

def liveCount (memory : Memory) : Nat :=
  memory.reachable.countP fun entry => memory.isAlive entry.2

/-- The entry with the greatest base that is not above the address. -/
def entryBelow (memory : Memory) (address : UInt64) : Option (UInt64 × PageId) :=
  (memory.reachable.takeWhile fun entry => entry.1 ≤ address).getLast?

def resolve (memory : Memory) (address : UInt64) : Except AddressFault (PageId × Nat) :=
  match memory.entryBelow address with
  | none => .error (.unmapped address)
  | some (base, id) =>
    let offset := (address - base).toNat
    if memory.isAlive id ∧ offset < (memory.page id).size then .ok (id, offset)
    else .error (.unmapped address)

/-- The page and offset of an access that stays inside one page. -/
def locate (memory : Memory) (address : UInt64) (length : Nat) : Except AddressFault (PageId × Nat) :=
  match memory.resolve address with
  | .error fault => .error fault
  | .ok (id, offset) =>
    if offset + length ≤ (memory.page id).size then .ok (id, offset)
    else .error (.crossesPage address length)

end Memory

end PacketPath
