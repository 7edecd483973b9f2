import PacketPath.Text.Hex

/-! Broken preconditions. A step that meets one stops there and keeps what it has changed so far;
the library never continues past it. -/

set_option autoImplicit false

namespace PacketPath

/-- A precondition that a caller broke. -/
inductive Violation where
  /-- A page access that does not lie inside the page. -/
  | pageAccess (offset length size : Nat) (base : UInt64)
  /-- A register access that is misaligned or outside the mapped window. -/
  | windowAccess (offset size : Nat)
  /-- An address that would lie past the last one. -/
  | addressOverflow (base offset : Nat)
  /-- A length in bytes that no run of memory can have. -/
  | sizeOverflow (length : Nat)
  /-- A descriptor table that is longer than its page. -/
  | tableSize (count size : Nat)
  /-- A descriptor index at or past the end of the table. -/
  | descriptorIndex (index count : Nat)
  /-- A ring without slots that is to be handed to the device. -/
  | emptyRing
  /-- A receive pool whose length differs from the ring's. -/
  | poolSize
  /-- A receive buffer shorter than the device may fill. -/
  | bufferSize (slot required : Nat)
  /-- A receive buffer asked for at or past the end of the ring. -/
  | bufferIndex (slot : Nat)
  /-- A multicast table entry at or past the end of the table. -/
  | multicastIndex (index : Nat)
  deriving DecidableEq, Repr

/-- The wording of a violation; those that no check of the library names have none. -/
def Violation.message : Violation → Option String
  | .pageAccess offset length size base =>
    let position := Text.hex offset
    let address := Text.hex base.toNat
    some s!"dma access {position}+{length} outside {size}-byte frame at {address}"
  | .windowAccess offset size =>
    let position := Text.hex offset
    let extent := Text.hex size
    some s!"mmio offset {position} outside {extent}-byte window"
  | .addressOverflow .. => none
  | .sizeOverflow _ => none
  | .tableSize count size => some s!"{count} descriptors do not fit a {size}-byte page"
  | .descriptorIndex index count => some s!"descriptor {index} outside {count}-entry ring"
  | .emptyRing => none
  | .poolSize => some "receive pool must hold one page per descriptor"
  | .bufferSize slot required => some s!"receive buffer {slot} smaller than {required} bytes"
  | .bufferIndex _ => none
  | .multicastIndex index => some s!"mta index {index} out of range"

end PacketPath
