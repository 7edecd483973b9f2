import PacketPath.Machine
import PacketPath.Limits
import PacketPath.Descriptor.Transmit
import PacketPath.Descriptor.Receive

/-! Descriptor tables: descriptors one after the other from the start of a page. Both kinds of
descriptor are 16 bytes, so a table is an array of cells that either kind may be read from. -/

set_option autoImplicit false

namespace PacketPath

structure DescriptorTable where
  page : PageId
  length : Nat
  deriving DecidableEq, Repr

namespace DescriptorTable

variable {δ ε : Type}

def byteLength (table : DescriptorTable) : Nat :=
  table.length * Limits.descriptorSize

/-- Lay out a table of zeroed descriptors in a page that is long enough for it. A length in bytes
that is no 64-bit number is stopped on its own account. -/
def create (page : PageId) (length : Nat) : Step ε (Machine δ) DescriptorTable := do
  let table : DescriptorTable := ⟨page, length⟩
  if 0x10000000000000000 ≤ table.byteLength then
    Step.violate (.sizeOverflow table.byteLength)
  let size ← Machine.sizeOf page
  if size < table.byteLength then
    Step.violate (.tableSize length size)
  Machine.fill page 0 table.byteLength 0
  return table

def position (index : Nat) : Nat :=
  index * Limits.descriptorSize

def check (table : DescriptorTable) (index : Nat) : Step ε (Machine δ) Unit :=
  if index < table.length then pure () else Step.violate (.descriptorIndex index table.length)

def readRaw (table : DescriptorTable) (index : Nat) : Step ε (Machine δ) (List UInt8) := do
  table.check index
  Machine.readBytes table.page (position index) Limits.descriptorSize

def writeRaw (table : DescriptorTable) (index : Nat) (raw : List UInt8) : Step ε (Machine δ) Unit := do
  table.check index
  Machine.writeBytes table.page (position index) raw

def readByte (table : DescriptorTable) (index offset : Nat) : Step ε (Machine δ) UInt8 := do
  table.check index
  return UInt8.ofNat (← Machine.readWord 1 table.page (position index + offset))

def readTransmit (table : DescriptorTable) (index : Nat) : Step ε (Machine δ) TransmitDescriptor := do
  return .decode (← table.readRaw index)

def writeTransmit (table : DescriptorTable) (index : Nat) (descriptor : TransmitDescriptor) :
    Step ε (Machine δ) Unit :=
  table.writeRaw index descriptor.encode

def readReceive (table : DescriptorTable) (index : Nat) : Step ε (Machine δ) ReceiveDescriptor := do
  return .decode (← table.readRaw index)

def writeReceive (table : DescriptorTable) (index : Nat) (descriptor : ReceiveDescriptor) :
    Step ε (Machine δ) Unit :=
  table.writeRaw index descriptor.encode

def transmitStatus (table : DescriptorTable) (index : Nat) : Step ε (Machine δ) TransmitStatus := do
  return ⟨← table.readByte index TransmitDescriptor.statusOffset⟩

def receiveStatus (table : DescriptorTable) (index : Nat) : Step ε (Machine δ) ReceiveStatus := do
  return ⟨← table.readByte index ReceiveDescriptor.statusOffset⟩

end DescriptorTable

end PacketPath
