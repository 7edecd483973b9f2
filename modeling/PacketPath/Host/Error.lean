import PacketPath.Memory.Reach

/-! What the emulated platform and its device refuse. -/

set_option autoImplicit false

namespace PacketPath

inductive HostError where
  /-- As many pages as the platform may hand out are handed out. -/
  | outOfPages (limit : Nat)
  | outOfMemory
  /-- Nothing answers at the addresses. -/
  | noDevice (base : UInt64) (size : Nat)
  /-- The device addressed memory that it cannot reach. -/
  | address (fault : AddressFault)
  /-- A frame that no receive buffer can hold. -/
  | frameTooLong (length : Nat)
  | receiverDisabled
  /-- The driver owns every slot; the frame is lost. -/
  | ringFull
  deriving DecidableEq, Repr

def HostError.message : HostError → String
  | .outOfPages limit => s!"dma page budget of {limit} pages exhausted"
  | .outOfMemory => "host allocator returned no memory"
  | .noDevice base size =>
    let first := Text.hex base.toNat
    let extent := Text.hex size
    s!"no device at {first}+{extent}"
  | .address fault => fault.message
  | .frameTooLong length => s!"frame of {length} bytes exceeds the receive buffer"
  | .receiverDisabled => "receiver disabled"
  | .ringFull => "receive ring full"

end PacketPath
