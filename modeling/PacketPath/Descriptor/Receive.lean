import PacketPath.Word
import PacketPath.Text.Flags

/-! Receive descriptors: 16 bytes that tell the device where a frame may be put, and that tell the
driver afterwards what was put there. -/

set_option autoImplicit false

namespace PacketPath

structure ReceiveStatus where
  bits : UInt8
  deriving DecidableEq, Repr, Inhabited

namespace ReceiveStatus

instance : Flags ReceiveStatus where
  title := "RxStatus"
  named := [(0x01, "DD"), (0x02, "EOP"), (0x04, "IXSM"), (0x08, "VP"), (0x20, "TCPCS"),
    (0x40, "IPCS"), (0x80, "PIF")]
  bits status := status.bits.toNat

def pending : ReceiveStatus := ⟨0⟩

def complete : ReceiveStatus := ⟨0x03⟩

def isDone (status : ReceiveStatus) : Bool :=
  status.bits &&& 0x01 != 0

def endsFrame (status : ReceiveStatus) : Bool :=
  status.bits &&& 0x02 != 0

end ReceiveStatus

structure ReceiveErrors where
  bits : UInt8
  deriving DecidableEq, Repr, Inhabited

namespace ReceiveErrors

instance : Flags ReceiveErrors where
  title := "RxErrors"
  named := [(0x01, "CE"), (0x02, "SE"), (0x04, "SEQ"), (0x10, "CXE"), (0x20, "TCPE"),
    (0x40, "IPE"), (0x80, "RXE")]
  bits errors := errors.bits.toNat

def none : ReceiveErrors := ⟨0⟩

/-- The errors after which a frame is of no use. The two checksum errors are not among them: they
are reported only when checksums are offloaded, which never happens here. -/
def fatal : ReceiveErrors := ⟨0x97⟩

def spoilFrame (errors : ReceiveErrors) : Bool :=
  errors.bits &&& fatal.bits != 0

end ReceiveErrors

structure ReceiveDescriptor where
  address : UInt64 := 0
  length : UInt16 := 0
  checksum : UInt16 := 0
  status : ReceiveStatus := .pending
  errors : ReceiveErrors := .none
  special : UInt16 := 0
  deriving DecidableEq, Repr, Inhabited

namespace ReceiveDescriptor

def statusOffset : Nat := 12

def encode (descriptor : ReceiveDescriptor) : List UInt8 :=
  Word.bytes 8 descriptor.address.toNat ++ Word.bytes 2 descriptor.length.toNat ++
    Word.bytes 2 descriptor.checksum.toNat ++ [descriptor.status.bits, descriptor.errors.bits] ++
    Word.bytes 2 descriptor.special.toNat

/-- The descriptor in the first 16 of the given bytes. Bits without a name are kept. -/
def decode (raw : List UInt8) : ReceiveDescriptor where
  address := UInt64.ofNat (Word.ofBytes (raw.take 8))
  length := UInt16.ofNat (Word.ofBytes ((raw.drop 8).take 2))
  checksum := UInt16.ofNat (Word.ofBytes ((raw.drop 10).take 2))
  status := ⟨raw.getD 12 0⟩
  errors := ⟨raw.getD 13 0⟩
  special := UInt16.ofNat (Word.ofBytes ((raw.drop 14).take 2))

@[simp] theorem length_encode (descriptor : ReceiveDescriptor) : descriptor.encode.length = 16 := by
  simp [encode]

def empty (address : UInt64) : ReceiveDescriptor :=
  { address := address }

end ReceiveDescriptor

end PacketPath
