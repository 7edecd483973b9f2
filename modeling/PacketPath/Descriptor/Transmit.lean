import PacketPath.Word
import PacketPath.Text.Flags

/-! Transmit descriptors: 16 bytes that tell the device where a piece of a frame lies and what to
do with it, and that tell the driver afterwards how it went. -/

set_option autoImplicit false

namespace PacketPath

structure TransmitCommand where
  bits : UInt8
  deriving DecidableEq, Repr, Inhabited

namespace TransmitCommand

instance : Flags TransmitCommand where
  title := "TxCommand"
  named := [(0x01, "EOP"), (0x02, "IFCS"), (0x04, "IC"), (0x08, "RS"), (0x10, "RPS"),
    (0x20, "DEXT"), (0x40, "VLE"), (0x80, "IDE")]
  bits command := command.bits.toNat

/-- Report completion, after the usual interrupt delay; the last piece of a frame also ends it. -/
def posting (endsFrame : Bool) : TransmitCommand :=
  ⟨if endsFrame then 0x89 else 0x88⟩

def endsFrame (command : TransmitCommand) : Bool :=
  command.bits &&& 0x01 != 0

def reportsStatus (command : TransmitCommand) : Bool :=
  command.bits &&& 0x08 != 0

end TransmitCommand

structure TransmitStatus where
  bits : UInt8
  deriving DecidableEq, Repr, Inhabited

namespace TransmitStatus

instance : Flags TransmitStatus where
  title := "TxStatus"
  named := [(0x01, "DD"), (0x02, "EC"), (0x04, "LC"), (0x08, "TU")]
  bits status := status.bits.toNat

def pending : TransmitStatus := ⟨0⟩

def done : TransmitStatus := ⟨0x01⟩

def isDone (status : TransmitStatus) : Bool :=
  status.bits &&& 0x01 != 0

/-- Too many collisions, or one too late. -/
def hasCollision (status : TransmitStatus) : Bool :=
  status.bits &&& 0x06 != 0

def hasUnderrun (status : TransmitStatus) : Bool :=
  status.bits &&& 0x08 != 0

end TransmitStatus

structure TransmitDescriptor where
  address : UInt64 := 0
  length : UInt16 := 0
  checksumOffset : UInt8 := 0
  command : TransmitCommand := ⟨0⟩
  status : TransmitStatus := .pending
  checksumStart : UInt8 := 0
  special : UInt16 := 0
  deriving DecidableEq, Repr, Inhabited

namespace TransmitDescriptor

def statusOffset : Nat := 12

def encode (descriptor : TransmitDescriptor) : List UInt8 :=
  Word.bytes 8 descriptor.address.toNat ++ Word.bytes 2 descriptor.length.toNat ++
    [descriptor.checksumOffset, descriptor.command.bits, descriptor.status.bits,
      descriptor.checksumStart] ++
    Word.bytes 2 descriptor.special.toNat

def decode (raw : List UInt8) : TransmitDescriptor where
  address := UInt64.ofNat (Word.ofBytes (raw.take 8))
  length := UInt16.ofNat (Word.ofBytes ((raw.drop 8).take 2))
  checksumOffset := raw.getD 10 0
  command := ⟨raw.getD 11 0⟩
  status := ⟨raw.getD 12 0⟩
  checksumStart := raw.getD 13 0
  special := UInt16.ofNat (Word.ofBytes ((raw.drop 14).take 2))

@[simp] theorem length_encode (descriptor : TransmitDescriptor) : descriptor.encode.length = 16 := by
  simp [encode]

end TransmitDescriptor

end PacketPath
