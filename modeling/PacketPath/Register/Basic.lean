/-! The controller's registers: names, offsets, and the bits that the driver uses. -/

set_option autoImplicit false

namespace PacketPath

inductive Register where
  | control
  | status
  | causeRead
  | maskSet
  | maskClear
  | receiveControl
  | transmitControl
  | transmitGap
  | receiveBaseLow
  | receiveBaseHigh
  | receiveLength
  | receiveHead
  | receiveTail
  | smallPacketDetect
  | transmitBaseLow
  | transmitBaseHigh
  | transmitLength
  | transmitHead
  | transmitTail
  | transmitDelay
  | multicastTable
  | addressLow
  | addressHigh
  deriving DecidableEq, Repr

namespace Register

def all : List Register :=
  [.control, .status, .causeRead, .maskSet, .maskClear, .receiveControl, .transmitControl,
    .transmitGap, .receiveBaseLow, .receiveBaseHigh, .receiveLength, .receiveHead, .receiveTail,
    .smallPacketDetect, .transmitBaseLow, .transmitBaseHigh, .transmitLength, .transmitHead,
    .transmitTail, .transmitDelay, .multicastTable, .addressLow, .addressHigh]

/-- Bytes from the start of the register window. -/
def offset : Register → Nat
  | .control => 0x0000
  | .status => 0x0008
  | .causeRead => 0x00C0
  | .maskSet => 0x00D0
  | .maskClear => 0x00D8
  | .receiveControl => 0x0100
  | .transmitControl => 0x0400
  | .transmitGap => 0x0410
  | .receiveBaseLow => 0x2800
  | .receiveBaseHigh => 0x2804
  | .receiveLength => 0x2808
  | .receiveHead => 0x2810
  | .receiveTail => 0x2818
  | .smallPacketDetect => 0x2C00
  | .transmitBaseLow => 0x3800
  | .transmitBaseHigh => 0x3804
  | .transmitLength => 0x3808
  | .transmitHead => 0x3810
  | .transmitTail => 0x3818
  | .transmitDelay => 0x3820
  | .multicastTable => 0x5200
  | .addressLow => 0x5400
  | .addressHigh => 0x5404

def mnemonic : Register → String
  | .control => "CTRL"
  | .status => "STATUS"
  | .causeRead => "ICR"
  | .maskSet => "IMS"
  | .maskClear => "IMC"
  | .receiveControl => "RCTL"
  | .transmitControl => "TCTL"
  | .transmitGap => "TIPG"
  | .receiveBaseLow => "RDBAL"
  | .receiveBaseHigh => "RDBAH"
  | .receiveLength => "RDLEN"
  | .receiveHead => "RDH"
  | .receiveTail => "RDT"
  | .smallPacketDetect => "RSRPD"
  | .transmitBaseLow => "TDBAL"
  | .transmitBaseHigh => "TDBAH"
  | .transmitLength => "TDLEN"
  | .transmitHead => "TDH"
  | .transmitTail => "TDT"
  | .transmitDelay => "TIDV"
  | .multicastTable => "MTA"
  | .addressLow => "RAL0"
  | .addressHigh => "RAH0"

def ofMnemonic? (name : String) : Option Register :=
  all.find? fun register => register.mnemonic == name

theorem mem_all (register : Register) : register ∈ all := by
  cases register <;> decide

theorem offset_injective {first second : Register} (same : first.offset = second.offset) :
    first = second := by
  have distinct : ∀ one ∈ all, ∀ other ∈ all, one.offset = other.offset → one = other := by
    decide
  exact distinct first (mem_all first) second (mem_all second) same

def multicastEntries : Nat := 128

/-- The least window that holds every register. -/
def windowSize : Nat := addressHigh.offset + 4

/-! ### Bits of single registers -/

def setLinkUp : UInt32 := 0x40

def linkUp : UInt32 := 0x02

def addressValid : UInt32 := 0x80000000

def smallPacketMask : UInt32 := 0x0FFF

/-- Transmit gap: 10 in the transmit field, and 8 and 20 in the receive fields from bits 10 and 20. -/
def standardGap : UInt32 := 0x0140200A

namespace Receive

def enable : UInt32 := 0x02
def unicastPromiscuous : UInt32 := 0x08
def multicastPromiscuous : UInt32 := 0x10
def longPackets : UInt32 := 0x20
def noLoopback : UInt32 := 0
def halfRingThreshold : UInt32 := 0
def acceptBroadcast : UInt32 := 0x8000
def bufferSize2048 : UInt32 := 0
def stripChecksum : UInt32 := 0x04000000

def operating : UInt32 :=
  enable ||| noLoopback ||| halfRingThreshold ||| acceptBroadcast ||| bufferSize2048 ||| stripChecksum

end Receive

namespace Transmit

def enable : UInt32 := 0x02
def padShort : UInt32 := 0x08
def collisionThreshold : UInt32 := 0x0100
def collisionDistance : UInt32 := 0x00040000

def operating : UInt32 :=
  enable ||| padShort ||| collisionThreshold ||| collisionDistance

end Transmit

end Register

end PacketPath
