import PacketPath.Register.Basic
import PacketPath.Word
import PacketPath.Text.Hex

/-! What identifies a controller: its Ethernet address and its place on the PCI bus. -/

set_option autoImplicit false

namespace PacketPath

/-- An Ethernet address, in the order in which its bytes are sent. -/
structure MacAddress where
  first : UInt8
  second : UInt8
  third : UInt8
  fourth : UInt8
  fifth : UInt8
  sixth : UInt8
  deriving DecidableEq, Repr

namespace MacAddress

def toList (mac : MacAddress) : List UInt8 :=
  [mac.first, mac.second, mac.third, mac.fourth, mac.fifth, mac.sixth]

def emulated : MacAddress :=
  ⟨0x52, 0x54, 0x00, 0x12, 0x34, 0x56⟩

def text (mac : MacAddress) : String :=
  ":".intercalate (mac.toList.map fun byte => Text.hexPadded 2 byte.toNat)

/-- The low address register: the first four bytes. -/
def lowWord (mac : MacAddress) : UInt32 :=
  UInt32.ofNat (Word.ofBytes [mac.first, mac.second, mac.third, mac.fourth])

/-- The high address register: the last two bytes, marked valid. -/
def highWord (mac : MacAddress) : UInt32 :=
  UInt32.ofNat (Word.ofBytes [mac.fifth, mac.sixth]) ||| Register.addressValid

def ofWords? (low high : UInt32) : Option MacAddress :=
  if high &&& Register.addressValid = 0 then none
  else
    let byte (word : UInt32) (index : Nat) : UInt8 := (Word.bytes 4 word.toNat).getD index 0
    some ⟨byte low 0, byte low 1, byte low 2, byte low 3, byte high 0, byte high 1⟩

end MacAddress

structure PciFunction where
  bus : UInt8
  device : UInt8
  function : UInt8
  vendor : UInt16
  model : UInt16
  /-- Address of the register window. -/
  windowBase : UInt64
  /-- Length of the register window in bytes. -/
  windowSize : Nat
  interruptLine : UInt8
  deriving DecidableEq, Repr

namespace PciFunction

def supportedVendor : UInt16 := 0x8086

def supportedModels : List UInt16 := [0x100E, 0x100F, 0x1015]

def isSupported (pci : PciFunction) : Bool :=
  pci.vendor == supportedVendor && supportedModels.contains pci.model

def text (pci : PciFunction) : String :=
  let bus := Text.hexPadded 2 pci.bus.toNat
  let device := Text.hexPadded 2 pci.device.toNat
  let function := pci.function.toNat
  let vendor := Text.hexPadded 4 pci.vendor.toNat
  let model := Text.hexPadded 4 pci.model.toNat
  s!"{bus}:{device}.{function} [{vendor}:{model}]"

end PciFunction

structure ProcessId where
  number : UInt32
  deriving DecidableEq, Repr

def ProcessId.text (process : ProcessId) : String :=
  "env" ++ Text.hexPadded 8 process.number.toNat

end PacketPath
