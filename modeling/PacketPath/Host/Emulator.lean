import PacketPath.Address
import PacketPath.Host.Error
import PacketPath.Identity
import PacketPath.Interrupt
import PacketPath.Descriptor.Transmit
import PacketPath.Descriptor.Receive
import PacketPath.Limits

/-! An emulated controller. It has the registers, follows the descriptor rings through memory, and
moves frames only when it is told to: the transmit engine by `transmit`, the wire by `receive`. -/

set_option autoImplicit false

namespace PacketPath

structure Emulator where
  registers : Nat → UInt32
  /-- The register writes so far, oldest first. -/
  writes : Array (Nat × UInt32) := #[]
  /-- The pending interrupt causes. -/
  causes : UInt32 := 0
  /-- The causes that are let through. -/
  mask : UInt32 := 0
  /-- The transmit slot that is fetched next. -/
  transmitHead : Nat := 0
  /-- Posted transmit slots that are not fetched yet. -/
  transmitPending : Nat := 0
  /-- The receive slot that is filled next. -/
  receiveHead : Nat := 0
  /-- The bytes fetched of a frame whose end is still to come. -/
  gathered : List UInt8 := []
  /-- The frames on the wire, oldest first. -/
  sent : List (List UInt8) := []
  /-- Frames lost because the receive ring was full. -/
  missed : Nat := 0

namespace Emulator

variable {ε : Type}

def word (device : Emulator) (register : Register) : UInt32 :=
  device.registers register.offset

def setOffset (device : Emulator) (offset : Nat) (word : UInt32) : Emulator :=
  { device with registers := fun place => if place = offset then word else device.registers place }

def setWord (device : Emulator) (register : Register) (word : UInt32) : Emulator :=
  device.setOffset register.offset word

def raise (device : Emulator) (cause : Cause) : Emulator :=
  { device with causes := device.causes ||| cause.bits }

def create (mac : MacAddress) : Emulator :=
  let blank : Emulator := { registers := fun _ => 0 }
  ((blank.setWord .addressLow mac.lowWord).setWord .addressHigh mac.highWord).setWord .status
    Register.linkUp

/-- The value of a register, without the effects of an access. -/
def peek (device : Emulator) : Register → UInt32
  | .causeRead => device.causes
  | .maskSet => device.mask
  | register => device.word register

def mac (device : Emulator) : Option MacAddress :=
  MacAddress.ofWords? (device.word .addressLow) (device.word .addressHigh)

def writeCount (device : Emulator) (register : Register) : Nat :=
  device.writes.countP fun entry => entry.1 == register.offset

/-! ### The register window -/

/-- Reading the causes clears them. -/
def load (device : Emulator) (offset : Nat) : UInt32 × Emulator :=
  if offset = Register.causeRead.offset then (device.causes, { device with causes := 0 })
  else if offset = Register.maskSet.offset then (device.mask, device)
  else (device.registers offset, device)

/-- A write to the transmit tail hands the slots between the old tail and the new one to the device.
Both tails count modulo the ring, so a full lap looks like no step. -/
def moveTransmitTail (device : Emulator) (tail : UInt32) : Emulator :=
  let length := (device.word .transmitLength).toNat / Limits.descriptorSize
  let pending :=
    if length = 0 then device.transmitPending
    else
      let old := (device.word .transmitTail).toNat % length
      let new := tail.toNat % length
      min (device.transmitPending + (new + length - old) % length) length
  { device.setWord .transmitTail tail with transmitPending := pending }

def store (device : Emulator) (offset : Nat) (word : UInt32) : Emulator :=
  let device := { device with writes := device.writes.push (offset, word) }
  if offset = Register.maskSet.offset then { device with mask := device.mask ||| word }
  else if offset = Register.maskClear.offset then { device with mask := device.mask &&& ~~~word }
  else if offset = Register.causeRead.offset then { device with causes := device.causes &&& ~~~word }
  else if offset = Register.transmitTail.offset then device.moveTransmitTail word
  else device.setOffset offset word

instance : RegisterBus Emulator where
  load device offset := .ok (device.load offset)
  store device offset word := .ok (device.store offset word)

/-! ### The engines -/

def ring (device : Emulator) (low high length : Register) : UInt64 × Nat :=
  ((device.word low).toUInt64 ||| ((device.word high).toUInt64 <<< 32),
    (device.word length).toNat / Limits.descriptorSize)

/-- The address of a descriptor. A ring may begin so high that its last slots have none. -/
def slotAddress (base : UInt64) (slot : Nat) : Step ε (Machine Emulator) UInt64 :=
  Step.inspect fun _ => Address.advance base (slot * Limits.descriptorSize)

def changeDevice (change : Emulator → Emulator) : Step ε (Machine Emulator) Unit := fun machine =>
  .ok () { machine with device := change machine.device }

def fetch (address : UInt64) (length : Nat) : Step HostError (Machine Emulator) (List UInt8) :=
  (Machine.fetch address length).mapRefusal .address

def deposit (address : UInt64) (data : List UInt8) : Step HostError (Machine Emulator) Unit :=
  (Machine.deposit address data).mapRefusal .address

/-- Fetch the posted slot at the head of a ring of `length` slots and gather its bytes. The last
slot of a frame puts the frame on the wire, and a slot that asks for it is reported done. -/
def fetchSlot (base : UInt64) (length : Nat) : Step HostError (Machine Emulator) Unit := do
  let slot := (← get).device.transmitHead
  let place ← slotAddress base slot
  let descriptor := TransmitDescriptor.decode (← fetch place Limits.descriptorSize)
  let bytes ← fetch descriptor.address descriptor.length.toNat
  changeDevice fun device => { device with gathered := device.gathered ++ bytes }
  if descriptor.command.endsFrame then
    let frame := (← get).device.gathered
    Machine.note .trace s!"[sim] transmitted {frame.length} bytes from slot {slot}"
    changeDevice fun device => { device with gathered := [], sent := device.sent ++ [frame] }
  if descriptor.command.reportsStatus then
    deposit place ({ descriptor with status := .done } : TransmitDescriptor).encode
  let head := (slot + 1) % length
  changeDevice fun device =>
    { device.setWord .transmitHead (UInt32.ofNat head) with
      transmitHead := head, transmitPending := device.transmitPending - 1 }

def fetchSlots (base : UInt64) (length : Nat) : (count : Nat) → Step HostError (Machine Emulator) Unit
  | 0 => pure ()
  | count + 1 => do
    fetchSlot base length
    fetchSlots base length count

/-- Send what the posted slots hold, up to `limit` slots, and say how many they were. The causes are
latched at the end, so a fault on the way latches none. -/
def transmit (limit : Nat) : Step HostError (Machine Emulator) Nat := do
  let device := (← get).device
  let (base, length) := device.ring .transmitBaseLow .transmitBaseHigh .transmitLength
  if device.word .transmitControl &&& Register.Transmit.enable = 0 ∨ length = 0 then
    return 0
  let count := min device.transmitPending limit
  fetchSlots base length count
  if count ≠ 0 then
    changeDevice fun device =>
      let device := device.raise .transmitWritten
      if device.transmitPending = 0 then device.raise .transmitEmpty else device
  return count

def takeSent (device : Emulator) : List (List UInt8) × Emulator :=
  (device.sent, { device with sent := [] })

/-- Put a frame from the wire into the next receive slot, with the errors found in it. -/
def receive (frame : List UInt8) (errors : ReceiveErrors) : Step HostError (Machine Emulator) Unit := do
  if Limits.receiveBuffer < frame.length then
    Step.refuse (.frameTooLong frame.length)
  let device := (← get).device
  let (base, length) := device.ring .receiveBaseLow .receiveBaseHigh .receiveLength
  if length = 0 ∨ device.word .receiveControl &&& Register.Receive.enable = 0 then
    Step.refuse .receiverDisabled
  let slot := device.receiveHead
  if slot = (device.word .receiveTail).toNat % length then
    changeDevice fun device => { device.raise .receiverOverrun with missed := device.missed + 1 }
    Step.refuse .ringFull
  let place ← slotAddress base slot
  let descriptor := ReceiveDescriptor.decode (← fetch place Limits.descriptorSize)
  deposit descriptor.address frame
  let filled := { descriptor with
    length := UInt16.ofNat frame.length, errors := errors, status := .complete }
  deposit place filled.encode
  let head := (slot + 1) % length
  changeDevice fun device =>
    ({ device with receiveHead := head }.setWord .receiveHead (UInt32.ofNat head)).raise .received
  Machine.note .trace s!"[sim] received {frame.length} bytes into slot {slot}"

end Emulator

end PacketPath
