import PacketPath.Controller.Basic
import PacketPath.Settings

/-! Bringing a controller up. The platform enables the function, maps its registers, hands out
pages and routes its interrupt; any of these may fail, and then every page taken so far is given
back. Both rings are complete in memory before their engine is switched on, and interrupts stay
masked until the last write. -/

set_option autoImplicit false

namespace PacketPath

inductive AttachStage where
  | enable
  | map
  | transmitTable
  | receiveTable
  | receiveBuffer
  | route
  deriving DecidableEq, Repr

def AttachStage.text : AttachStage → String
  | .enable => "pci enable"
  | .map => "mmio map"
  | .transmitTable => "tx ring allocation"
  | .receiveTable => "rx ring allocation"
  | .receiveBuffer => "rx buffer allocation"
  | .route => "irq routing"

inductive AttachError where
  | unsupported (pci : PciFunction)
  | settings (error : SettingsError)
  /-- The platform failed; what it said. -/
  | platform (stage : AttachStage) (detail : String)
  /-- The register window does not hold every register. -/
  | windowTooSmall (size : Nat)
  /-- No address was given and the controller has none of its own. -/
  | noMacAddress
  deriving DecidableEq, Repr

def AttachError.message : AttachError → String
  | .unsupported pci => "unsupported pci function " ++ pci.text
  | .settings error => "invalid configuration: " ++ error.message
  | .platform stage detail =>
    let point := stage.text
    s!"platform failure during {point}: {detail}"
  | .windowTooSmall size =>
    let extent := Text.hex size
    s!"bar0 of {extent} bytes does not cover the register file"
  | .noMacAddress => "no valid mac address in RAL0/RAH0"

/-- A platform that can host a controller, with a state of its own. Each operation may fail and then
says why in words. -/
structure Platform (π δ : Type) where
  /-- Let the function answer to its addresses and reach memory. -/
  enable : PciFunction → Step String (π × Machine δ) Unit
  /-- Put the register window with this base and size in front of the driver. -/
  map : UInt64 → Nat → Step String (π × Machine δ) Unit
  /-- A page of zeros that the device can reach, under its first handle. -/
  allocate : Step String (π × Machine δ) PageId
  /-- Route an interrupt line. -/
  route : UInt8 → Step String (π × Machine δ) Unit

namespace Controller

variable {π δ α : Type}

def atStage (stage : AttachStage) (step : Step String (π × Machine δ) α) :
    Step AttachError (π × Machine δ) α :=
  step.mapRefusal (.platform stage)

def keeping (pages : List PageId) (step : Step AttachError (π × Machine δ) α) :
    Step AttachError (π × Machine δ) α :=
  step.thenIfStopped fun (platform, machine) =>
    (platform, { machine with memory := machine.memory.releaseAll pages })

variable [RegisterBus δ]

def settleMac : Option MacAddress → Step AttachError (Machine δ) MacAddress
  | some mac => do
    Register.addressLow.write mac.lowWord
    Register.addressHigh.write mac.highWord
    let text := mac.text
    Machine.note .debug s!"[e1000] programmed mac {text}"
    return mac
  | none => do
    let low ← Register.addressLow.read
    let high ← Register.addressHigh.read
    match MacAddress.ofWords? low high with
    | none => Step.refuse .noMacAddress
    | some mac =>
      let text := mac.text
      Machine.note .debug s!"[e1000] using eeprom mac {text}"
      return mac

def clearMulticast (index : Nat) : (count : Nat) → Step AttachError (Machine δ) Unit
  | 0 => pure ()
  | count + 1 => do
    Register.writeMulticast index 0
    clearMulticast (index + 1) count

def raiseTransmit (platform : Platform π δ) (settings : Settings) :
    Step AttachError (π × Machine δ) TransmitRing := do
  let page ← atStage .transmitTable platform.allocate
  keeping [page] <| Step.second do
    let table ← DescriptorTable.create page settings.transmitLength
    let ring ← TransmitRing.create table
    ring.program
    Register.transmitControl.write Register.Transmit.operating
    Register.transmitGap.write Register.standardGap
    Register.transmitDelay.write settings.transmitDelay.toUInt32
    return ring

/-- Allocate pool pages; a failure gives back those that were allocated before it. -/
def allocatePool (platform : Platform π δ) : (count : Nat) → Step AttachError (π × Machine δ) (List PageId)
  | 0 => pure []
  | count + 1 => do
    let page ← atStage .receiveBuffer platform.allocate
    keeping [page] do
      return page :: (← allocatePool platform count)

def raiseReceive (platform : Platform π δ) (settings : Settings) :
    Step AttachError (π × Machine δ) ReceiveRing := do
  let page ← atStage .receiveTable platform.allocate
  keeping [page] do
    let table ← Step.second (DescriptorTable.create page settings.receiveLength)
    let pool ← allocatePool platform settings.receiveLength
    keeping pool <| Step.second do
      let ring ← ReceiveRing.create table pool
      ring.program
      Register.smallPacketDetect.write
        (settings.smallPacketThreshold.toUInt32 &&& Register.smallPacketMask)
      Register.receiveControl.write Register.Receive.operating
      return ring

/-- Bring up the controller at a PCI function. -/
def attach (platform : Platform π δ) (pci : PciFunction) (settings : Settings) :
    Step AttachError (π × Machine δ) Controller := do
  let function := pci.text
  if ¬ pci.isSupported then
    Step.second (Machine.note .warn s!"[e1000] refusing pci function {function}")
    Step.refuse (.unsupported pci)
  if let .error error := settings.validate then
    Step.refuse (.settings error)
  let window := Text.hex pci.windowBase.toNat
  Step.second (Machine.note .info s!"[e1000] attaching {function} bar0={window}")
  atStage .enable (platform.enable pci)
  if pci.windowSize < Register.windowSize then
    Step.refuse (.windowTooSmall pci.windowSize)
  atStage .map (platform.map pci.windowBase pci.windowSize)
  let (_, interrupts) ← Step.second (Step.carrying .masked Interrupts.disable)
  let mac ← Step.second (settleMac settings.mac)
  Step.second (clearMulticast 0 Register.multicastEntries)
  let transmitRing ← raiseTransmit platform settings
  keeping transmitRing.pages do
    let receiveRing ← raiseReceive platform settings
    keeping receiveRing.pages do
      Step.second (Register.control.setBits Register.setLinkUp)
      atStage .route (platform.route pci.interruptLine)
      let (_, interrupts) ← Step.second (Step.carrying interrupts (Interrupts.enable settings.causes))
      let address := mac.text
      let line := pci.interruptLine.toNat
      Step.second (Machine.note .info
        s!"[e1000] up mac={address} tx_slots={transmitRing.capacity} rx_slots={receiveRing.capacity} irq={line}")
      return ⟨transmitRing, receiveRing, interrupts, mac, pci⟩

end Controller

end PacketPath
