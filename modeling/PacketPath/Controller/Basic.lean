import PacketPath.Interrupt
import PacketPath.Identity
import PacketPath.Ring.Transmit
import PacketPath.Ring.Receive

/-! A controller that has been brought up: one ring in each direction, its interrupts, and what
identifies it. The controller is a value that its user keeps; nothing else refers to it. -/

set_option autoImplicit false

namespace PacketPath

structure Controller where
  transmitRing : TransmitRing
  receiveRing : ReceiveRing
  interrupts : Interrupts
  mac : MacAddress
  pci : PciFunction
  deriving Repr

namespace Controller

variable {δ ε α : Type}

def pages (controller : Controller) : List PageId :=
  controller.transmitRing.pages ++ controller.receiveRing.pages

def onTransmit (step : Step ε (TransmitRing × Machine δ) α) : Step ε (Controller × Machine δ) α :=
  Step.within (fun (controller, machine) => (controller.transmitRing, machine))
    (fun (controller, _) (ring, machine) => ({ controller with transmitRing := ring }, machine)) step

def onReceive (step : Step ε (ReceiveRing × Machine δ) α) : Step ε (Controller × Machine δ) α :=
  Step.within (fun (controller, machine) => (controller.receiveRing, machine))
    (fun (controller, _) (ring, machine) => ({ controller with receiveRing := ring }, machine)) step

def onInterrupts (step : Step ε (Interrupts × Machine δ) α) : Step ε (Controller × Machine δ) α :=
  Step.within (fun (controller, machine) => (controller.interrupts, machine))
    (fun (controller, _) (interrupts, machine) =>
      ({ controller with interrupts := interrupts }, machine)) step

/-- A received frame, or a slot with an error, waits at the cursor. -/
def receiveReady (controller : Controller) : Step ε (Machine δ) Bool :=
  controller.receiveRing.isReady

def reclaim : Step ε (Controller × Machine δ) Nat :=
  onTransmit TransmitRing.reclaim

variable [RegisterBus δ]

def linkUp : Step ε (Machine δ) Bool := do
  return (← Register.status.read) &&& Register.linkUp != 0

def transmit (fragment : Fragment) : Step TransmitError (Controller × Machine δ) Unit :=
  onTransmit (TransmitRing.post fragment true)

/-- Post one frame in several fragments, all of them or none. -/
def transmitFrame (fragments : List Fragment) : Step TransmitError (Controller × Machine δ) Unit :=
  onTransmit (TransmitRing.postFrame fragments)

def receive : Step ReceiveError (Controller × Machine δ) (Option (List UInt8)) :=
  onReceive ReceiveRing.receive

def receiveInto (destination : List UInt8) :
    Step ReceiveError (Controller × Machine δ) (Option (Nat × List UInt8)) :=
  onReceive (ReceiveRing.receiveInto destination)

def receiveIntoPage (target : PageId) (offset : Nat) :
    Step ReceiveError (Controller × Machine δ) (Option Nat) :=
  onReceive (ReceiveRing.receiveIntoPage target offset)

/-- Read the pending causes, reclaim transmit slots if they hint at it, and report the link. -/
def serviceInterrupts : Step ε (Controller × Machine δ) Work := do
  let work ← onInterrupts Interrupts.service
  if work.transmitDone then
    let _ ← reclaim
  if work.linkChanged then
    let state := if ← Step.second linkUp then "up" else "down"
    Step.second (Machine.note .info s!"[e1000] link {state}")
  return work

end Controller

end PacketPath
