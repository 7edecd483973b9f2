import PacketPath.Register.Access
import PacketPath.Text.Flags

/-! Interrupt causes. A cause only hints at which ring is worth looking at; the rings themselves
say what there is to do. -/

set_option autoImplicit false

namespace PacketPath

structure Cause where
  bits : UInt32
  deriving DecidableEq, Repr, Inhabited

namespace Cause

instance : Flags Cause where
  title := "IrqCause"
  named := [(0x01, "TXDW"), (0x02, "TXQE"), (0x04, "LSC"), (0x08, "RXSEQ"), (0x10, "RXDMT0"),
    (0x40, "RXO"), (0x80, "RXT0")]
  bits cause := cause.bits.toNat

def none : Cause := ⟨0⟩

def transmitWritten : Cause := ⟨0x01⟩

def transmitEmpty : Cause := ⟨0x02⟩

def linkChange : Cause := ⟨0x04⟩

def receiverOverrun : Cause := ⟨0x40⟩

def received : Cause := ⟨0x80⟩

/-- The causes let through unless the settings say otherwise. -/
def standard : Cause := ⟨0xD5⟩

def union (first second : Cause) : Cause :=
  ⟨first.bits ||| second.bits⟩

def meets (first second : Cause) : Bool :=
  first.bits &&& second.bits != 0

def named (cause : Cause) : Cause :=
  ⟨UInt32.ofNat (Flags.known cause)⟩

end Cause

/-- Which parts of the controller are worth a look. -/
structure Work where
  /-- Transmit slots are finished and can be reclaimed. -/
  transmitDone : Bool
  /-- Frames are probably waiting. -/
  receiveReady : Bool
  linkChanged : Bool
  deriving DecidableEq, Repr

namespace Work

def ofCauses (cause : Cause) : Work where
  transmitDone := cause.meets ⟨0x03⟩
  receiveReady := cause.meets ⟨0xD0⟩
  linkChanged := cause.meets .linkChange

def isIdle (work : Work) : Bool :=
  !(work.transmitDone || work.receiveReady || work.linkChanged)

end Work

structure Interrupts where
  /-- The causes that are let through. -/
  unmasked : Cause
  /-- How often servicing found something to do. -/
  serviced : Nat
  deriving DecidableEq, Repr

namespace Interrupts

variable {δ ε : Type} [RegisterBus δ]

def masked : Interrupts :=
  ⟨.none, 0⟩

def enable (cause : Cause) : Step ε (Interrupts × Machine δ) Unit := do
  Step.second (Register.write .maskSet cause.bits)
  Step.first (modify fun interrupts =>
    { interrupts with unmasked := interrupts.unmasked.union cause })
  let mask := Flags.text (← get).1.unmasked
  Step.second (Machine.note .debug s!"[e1000] interrupts enabled mask={mask}")

def disable : Step ε (Interrupts × Machine δ) Unit := do
  Step.second (Register.write .maskClear 0xFFFFFFFF)
  Step.first (modify fun interrupts => { interrupts with unmasked := .none })

/-- Read the pending causes, which clears them, and say what they hint at. -/
def service : Step ε (Interrupts × Machine δ) Work := do
  let cause := Cause.named ⟨← Step.second (Register.read .causeRead)⟩
  let work := Work.ofCauses cause
  if !work.isIdle then
    Step.first (modify fun interrupts => { interrupts with serviced := interrupts.serviced + 1 })
  if cause.meets .receiverOverrun then
    Step.second (Machine.note .debug "[e1000] receiver overrun reported")
  if work.linkChanged then
    Step.second (Machine.note .info "[e1000] link status changed")
  return work

end Interrupts

end PacketPath
