import PacketPath.Address
import PacketPath.Host.Emulator
import PacketPath.Controller.Attach

/-! An emulated platform with one controller in it. Its pages lie one after the other from a fixed
address on, and the controller can reach each of them from the start. -/

set_option autoImplicit false

namespace PacketPath

structure Board where
  /-- The address of the next page. -/
  nextBase : UInt64
  /-- Pages handed out. -/
  allocated : Nat := 0
  /-- The most pages that may be handed out. -/
  limit : Option Nat := none
  /-- The functions enabled so far, oldest first. -/
  enabled : List PciFunction := []
  /-- The interrupt lines routed so far, oldest first. -/
  routed : List UInt8 := []
  deriving Repr

namespace Board

def windowBase : UInt64 := 0xFEBC0000

def windowSize : Nat := 0x20000

def interruptLine : UInt8 := 11

def firstBase : UInt64 := 0x00100000

def create (limit : Option Nat) : Board :=
  { nextBase := firstBase, limit := limit }

def pciFunction : PciFunction where
  bus := 0
  device := 3
  function := 0
  vendor := PciFunction.supportedVendor
  model := 0x100E
  windowBase := windowBase
  windowSize := windowSize
  interruptLine := interruptLine

variable {δ ε : Type}

/-- A new page of zeros that the device can reach. The page whose end would be past the last address
is given back at once: it has no successor. -/
def allocate : Step HostError (Board × Machine δ) PageId := fun (board, machine) =>
  match board.limit.filter fun limit => limit ≤ board.allocated with
  | some limit => .error (.refused (.outOfPages limit)) (board, machine)
  | none =>
    match machine.memory.allocate board.nextBase Limits.pageSize with
    | none => .error (.refused .outOfMemory) (board, machine)
    | some (page, memory) =>
      let memory := memory.register page
      match Address.advance board.nextBase Limits.pageSize with
      | .error violation =>
        .error (.violated violation) (board, { machine with memory := memory.release page })
      | .ok nextBase =>
        .ok page
          ({ board with nextBase := nextBase, allocated := board.allocated + 1 },
            { machine with memory := memory })

def enable (pci : PciFunction) : Step ε (Board × Machine δ) Unit := do
  let function := pci.text
  Step.second (Machine.note .debug s!"[host] enabling {function}")
  Step.first (modify fun board => { board with enabled := board.enabled ++ [pci] })

/-- The register window answers at its base, and no further than it reaches. -/
def map (base : UInt64) (size : Nat) : Step HostError (Board × Machine δ) Unit :=
  if base ≠ windowBase ∨ windowSize < size then Step.refuse (.noDevice base size) else pure ()

def route (line : UInt8) : Step ε (Board × Machine δ) Unit :=
  Step.first (modify fun board => { board with routed := board.routed ++ [line] })

def platform : Platform Board Emulator where
  enable := enable
  map base size := (map base size).mapRefusal HostError.message
  allocate := Step.mapRefusal HostError.message allocate
  route := route

end Board

end PacketPath
