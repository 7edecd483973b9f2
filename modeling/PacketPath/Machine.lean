import PacketPath.Log
import PacketPath.Step
import PacketPath.Memory.Reach

/-! The machine that rings and drivers work on: memory, the device behind its register window, and
the log. -/

set_option autoImplicit false

namespace PacketPath

structure Machine (δ : Type) where
  memory : Memory
  device : δ
  log : Array LogLine := #[]

namespace Machine

variable {δ ε : Type}

def note (level : Level) (body : String) : Step ε (Machine δ) Unit := fun machine =>
  .ok () { machine with log := machine.log.push ⟨level, body⟩ }

def changeMemory (change : Memory → Memory) : Step ε (Machine δ) Unit := fun machine =>
  .ok () { machine with memory := change machine.memory }

def retain (id : PageId) : Step ε (Machine δ) Unit :=
  changeMemory (·.retain id)

def release (id : PageId) : Step ε (Machine δ) Unit :=
  changeMemory (·.release id)

def baseOf (id : PageId) : Step ε (Machine δ) UInt64 := fun machine =>
  .ok (machine.memory.page id).base machine

def sizeOf (id : PageId) : Step ε (Machine δ) Nat := fun machine =>
  .ok (machine.memory.page id).size machine

def access (id : PageId) (offset length : Nat) : Step ε (Machine δ) Unit :=
  Step.inspect fun machine => machine.memory.access id offset length

def readBytes (id : PageId) (offset length : Nat) : Step ε (Machine δ) (List UInt8) := do
  access id offset length
  return (← get).memory.slice id offset length

def writeBytes (id : PageId) (offset : Nat) (data : List UInt8) : Step ε (Machine δ) Unit := do
  access id offset data.length
  changeMemory (·.overwrite id offset data)

def fill (id : PageId) (offset length : Nat) (value : UInt8) : Step ε (Machine δ) Unit := do
  access id offset length
  changeMemory (·.overwrite id offset (List.replicate length value))

/-- Copy between pages, or within one; the target is checked before the source. -/
def copy (target : PageId) (targetOffset : Nat) (source : PageId) (sourceOffset length : Nat) :
    Step ε (Machine δ) Unit := do
  access target targetOffset length
  access source sourceOffset length
  changeMemory (·.copyBytes target targetOffset source sourceOffset length)

/-- The little-endian number in the `width` bytes at `offset`. -/
def readWord (width : Nat) (id : PageId) (offset : Nat) : Step ε (Machine δ) Nat := do
  return Word.ofBytes (← readBytes id offset width)

def writeWord (width : Nat) (id : PageId) (offset value : Nat) : Step ε (Machine δ) Unit :=
  writeBytes id offset (Word.bytes width value)

def fetch (address : UInt64) (length : Nat) : Step AddressFault (Machine δ) (List UInt8) := fun machine =>
  match machine.memory.locate address length with
  | .ok (id, offset) => .ok (machine.memory.slice id offset length) machine
  | .error fault => .error (.refused fault) machine

def deposit (address : UInt64) (data : List UInt8) : Step AddressFault (Machine δ) Unit := fun machine =>
  match machine.memory.locate address data.length with
  | .ok (id, offset) => .ok () { machine with memory := machine.memory.overwrite id offset data }
  | .error fault => .error (.refused fault) machine

end Machine

end PacketPath
