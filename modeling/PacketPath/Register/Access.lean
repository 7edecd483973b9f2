import PacketPath.Machine
import PacketPath.Register.Basic

/-! Access to registers. A device answers single word reads and writes at byte offsets, one at a
time and in order; everything else about registers is built from those two. -/

set_option autoImplicit false

namespace PacketPath

/-- What stands behind a register window. Reading may change the device. -/
class RegisterBus (δ : Type) where
  load : δ → (offset : Nat) → Except Violation (UInt32 × δ)
  store : δ → (offset : Nat) → (word : UInt32) → Except Violation δ

namespace Machine

variable {δ ε : Type} [RegisterBus δ]

def load (offset : Nat) : Step ε (Machine δ) UInt32 := fun machine =>
  match RegisterBus.load machine.device offset with
  | .ok (word, device) => .ok word { machine with device := device }
  | .error violation => .error (.violated violation) machine

def store (offset : Nat) (word : UInt32) : Step ε (Machine δ) Unit := fun machine =>
  match RegisterBus.store machine.device offset word with
  | .ok device => .ok () { machine with device := device }
  | .error violation => .error (.violated violation) machine

end Machine

namespace Register

variable {δ ε : Type} [RegisterBus δ]

def read (register : Register) : Step ε (Machine δ) UInt32 :=
  Machine.load register.offset

def write (register : Register) (word : UInt32) : Step ε (Machine δ) Unit :=
  Machine.store register.offset word

def setBits (register : Register) (mask : UInt32) : Step ε (Machine δ) Unit := do
  let word ← register.read
  register.write (word ||| mask)

def clearBits (register : Register) (mask : UInt32) : Step ε (Machine δ) Unit := do
  let word ← register.read
  register.write (word &&& ~~~mask)

def writeMulticast (index : Nat) (word : UInt32) : Step ε (Machine δ) Unit :=
  if index < multicastEntries then Machine.store (multicastTable.offset + index * 4) word
  else Step.violate (.multicastIndex index)

end Register

end PacketPath
