import PacketPath.Host.Emulator

/-! The two sides of the emulated device: what the transmit engine works from and what the receive
engine works from. A register access outside the registers of a side leaves that side as it is. -/

set_option autoImplicit false

namespace PacketPath.Emulator

structure TransmitSide where
  base : UInt64
  /-- Slots of the ring. -/
  length : Nat
  enabled : Bool
  /-- The tail register. -/
  tail : UInt32
  head : Nat
  pending : Nat
  gathered : List UInt8
  sent : List (List UInt8)

structure ReceiveSide where
  base : UInt64
  /-- Slots of the ring. -/
  length : Nat
  enabled : Bool
  /-- The tail register. -/
  tail : UInt32
  head : Nat

def transmitSide (device : Emulator) : TransmitSide where
  base := (device.ring .transmitBaseLow .transmitBaseHigh .transmitLength).1
  length := (device.ring .transmitBaseLow .transmitBaseHigh .transmitLength).2
  enabled := device.word .transmitControl &&& Register.Transmit.enable != 0
  tail := device.word .transmitTail
  head := device.transmitHead
  pending := device.transmitPending
  gathered := device.gathered
  sent := device.sent

def receiveSide (device : Emulator) : ReceiveSide where
  base := (device.ring .receiveBaseLow .receiveBaseHigh .receiveLength).1
  length := (device.ring .receiveBaseLow .receiveBaseHigh .receiveLength).2
  enabled := device.word .receiveControl &&& Register.Receive.enable != 0
  tail := device.word .receiveTail
  head := device.receiveHead

def transmitRegisters : List Register :=
  [.transmitBaseLow, .transmitBaseHigh, .transmitLength, .transmitControl, .transmitTail]

def receiveRegisters : List Register :=
  [.receiveBaseLow, .receiveBaseHigh, .receiveLength, .receiveControl, .receiveTail]

/-! ### Words -/

theorem word_setOffset (device : Emulator) (offset : Nat) (word : UInt32) (register : Register) :
    (device.setOffset offset word).word register =
      if register.offset = offset then word else device.word register :=
  rfl

theorem word_setWord (device : Emulator) (changed register : Register) (word : UInt32) :
    (device.setWord changed word).word register = if register = changed then word else device.word register := by
  rw [setWord, word_setOffset]
  by_cases same : register = changed
  · rw [if_pos same, if_pos (congrArg Register.offset same)]
  · rw [if_neg same, if_neg fun equal => same (Register.offset_injective equal)]

theorem word_store_of_ne (device : Emulator) {offset : Nat} (word : UInt32) {register : Register}
    (apart : register.offset ≠ offset) : (device.store offset word).word register = device.word register := by
  unfold store
  dsimp only
  split
  · rfl
  split
  · rfl
  split
  · rfl
  split
  case isTrue tail =>
    have other : register ≠ .transmitTail := by
      rintro rfl
      exact apart tail.symm
    change ((device.setWord .transmitTail word).word register) = _
    rw [word_setWord, if_neg other]
  case isFalse =>
    change ((device.setOffset offset word).word register) = _
    rw [word_setOffset, if_neg apart]

/-! ### Causes and writes -/

theorem causes_store (device : Emulator) {register : Register} (silent : register ≠ .causeRead) (word : UInt32) :
    (device.store register.offset word).causes = device.causes := by
  have apart : register.offset ≠ Register.causeRead.offset := fun same => silent (Register.offset_injective same)
  unfold store
  dsimp only
  rw [if_neg apart]
  split
  · rfl
  split
  · rfl
  split <;> rfl

theorem writes_store (device : Emulator) (offset : Nat) (word : UInt32) :
    (device.store offset word).writes = device.writes.push (offset, word) := by
  unfold store
  dsimp only
  repeat' split
  all_goals rfl

/-! ### Sides -/

@[simp] theorem transmitSide_load (device : Emulator) (offset : Nat) :
    (device.load offset).2.transmitSide = device.transmitSide := by
  unfold load
  split
  · rfl
  split <;> rfl

@[simp] theorem receiveSide_load (device : Emulator) (offset : Nat) :
    (device.load offset).2.receiveSide = device.receiveSide := by
  unfold load
  split
  · rfl
  split <;> rfl

def TransmitSide.moveTail (side : TransmitSide) (tail : UInt32) : TransmitSide :=
  { side with
    tail := tail
    pending :=
      if side.length = 0 then side.pending
      else min (side.pending + (tail.toNat % side.length + side.length - side.tail.toNat % side.length) %
        side.length) side.length }

@[simp] theorem transmitSide_store_tail (device : Emulator) (word : UInt32) :
    (device.store Register.transmitTail.offset word).transmitSide = device.transmitSide.moveTail word :=
  rfl

@[simp] theorem receiveSide_store_tail (device : Emulator) (word : UInt32) :
    (device.store Register.receiveTail.offset word).receiveSide = { device.receiveSide with tail := word } :=
  rfl

theorem transmitSide_store_of_ne (device : Emulator) {offset : Nat} (word : UInt32)
    (apart : ∀ register ∈ transmitRegisters, register.offset ≠ offset) :
    (device.store offset word).transmitSide = device.transmitSide := by
  have kept (register : Register) (listed : register ∈ transmitRegisters) :
      (device.store offset word).word register = device.word register :=
    device.word_store_of_ne word (apart register listed)
  have tail : offset ≠ Register.transmitTail.offset := (apart .transmitTail (by decide)).symm
  have rest : ((device.store offset word).transmitHead, (device.store offset word).transmitPending,
      (device.store offset word).gathered, (device.store offset word).sent) =
      (device.transmitHead, device.transmitPending, device.gathered, device.sent) := by
    unfold store
    dsimp only
    rw [if_neg tail]
    split
    · rfl
    split
    · rfl
    split <;> rfl
  simp only [Prod.mk.injEq] at rest
  unfold transmitSide ring
  rw [kept .transmitBaseLow (by decide), kept .transmitBaseHigh (by decide),
    kept .transmitLength (by decide), kept .transmitControl (by decide), kept .transmitTail (by decide),
    rest.1, rest.2.1, rest.2.2.1, rest.2.2.2]

theorem receiveSide_store_of_ne (device : Emulator) {offset : Nat} (word : UInt32)
    (apart : ∀ register ∈ receiveRegisters, register.offset ≠ offset) :
    (device.store offset word).receiveSide = device.receiveSide := by
  have kept (register : Register) (listed : register ∈ receiveRegisters) :
      (device.store offset word).word register = device.word register :=
    device.word_store_of_ne word (apart register listed)
  have head : (device.store offset word).receiveHead = device.receiveHead := by
    unfold store
    dsimp only
    split
    · rfl
    split
    · rfl
    split
    · rfl
    split <;> rfl
  unfold receiveSide ring
  rw [kept .receiveBaseLow (by decide), kept .receiveBaseHigh (by decide),
    kept .receiveLength (by decide), kept .receiveControl (by decide), kept .receiveTail (by decide), head]

@[simp] theorem receiveSide_store_transmitTail (device : Emulator) (word : UInt32) :
    (device.store Register.transmitTail.offset word).receiveSide = device.receiveSide :=
  device.receiveSide_store_of_ne word (by decide)

@[simp] theorem transmitSide_store_receiveTail (device : Emulator) (word : UInt32) :
    (device.store Register.receiveTail.offset word).transmitSide = device.transmitSide :=
  device.transmitSide_store_of_ne word (by decide)

end PacketPath.Emulator
