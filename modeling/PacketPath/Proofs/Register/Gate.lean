import PacketPath.Proofs.Machine
import PacketPath.Proofs.Host.Sides

/-! Register writes one at a time. A gate in front of the emulated device refuses some write and with it
ends the run. Behind a gate that lets a number of writes through, a run gets as far as it does in so many
writes, which shows what the device and the memory are like at that point of the whole run. -/

set_option autoImplicit false

namespace PacketPath

namespace Emulator

/-! ### Sequences of writes -/

def storeAll (device : Emulator) (writes : List (Nat × UInt32)) : Emulator :=
  writes.foldl (fun device entry => device.store entry.1 entry.2) device

theorem storeAll_cons (device : Emulator) (entry : Nat × UInt32) (rest : List (Nat × UInt32)) :
    device.storeAll (entry :: rest) = (device.store entry.1 entry.2).storeAll rest :=
  rfl

theorem storeAll_append (device : Emulator) (first second : List (Nat × UInt32)) :
    device.storeAll (first ++ second) = (device.storeAll first).storeAll second :=
  List.foldl_append

theorem registers_store_of_ne (device : Emulator) {offset place : Nat} (word : UInt32) (apart : place ≠ offset) :
    (device.store offset word).registers place = device.registers place := by
  unfold store
  dsimp only
  split
  · rfl
  split
  · rfl
  split
  · rfl
  split
  case isTrue tail => exact if_neg fun same => apart (same.trans tail.symm)
  case isFalse => exact if_neg apart

def latches : List Register :=
  [.maskSet, .maskClear, .causeRead]

theorem registers_store_self (device : Emulator) {offset : Nat} (word : UInt32)
    (plain : ∀ register ∈ latches, register.offset ≠ offset) : (device.store offset word).registers offset = word := by
  have set : offset ≠ Register.maskSet.offset := (plain .maskSet (by decide)).symm
  have clear : offset ≠ Register.maskClear.offset := (plain .maskClear (by decide)).symm
  have read : offset ≠ Register.causeRead.offset := (plain .causeRead (by decide)).symm
  unfold store
  dsimp only
  rw [if_neg set, if_neg clear, if_neg read]
  split
  case isTrue tail => exact if_pos tail
  case isFalse => exact if_pos rfl

theorem mask_store_of_ne (device : Emulator) {offset : Nat} (word : UInt32)
    (apart : offset ≠ Register.maskSet.offset) (masked : device.mask = 0) : (device.store offset word).mask = 0 := by
  unfold store
  dsimp only
  rw [if_neg apart]
  split
  · change device.mask &&& ~~~word = 0
    rw [masked]
    exact UInt32.zero_and
  repeat' split
  all_goals exact masked

theorem heads_store (device : Emulator) (offset : Nat) (word : UInt32) :
    (device.store offset word).transmitHead = device.transmitHead ∧
      (device.store offset word).receiveHead = device.receiveHead := by
  unfold store
  dsimp only
  repeat' split
  all_goals exact ⟨rfl, rfl⟩

theorem pending_store_of_ne (device : Emulator) {offset : Nat} (word : UInt32)
    (apart : Register.transmitTail.offset ≠ offset) :
    (device.store offset word).transmitPending = device.transmitPending := by
  unfold store
  dsimp only
  rw [if_neg apart.symm]
  repeat' split
  all_goals rfl

theorem pending_store_tail (device : Emulator) {length : Nat}
    (slots : (device.word .transmitLength).toNat / Limits.descriptorSize = length) (some : length ≠ 0) :
    (device.store Register.transmitTail.offset 0).transmitPending =
      min (device.transmitPending + (length - (device.word .transmitTail).toNat % length) % length) length := by
  have side : device.transmitSide.length = length := slots
  change (device.store Register.transmitTail.offset 0).transmitSide.pending = _
  rw [transmitSide_store_tail]
  unfold TransmitSide.moveTail
  dsimp only
  rw [side, if_neg some, UInt32.toNat_zero, Nat.zero_mod, Nat.zero_add]
  rfl

variable {device : Emulator} {writes : List (Nat × UInt32)}

theorem registers_storeAll_of_ne {place : Nat} (apart : ∀ entry ∈ writes, place ≠ entry.1) :
    (device.storeAll writes).registers place = device.registers place := by
  induction writes generalizing device with
  | nil => rfl
  | cons entry rest ih =>
    refine (ih fun other listed => apart other (List.mem_cons_of_mem _ listed)).trans ?_
    exact device.registers_store_of_ne entry.2 (apart entry (List.mem_cons_self ..))

theorem heads_storeAll (device : Emulator) (writes : List (Nat × UInt32)) :
    (device.storeAll writes).transmitHead = device.transmitHead ∧
      (device.storeAll writes).receiveHead = device.receiveHead := by
  induction writes generalizing device with
  | nil => exact ⟨rfl, rfl⟩
  | cons entry rest ih =>
    have one := device.heads_store entry.1 entry.2
    have later := ih (device.store entry.1 entry.2)
    exact ⟨later.1.trans one.1, later.2.trans one.2⟩

theorem pending_storeAll (apart : ∀ entry ∈ writes, Register.transmitTail.offset ≠ entry.1) :
    (device.storeAll writes).transmitPending = device.transmitPending := by
  induction writes generalizing device with
  | nil => rfl
  | cons entry rest ih =>
    refine (ih fun other listed => apart other (List.mem_cons_of_mem _ listed)).trans ?_
    exact device.pending_store_of_ne entry.2 (apart entry (List.mem_cons_self ..))

end Emulator

/-! ### Gates -/

/-- A gate in front of the emulated device: reads pass, and each write is made or refused. The refusal names
the write. -/
structure Gate (bus : RegisterBus Emulator) : Prop where
  load : ∀ device offset, @RegisterBus.load Emulator bus device offset = .ok (device.load offset)
  store : ∀ device offset word, @RegisterBus.store Emulator bus device offset word = .ok (device.store offset word) ∨
    @RegisterBus.store Emulator bus device offset word = .error (.windowAccess offset word.toNat)

namespace Gate

theorem opened : Gate inferInstance :=
  ⟨fun _ _ => rfl, fun _ _ _ => .inl rfl⟩

variable {ε : Type} {bus : RegisterBus Emulator} {machine : Machine Emulator} {bad : Stop ε → Machine Emulator → Prop}

theorem ends_store (gate : Gate bus) {good : Unit → Machine Emulator → Prop} {offset : Nat} {word : UInt32}
    (refused : bad (.violated (.windowAccess offset word.toNat)) machine)
    (made : good () { machine with device := machine.device.store offset word }) :
    (@Machine.store Emulator ε bus offset word).Ends machine good bad := by
  unfold Machine.store Step.Ends
  dsimp only
  rcases gate.store machine.device offset word with passed | stopped
  · rw [passed]
    exact made
  · rw [stopped]
    exact refused

theorem ends_read (gate : Gate bus) {good : UInt32 → Machine Emulator → Prop} (register : Register) :
    (@Register.read Emulator ε bus register).Ends machine good bad ↔
      good (machine.device.load register.offset).1
        { machine with device := (machine.device.load register.offset).2 } := by
  unfold Register.read Machine.load Step.Ends
  dsimp only
  rw [gate.load]

end Gate

namespace Emulator

/-- The device behind a gate that closes once so many writes have been made. -/
@[reducible] def upTo (limit : Nat) : RegisterBus Emulator where
  load device offset := .ok (device.load offset)
  store device offset word :=
    if device.writes.size < limit then .ok (device.store offset word)
    else .error (.windowAccess offset word.toNat)

theorem gate_upTo (limit : Nat) : Gate (upTo limit) where
  load _ _ := rfl
  store device offset word := by
    change (if device.writes.size < limit then _ else _) = _ ∨ (if device.writes.size < limit then _ else _) = _
    by_cases open_ : device.writes.size < limit
    · exact .inl (if_pos open_)
    · exact .inr (if_neg open_)

end Emulator

end PacketPath
