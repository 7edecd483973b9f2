import PacketPath.Proofs.Memory.Growth
import PacketPath.Proofs.Ring.Raising

/-! Complete rings: the table and the pool are laid out in memory, and the device has been told of them. That
lasts as long as nobody writes to the pages or tells the device otherwise. -/

set_option autoImplicit false

namespace PacketPath

variable {machine after : Machine Emulator} {table : DescriptorTable} {ring : ReceiveRing}

def Emulator.transmitAim : List Register :=
  [.transmitBaseLow, .transmitBaseHigh, .transmitLength, .transmitHead, .transmitTail]

def Emulator.receiveAim : List Register :=
  [.receiveBaseLow, .receiveBaseHigh, .receiveLength, .receiveHead, .receiveTail]

/-- A transmit table lies complete in a page of its own, every slot of it done, and the device has been told
of it: where it is, how long it is, and that it is empty. -/
structure TransmitLaid (table : DescriptorTable) (machine : Machine Emulator) : Prop where
  size : (machine.memory.page table.page).size = Limits.pageSize
  fits : table.byteLength ≤ Limits.pageSize
  done : ∀ slot < table.length, (table.transmitCell machine.memory slot).status.isDone = true
  aim : machine.device.ring .transmitBaseLow .transmitBaseHigh .transmitLength =
    ((machine.memory.page table.page).base, table.length)
  bytes : (machine.device.word .transmitLength).toNat = 16 * table.length
  head : machine.device.word .transmitHead = 0
  tail : machine.device.word .transmitTail = 0

/-- A receive table lies complete in a page of its own. Each slot has nothing but the address of a pool page
of its own, and that page is clear. The device has been told of it, and may fill all slots but the last. -/
structure ReceiveLaid (ring : ReceiveRing) (machine : Machine Emulator) : Prop where
  size : (machine.memory.page ring.table.page).size = Limits.pageSize
  fits : ring.table.byteLength ≤ Limits.pageSize
  whole : ring.buffers.size = ring.capacity
  apart : ring.pages.Nodup
  cells : ∀ slot page, ring.buffers[slot]? = some page →
    ring.table.receiveCell machine.memory slot = .empty (machine.memory.page page).base
  zeros : ∀ page ∈ ring.buffers.toList, (machine.memory.page page).bytes = Array.replicate Limits.pageSize 0
  aim : machine.device.ring .receiveBaseLow .receiveBaseHigh .receiveLength =
    ((machine.memory.page ring.table.page).base, ring.capacity)
  bytes : (machine.device.word .receiveLength).toNat = 16 * ring.capacity
  head : machine.device.word .receiveHead = 0
  tail : (machine.device.word .receiveTail).toNat = ring.capacity - 1

theorem knows_of_size_page {memory : Memory} {id : PageId} (size : (memory.page id).size = Limits.pageSize) :
    memory.Knows id := by
  apply Memory.knows_of_size
  rw [size]
  decide

namespace TransmitLaid

theorem store (laid : TransmitLaid table machine) (offset : Nat) (word : UInt32)
    (apart : ∀ register ∈ Emulator.transmitAim, register.offset ≠ offset) :
    TransmitLaid table { machine with device := machine.device.store offset word } := by
  have kept (register : Register) (listed : register ∈ Emulator.transmitAim) :=
    machine.device.word_store_of_ne word (apart register listed)
  refine { laid with aim := ?_, bytes := ?_, head := ?_, tail := ?_ }
  · unfold Emulator.ring
    rw [kept .transmitBaseLow (by decide), kept .transmitBaseHigh (by decide), kept .transmitLength (by decide)]
    exact laid.aim
  · exact (congrArg UInt32.toNat (kept .transmitLength (by decide))).trans laid.bytes
  · exact (kept .transmitHead (by decide)).trans laid.head
  · exact (kept .transmitTail (by decide)).trans laid.tail

theorem of_grows (laid : TransmitLaid table machine) (grows : machine.memory.Grows (fun _ => False) after.memory)
    (device : after.device = machine.device) : TransmitLaid table after := by
  have known := knows_of_size_page laid.size
  exact
    { size := (grows.size known not_false).trans laid.size
      fits := laid.fits
      done := by
        intro slot inside
        unfold DescriptorTable.transmitCell
        rw [grows.cell known not_false]
        exact laid.done slot inside
      aim := by
        rw [device, grows.base _ known]
        exact laid.aim
      bytes := device ▸ laid.bytes
      head := device ▸ laid.head
      tail := device ▸ laid.tail }

theorem of_aim (several : table.length < 2 ^ 16) (size : (machine.memory.page table.page).size = Limits.pageSize)
    (fits : table.byteLength ≤ Limits.pageSize)
    (done : ∀ slot < table.length, (table.transmitCell machine.memory slot).status.isDone = true)
    {device : Emulator} (told : machine.device =
      device.aimTransmit (machine.memory.page table.page).base table.byteLength) :
    TransmitLaid table machine := by
  have length : (UInt32.ofNat table.byteLength).toNat = 16 * table.length := by
    unfold DescriptorTable.byteLength Limits.descriptorSize
    rw [UInt32.toNat_ofNat']
    omega
  refine ⟨size, fits, done, ?_, ?_, ?_, ?_⟩
  · rw [told]
    refine Prod.ext (Emulator.join_words _) ?_
    change (UInt32.ofNat table.byteLength).toNat / 16 = table.length
    omega
  · rw [told]
    exact length
  · rw [told]
    rfl
  · rw [told]
    rfl

end TransmitLaid

namespace ReceiveLaid

theorem store (laid : ReceiveLaid ring machine) (offset : Nat) (word : UInt32)
    (apart : ∀ register ∈ Emulator.receiveAim, register.offset ≠ offset) :
    ReceiveLaid ring { machine with device := machine.device.store offset word } := by
  have kept (register : Register) (listed : register ∈ Emulator.receiveAim) :=
    machine.device.word_store_of_ne word (apart register listed)
  refine { laid with aim := ?_, bytes := ?_, head := ?_, tail := ?_ }
  · unfold Emulator.ring
    rw [kept .receiveBaseLow (by decide), kept .receiveBaseHigh (by decide), kept .receiveLength (by decide)]
    exact laid.aim
  · exact (congrArg UInt32.toNat (kept .receiveLength (by decide))).trans laid.bytes
  · exact (kept .receiveHead (by decide)).trans laid.head
  · exact (congrArg UInt32.toNat (kept .receiveTail (by decide))).trans laid.tail

theorem of_grows (laid : ReceiveLaid ring machine) (grows : machine.memory.Grows (fun _ => False) after.memory)
    (device : after.device = machine.device) : ReceiveLaid ring after := by
  have known := knows_of_size_page laid.size
  -- A page of zeros is not empty, so it was known before.
  have pooled (page : PageId) (listed : page ∈ ring.buffers.toList) : machine.memory.Knows page := by
    apply knows_of_size_page
    unfold Page.size
    rw [laid.zeros page listed, Array.size_replicate]
  exact
    { size := (grows.size known not_false).trans laid.size
      fits := laid.fits
      whole := laid.whole
      apart := laid.apart
      cells := by
        intro slot page owned
        unfold DescriptorTable.receiveCell
        rw [grows.cell known not_false, grows.base _ (pooled page (ReceiveRing.mem_buffers owned))]
        exact laid.cells slot page owned
      zeros := by
        intro page listed
        rw [grows.bytes _ (pooled page listed) not_false]
        exact laid.zeros page listed
      aim := by
        rw [device, grows.base _ known]
        exact laid.aim
      bytes := device ▸ laid.bytes
      head := device ▸ laid.head
      tail := device ▸ laid.tail }

theorem of_aim (several : ring.capacity < 2 ^ 16)
    (size : (machine.memory.page ring.table.page).size = Limits.pageSize)
    (fits : ring.table.byteLength ≤ Limits.pageSize) (whole : ring.buffers.size = ring.capacity)
    (apart : ring.pages.Nodup)
    (cells : ∀ slot page, ring.buffers[slot]? = some page →
      ring.table.receiveCell machine.memory slot = .empty (machine.memory.page page).base)
    (zeros : ∀ page ∈ ring.buffers.toList, (machine.memory.page page).bytes = Array.replicate Limits.pageSize 0)
    {device : Emulator} (told : machine.device =
      device.aimReceive (machine.memory.page ring.table.page).base ring.table.byteLength (ring.capacity - 1)) :
    ReceiveLaid ring machine := by
  have length : (UInt32.ofNat ring.table.byteLength).toNat = 16 * ring.capacity := by
    unfold ReceiveRing.capacity at several ⊢
    unfold DescriptorTable.byteLength Limits.descriptorSize
    rw [UInt32.toNat_ofNat']
    omega
  refine ⟨size, fits, whole, apart, cells, zeros, ?_, ?_, ?_, ?_⟩
  · rw [told]
    refine Prod.ext (Emulator.join_words _) ?_
    change (UInt32.ofNat ring.table.byteLength).toNat / 16 = ring.capacity
    omega
  · rw [told]
    exact length
  · rw [told]
    rfl
  · rw [told]
    change (UInt32.ofNat (ring.capacity - 1)).toNat = _
    rw [UInt32.toNat_ofNat']
    omega

end ReceiveLaid

end PacketPath
