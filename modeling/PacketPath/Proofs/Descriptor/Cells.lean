import PacketPath.Proofs.Descriptor.Codec
import PacketPath.Proofs.Machine
import PacketPath.Proofs.Memory.Chart

/-! Tables as arrays of cells. In a page that is long enough every slot has a cell of its own: a
write changes one cell and no other. -/

set_option autoImplicit false

namespace PacketPath.DescriptorTable

def cell (table : DescriptorTable) (memory : Memory) (slot : Nat) : List UInt8 :=
  memory.slice table.page (position slot) Limits.descriptorSize

def transmitCell (table : DescriptorTable) (memory : Memory) (slot : Nat) : TransmitDescriptor :=
  .decode (table.cell memory slot)

def receiveCell (table : DescriptorTable) (memory : Memory) (slot : Nat) : ReceiveDescriptor :=
  .decode (table.cell memory slot)

def Fits (table : DescriptorTable) (memory : Memory) : Prop :=
  table.byteLength ≤ (memory.page table.page).size

variable {table : DescriptorTable} {memory : Memory} {slot : Nat}

theorem Fits.covers (fits : table.Fits memory) (inside : slot < table.length) :
    position slot + Limits.descriptorSize ≤ (memory.page table.page).size := by
  unfold Fits byteLength at fits
  unfold position Limits.descriptorSize at *
  omega

theorem Fits.of_size {after : Memory} (fits : table.Fits memory)
    (size : (after.page table.page).size = (memory.page table.page).size) : table.Fits after := by
  unfold Fits
  rwa [size]

theorem Fits.of_page {page : PageId} {length : Nat} (paged : length * Limits.descriptorSize ≤ Limits.pageSize)
    (size : (memory.page page).size = Limits.pageSize) : Fits ⟨page, length⟩ memory := by
  unfold Fits byteLength
  rwa [size]

/-- The slots of a table that takes up no more than a page can be counted in the registers of the device. -/
theorem length_lt_of_paged {length : Nat} (paged : length * Limits.descriptorSize ≤ Limits.pageSize) :
    length < 2 ^ 16 := by
  unfold Limits.descriptorSize Limits.pageSize at paged
  omega

/-! ### Reading and writing -/

variable {δ ε : Type} {machine : Machine δ} {bad : Stop ε → Machine δ → Prop}

theorem ends_check {good : Unit → Machine δ → Prop} (inside : slot < table.length) :
    (table.check slot).Ends machine good bad ↔ good () machine := by
  rw [check, if_pos inside, Step.ends_pure]

theorem ends_readTransmit {good : TransmitDescriptor → Machine δ → Prop}
    (fits : table.Fits machine.memory) (inside : slot < table.length) :
    (table.readTransmit slot).Ends machine good bad ↔
      good (table.transmitCell machine.memory slot) machine := by
  unfold readTransmit readRaw
  rw [Step.ends_bind, Step.ends_bind, ends_check inside, Machine.ends_readBytes (fits.covers inside),
    Step.ends_pure]
  rfl

theorem ends_readReceive {good : ReceiveDescriptor → Machine δ → Prop}
    (fits : table.Fits machine.memory) (inside : slot < table.length) :
    (table.readReceive slot).Ends machine good bad ↔
      good (table.receiveCell machine.memory slot) machine := by
  unfold readReceive readRaw
  rw [Step.ends_bind, Step.ends_bind, ends_check inside, Machine.ends_readBytes (fits.covers inside),
    Step.ends_pure]
  rfl

theorem ends_writeTransmit {good : Unit → Machine δ → Prop} (fits : table.Fits machine.memory)
    (inside : slot < table.length) (descriptor : TransmitDescriptor) :
    (table.writeTransmit slot descriptor).Ends machine good bad ↔
      good () { machine with
        memory := machine.memory.overwrite table.page (position slot) descriptor.encode } := by
  have covered := fits.covers inside
  unfold writeTransmit writeRaw
  rw [Step.ends_bind, ends_check inside, Machine.ends_writeBytes (by rwa [TransmitDescriptor.length_encode])]

theorem ends_writeReceive {good : Unit → Machine δ → Prop} (fits : table.Fits machine.memory)
    (inside : slot < table.length) (descriptor : ReceiveDescriptor) :
    (table.writeReceive slot descriptor).Ends machine good bad ↔
      good () { machine with
        memory := machine.memory.overwrite table.page (position slot) descriptor.encode } := by
  have covered := fits.covers inside
  unfold writeReceive writeRaw
  rw [Step.ends_bind, ends_check inside, Machine.ends_writeBytes (by rwa [ReceiveDescriptor.length_encode])]

theorem ends_readByte {good : UInt8 → Machine δ → Prop} (fits : table.Fits machine.memory)
    (inside : slot < table.length) {offset : Nat} (narrow : offset < Limits.descriptorSize) :
    (table.readByte slot offset).Ends machine good bad ↔
      good ((table.cell machine.memory slot).getD offset 0) machine := by
  have covered := fits.covers inside
  have single : UInt8.ofNat (Word.ofBytes (machine.memory.slice table.page (position slot + offset) 1)) =
      (table.cell machine.memory slot).getD offset 0 := by
    have present : position slot + offset < (machine.memory.page table.page).bytes.size := by
      simp only [Page.size] at covered
      omega
    have read : machine.memory.slice table.page (position slot + offset) 1 =
        [(machine.memory.page table.page).bytes[position slot + offset]] := by
      apply List.ext_getElem?
      intro i
      rw [Memory.slice, Page.getElem?_slice]
      cases i with
      | zero => simp [present]
      | succ i => simp
    rw [read, cell, Memory.slice, List.getD_eq_getElem?_getD, Page.getElem?_slice, if_pos narrow]
    simp [Word.ofBytes, present]
  unfold readByte
  rw [Step.ends_bind, ends_check inside, Step.ends_bind,
    Machine.ends_readWord (by simp only [Limits.descriptorSize] at *; omega), Step.ends_pure, single]

theorem ends_transmitStatus {good : TransmitStatus → Machine δ → Prop}
    (fits : table.Fits machine.memory) (inside : slot < table.length) :
    (table.transmitStatus slot).Ends machine good bad ↔
      good (table.transmitCell machine.memory slot).status machine := by
  unfold transmitStatus
  rw [Step.ends_bind, ends_readByte fits inside (by decide), Step.ends_pure]
  rfl

theorem ends_receiveStatus {good : ReceiveStatus → Machine δ → Prop}
    (fits : table.Fits machine.memory) (inside : slot < table.length) :
    (table.receiveStatus slot).Ends machine good bad ↔
      good (table.receiveCell machine.memory slot).status machine := by
  unfold receiveStatus
  rw [Step.ends_bind, ends_readByte fits inside (by decide), Step.ends_pure]
  rfl

/-! ### Cells after a change -/

theorem cell_overwrite (fits : table.Fits memory) (inside : slot < table.length) {data : List UInt8}
    (whole : data.length = Limits.descriptorSize) (other : Nat) :
    table.cell (memory.overwrite table.page (position slot) data) other =
      if other = slot then data else table.cell memory other := by
  have covered := fits.covers inside
  rw [cell, Memory.slice, Memory.page_overwrite, if_pos rfl]
  by_cases same : other = slot
  · rw [if_pos same, same, ← whole]
    exact Page.slice_overwrite (by rwa [whole])
  · rw [if_neg same, cell, Memory.slice]
    apply Page.slice_overwrite_apart
    unfold position Limits.descriptorSize at *
    omega

theorem transmitCell_overwrite (fits : table.Fits memory) (inside : slot < table.length)
    (descriptor : TransmitDescriptor) (other : Nat) :
    table.transmitCell (memory.overwrite table.page (position slot) descriptor.encode) other =
      if other = slot then descriptor else table.transmitCell memory other := by
  unfold transmitCell
  rw [cell_overwrite fits inside descriptor.length_encode]
  split
  · exact descriptor.decode_encode
  · rfl

theorem receiveCell_overwrite (fits : table.Fits memory) (inside : slot < table.length)
    (descriptor : ReceiveDescriptor) (other : Nat) :
    table.receiveCell (memory.overwrite table.page (position slot) descriptor.encode) other =
      if other = slot then descriptor else table.receiveCell memory other := by
  unfold receiveCell
  rw [cell_overwrite fits inside descriptor.length_encode]
  split
  · exact descriptor.decode_encode
  · rfl

section

variable {scope : PageId → Prop} {after : Memory}

theorem cell_of_changes (changes : memory.ChangesWithin scope after) (known : memory.Knows table.page)
    (outside : ¬ scope table.page) : table.cell after = table.cell memory := by
  funext slot
  exact changes.slice known outside _ _

theorem Fits.of_changes (fits : table.Fits memory) (changes : memory.ChangesWithin scope after)
    (known : memory.Knows table.page) : table.Fits after :=
  fits.of_size (changes.size _ known)

end

end PacketPath.DescriptorTable
