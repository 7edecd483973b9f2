import PacketPath.Proofs.Host.TransmitEngine
import PacketPath.Proofs.Ring.Taking

/-! The receive engine of the emulated device. A frame goes into the next slot unless it is too long
for a buffer or the driver still owns every slot that the device may fill. -/

set_option autoImplicit false

namespace PacketPath.Emulator

variable {machine : Machine Emulator} {ring : ReceiveRing} {queue : List Arrival} {limit : Nat}

structure Fills (ring : ReceiveRing) (before after : Machine Emulator) : Prop where
  changes : before.memory.ChangesWithin (· ∈ ring.pages) after.memory
  reachable : after.memory.reachable = before.memory.reachable
  handles : ∀ id, after.memory.handles id = before.memory.handles id
  transmitSide : after.device.transmitSide = before.device.transmitSide

theorem Fills.of_same {before after : Machine Emulator} (memory : after.memory = before.memory)
    (transmitSide : after.device.transmitSide = before.device.transmitSide) : Fills ring before after where
  changes := memory ▸ .refl _ _
  reachable := by rw [memory]
  handles _ := by rw [memory]
  transmitSide := transmitSide

theorem listens_of_holds (holds : ring.Holds machine.memory machine.device.receiveSide queue) :
    ¬ ((machine.device.ring .receiveBaseLow .receiveBaseHigh .receiveLength).2 = 0 ∨
      machine.device.word .receiveControl &&& Register.Receive.enable = 0) := by
  rintro (none | off)
  · have length : (machine.device.ring .receiveBaseLow .receiveBaseHigh .receiveLength).2 = ring.capacity :=
      holds.wired.length
    have several := holds.wired.several
    omega
  · have enabled := holds.wired.enabled
    unfold receiveSide at enabled
    simp [off] at enabled

/-- The engine works on the queue of a ring. It finds the table and the pool, and all of their pages are alive. -/
structure ReceiveReady (limit : Nat) (ring : ReceiveRing) (machine : Machine Emulator) (queue : List Arrival) :
    Prop where
  stands : ReceiveRing.Stands (ring, machine) queue
  charted : machine.memory.Charted limit
  bounded : limit < 2 ^ 64
  reached : ∀ id ∈ ring.pages, machine.memory.Reaches id
  alive : ∀ id ∈ ring.pages, 0 < machine.memory.handles id

theorem ReceiveReady.holds (ready : ReceiveReady limit ring machine queue) :
    ring.Holds machine.memory machine.device.receiveSide queue :=
  ready.stands

/-- Where the next frame goes: the slot at the device's head waits with `page`, and the device finds the
descriptor at `place`, also once the frame is in the page. -/
structure Landing (ring : ReceiveRing) (machine : Machine Emulator) (frame : List UInt8) (page : PageId)
    (place : UInt64) : Prop where
  owned : ring.buffers[machine.device.receiveHead]? = some page
  size : (machine.memory.page page).size = Limits.pageSize
  advance : Address.advance (machine.memory.page ring.table.page).base
    (machine.device.receiveHead * Limits.descriptorSize) = .ok place
  table : machine.memory.locate place Limits.descriptorSize =
    .ok (ring.table.page, DescriptorTable.position machine.device.receiveHead)
  cell : ReceiveDescriptor.decode (machine.memory.slice ring.table.page
    (DescriptorTable.position machine.device.receiveHead) Limits.descriptorSize) =
      .empty (machine.memory.page page).base
  buffer : machine.memory.locate (machine.memory.page page).base frame.length = .ok (page, 0)
  report : (machine.memory.overwrite page 0 frame).locate place Limits.descriptorSize =
    .ok (ring.table.page, DescriptorTable.position machine.device.receiveHead)

theorem exists_landing (ready : ReceiveReady limit ring machine queue) {frame : List UInt8}
    (short : frame.length ≤ Limits.receiveBuffer) : ∃ page place, Landing ring machine frame page place := by
  have holds := ready.holds
  have charted := ready.charted
  have wired := holds.wired
  have head : machine.device.receiveHead = (ring.cursor + queue.length) % ring.capacity := holds.head
  have inside : machine.device.receiveHead < ring.capacity := by
    have several := wired.several
    rw [head]
    exact Nat.mod_lt _ (by omega)
  have free : machine.device.receiveHead ∉ Ring.arc ring.capacity ring.cursor queue.length := by
    rw [head]
    exact Ring.end_not_mem_arc wired.cursor holds.bounded
  -- The slot at the head is behind the frames that wait, so it is vacant.
  obtain ⟨page, owned, cell⟩ := holds.vacant _ inside free
  have table := ready.reached ring.table.page (List.mem_cons_self ..)
  have kept := ready.alive ring.table.page (List.mem_cons_self ..)
  have pool := ready.reached page (ReceiveRing.mem_pages owned)
  have covered := wired.fits.covers inside
  rw [charted.size_of_reaches table] at covered
  have first : machine.device.receiveHead * Limits.descriptorSize < Limits.pageSize :=
    Nat.lt_of_lt_of_le (Nat.lt_add_of_pos_right (by decide)) covered
  -- A page of the device lies below the end of the address space, so every slot has an address.
  obtain ⟨place, advance⟩ : ∃ place, Address.advance (machine.memory.page ring.table.page).base
      (machine.device.receiveHead * Limits.descriptorSize) = .ok place := by
    have below := charted.below _ table
    have bounded := ready.bounded
    dsimp only at below
    unfold Address.advance
    rw [if_pos (by omega)]
    exact ⟨_, rfl⟩
  have sum := Address.advance_eq_ok_iff.mp advance
  have arrival : Memory.ChangesWithin (· = page) machine.memory (machine.memory.overwrite page 0 frame) :=
    Memory.changes_overwrite _ (by rfl) _ _
  refine ⟨page, place, owned, charted.size_of_reaches pool, advance,
    charted.locate_eq table kept sum first covered, cell, ?_, ?_⟩
  · refine charted.locate_eq pool (ready.alive page (ReceiveRing.mem_pages owned)) (by omega) (by decide) ?_
    rw [Nat.zero_add]
    exact Nat.le_trans short (by decide)
  · have charted' := charted.of_changes arrival rfl
    refine charted'.locate_eq (arrival.reaches (charted.knows_of_reaches table) table) ?_ ?_ first covered
    · rw [Memory.handles_overwrite]
      exact kept
    · rw [arrival.base _ (charted.knows_of_reaches table)]
      exact sum

def filled (device : Emulator) (length : Nat) : Emulator :=
  let head := (device.receiveHead + 1) % length
  ({ device with receiveHead := head }.setWord .receiveHead (UInt32.ofNat head)).raise .received

def missing (device : Emulator) : Emulator :=
  { device.raise .receiverOverrun with missed := device.missed + 1 }

/-- A frame that comes in is too long, or finds the ring full, or goes into the slot at the device's head. -/
theorem receive_ends {good : Unit → Machine Emulator → Prop} {bad : Stop HostError → Machine Emulator → Prop}
    (ready : ReceiveReady limit ring machine queue) (frame : List UInt8) (errors : ReceiveErrors)
    (long : Limits.receiveBuffer < frame.length → bad (.refused (.frameTooLong frame.length)) machine)
    (full : frame.length ≤ Limits.receiveBuffer → queue.length = ring.capacity - 1 →
      bad (.refused .ringFull) { machine with device := machine.device.missing })
    (landed : ∀ page log, frame.length ≤ Limits.receiveBuffer → queue.length < ring.capacity - 1 →
      ring.buffers[machine.device.receiveHead]? = some page → (machine.memory.page page).size = Limits.pageSize →
      good ()
        { machine with
          memory := ring.filledMemory machine.memory machine.device.receiveHead page ⟨frame, errors⟩
          device := machine.device.filled ring.capacity
          log := log }) : (receive frame errors).Ends machine good bad := by
  have holds := ready.holds
  have length : (machine.device.ring .receiveBaseLow .receiveBaseHigh .receiveLength).2 = ring.capacity :=
    holds.wired.length
  have base : (machine.device.ring .receiveBaseLow .receiveBaseHigh .receiveLength).1 =
      (machine.memory.page ring.table.page).base := holds.wired.base
  have full_iff : machine.device.receiveHead = (machine.device.word .receiveTail).toNat % ring.capacity ↔
      queue.length = ring.capacity - 1 := length ▸ holds.full_iff
  unfold receive
  dsimp only
  rw [Step.ends_ite]
  refine ⟨long, fun fits => ?_⟩
  have short := Nat.le_of_not_lt fits
  rw [Step.ends_bind, Step.ends_get, Step.ends_ite]
  refine ⟨fun off => absurd off (listens_of_holds holds), fun _ => ?_⟩
  rw [Step.ends_ite, length, full_iff]
  constructor
  · intro crowded
    rw [Step.ends_bind, ends_changeDevice]
    exact full short crowded
  · intro room
    have some : queue.length < ring.capacity - 1 := by
      have limited := holds.bounded
      omega
    obtain ⟨page, place, landing⟩ := exists_landing ready short
    unfold slotAddress
    rw [Step.ends_bind, Step.ends_inspect, base, landing.advance]
    refine ⟨?_, by rintro _ ⟨⟩⟩
    rintro _ ⟨⟩
    -- The descriptor is read, the frame goes to the page it names, and the report back to the slot.
    rw [Step.ends_bind, ends_fetch_of_located landing.table, landing.cell, Step.ends_bind]
    change (deposit (machine.memory.page page).base frame).Ends machine _ _
    rw [ends_deposit_of_located landing.buffer, Step.ends_bind,
      ends_deposit_of_located (by rw [ReceiveDescriptor.length_encode]; exact landing.report), Step.ends_bind,
      ends_changeDevice, Machine.ends_note]
    exact landed page _ short some landing.owned landing.size

theorem receive_stands (ready : ReceiveReady limit ring machine queue) (frame : List UInt8)
    (errors : ReceiveErrors) :
    (receive frame errors).Ends machine
      (fun _ after => Fills ring machine after ∧ frame.length ≤ Limits.receiveBuffer ∧
        queue.length < ring.capacity - 1 ∧ ReceiveRing.Stands (ring, after) (queue ++ [⟨frame, errors⟩]))
      (fun stop after => Fills ring machine after ∧ ReceiveRing.Stands (ring, after) queue ∧
        (stop = .refused (.frameTooLong frame.length) ∧ Limits.receiveBuffer < frame.length ∨
          stop = .refused .ringFull ∧ frame.length ≤ Limits.receiveBuffer ∧
            queue.length = ring.capacity - 1)) := by
  apply receive_ends ready
  · intro long
    exact ⟨.of_same rfl rfl, ready.stands, .inl ⟨rfl, long⟩⟩
  · intro short crowded
    exact ⟨.of_same rfl rfl, ready.stands.of_same rfl rfl rfl rfl rfl, .inr ⟨rfl, short, crowded⟩⟩
  · intro page log short some owned size
    refine ⟨⟨?_, rfl, fun id => ?_, rfl⟩, short, some, ?_⟩
    · refine (ReceiveRing.changes_filledMemory ring machine.memory machine.device.receiveHead page
        ⟨frame, errors⟩).mono ?_
      rintro id (rfl | rfl)
      · exact List.mem_cons_self ..
      · exact ReceiveRing.mem_pages owned
    · unfold ReceiveRing.filledMemory
      rw [Memory.handles_overwrite, Memory.handles_overwrite]
    · have fits : (Arrival.mk frame errors).frame.length ≤ Limits.receiveBuffer := short
      exact ready.holds.arrived some owned size fits rfl

end PacketPath.Emulator
