import PacketPath.Proofs.Memory.Chart
import PacketPath.Proofs.Ring.Posting

/-! The transmit engine of the emulated device. It reads memory wherever its descriptors send it, but
it writes only reports, and only into the table of the ring it is wired to. -/

set_option autoImplicit false

namespace PacketPath.Emulator

variable {machine : Machine Emulator} {bad : Stop HostError → Machine Emulator → Prop} {limit : Nat}

@[simp] theorem ends_changeDevice {ε : Type} {good : Unit → Machine Emulator → Prop}
    {bad : Stop ε → Machine Emulator → Prop} (change : Emulator → Emulator) :
    (changeDevice change).Ends machine good bad ↔ good () { machine with device := change machine.device } :=
  Iff.rfl

theorem ends_fetch {good : List UInt8 → Machine Emulator → Prop} (address : UInt64) (length : Nat) :
    (fetch address length).Ends machine good bad ↔
      (∀ id offset, machine.memory.locate address length = .ok (id, offset) →
        good (machine.memory.slice id offset length) machine) ∧
      (∀ fault, machine.memory.locate address length = .error fault →
        bad (.refused (.address fault)) machine) := by
  unfold fetch
  rw [Step.ends_mapRefusal]
  unfold Step.Ends Machine.fetch
  rcases machine.memory.locate address length with _ | ⟨id, offset⟩ <;> simp [Stop.map]

theorem ends_deposit {good : Unit → Machine Emulator → Prop} (address : UInt64) (data : List UInt8) :
    (deposit address data).Ends machine good bad ↔
      (∀ id offset, machine.memory.locate address data.length = .ok (id, offset) →
        good () { machine with memory := machine.memory.overwrite id offset data }) ∧
      (∀ fault, machine.memory.locate address data.length = .error fault →
        bad (.refused (.address fault)) machine) := by
  unfold deposit
  rw [Step.ends_mapRefusal]
  unfold Step.Ends Machine.deposit
  rcases machine.memory.locate address data.length with _ | ⟨id, offset⟩ <;> simp [Stop.map]

theorem ends_fetch_of_located {good : List UInt8 → Machine Emulator → Prop} {address : UInt64}
    {length offset : Nat} {id : PageId} (located : machine.memory.locate address length = .ok (id, offset)) :
    (fetch address length).Ends machine good bad ↔ good (machine.memory.slice id offset length) machine := by
  rw [ends_fetch, located]
  simp

theorem ends_deposit_of_located {good : Unit → Machine Emulator → Prop} {address : UInt64}
    {data : List UInt8} {offset : Nat} {id : PageId}
    (located : machine.memory.locate address data.length = .ok (id, offset)) :
    (deposit address data).Ends machine good bad ↔
      good () { machine with memory := machine.memory.overwrite id offset data } := by
  rw [ends_deposit, located]
  simp

/-! ### The wire -/

namespace TransmitSide

/-- The side after the bytes of a slot were fetched. The last slot of a frame puts it on the wire. -/
def gather (side : TransmitSide) (bytes : List UInt8) (endsFrame : Bool) : TransmitSide :=
  if endsFrame then { side with gathered := [], sent := side.sent ++ [side.gathered ++ bytes] }
  else { side with gathered := side.gathered ++ bytes }

def onward (side : TransmitSide) : TransmitSide :=
  { side with head := (side.head + 1) % side.length, pending := side.pending - 1 }

structure SameRing (before after : TransmitSide) : Prop where
  base : after.base = before.base
  length : after.length = before.length
  enabled : after.enabled = before.enabled
  tail : after.tail = before.tail

theorem SameRing.refl (side : TransmitSide) : SameRing side side :=
  ⟨rfl, rfl, rfl, rfl⟩

theorem SameRing.trans {one two three : TransmitSide} (first : SameRing one two) (second : SameRing two three) :
    SameRing one three where
  base := second.base.trans first.base
  length := second.length.trans first.length
  enabled := second.enabled.trans first.enabled
  tail := second.tail.trans first.tail

theorem sameRing_gather (side : TransmitSide) (bytes : List UInt8) (endsFrame : Bool) :
    SameRing side (side.gather bytes endsFrame) := by
  unfold gather
  split <;> exact ⟨rfl, rfl, rfl, rfl⟩

@[simp] theorem head_gather (side : TransmitSide) (bytes : List UInt8) (endsFrame : Bool) :
    (side.gather bytes endsFrame).head = side.head := by
  unfold gather
  split <;> rfl

@[simp] theorem pending_gather (side : TransmitSide) (bytes : List UInt8) (endsFrame : Bool) :
    (side.gather bytes endsFrame).pending = side.pending := by
  unfold gather
  split <;> rfl

end TransmitSide

def gather (device : Emulator) (bytes : List UInt8) (endsFrame : Bool) : Emulator :=
  if endsFrame then { device with gathered := [], sent := device.sent ++ [device.gathered ++ bytes] }
  else { device with gathered := device.gathered ++ bytes }

def onward (device : Emulator) (length : Nat) : Emulator :=
  let head := (device.transmitHead + 1) % length
  { device.setWord .transmitHead (UInt32.ofNat head) with
    transmitHead := head, transmitPending := device.transmitPending - 1 }

theorem transmitSide_gather (device : Emulator) (bytes : List UInt8) (endsFrame : Bool) :
    (device.gather bytes endsFrame).transmitSide = device.transmitSide.gather bytes endsFrame := by
  unfold gather TransmitSide.gather
  split <;> rfl

theorem causes_gather (device : Emulator) (bytes : List UInt8) (endsFrame : Bool) :
    (device.gather bytes endsFrame).causes = device.causes := by
  unfold gather
  split <;> rfl

theorem writes_gather (device : Emulator) (bytes : List UInt8) (endsFrame : Bool) :
    (device.gather bytes endsFrame).writes = device.writes := by
  unfold gather
  split <;> rfl

@[simp] theorem receiveSide_gather (device : Emulator) (bytes : List UInt8) (endsFrame : Bool) :
    (device.gather bytes endsFrame).receiveSide = device.receiveSide := by
  unfold gather
  split <;> rfl

theorem transmitSide_onward {device : Emulator} {length : Nat} (same : device.transmitSide.length = length) :
    (device.onward length).transmitSide = device.transmitSide.onward := by
  subst same
  rfl

@[simp] theorem receiveSide_onward (device : Emulator) (length : Nat) :
    (device.onward length).receiveSide = device.receiveSide :=
  rfl

/-! ### One slot -/

/-- What the engine finds in a slot: where the descriptor lies, what it says, and the bytes it leads to. -/
structure Reading where
  slot : Nat
  page : PageId
  offset : Nat
  descriptor : TransmitDescriptor
  bytes : List UInt8

def readSlot (base : UInt64) (memory : Memory) (slot : Nat) : Except (Stop HostError) Reading :=
  match Address.advance base (slot * Limits.descriptorSize) with
  | .error violation => .error (.violated violation)
  | .ok place =>
    match memory.locate place Limits.descriptorSize with
    | .error fault => .error (.refused (.address fault))
    | .ok (page, offset) =>
      let descriptor := TransmitDescriptor.decode (memory.slice page offset Limits.descriptorSize)
      match memory.locate descriptor.address descriptor.length.toNat with
      | .error fault => .error (.refused (.address fault))
      | .ok (source, start) =>
        .ok ⟨slot, page, offset, descriptor, memory.slice source start descriptor.length.toNat⟩

def completed (reading : Reading) (length : Nat) (log : Array LogLine) (machine : Machine Emulator) :
    Machine Emulator where
  memory :=
    if reading.descriptor.command.reportsStatus then
      machine.memory.overwrite reading.page reading.offset
        { reading.descriptor with status := TransmitStatus.done }.encode
    else machine.memory
  device := (machine.device.gather reading.bytes reading.descriptor.command.endsFrame).onward length
  log := log

/-- A slot that can be read is completed. The report goes back to where the descriptor was read, so nothing is in its
way; and a slot that cannot be read is left as it is. -/
theorem fetchSlot_reads {good : Unit → Machine Emulator → Prop} {base : UInt64} {length : Nat}
    (stopped : ∀ stop, readSlot base machine.memory machine.device.transmitHead = .error stop → bad stop machine)
    (read : ∀ reading log, readSlot base machine.memory machine.device.transmitHead = .ok reading →
      good () (completed reading length log machine)) :
    (fetchSlot base length).Ends machine good bad := by
  unfold readSlot at stopped read
  unfold fetchSlot slotAddress
  rw [Step.ends_bind, Step.ends_get, Step.ends_bind, Step.ends_inspect]
  refine ⟨fun place found => ?_, fun violation missing => stopped _ (by rw [missing])⟩
  simp only [found] at stopped read
  rw [Step.ends_bind, ends_fetch]
  refine ⟨fun page offset located => ?_, fun fault missed => stopped _ (by rw [missed])⟩
  simp only [located] at stopped read
  generalize TransmitDescriptor.decode (machine.memory.slice page offset Limits.descriptorSize) = descriptor at *
  rw [Step.ends_bind, ends_fetch]
  refine ⟨fun source start seen => ?_, fun fault missed => stopped _ (by rw [missed])⟩
  simp only [seen] at read
  have ended := fun log => read _ log rfl
  unfold completed gather onward at ended
  simp only [Step.ends_bind, Step.ends_get, Step.ends_ite, ends_changeDevice, Machine.ends_note]
  -- The bytes are gathered before the report, but memory has not changed since the descriptor was read.
  have report (machine' : Machine Emulator) (same : machine'.memory = machine.memory)
      (good : Unit → Machine Emulator → Prop) :
      (deposit place { descriptor with status := TransmitStatus.done }.encode).Ends machine' good bad ↔
        good () { machine' with
          memory := machine.memory.overwrite page offset
            { descriptor with status := TransmitStatus.done }.encode } := by
    rw [ends_deposit_of_located (by rw [same, TransmitDescriptor.length_encode]; exact located), same]
  refine ⟨fun last => ⟨fun reports => ?_, fun silent => ?_⟩, fun more => ⟨fun reports => ?_, fun silent => ?_⟩⟩
  · simp only [if_pos last, if_pos reports] at ended
    rw [report]
    · exact ended _
    · rfl
  · simp only [if_pos last, if_neg silent] at ended
    exact ended _
  · simp only [if_neg more, if_pos reports] at ended
    rw [report]
    · exact ended _
    · rfl
  · simp only [if_neg more, if_neg silent] at ended
    exact ended _

section

variable {ring : TransmitRing}

/-- The engine is switched on and finds the table of its ring. -/
structure TableReady (limit : Nat) (ring : TransmitRing) (machine : Machine Emulator) : Prop where
  wired : ring.Wired machine.memory machine.device.transmitSide
  charted : machine.memory.Charted limit
  bounded : limit < 2 ^ 64
  reached : machine.memory.Reaches ring.table.page
  kept : 0 < machine.memory.handles ring.table.page

theorem TableReady.covers (ready : TableReady limit ring machine) :
    machine.device.transmitHead * Limits.descriptorSize + Limits.descriptorSize ≤ Limits.pageSize := by
  have covered := ready.wired.seated.fits.covers ready.wired.head
  rwa [ready.charted.size_of_reaches ready.reached] at covered

theorem TableReady.locate_slot (ready : TableReady limit ring machine) {place : UInt64}
    (found : Address.advance machine.device.transmitSide.base
      (machine.device.transmitHead * Limits.descriptorSize) = .ok place) :
    machine.memory.locate place Limits.descriptorSize =
      .ok (ring.table.page, DescriptorTable.position machine.device.transmitHead) := by
  have covered := ready.covers
  have sum := Address.advance_eq_ok_iff.mp found
  rw [ready.wired.base] at sum
  refine ready.charted.locate_eq ready.reached ready.kept sum (Nat.lt_of_lt_of_le ?_ covered) covered
  exact Nat.lt_add_of_pos_right (by decide)

theorem TableReady.advance_slot (ready : TableReady limit ring machine) :
    ∃ place, Address.advance machine.device.transmitSide.base
      (machine.device.transmitHead * Limits.descriptorSize) = .ok place := by
  have below := ready.charted.below _ ready.reached
  have bounded := ready.bounded
  have inside : machine.device.transmitHead * Limits.descriptorSize < Limits.pageSize :=
    Nat.lt_of_lt_of_le (Nat.lt_add_of_pos_right (by decide)) ready.covers
  refine ⟨_, if_pos ?_⟩
  rw [ready.wired.base]
  dsimp only at below
  omega

/-- The slot at the head is read from the table, its bytes from wherever it says; a slot that cannot
be read to its end stays where it is. -/
theorem fetchSlot_ends {good : Unit → Machine Emulator → Prop} (ready : TableReady limit ring machine)
    {descriptor : TransmitDescriptor}
    (read : ring.table.transmitCell machine.memory machine.device.transmitHead = descriptor)
    (fault : ∀ fault,
      machine.memory.locate descriptor.address descriptor.length.toNat = .error fault →
      bad (.refused (.address fault)) machine)
    (fetched : ∀ id offset log,
      machine.memory.locate descriptor.address descriptor.length.toNat = .ok (id, offset) →
      good ()
        { machine with
          memory :=
            if descriptor.command.reportsStatus then
              machine.memory.overwrite ring.table.page (DescriptorTable.position machine.device.transmitHead)
                { descriptor with status := TransmitStatus.done }.encode
            else machine.memory
          device :=
            (machine.device.gather (machine.memory.slice id offset descriptor.length.toNat)
              descriptor.command.endsFrame).onward machine.device.transmitSide.length
          log := log }) :
    (fetchSlot machine.device.transmitSide.base machine.device.transmitSide.length).Ends machine good bad := by
  obtain ⟨place, found⟩ := ready.advance_slot
  have located := ready.locate_slot found
  unfold DescriptorTable.transmitCell DescriptorTable.cell at read
  -- On a wired ring only the bytes may fail to be found: the slot itself is always read.
  have sight : readSlot machine.device.transmitSide.base machine.memory machine.device.transmitHead =
      match machine.memory.locate descriptor.address descriptor.length.toNat with
      | .error fault => .error (.refused (.address fault))
      | .ok (source, start) =>
        .ok ⟨machine.device.transmitHead, ring.table.page, DescriptorTable.position machine.device.transmitHead,
          descriptor, machine.memory.slice source start descriptor.length.toNat⟩ := by
    unfold readSlot
    simp only [found, located, read]
  cases seen : machine.memory.locate descriptor.address descriptor.length.toNat with
  | error missing =>
    rw [seen] at sight
    refine fetchSlot_reads (fun stop stopped => ?_) fun reading log done => ?_
    · rw [sight] at stopped
      cases stopped
      exact fault missing seen
    · rw [sight] at done
      cases done
  | ok source =>
    rw [seen] at sight
    refine fetchSlot_reads (fun stop stopped => ?_) fun reading log done => ?_
    · rw [sight] at stopped
      cases stopped
    · rw [sight] at done
      cases done
      exact fetched _ _ log seen

/-! ### What every fetch keeps -/

structure Serves (ring : TransmitRing) (before after : Machine Emulator) : Prop where
  changes : before.memory.ChangesWithin (· = ring.table.page) after.memory
  reachable : after.memory.reachable = before.memory.reachable
  handles : ∀ id, after.memory.handles id = before.memory.handles id
  sameRing : TransmitSide.SameRing before.device.transmitSide after.device.transmitSide
  head : after.device.transmitSide.head < ring.capacity
  receiveSide : after.device.receiveSide = before.device.receiveSide

namespace Serves

variable {before middle after : Machine Emulator}

theorem of_same (head : before.device.transmitSide.head < ring.capacity) (memory : after.memory = before.memory)
    (transmitSide : after.device.transmitSide = before.device.transmitSide)
    (receiveSide : after.device.receiveSide = before.device.receiveSide) : Serves ring before after where
  changes := memory ▸ .refl _ _
  reachable := by rw [memory]
  handles _ := by rw [memory]
  sameRing := transmitSide ▸ .refl _
  head := transmitSide ▸ head
  receiveSide := receiveSide

theorem trans (first : Serves ring before middle) (second : Serves ring middle after) :
    Serves ring before after where
  changes := first.changes.trans second.changes
  reachable := second.reachable.trans first.reachable
  handles id := (second.handles id).trans (first.handles id)
  sameRing := first.sameRing.trans second.sameRing
  head := second.head
  receiveSide := second.receiveSide.trans first.receiveSide

theorem wired (serves : Serves ring before after) (wired : ring.Wired before.memory before.device.transmitSide) :
    ring.Wired after.memory after.device.transmitSide :=
  { wired.of_changes serves.changes with
    base := by rw [serves.sameRing.base]; exact (wired.of_changes serves.changes).base
    length := by rw [serves.sameRing.length, wired.length]
    enabled := by rw [serves.sameRing.enabled, wired.enabled]
    head := serves.head }

theorem charted (serves : Serves ring before after) (charted : before.memory.Charted limit) :
    after.memory.Charted limit :=
  charted.of_changes serves.changes serves.reachable

theorem ready (serves : Serves ring before after) (ready : TableReady limit ring before) :
    TableReady limit ring after where
  wired := serves.wired ready.wired
  charted := serves.charted ready.charted
  bounded := ready.bounded
  reached := serves.changes.reaches ready.wired.seated.knows ready.reached
  kept := by
    rw [serves.handles]
    exact ready.kept

end Serves

theorem handles_report (memory : Memory) (reports : Bool) (table id : PageId) (offset : Nat) (data : List UInt8) :
    (if reports then memory.overwrite table offset data else memory).handles id = memory.handles id := by
  split
  · exact Memory.handles_overwrite ..
  · rfl

theorem fetchSlot_serves (ready : TableReady limit ring machine) :
    (fetchSlot machine.device.transmitSide.base machine.device.transmitSide.length).Ends machine
      (fun _ => Serves ring machine) (fun _ => Serves ring machine) := by
  have wired := ready.wired
  apply fetchSlot_ends ready rfl
  · intro fault _
    exact .of_same wired.head rfl rfl rfl
  · intro id offset log _
    have side := TransmitSide.sameRing_gather machine.device.transmitSide
      (machine.memory.slice id offset
        (ring.table.transmitCell machine.memory machine.device.transmitHead).length.toNat)
      (ring.table.transmitCell machine.memory machine.device.transmitHead).command.endsFrame
    rw [← transmitSide_gather] at side
    exact
      { changes := by
          dsimp only
          split
          · exact Memory.changes_overwrite _ (by rfl) _ _
          · exact .refl _ _
        reachable := by
          dsimp only
          split <;> rfl
        handles := fun id => handles_report ..
        sameRing := by
          rw [transmitSide_onward side.length]
          exact side.trans ⟨rfl, rfl, rfl, rfl⟩
        head := by
          rw [transmitSide_onward side.length]
          change (_ % _) < ring.capacity
          rw [side.length, wired.length]
          have several := wired.several
          exact Nat.mod_lt _ (by omega)
        receiveSide := by rw [receiveSide_onward, receiveSide_gather] }

theorem fetchSlots_serves (ready : TableReady limit ring machine) (count : Nat) :
    (fetchSlots machine.device.transmitSide.base machine.device.transmitSide.length count).Ends machine
      (fun _ => Serves ring machine) (fun _ => Serves ring machine) := by
  induction count generalizing machine with
  | zero => exact .of_same ready.wired.head rfl rfl rfl
  | succ count ih =>
    unfold fetchSlots
    rw [Step.ends_bind]
    refine (fetchSlot_serves ready).mono ?_ (fun _ _ serves => serves)
    intro _ after first
    -- The later slots are fetched from the same ring, wherever its head is by then.
    rw [← first.sameRing.base, ← first.sameRing.length]
    exact (ih (first.ready ready)).mono (fun _ _ later => first.trans later) (fun _ _ later => first.trans later)

def latch (device : Emulator) : Emulator :=
  let device := device.raise .transmitWritten
  if device.transmitPending = 0 then device.raise .transmitEmpty else device

theorem latch_eq (device : Emulator) : device.latch =
    if device.transmitPending = 0 then (device.raise .transmitWritten).raise .transmitEmpty
    else device.raise .transmitWritten :=
  rfl

@[simp] theorem transmitSide_latch (device : Emulator) : device.latch.transmitSide = device.transmitSide := by
  unfold latch
  dsimp only
  split <;> rfl

@[simp] theorem receiveSide_latch (device : Emulator) : device.latch.receiveSide = device.receiveSide := by
  unfold latch
  dsimp only
  split <;> rfl

/-- On a wired ring the engine fetches as many slots as are pending, up to the limit, and latches the
causes if there was one. -/
theorem transmit_ends {good : Nat → Machine Emulator → Prop}
    (wired : ring.Wired machine.memory machine.device.transmitSide) (most : Nat)
    (fetched : (fetchSlots machine.device.transmitSide.base machine.device.transmitSide.length
      (min machine.device.transmitSide.pending most)).Ends machine
        (fun _ after => good (min machine.device.transmitSide.pending most)
          (if min machine.device.transmitSide.pending most = 0 then after
            else { after with device := after.device.latch })) bad) :
    (transmit most).Ends machine good bad := by
  have several := wired.several
  have length := wired.length
  -- A wired ring has slots and is switched on, so the engine does not stop at the door.
  have on : ¬ (machine.device.word .transmitControl &&& Register.Transmit.enable = 0 ∨
      (machine.device.ring .transmitBaseLow .transmitBaseHigh .transmitLength).2 = 0) := by
    rintro (off | none)
    · have enabled := wired.enabled
      unfold transmitSide at enabled
      simp [off] at enabled
    · have length : (machine.device.ring .transmitBaseLow .transmitBaseHigh .transmitLength).2 = ring.capacity :=
        length
      omega
  unfold transmit
  rw [Step.ends_bind, Step.ends_get]
  dsimp only
  rw [Step.ends_ite]
  refine ⟨fun off => absurd off on, fun _ => ?_⟩
  rw [Step.ends_bind]
  refine Step.Ends.mono fetched (fun _ after ended => ?_) (fun _ _ stopped => stopped)
  change good (min machine.device.transmitPending most)
    (if min machine.device.transmitPending most = 0 then after
      else { after with device := after.device.latch }) at ended
  rw [Step.ends_ite]
  constructor
  · intro some
    rw [if_neg some] at ended
    exact ended
  · intro none
    rw [if_pos (Decidable.not_not.mp none)] at ended
    exact ended

theorem transmit_serves (ready : TableReady limit ring machine) (most : Nat) :
    (transmit most).Ends machine (fun _ => Serves ring machine) (fun _ => Serves ring machine) := by
  apply transmit_ends ready.wired
  refine (fetchSlots_serves ready _).mono (fun _ after serves => ?_)
    (fun _ _ serves => serves)
  split
  · exact serves
  · exact serves.trans (.of_same serves.head rfl (transmitSide_latch _) (receiveSide_latch _))

end

end PacketPath.Emulator
