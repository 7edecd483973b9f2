import PacketPath.Proofs.Host.Wire
import PacketPath.Proofs.Memory.Lookup

/-! Bursts of slots. The engine takes posted slots one after the other, and a slot that it cannot read ends the
burst there. What was completed before stays completed and nothing else is touched; but the causes are latched
behind the last slot only, so nobody is told of a burst that was cut short. -/

set_option autoImplicit false

namespace PacketPath.Emulator

variable {base : UInt64} {length : Nat} {readings : List Reading} {reading : Reading}
  {before after machine : Machine Emulator}

def slotBehind (head length : Nat) : (count : Nat) → Nat
  | 0 => head
  | count + 1 => (head + (count + 1)) % length

theorem slotBehind_next (head length count : Nat) :
    slotBehind ((head + 1) % length) length count = slotBehind head length (count + 1) := by
  cases count with
  | zero => rfl
  | succ count =>
    change ((head + 1) % length + (count + 1)) % length = (head + (count + 1 + 1)) % length
    rw [Nat.mod_add_mod, Nat.add_assoc, Nat.add_comm 1]

/-! ### Reading a slot -/

theorem readSlot_ok {memory : Memory} {slot : Nat} (read : readSlot base memory slot = .ok reading) :
    reading.slot = slot ∧ ∃ place, Address.advance base (slot * Limits.descriptorSize) = .ok place ∧
      memory.locate place Limits.descriptorSize = .ok (reading.page, reading.offset) := by
  unfold readSlot at read
  split at read
  · cases read
  rename_i place found
  split at read
  · cases read
  rename_i page offset located
  dsimp only at read
  split at read
  · cases read
  cases read
  exact ⟨rfl, place, found, located⟩

/-! ### Completing slots -/

inductive Completes (base : UInt64) (length : Nat) :
    List Reading → Machine Emulator → Machine Emulator → Prop
  | done (machine : Machine Emulator) : Completes base length [] machine machine
  | next {reading : Reading} {rest : List Reading} {machine last : Machine Emulator} (log : Array LogLine)
      (read : readSlot base machine.memory machine.device.transmitHead = .ok reading)
      (later : Completes base length rest (completed reading length log machine) last) :
      Completes base length (reading :: rest) machine last

/-- The engine completes as many slots as it is to, or as many as there are before one that it cannot read. -/
theorem fetchSlots_completes (base : UInt64) (length count : Nat) (machine : Machine Emulator) :
    (fetchSlots base length count).Ends machine
      (fun _ after => ∃ readings, readings.length = count ∧ Completes base length readings machine after)
      (fun stop after => ∃ readings, readings.length < count ∧ Completes base length readings machine after ∧
        readSlot base after.memory after.device.transmitHead = .error stop) := by
  induction count generalizing machine with
  | zero => exact ⟨[], rfl, .done _⟩
  | succ count ih =>
    unfold fetchSlots
    rw [Step.ends_bind]
    refine fetchSlot_reads (fun stop stopped => ⟨[], Nat.succ_pos _, .done _, stopped⟩) fun reading log read => ?_
    refine (ih _).mono ?_ ?_
    · rintro _ after ⟨rest, many, later⟩
      exact ⟨reading :: rest, congrArg (· + 1) many, .next log read later⟩
    · rintro stop after ⟨rest, few, later, stopped⟩
      exact ⟨reading :: rest, Nat.succ_lt_succ few, .next log read later, stopped⟩

namespace Completes

theorem keeps {α : Type} (view : Machine Emulator → α)
    (one : ∀ reading log machine, view (completed reading length log machine) = view machine)
    (completes : Completes base length readings before after) : view after = view before := by
  induction completes with
  | done => rfl
  | next log read later ih => exact ih.trans (one ..)

theorem causes (completes : Completes base length readings before after) :
    after.device.causes = before.device.causes :=
  completes.keeps (fun machine => machine.device.causes) fun _ _ _ => causes_gather ..

theorem reachable (completes : Completes base length readings before after) :
    after.memory.reachable = before.memory.reachable := by
  refine completes.keeps (fun machine => machine.memory.reachable) fun reading _ _ => ?_
  unfold completed
  dsimp only
  split <;> rfl

theorem handles (completes : Completes base length readings before after) (id : PageId) :
    after.memory.handles id = before.memory.handles id :=
  completes.keeps (fun machine => machine.memory.handles id) fun _ _ _ => handles_report ..

theorem size (completes : Completes base length readings before after) (id : PageId) :
    (after.memory.page id).size = (before.memory.page id).size := by
  refine completes.keeps (fun machine => (machine.memory.page id).size) fun reading _ _ => ?_
  unfold completed
  dsimp only
  split
  · exact Memory.size_page_overwrite ..
  · rfl

theorem pending (completes : Completes base length readings before after) :
    after.device.transmitPending = before.device.transmitPending - readings.length := by
  induction completes with
  | done => rfl
  | @next reading rest machine last log read later ih =>
    have one : (completed reading length log machine).device.transmitPending =
        machine.device.transmitPending - 1 := by
      change (machine.device.gather ..).transmitPending - 1 = _
      unfold gather
      split <;> rfl
    rw [ih, one, List.length_cons, Nat.sub_sub, Nat.add_comm]

theorem slots (completes : Completes base length readings before after) :
    after.device.transmitHead = slotBehind before.device.transmitHead length readings.length ∧
      readings.map Reading.slot =
        (List.range readings.length).map (slotBehind before.device.transmitHead length) := by
  induction completes with
  | done => exact ⟨rfl, rfl⟩
  | @next reading rest machine last log read later ih =>
    have one : (completed reading length log machine).device.transmitHead =
        (machine.device.transmitHead + 1) % length := by
      change ((machine.device.gather ..).transmitHead + 1) % length = _
      unfold gather
      split <;> rfl
    obtain ⟨head, slots⟩ := ih
    rw [one] at head slots
    constructor
    · rw [head, List.length_cons, slotBehind_next]
    · rw [List.map_cons, slots, List.length_cons, List.range_succ_eq_map, List.map_cons, List.map_map,
        (readSlot_ok read).1]
      exact congrArg _ (List.map_congr_left fun count _ => slotBehind_next ..)

/-- Frames are made of the bytes of completed slots, in order, and of nothing else. -/
theorem wire (completes : Completes base length readings before after) :
    after.device.wire = readings.foldl
      (fun wire reading => wire.gather reading.bytes reading.descriptor.command.endsFrame) before.device.wire := by
  induction completes with
  | done => rfl
  | @next reading rest machine last log read later ih =>
    have one : (completed reading length log machine).device.wire =
        machine.device.wire.gather reading.bytes reading.descriptor.command.endsFrame :=
      (wire_onward ..).trans (wire_gather ..)
    rw [ih, one, List.foldl_cons]

theorem locate_eq (completes : Completes base length readings before after) (address : UInt64) (count : Nat) :
    after.memory.locate address count = before.memory.locate address count :=
  Memory.locate_congr completes.reachable completes.handles completes.size address count

theorem placed (completes : Completes base length readings before after) :
    ∀ reading ∈ readings, ∃ place, Address.advance base (reading.slot * Limits.descriptorSize) = .ok place ∧
      before.memory.locate place Limits.descriptorSize = .ok (reading.page, reading.offset) := by
  induction completes with
  | done => exact nofun
  | @next reading rest machine last log read later ih =>
    have first : Completes base length [reading] machine (completed reading length log machine) :=
      .next log read (.done _)
    intro other listed
    rcases List.mem_cons.mp listed with rfl | listed
    · obtain ⟨slot, place, found, located⟩ := readSlot_ok read
      exact ⟨place, slot ▸ found, located⟩
    · obtain ⟨place, found, located⟩ := ih other listed
      exact ⟨place, found, (first.locate_eq ..).symm.trans located⟩

theorem slice (completes : Completes base length readings before after) {id : PageId} {offset count : Nat}
    (apart : ∀ reading ∈ readings, reading.page = id →
      reading.offset + Limits.descriptorSize ≤ offset ∨ offset + count ≤ reading.offset) :
    after.memory.slice id offset count = before.memory.slice id offset count := by
  induction completes with
  | done => rfl
  | @next reading rest machine last log read later ih =>
    refine (ih fun other listed => apart other (List.mem_cons_of_mem _ listed)).trans ?_
    have away := apart reading (List.mem_cons_self ..)
    unfold completed
    dsimp only
    split
    · unfold Memory.slice
      rw [Memory.page_overwrite]
      split
      case isTrue same =>
        rw [same]
        exact Page.slice_overwrite_apart (by rw [TransmitDescriptor.length_encode]; exact away same.symm)
      case isFalse => rfl
    · rfl

theorem descriptor_slice (completes : Completes base length readings before after) (entered : before.memory.Entered)
    {slot : Nat} (left : slot ∉ readings.map Reading.slot) {place : UInt64}
    (found : Address.advance base (slot * Limits.descriptorSize) = .ok place) {id : PageId} {offset : Nat}
    (located : before.memory.locate place Limits.descriptorSize = .ok (id, offset)) :
    after.memory.slice id offset Limits.descriptorSize = before.memory.slice id offset Limits.descriptorSize := by
  refine completes.slice fun reading listed same => ?_
  obtain ⟨other, found', located'⟩ := completes.placed reading listed
  have here := (entered.located located).1
  have there := (entered.located located').1
  rw [Address.advance_eq_ok_iff.mp found] at here
  rw [Address.advance_eq_ok_iff.mp found', same] at there
  have apart : reading.slot ≠ slot := fun equal => left (List.mem_map.mpr ⟨reading, listed, equal⟩)
  unfold Limits.descriptorSize at *
  omega

end Completes

/-! ### Transmissions -/

def due (device : Emulator) (limit : Nat) : Nat :=
  if device.transmitSide.enabled ∧ device.transmitSide.length ≠ 0 then min device.transmitPending limit else 0

/-- A transmission completes what is due and then latches the causes, or stops at a slot that it cannot read. -/
theorem transmit_completes (machine : Machine Emulator) (limit : Nat) :
    (transmit limit).Ends machine
      (fun count after => count = machine.device.due limit ∧ ∃ readings middle, readings.length = count ∧
        Completes machine.device.transmitSide.base machine.device.transmitSide.length readings machine middle ∧
        after = if count = 0 then middle else { middle with device := middle.device.latch })
      (fun stop after => ∃ readings, readings.length < machine.device.due limit ∧
        Completes machine.device.transmitSide.base machine.device.transmitSide.length readings machine after ∧
        readSlot machine.device.transmitSide.base after.memory after.device.transmitHead = .error stop) := by
  unfold transmit
  rw [Step.ends_bind, Step.ends_get]
  dsimp only
  rw [Step.ends_ite]
  refine ⟨fun off => ?_, fun on => ?_⟩
  · -- An engine that is off, or has no ring, has nothing to do.
    have nothing : machine.device.due limit = 0 := by
      refine if_neg fun both => ?_
      rcases off with off | off
      · exact absurd both.1 (by simp [transmitSide, off])
      · exact both.2 off
    rw [Step.ends_pure]
    exact ⟨nothing.symm, [], machine, rfl, .done _, rfl⟩
  · have many : machine.device.due limit = min machine.device.transmitPending limit := by
      rw [not_or] at on
      exact if_pos ⟨by simpa [transmitSide] using on.1, on.2⟩
    rw [Step.ends_bind]
    refine (fetchSlots_completes _ _ _ machine).mono ?_ ?_
    · rintro _ middle ⟨readings, count, completes⟩
      rw [Step.ends_ite]
      refine ⟨fun some => ?_, fun none => ?_⟩
      · simp only [Step.ends_bind, ends_changeDevice, Step.ends_pure]
        exact ⟨many.symm, readings, middle, count, completes, (if_neg some).symm⟩
      · rw [Step.ends_pure]
        exact ⟨many.symm, readings, middle, count, completes, (if_pos (Decidable.not_not.mp none)).symm⟩
    · rintro stop after ⟨readings, few, completes, stopped⟩
      rw [← many] at few
      exact ⟨readings, few, completes, stopped⟩

/-- What a transmission has done by the time it is over. The slots behind the head were completed as they read, one
after the other; what went out is what they led to; and no other descriptor was touched. -/
structure Burst (readings : List Reading) (before after : Machine Emulator) : Prop where
  completes : Completes before.device.transmitSide.base before.device.transmitSide.length readings before
    { after with device := { after.device with causes := before.device.causes } }
  slots : readings.map Reading.slot = (List.range readings.length).map
    (slotBehind before.device.transmitHead before.device.transmitSide.length)
  head : after.device.transmitHead =
    slotBehind before.device.transmitHead before.device.transmitSide.length readings.length
  pending : after.device.transmitPending + readings.length = before.device.transmitPending
  wire : after.device.wire = readings.foldl
    (fun wire reading => wire.gather reading.bytes reading.descriptor.command.endsFrame) before.device.wire
  untouched : ∀ slot ∉ readings.map Reading.slot, ∀ place,
    Address.advance before.device.transmitSide.base (slot * Limits.descriptorSize) = .ok place →
    ∀ id offset, before.memory.locate place Limits.descriptorSize = .ok (id, offset) →
      after.memory.slice id offset Limits.descriptorSize = before.memory.slice id offset Limits.descriptorSize

theorem Completes.burst
    (completes : Completes before.device.transmitSide.base before.device.transmitSide.length readings before after)
    (entered : before.memory.Entered) (few : readings.length ≤ before.device.transmitPending) (causes : UInt32) :
    Burst readings before { after with device := { after.device with causes := causes } } where
  completes := by
    rw [← completes.causes]
    exact completes
  slots := completes.slots.2
  head := completes.slots.1
  pending := by
    dsimp only
    rw [completes.pending, Nat.sub_add_cancel few]
  wire := completes.wire
  untouched _ left _ found _ _ located := completes.descriptor_slice entered left found located

theorem due_le_pending (device : Emulator) (limit : Nat) : device.due limit ≤ device.transmitPending := by
  unfold due
  split <;> omega

theorem causes_latch (device : Emulator) : device.latch.causes =
    if device.transmitPending = 0 then
      device.causes ||| Cause.transmitWritten.bits ||| Cause.transmitEmpty.bits
    else device.causes ||| Cause.transmitWritten.bits := by
  rw [latch_eq]
  split <;> rfl

theorem latch_with_causes (device : Emulator) : device.latch = { device with causes := device.latch.causes } := by
  unfold latch
  dsimp only
  split <;> rfl

/-- The causes are latched behind the last slot that is due. A transmission that stops before it has completed slots
like any other, and nobody is told of them. -/
theorem transmit_latches_last (machine : Machine Emulator) (entered : machine.memory.Entered) (limit : Nat) :
    (transmit limit).Ends machine
      (fun count after => count = machine.device.due limit ∧
        ∃ readings, readings.length = count ∧ Burst readings machine after ∧
          after.device.causes =
            if count = 0 then machine.device.causes
            else if after.device.transmitPending = 0 then
              machine.device.causes ||| Cause.transmitWritten.bits ||| Cause.transmitEmpty.bits
            else machine.device.causes ||| Cause.transmitWritten.bits)
      (fun stop after => ∃ readings, readings.length < machine.device.due limit ∧ Burst readings machine after ∧
        readSlot machine.device.transmitSide.base after.memory after.device.transmitHead = .error stop ∧
        after.device.causes = machine.device.causes) := by
  have most := machine.device.due_le_pending limit
  refine (transmit_completes machine limit).mono ?_ ?_
  · rintro count after ⟨rfl, readings, middle, many, completes, rfl⟩
    refine ⟨rfl, readings, many, ?_, ?_⟩
    · split
      · exact completes.burst entered (by omega) middle.device.causes
      · rw [latch_with_causes]
        exact completes.burst entered (by omega) _
    · rw [← completes.causes]
      split
      · rfl
      · rw [latch_with_causes]
        exact causes_latch _
  · rintro stop after ⟨readings, few, completes, stopped⟩
    exact ⟨readings, few, completes.burst entered (by omega) after.device.causes, stopped, completes.causes⟩

@[irreducible] def brokenBurst : Machine Emulator where
  memory :=
    { pages := #[⟨0x1000,
        (({ address := 0x1000, length := 1, command := .posting true } : TransmitDescriptor).encode ++
          ({ address := 0x7F000000, length := 1, command := .posting true } : TransmitDescriptor).encode).toArray, 1⟩]
      reachable := [(0x1000, ⟨0⟩)] }
  device :=
    { (((({ registers := fun _ => 0 } : Emulator).setWord .transmitBaseLow 0x1000).setWord .transmitLength 32).setWord
        .transmitControl Register.Transmit.enable) with transmitPending := 2 }

theorem entered_brokenBurst : brokenBurst.memory.Entered := by
  unfold brokenBurst
  intro entry listed
  rw [List.mem_singleton.mp listed]
  rfl

theorem stops_brokenBurst : (transmit 2).Ends brokenBurst (fun _ _ => False) (fun _ after =>
    after.device.transmitHead = 1 ∧ after.device.transmitPending = 1 ∧ after.device.causes = 0) := by
  decide +kernel

/-- One slot is completed and the other is still pending, and no cause tells of it. -/
theorem transmit_latches_last_at_fault :
    brokenBurst.memory.Entered ∧
      ∃ stop after, transmit 2 brokenBurst = .error stop after ∧ after.device.transmitHead = 1 ∧
        after.device.transmitPending = 1 ∧ after.device.causes = 0 ∧
        ∃ readings, readings.length = 1 ∧ Burst readings brokenBurst after := by
  obtain ⟨stop, after, stopped, head, pending, causes⟩ := stops_brokenBurst.exists_error
  have told := transmit_latches_last brokenBurst entered_brokenBurst 2
  rw [Step.ends_of_error stopped] at told
  obtain ⟨readings, -, burst, -⟩ := told
  have count := burst.pending
  rw [pending, show brokenBurst.device.transmitPending = 2 by decide +kernel] at count
  exact ⟨entered_brokenBurst, stop, after, stopped, head, pending, causes, readings, by omega, burst⟩

end PacketPath.Emulator
