import PacketPath.Proofs.Controller.Outcome
import PacketPath.Proofs.Host.Housing
import PacketPath.Proofs.Host.Wire
import PacketPath.Proofs.Ring.Raising

/-! Bringing a controller up on a board. If the device has not been used before, both rings come up
empty in pages of their own, and the engines of the device work on them. With usable settings and room
for the pages nothing fails. -/

set_option autoImplicit false

namespace PacketPath

variable {ε : Type} {machine : Machine Emulator} {board : Board} {owners : List PageId} {settings : Settings}

/-! ### Steps that neither ring notices -/

/-- The memory stays as it is, and neither engine is told of anything. -/
structure Quiet (before after : Machine Emulator) : Prop where
  memory : after.memory = before.memory
  transmitSide : after.device.transmitSide = before.device.transmitSide
  receiveSide : after.device.receiveSide = before.device.receiveSide

theorem Quiet.of_device {before after : Machine Emulator} (memory : after.memory = before.memory)
    (device : after.device = before.device) : Quiet before after :=
  ⟨memory, by rw [device], by rw [device]⟩

theorem Quiet.trans {before middle after : Machine Emulator} (first : Quiet before middle)
    (second : Quiet middle after) : Quiet before after where
  memory := second.memory.trans first.memory
  transmitSide := second.transmitSide.trans first.transmitSide
  receiveSide := second.receiveSide.trans first.receiveSide

theorem Quiet.store (machine : Machine Emulator) {offset : Nat} (word : UInt32)
    (apart : ∀ register ∈ Emulator.transmitRegisters ++ Emulator.receiveRegisters, register.offset ≠ offset) :
    Quiet machine { machine with device := machine.device.store offset word } where
  memory := rfl
  transmitSide := Emulator.transmitSide_store_of_ne _ _ fun register listed =>
    apart register (List.mem_append_left _ listed)
  receiveSide := Emulator.receiveSide_store_of_ne _ _ fun register listed =>
    apart register (List.mem_append_right _ listed)

theorem Quiet.load (machine : Machine Emulator) (offset : Nat) :
    Quiet machine { machine with device := (machine.device.load offset).2 } :=
  ⟨rfl, Emulator.transmitSide_load .., Emulator.receiveSide_load ..⟩

namespace Controller

theorem disable_quiet :
    (Step.carrying .masked Interrupts.disable : Step ε _ _).Ends machine
      (fun _ after => Quiet machine after ∧ after.device.mac = machine.device.mac) (fun _ _ => False) := by
  unfold Interrupts.disable
  simp only [Step.ends_carrying, Step.ends_bind, Step.ends_second, Register.ends_write, Step.ends_first,
    Step.ends_modify]
  exact ⟨.store machine _ (by decide), rfl⟩

theorem enable_quiet (interrupts : Interrupts) (cause : Cause) :
    (Step.carrying interrupts (Interrupts.enable cause) : Step ε _ _).Ends machine
      (fun _ after => Quiet machine after) (fun _ _ => False) := by
  unfold Interrupts.enable
  simp only [Step.ends_carrying, Step.ends_bind, Step.ends_second, Register.ends_write, Step.ends_first,
    Step.ends_modify, Step.ends_get, Machine.ends_note]
  exact (Quiet.store machine _ (by decide)).trans (.of_device rfl rfl)

theorem settleMac_quiet (mac : Option MacAddress) :
    (settleMac mac).Ends machine (fun _ after => Quiet machine after)
      (fun _ _ => mac = none ∧ machine.device.mac = none) := by
  cases mac with
  | some mac =>
    unfold settleMac
    simp only [Step.ends_bind, Register.ends_write, Machine.ends_note, Step.ends_pure]
    exact ((Quiet.store machine _ (by decide)).trans (.store _ _ (by decide))).trans (.of_device rfl rfl)
  | none =>
    have own : MacAddress.ofWords? (machine.device.load Register.addressLow.offset).1
        ((machine.device.load Register.addressLow.offset).2.load Register.addressHigh.offset).1 =
        machine.device.mac := rfl
    unfold settleMac
    simp only [Step.ends_bind, Register.ends_read, own]
    cases machine.device.mac with
    | none => exact ⟨trivial, rfl⟩
    | some mac =>
      simp only [Step.ends_bind, Machine.ends_note, Step.ends_pure]
      exact ((Quiet.load machine Register.addressLow.offset).trans (.load _ Register.addressHigh.offset)).trans
        (.of_device rfl rfl)

theorem clearMulticast_quiet (index : Nat) {count : Nat} (inside : index + count ≤ Register.multicastEntries) :
    (clearMulticast index count).Ends machine (fun _ after => Quiet machine after) (fun _ _ => False) := by
  induction count generalizing index machine with
  | zero => exact .of_device rfl rfl
  | succ count ih =>
    have apart : ∀ register ∈ Emulator.transmitRegisters ++ Emulator.receiveRegisters,
        register.offset ≠ Register.multicastTable.offset + index * 4 := by
      have below : ∀ register ∈ Emulator.transmitRegisters ++ Emulator.receiveRegisters,
          register.offset < Register.multicastTable.offset := by decide
      intro register listed
      have low := below register listed
      omega
    unfold clearMulticast Register.writeMulticast
    rw [Step.ends_bind, if_pos (by omega)]
    exact (ih (index + 1) (by omega)).mono (fun _ _ later => (Quiet.store machine 0 apart).trans later)
      (fun _ _ => id)

/-! ### The transmit ring -/

theorem ringFits_bounds {length : Nat} (fits : Settings.ringFits length = true) :
    1 < length ∧ length * Limits.descriptorSize ≤ Limits.pageSize := by
  unfold Settings.ringFits Limits.descriptorSize Limits.ringAlignment at fits
  unfold Limits.descriptorSize
  simp only [Bool.and_eq_true, decide_eq_true_eq, beq_iff_eq] at fits
  omega

theorem ringFits_of_validate (valid : settings.validate = .ok ()) :
    Settings.ringFits settings.transmitLength = true ∧ Settings.ringFits settings.receiveLength = true := by
  unfold Settings.validate at valid
  split at valid
  · cases valid
  · split at valid
    · cases valid
    · rename_i transmit receive
      exact ⟨Decidable.not_not.mp transmit, Decidable.not_not.mp receive⟩

structure TransmitUnused (side : Emulator.TransmitSide) : Prop where
  tail : side.tail = 0
  head : side.head = 0
  pending : side.pending = 0

structure TransmitRaised (owners : List PageId) (length : Nat) (before : Board × Machine Emulator)
    (ring : TransmitRing) (after : Board × Machine Emulator) : Prop where
  blank : ring = .blank ⟨ring.table.page, length⟩
  housed : Housed (ring.pages ++ owners) after.1 after.2.memory
  fresh : ¬ before.2.memory.Knows ring.table.page
  reached : after.2.memory.Reaches ring.table.page
  flies : TransmitUnused before.2.device.transmitSide → TransmitRing.Flies (ring, after.2) []
  changes : before.2.memory.ChangesWithin (fun _ => False) after.2.memory
  wire : after.2.device.wire = before.2.device.wire
  receiveSide : after.2.device.receiveSide = before.2.device.receiveSide
  room : ∀ count, before.1.HasRoom (count + 1) → after.1.HasRoom count

theorem changes_fresh {scope : PageId → Prop} {before middle after : Memory}
    (first : before.ChangesWithin (fun _ => False) middle) (second : middle.ChangesWithin scope after)
    (fresh : ∀ id, scope id → ¬ before.Knows id) : before.ChangesWithin (fun _ => False) after where
  reachable entry listed := second.reachable entry (first.reachable entry listed)
  knows id known := second.knows id (first.knows id known)
  base id known := (second.base id (first.knows id known)).trans (first.base id known)
  size id known := (second.size id (first.knows id known)).trans (first.size id known)
  bytes id known outside :=
    (second.bytes id (first.knows id known) fun inside => fresh id inside known).trans (first.bytes id known outside)

theorem raiseTransmit_ends (housed : Housed owners board machine.memory)
    (fits : Settings.ringFits settings.transmitLength = true) :
    (raiseTransmit Board.platform settings).Ends (board, machine)
      (fun ring after => TransmitRaised owners settings.transmitLength (board, machine) ring after)
      (fun _ _ => ¬ board.HasRoom 1) := by
  obtain ⟨several, paged⟩ := ringFits_bounds fits
  have small : settings.transmitLength < 2 ^ 16 := DescriptorTable.length_lt_of_paged paged
  unfold raiseTransmit atStage Board.platform keeping
  simp only [Step.ends_bind, Step.ends_mapRefusal]
  refine (Board.allocate_room housed).mono ?_ (fun _ _ full => full)
  rintro page ⟨board', given⟩ ⟨out, room⟩
  have size : (given.memory.page page).size = Limits.pageSize := out.housed.charted.size_of_reaches out.reached
  have known : given.memory.Knows page := out.housed.accounts.knows (List.mem_cons_self ..)
  rw [Step.ends_thenIfStopped, Step.ends_second]
  simp only [Step.ends_bind]
  apply DescriptorTable.create_ends (by rw [size]; exact paged) small
  intro zeroed laid
  have there : zeroed.memory.Knows page := laid.changes.knows _ known
  have seated : DescriptorTable.Fits ⟨page, settings.transmitLength⟩ zeroed.memory :=
    .of_page paged ((laid.changes.size _ known).trans size)
  refine (TransmitRing.create_ends seated there).mono ?_ (fun _ _ => False.elim)
  rintro _ marked ⟨rfl, idle, done⟩
  rw [TransmitRing.ends_program]
  simp only [Register.ends_write, Step.ends_pure]
  have writes := laid.trans idle
  have changes := changes_fresh out.changes writes.changes fun id same known => out.fresh (same ▸ known)
  have device : marked.device = machine.device := writes.device.trans out.device
  have base : (marked.memory.page page).base = (zeroed.memory.page page).base := idle.changes.base _ there
  -- The device looks at the ring only now, when every slot is done and head and tail agree.
  have side := Emulator.transmitSide_switchOn
    (machine.device.aimTransmit (marked.memory.page page).base
      (DescriptorTable.byteLength ⟨page, settings.transmitLength⟩)) settings.transmitDelay.toUInt32
  rw [Emulator.transmitSide_aimTransmit] at side
  refine ⟨rfl, ?_, out.fresh, writes.changes.reaches known out.reached, ?_, changes, ?_, ?_, room⟩
  · rw [TransmitRing.pages_blank]
    exact out.housed.of_changes writes.changes writes.reachable writes.handles
  · intro unused
    unfold TransmitRing.Flies
    dsimp only [TransmitRing.blank]
    rw [device, side]
    have length := Emulator.length_of_bytes small
    refine TransmitRing.carries_blank (seated.of_changes idle.changes there) (idle.changes.knows _ there) several
      small done rfl length rfl rfl unused.head ?_
    unfold Emulator.TransmitSide.moveTail
    dsimp only
    rw [unused.tail, unused.pending, show DescriptorTable.byteLength ⟨page, settings.transmitLength⟩ =
      settings.transmitLength * Limits.descriptorSize from rfl, length, if_neg (by omega)]
    simp
  · rw [← device]
    rfl
  · rw [← device]
    rfl

/-! ### The receive ring -/

structure Pooled (owners : List PageId) (count : Nat) (before : Board × Machine Emulator) (pool : List PageId)
    (after : Board × Machine Emulator) : Prop where
  length : pool.length = count
  housed : Housed (pool ++ owners) after.1 after.2.memory
  apart : pool.Nodup
  fresh : ∀ id ∈ pool, ¬ before.2.memory.Knows id
  reached : ∀ id ∈ pool, after.2.memory.Reaches id
  changes : before.2.memory.ChangesWithin (fun _ => False) after.2.memory
  device : after.2.device = before.2.device
  room : ∀ more, before.1.HasRoom (more + count) → after.1.HasRoom more

theorem allocatePool_ends (housed : Housed owners board machine.memory) (count : Nat) :
    (allocatePool Board.platform count).Ends (board, machine)
      (fun pool after => Pooled owners count (board, machine) pool after)
      (fun _ _ => ¬ board.HasRoom count) := by
  induction count generalizing owners board machine with
  | zero =>
    exact ⟨rfl, housed, List.nodup_nil, nofun, nofun, .refl _ _, rfl, fun _ room => room⟩
  | succ count ih =>
    unfold allocatePool atStage Board.platform keeping
    simp only [Step.ends_bind, Step.ends_mapRefusal]
    refine (Board.allocate_room housed).mono ?_ (fun _ _ full room => full (room.mono (by omega)))
    rintro page ⟨board', given⟩ ⟨out, room⟩
    have known : given.memory.Knows page := out.housed.accounts.knows (List.mem_cons_self ..)
    rw [Step.ends_thenIfStopped, Step.ends_bind]
    refine (ih out.housed).mono ?_ (fun _ _ full spare => full (room count spare))
    rintro pool after rest
    rw [Step.ends_pure]
    exact
      { length := by rw [List.length_cons, rest.length]
        housed := rest.housed.perm List.perm_middle
        apart := List.nodup_cons.mpr ⟨fun listed => rest.fresh page listed known, rest.apart⟩
        fresh := by
          intro id listed
          rcases List.mem_cons.mp listed with rfl | pooled
          · exact out.fresh
          · exact fun before => rest.fresh id pooled (out.changes.knows id before)
        reached := by
          intro id listed
          rcases List.mem_cons.mp listed with rfl | pooled
          · exact rest.changes.reaches known out.reached
          · exact rest.reached id pooled
        changes := out.changes.trans rest.changes
        device := rest.device.trans out.device
        room := fun more spare => rest.room more (room _ (by rwa [Nat.add_assoc] )) }

structure ReceiveRaised (owners : List PageId) (length : Nat) (before : Board × Machine Emulator)
    (ring : ReceiveRing) (after : Board × Machine Emulator) : Prop where
  blank : ∃ pool, ring = .blank ⟨ring.table.page, length⟩ pool
  housed : Housed (ring.pages ++ owners) after.1 after.2.memory
  apart : ring.pages.Nodup
  fresh : ∀ id ∈ ring.pages, ¬ before.2.memory.Knows id
  reached : ∀ id ∈ ring.pages, after.2.memory.Reaches id
  stands : before.2.device.receiveSide.head = 0 → ReceiveRing.Stands (ring, after.2) []
  changes : before.2.memory.ChangesWithin (fun _ => False) after.2.memory
  transmitSide : after.2.device.transmitSide = before.2.device.transmitSide

structure Prepared (owners : List PageId) (length : Nat) (before : Board × Machine Emulator) (page : PageId)
    (pool : List PageId) (after : Board × Machine Emulator) : Prop where
  length : pool.length = length
  housed : Housed (page :: pool ++ owners) after.1 after.2.memory
  apart : (page :: pool).Nodup
  fresh : ∀ id ∈ page :: pool, ¬ before.2.memory.Knows id
  reached : ∀ id ∈ page :: pool, after.2.memory.Reaches id
  changes : before.2.memory.ChangesWithin (fun _ => False) after.2.memory
  device : after.2.device = before.2.device

variable {before after : Board × Machine Emulator} {page : PageId} {pool : List PageId} {length : Nat}

theorem Pooled.prepared {given : Board × Machine Emulator} {zeroed : Machine Emulator}
    (pooled : Pooled (page :: owners) length (given.1, zeroed) pool after)
    (out : Board.HandsOut owners before page given) (laid : Machine.Writes (· = page) given.2 zeroed) :
    Prepared owners length before page pool after := by
  have known : zeroed.memory.Knows page :=
    laid.changes.knows _ (out.housed.accounts.knows (List.mem_cons_self ..))
  have early : before.2.memory.ChangesWithin (fun _ => False) zeroed.memory :=
    changes_fresh out.changes laid.changes fun id same before => out.fresh (same ▸ before)
  exact
    { length := pooled.length
      housed := pooled.housed.perm List.perm_middle
      apart := List.nodup_cons.mpr ⟨fun listed => pooled.fresh page listed known, pooled.apart⟩
      fresh := by
        intro id listed
        rcases List.mem_cons.mp listed with rfl | inside
        · exact out.fresh
        · exact fun before => pooled.fresh id inside (early.knows id before)
      reached := by
        intro id listed
        rcases List.mem_cons.mp listed with rfl | inside
        · exact (laid.changes.trans (pooled.changes.mono fun _ => False.elim)).reaches
            (out.housed.accounts.knows (List.mem_cons_self ..)) out.reached
        · exact pooled.reached id inside
      changes := early.trans pooled.changes
      device := pooled.device.trans (laid.device.trans out.device) }

namespace Prepared

theorem knows (ready : Prepared owners length before page pool after) {id : PageId} (listed : id ∈ page :: pool) :
    after.2.memory.Knows id :=
  ready.housed.accounts.knows (List.mem_append_left _ listed)

theorem size (ready : Prepared owners length before page pool after) {id : PageId} (listed : id ∈ page :: pool) :
    (after.2.memory.page id).size = Limits.pageSize :=
  ready.housed.charted.size_of_reaches (ready.reached id listed)

theorem raised {bound final : Machine Emulator} (ready : Prepared owners length before page pool after)
    (several : 1 < length) (paged : length * Limits.descriptorSize ≤ Limits.pageSize)
    (writes : Machine.Writes (fun id => id = page ∨ id ∈ pool) after.2 bound)
    (vacant : ∀ slot < length, (ReceiveRing.blank ⟨page, length⟩ pool).Vacant bound.memory slot)
    (memory : final.memory = bound.memory)
    (transmitSide : final.device.transmitSide = before.2.device.transmitSide)
    (receiveSide : final.device.receiveSide =
      { before.2.device.receiveSide with
        base := (bound.memory.page page).base
        length := length
        tail := UInt32.ofNat (length - 1)
        enabled := true }) :
    ReceiveRaised owners length before (.blank ⟨page, length⟩ pool) (after.1, final) := by
  have pooled {id : PageId} (listed : id ∈ pool) : id ∈ page :: pool := List.mem_cons_of_mem _ listed
  have scope (id : PageId) (written : id = page ∨ id ∈ pool) : ¬ before.2.memory.Knows id :=
    ready.fresh id (List.mem_cons.mpr written)
  have known {id : PageId} (listed : id ∈ page :: pool) : bound.memory.Knows id :=
    writes.changes.knows _ (ready.knows listed)
  have seated : DescriptorTable.Fits ⟨page, length⟩ after.2.memory :=
    .of_page paged (ready.size (List.mem_cons_self ..))
  refine ⟨⟨pool, rfl⟩, ?_, ready.apart, ready.fresh, ?_, ?_, ?_, transmitSide⟩
  · rw [memory]
    exact ready.housed.of_changes writes.changes writes.reachable writes.handles
  · intro id listed
    dsimp only
    rw [memory]
    exact writes.changes.reaches (ready.knows listed) (ready.reached id listed)
  · intro unused
    unfold ReceiveRing.Stands
    dsimp only
    rw [memory, receiveSide]
    exact ReceiveRing.holds_blank (seated.of_changes writes.changes (ready.knows (List.mem_cons_self ..)))
      (known (List.mem_cons_self ..)) several (DescriptorTable.length_lt_of_paged paged)
      (fun id listed => known (pooled listed)) ready.length ready.apart vacant rfl rfl rfl rfl unused
  · dsimp only
    rw [memory]
    exact changes_fresh ready.changes writes.changes scope

end Prepared

theorem raiseReceive_ends (housed : Housed owners board machine.memory)
    (fits : Settings.ringFits settings.receiveLength = true) :
    (raiseReceive Board.platform settings).Ends (board, machine)
      (fun ring after => ReceiveRaised owners settings.receiveLength (board, machine) ring after)
      (fun _ _ => ¬ board.HasRoom (settings.receiveLength + 1)) := by
  obtain ⟨several, paged⟩ := ringFits_bounds fits
  have small : settings.receiveLength < 2 ^ 16 := DescriptorTable.length_lt_of_paged paged
  unfold raiseReceive atStage keeping
  simp only [Step.ends_bind, Step.ends_mapRefusal]
  unfold Board.platform
  rw [Step.ends_mapRefusal]
  refine (Board.allocate_room housed).mono ?_ (fun _ _ full room => full (room.mono (by omega)))
  rintro page ⟨board', given⟩ ⟨out, room⟩
  have size : (given.memory.page page).size = Limits.pageSize := out.housed.charted.size_of_reaches out.reached
  rw [Step.ends_thenIfStopped, Step.ends_bind, Step.ends_second]
  apply DescriptorTable.create_ends (by rw [size]; exact paged) small
  intro zeroed laid
  have still := out.housed.of_changes laid.changes laid.reachable laid.handles
  rw [Step.ends_bind]
  refine (allocatePool_ends still settings.receiveLength).mono ?_ (fun _ _ full spare => full (room _ spare))
  rintro pool ⟨board'', stocked⟩ pooled
  have ready := pooled.prepared out laid
  have seated : DescriptorTable.Fits ⟨page, settings.receiveLength⟩ stocked.memory :=
    .of_page paged (ready.size (List.mem_cons_self ..))
  rw [Step.ends_thenIfStopped, Step.ends_second, Step.ends_bind]
  refine (ReceiveRing.create_ends seated (ready.knows (List.mem_cons_self ..)) ?_ ready.length).mono ?_
    (fun _ _ => False.elim)
  · intro id listed
    have inside : id ∈ page :: pool := List.mem_cons_of_mem _ listed
    refine ⟨ready.knows inside, ?_, ready.size inside⟩
    rintro rfl
    exact (List.nodup_cons.mp ready.apart).1 listed
  rintro _ bound ⟨rfl, writes, vacant⟩
  have slots : 1 < (ReceiveRing.blank ⟨page, settings.receiveLength⟩ pool).capacity := several
  rw [Step.ends_bind, ReceiveRing.ends_program slots]
  simp only [Step.ends_bind, Register.ends_write, Step.ends_pure]
  have device : bound.device = machine.device := writes.device.trans ready.device
  -- All slots but the last are the device's from the start.
  have side := Emulator.receiveSide_switchOn
    (machine.device.aimReceive (bound.memory.page page).base
      (DescriptorTable.byteLength ⟨page, settings.receiveLength⟩) (settings.receiveLength - 1))
    (settings.smallPacketThreshold.toUInt32 &&& Register.smallPacketMask)
  rw [Emulator.receiveSide_aimReceive, show DescriptorTable.byteLength ⟨page, settings.receiveLength⟩ =
    settings.receiveLength * Limits.descriptorSize from rfl, Emulator.length_of_bytes small] at side
  refine ready.raised several paged writes vacant rfl ?_ ?_
  · dsimp only
    rw [device]
    rfl
  · dsimp only
    rw [device]
    exact side

/-! ### The whole controller -/

def own (controller : Controller) : List PageId :=
  controller.transmitRing.table.page :: controller.receiveRing.pages

structure Suits (pci : PciFunction) (settings : Settings) (board : Board) (device : Emulator) : Prop where
  supported : pci.isSupported = true
  usable : settings.validate = .ok ()
  covers : Register.windowSize ≤ pci.windowSize
  base : pci.windowBase = Board.windowBase
  window : pci.windowSize ≤ Board.windowSize
  mac : settings.mac ≠ none ∨ device.mac ≠ none
  room : board.HasRoom (settings.receiveLength + 2)

/-- A controller just brought up: both rings are blank and stand in new pages, and everything that was there
before is as it was. The device finds them empty if it was unused. -/
structure BroughtUp (owners : List PageId) (settings : Settings) (before : Board × Machine Emulator)
    (controller : Controller) (after : Board × Machine Emulator) : Prop where
  transmitBlank : ∃ page, controller.transmitRing = .blank ⟨page, settings.transmitLength⟩
  receiveBlank : ∃ page pool, controller.receiveRing = .blank ⟨page, settings.receiveLength⟩ pool
  housed : Housed (controller.pages ++ owners) after.1 after.2.memory
  apart : controller.own.Nodup
  fresh : ∀ id ∈ controller.own, ¬ before.2.memory.Knows id
  reached : ∀ id ∈ controller.own, after.2.memory.Reaches id
  flies : TransmitUnused before.2.device.transmitSide → TransmitRing.Flies (controller.transmitRing, after.2) []
  stands : before.2.device.receiveSide.head = 0 → ReceiveRing.Stands (controller.receiveRing, after.2) []
  changes : before.2.memory.ChangesWithin (fun _ => False) after.2.memory
  wire : after.2.device.wire = before.2.device.wire

theorem BroughtUp.of_quiet {before after later : Board × Machine Emulator} {controller : Controller}
    (up : BroughtUp owners settings before controller after) (quiet : Quiet after.2 later.2)
    (base : later.1.nextBase = after.1.nextBase) : BroughtUp owners settings before controller later := by
  exact
    { up with
      housed := by
        rw [quiet.memory]
        exact ⟨base ▸ up.housed.charted, up.housed.accounts⟩
      reached := quiet.memory ▸ up.reached
      flies := by
        intro unused
        have flies := up.flies unused
        unfold TransmitRing.Flies at flies ⊢
        dsimp only at flies ⊢
        rwa [quiet.memory, quiet.transmitSide]
      stands := by
        intro unused
        have stands := up.stands unused
        unfold ReceiveRing.Stands at stands ⊢
        dsimp only at stands ⊢
        rwa [quiet.memory, quiet.receiveSide]
      changes := quiet.memory ▸ up.changes
      wire := (Emulator.wire_of_transmitSide quiet.transmitSide).trans up.wire }

theorem BroughtUp.since {before middle after : Board × Machine Emulator} {controller : Controller}
    (quiet : Quiet before.2 middle.2) (up : BroughtUp owners settings middle controller after) :
    BroughtUp owners settings before controller after :=
  { up with
    fresh := quiet.memory ▸ up.fresh
    flies := fun unused => up.flies (quiet.transmitSide ▸ unused)
    stands := fun unused => up.stands (quiet.receiveSide ▸ unused)
    changes := quiet.memory ▸ up.changes
    wire := up.wire.trans (Emulator.wire_of_transmitSide quiet.transmitSide) }

theorem broughtUp_of_raised {before middle after : Board × Machine Emulator} {transmitRing : TransmitRing}
    {receiveRing : ReceiveRing} (transmits : TransmitRaised owners settings.transmitLength before transmitRing middle)
    (receives : ReceiveRaised (transmitRing.pages ++ owners) settings.receiveLength middle receiveRing after)
    (interrupts : Interrupts) (mac : MacAddress) (pci : PciFunction) :
    BroughtUp owners settings before ⟨transmitRing, receiveRing, interrupts, mac, pci⟩ after := by
  have known : middle.2.memory.Knows transmitRing.table.page :=
    transmits.housed.accounts.knows (List.mem_append_left _ (List.mem_cons_self ..))
  have apart : transmitRing.table.page ∉ receiveRing.pages := fun listed => receives.fresh _ listed known
  obtain ⟨pool, blank⟩ := receives.blank
  exact
    { transmitBlank := ⟨_, transmits.blank⟩
      receiveBlank := ⟨_, _, blank⟩
      housed := by
        refine receives.housed.congr fun id => ?_
        simp only [pages, List.count_append]
        omega
      apart := List.nodup_cons.mpr ⟨apart, receives.apart⟩
      fresh := by
        intro id listed
        rcases List.mem_cons.mp listed with rfl | pooled
        · exact transmits.fresh
        · exact fun before => receives.fresh id pooled (transmits.changes.knows id before)
      reached := by
        intro id listed
        rcases List.mem_cons.mp listed with rfl | pooled
        · exact receives.changes.reaches known transmits.reached
        · exact receives.reached id pooled
      flies := by
        intro unused
        have carries : transmitRing.Carries middle.2.memory middle.2.device.transmitSide [] := transmits.flies unused
        unfold TransmitRing.Flies
        dsimp only
        rw [receives.transmitSide]
        exact carries.of_changes receives.changes id
      stands := fun unused => receives.stands (transmits.receiveSide ▸ unused)
      changes := transmits.changes.trans receives.changes
      wire := (Emulator.wire_of_transmitSide receives.transmitSide).trans transmits.wire }

section

variable {good : Unit → Board × Machine Emulator → Prop} {bad : Stop String → Board × Machine Emulator → Prop}

theorem platform_enable (pci : PciFunction) :
    (Board.platform.enable pci).Ends (board, machine) good bad ↔
      good () ({ board with enabled := board.enabled ++ [pci] },
        { machine with log := machine.log.push ⟨.debug, s!"[host] enabling {pci.text}"⟩ }) :=
  Iff.rfl

theorem platform_map {base : UInt64} {size : Nat}
    (unmapped : ∀ stop, base ≠ Board.windowBase ∨ Board.windowSize < size → bad stop (board, machine))
    (mapped : good () (board, machine)) : (Board.platform.map base size).Ends (board, machine) good bad := by
  unfold Board.platform Board.map
  simp only [Step.ends_mapRefusal, Step.ends_ite, Step.ends_refuse, Step.ends_pure]
  exact ⟨unmapped _, fun _ => mapped⟩

theorem platform_route (line : UInt8) :
    (Board.platform.route line).Ends (board, machine) good bad ↔
      good () ({ board with routed := board.routed ++ [line] }, machine) :=
  Iff.rfl

end

theorem opening_board (pci : PciFunction) :
    (opening Board.platform pci settings).Ends (board, machine)
      (fun _ after => settings.validate = .ok () ∧ after.1 = { board with enabled := board.enabled ++ [pci] } ∧
        after.2.memory = machine.memory ∧ after.2.device = machine.device)
      (fun _ _ => ¬ Suits pci settings board machine.device) := by
  unfold opening checkFunction checkSettings checkWindow atStage
  simp only [Step.ends_bind, Step.ends_ite, Step.ends_second, Machine.ends_note, Step.ends_refuse, Step.ends_pure]
  refine ⟨fun unsupported suits => unsupported suits.supported, fun _ => ?_⟩
  cases valid : settings.validate with
  | error error =>
    rw [Step.ends_refuse]
    intro suits
    have usable := suits.usable
    rw [valid] at usable
    cases usable
  | ok =>
    simp only [Step.ends_pure, Step.ends_mapRefusal, platform_enable]
    refine ⟨fun small suits => absurd suits.covers (Nat.not_le.mpr small), fun _ => ?_⟩
    apply platform_map
    · rintro stop (elsewhere | wide) suits
      · exact elsewhere suits.base
      · exact absurd suits.window (Nat.not_le.mpr wide)
    · exact ⟨trivial, rfl, rfl, rfl⟩

/-- With usable settings only an address or a page can be missing. -/
theorem bringUp_board (pci : PciFunction) (housed : Housed owners board machine.memory)
    (valid : settings.validate = .ok ()) :
    (bringUp Board.platform pci settings).Ends (board, machine)
      (fun controller after => BroughtUp owners settings (board, machine) controller after)
      (fun _ _ => settings.mac = none ∧ machine.device.mac = none ∨
        ¬ board.HasRoom (settings.receiveLength + 2)) := by
  have fits := ringFits_of_validate valid
  unfold bringUp
  -- A count that is not a numeral keeps the multicast table from being cleared entry by entry here.
  generalize all : Register.multicastEntries = entries
  simp only [Step.ends_bind, Step.ends_second]
  refine (disable_quiet).mono ?_ (fun _ _ => False.elim)
  rintro ⟨_, interrupts⟩ disabled ⟨quiet, same⟩
  have settled : (settleMac settings.mac).Ends disabled (fun _ after => Quiet disabled after)
      (fun _ _ => settings.mac = none ∧ machine.device.mac = none) := same ▸ settleMac_quiet settings.mac
  refine settled.mono ?_ (fun _ _ => .inl)
  rintro mac addressed more
  refine (clearMulticast_quiet 0 (by omega)).mono ?_ (fun _ _ => False.elim)
  rintro - cleared last
  have calm : Quiet machine cleared := (quiet.trans more).trans last
  have housed' : Housed owners board cleared.memory := by
    rw [calm.memory]
    exact housed
  refine (raiseTransmit_ends housed' fits.1).mono ?_ (fun _ _ full => .inr fun room => full (room.mono (by omega)))
  rintro transmitRing ⟨board', sent⟩ transmits
  unfold keeping
  rw [Step.ends_thenIfStopped, Step.ends_bind]
  refine (raiseReceive_ends transmits.housed fits.2).mono ?_
    (fun _ _ full => .inr fun room => full (transmits.room _ room))
  rintro receiveRing ⟨board'', received⟩ receives
  rw [Step.ends_thenIfStopped]
  unfold Register.setBits atStage
  simp only [Step.ends_bind, Step.ends_second, Register.ends_read, Register.ends_write, Step.ends_mapRefusal,
    platform_route]
  have linked : Quiet received { received with
      device := (received.device.load Register.control.offset).2.store Register.control.offset
        ((received.device.load Register.control.offset).1 ||| Register.setLinkUp) } :=
    (Quiet.load received Register.control.offset).trans (.store _ _ (by decide))
  refine (enable_quiet interrupts settings.causes).mono ?_ (fun _ _ => False.elim)
  rintro ⟨_, enabled⟩ ready switched
  rw [Machine.ends_note, Step.ends_pure]
  refine BroughtUp.since (calm : Quiet (board, machine).2 _) (.of_quiet
    (broughtUp_of_raised transmits receives enabled mac pci) ?_ rfl)
  exact (linked.trans switched).trans (.of_device rfl rfl)

theorem attach_ends {pci : PciFunction} (housed : Housed owners board machine.memory) :
    (attach Board.platform pci settings).Ends (board, machine)
      (fun controller after => BroughtUp owners settings (board, machine) controller after)
      (fun _ _ => ¬ Suits pci settings board machine.device) := by
  rw [attach_eq, Step.ends_bind]
  refine (opening_board pci).mono ?_ (fun _ _ unsuitable => unsuitable)
  rintro - ⟨opened, mapped⟩ ⟨valid, rfl, memory, device⟩
  dsimp only at memory device
  have housed' : Housed owners { board with enabled := board.enabled ++ [pci] } mapped.memory := by
    rw [memory]
    exact ⟨housed.charted, housed.accounts⟩
  refine (bringUp_board pci housed' valid).mono ?_ ?_
  · intro controller after up
    exact .since (Quiet.of_device memory device : Quiet (board, machine).2 _) up
  · rintro _ _ (⟨none, unset⟩ | full) suits
    · rw [device] at unset
      exact suits.mac.elim (absurd none) (absurd unset)
    · exact full suits.room

/-- Where nothing stands in the way, a controller comes up, whatever the device has been through. -/
theorem exists_attach {pci : PciFunction} (machine : Machine Emulator) (housed : Housed owners board machine.memory)
    (suits : Suits pci settings board machine.device) :
    ∃ controller after, attach Board.platform pci settings (board, machine) = .ok controller after ∧
      BroughtUp owners settings (board, machine) controller after :=
  ((attach_ends housed).mono (fun _ _ up => up) fun _ _ unsuitable => unsuitable suits).exists_ok

end Controller

/-! ### The board -/

theorem Board.suits {board : Board} {mac : MacAddress} (valid : (Emulator.create mac).mac ≠ none)
    (room : board.HasRoom 130) : Controller.Suits Board.pciFunction {} board (Emulator.create mac) where
  supported := by decide
  usable := rfl
  covers := by decide
  base := rfl
  window := Nat.le_refl _
  mac := .inr valid
  room := room

/-- A fresh board without a limit has room for a controller and for some pages besides. -/
theorem Board.hasRoom_create {count : Nat} (few : count ≤ 2 ^ 16) : (Board.create none).HasRoom count := by
  refine ⟨nofun, ?_⟩
  change 0x00100000 + count * 4096 < 2 ^ 64
  omega

end PacketPath
