import PacketPath.Proofs.Controller.Script
import PacketPath.Proofs.Register.Cut

/-! Bringing up, cut short after any number of register writes. At each point of the run the device is shown
complete rings only, and nothing interrupts before the last write. -/

set_option autoImplicit false

namespace PacketPath

variable {π ε : Type} {limit : Nat} {platform : Platform π Emulator}

/-! ### Runs that are cut short -/

section Leaves

open Step (Leaves)

theorem access_leaves (id : PageId) (offset length : Nat) :
    (Machine.access id offset length : Step ε _ _).Leaves Machine.trail := by
  refine .of_ends fun machine => ?_
  unfold Machine.access
  rw [Step.ends_inspect]
  exact ⟨fun _ _ => rfl, fun _ _ => rfl⟩

theorem changeMemory_leaves (change : Memory → Memory) :
    (Machine.changeMemory change : Step ε (Machine Emulator) _).Leaves Machine.trail :=
  fun _ => rfl

theorem check_leaves (table : DescriptorTable) (slot : Nat) :
    (table.check slot : Step ε (Machine Emulator) _).Leaves Machine.trail := by
  unfold DescriptorTable.check
  split <;> exact fun _ => rfl

theorem fill_leaves (id : PageId) (offset length : Nat) (value : UInt8) :
    (Machine.fill id offset length value : Step ε _ _).Leaves Machine.trail :=
  .bind (access_leaves _ _ _) fun _ => changeMemory_leaves _

theorem writeRaw_leaves (table : DescriptorTable) (slot : Nat) (raw : List UInt8) :
    (table.writeRaw slot raw : Step ε _ _).Leaves Machine.trail :=
  .bind (check_leaves _ _) fun _ => .bind (access_leaves _ _ _) fun _ => changeMemory_leaves _

theorem createTable_leaves (page : PageId) (length : Nat) :
    (DescriptorTable.create page length : Step ε _ _).Leaves Machine.trail := by
  refine .of_ends fun machine => ?_
  unfold DescriptorTable.create
  simp only [Step.ends_bind, Step.ends_ite, Step.ends_violate, Machine.ends_sizeOf, Step.ends_pure]
  exact ⟨fun _ => trivial, fun _ => ⟨fun _ => trivial, fun _ => (fill_leaves _ _ _ _).ends machine⟩⟩

theorem markIdle_leaves (table : DescriptorTable) (slot count : Nat) :
    (TransmitRing.markIdle table slot count : Step ε _ _).Leaves Machine.trail := by
  induction count generalizing slot with
  | zero => exact .pure _
  | succ count ih => exact .bind (writeRaw_leaves _ _ _) fun _ => ih (slot + 1)

theorem bindPool_leaves (table : DescriptorTable) (slot : Nat) (pool : List PageId) :
    (ReceiveRing.bindPool table slot pool : Step ε _ _).Leaves Machine.trail := by
  induction pool generalizing slot with
  | nil => exact .pure _
  | cons page rest ih =>
    refine .of_ends fun machine => ?_
    unfold ReceiveRing.bindPool
    simp only [Step.ends_bind, Machine.ends_sizeOf, Step.ends_ite, Step.ends_violate, Machine.ends_baseOf]
    refine ⟨fun _ => trivial, fun _ => ((fill_leaves page 0 _ 0).ends machine).mono ?_ (fun _ _ => id)⟩
    intro _ filled same
    rw [← same]
    refine ((writeRaw_leaves table slot _).ends filled).mono ?_ (fun _ _ => id)
    intro _ written same
    rw [← same]
    exact (ih (slot + 1)).ends written

theorem createReceive_leaves (table : DescriptorTable) (pool : List PageId) :
    (ReceiveRing.create table pool : Step ε _ _).Leaves Machine.trail := by
  refine .of_ends fun machine => ?_
  unfold ReceiveRing.create
  simp only [Step.ends_bind, Step.ends_ite, Step.ends_violate, Step.ends_pure]
  exact ⟨fun _ => trivial, fun _ => (bindPool_leaves _ _ _).ends machine⟩

theorem Machine.Spared.trail {before after : Machine Emulator} (spared : before.Spared after) :
    after.trail = before.trail := by
  unfold Machine.trail
  rw [spared.device]

variable {platform : Platform π Emulator}

theorem allocate_leaves (fronts : platform.Fronts) (stage : AttachStage) :
    (Controller.atStage stage platform.allocate).Leaves (fun state => state.2.trail) := by
  refine Step.Leaves.mapRefusal (.of_ends fun state => (fronts.allocate state).mono ?_ ?_)
  · intro _ after granted
    unfold Machine.trail
    rw [granted.device]
  · exact fun _ _ fails => fails.spared.trail

theorem allocatePool_leaves (fronts : platform.Fronts) (count : Nat) :
    (Controller.allocatePool platform count).Leaves (fun state => state.2.trail) := by
  induction count with
  | zero => exact .pure _
  | succ count ih =>
    refine .bind (allocate_leaves fronts _) fun page => .thenIfStopped ?_ fun _ => rfl
    exact .bind ih fun _ => .pure _

theorem opening_leaves (fronts : platform.Fronts) (pci : PciFunction) (settings : Settings) :
    (Controller.opening platform pci settings).Leaves (fun state => state.2.trail) := by
  refine .of_ends fun state => (Controller.opening_spares fronts pci state).mono ?_ ?_
  · exact fun _ _ opened => opened.1.trail
  · exact fun _ _ stopped => stopped.1.trail

end Leaves

open Step (Cuts)

theorem write_cuts (register : Register) (word : UInt32) :
    Cuts limit Machine.trail (@Register.write Emulator ε (Emulator.upTo limit) register word) (register.write word) :=
  Emulator.store_cuts register.offset word

theorem program_transmit_cuts (ring : TransmitRing) :
    Cuts limit Machine.trail (@TransmitRing.program Emulator ε (Emulator.upTo limit) ring) ring.program := by
  refine .bind (.of_leaves fun _ => rfl) fun base => ?_
  refine .bind (write_cuts _ _) fun _ => ?_
  refine .bind (write_cuts _ _) fun _ => ?_
  refine .bind (write_cuts _ _) fun _ => ?_
  refine .bind (write_cuts _ _) fun _ => ?_
  exact write_cuts _ _

theorem program_receive_cuts (ring : ReceiveRing) :
    Cuts limit Machine.trail (@ReceiveRing.program Emulator ε (Emulator.upTo limit) ring) ring.program := by
  refine .bind (.of_leaves fun _ => rfl) fun base => ?_
  refine .bind (write_cuts _ _) fun _ => ?_
  refine .bind (write_cuts _ _) fun _ => ?_
  refine .bind (write_cuts _ _) fun _ => ?_
  refine .bind (write_cuts _ _) fun _ => ?_
  dsimp only
  split
  · exact .bind (.of_leaves fun _ => rfl) fun _ => write_cuts _ _
  · exact write_cuts _ _

namespace Controller

theorem settleMac_cuts (mac : Option MacAddress) :
    Cuts limit Machine.trail (@settleMac Emulator (Emulator.upTo limit) mac) (settleMac mac) := by
  cases mac with
  | some mac =>
    refine .bind (write_cuts _ _) fun _ => .bind (write_cuts _ _) fun _ => ?_
    exact .of_leaves fun _ => rfl
  | none =>
    refine .bind (Emulator.read_cuts _) fun low => .bind (Emulator.read_cuts _) fun high => .of_leaves ?_
    cases MacAddress.ofWords? low high <;> exact fun _ => rfl

theorem clearMulticast_cuts (index count : Nat) :
    Cuts limit Machine.trail (@clearMulticast Emulator (Emulator.upTo limit) index count)
      (clearMulticast index count) := by
  induction count generalizing index with
  | zero => exact .of_leaves fun _ => rfl
  | succ count ih =>
    refine .bind ?_ fun _ => ih (index + 1)
    unfold Register.writeMulticast
    split
    · exact Emulator.store_cuts _ _
    · exact .of_leaves fun _ => rfl

theorem raiseTransmit_cuts (fronts : platform.Fronts) (settings : Settings) :
    Cuts limit (fun state => state.2.trail)
      (@raiseTransmit π Emulator (Emulator.upTo limit) platform settings) (raiseTransmit platform settings) := by
  refine .bind (.of_leaves (allocate_leaves fronts _)) fun page => .thenIfStopped (.second ?_) fun _ => rfl
  refine .bind (.of_leaves (createTable_leaves _ _)) fun table => ?_
  refine .bind (.of_leaves (.bind (markIdle_leaves _ _ _) fun _ => .pure _)) fun ring => ?_
  refine .bind (program_transmit_cuts ring) fun _ => ?_
  refine .bind (write_cuts _ _) fun _ => ?_
  refine .bind (write_cuts _ _) fun _ => ?_
  exact .bind (write_cuts _ _) fun _ => .of_leaves (.pure _)

theorem raiseReceive_cuts (fronts : platform.Fronts) (settings : Settings) :
    Cuts limit (fun state => state.2.trail)
      (@raiseReceive π Emulator (Emulator.upTo limit) platform settings) (raiseReceive platform settings) := by
  refine .bind (.of_leaves (allocate_leaves fronts _)) fun page => .thenIfStopped ?_ fun _ => rfl
  refine .bind (.second (.of_leaves (createTable_leaves _ _))) fun table => ?_
  refine .bind (.of_leaves (allocatePool_leaves fronts _)) fun pool => .thenIfStopped (.second ?_) fun _ => rfl
  refine .bind (.of_leaves (createReceive_leaves _ _)) fun ring => ?_
  refine .bind (program_receive_cuts ring) fun _ => ?_
  refine .bind (write_cuts _ _) fun _ => ?_
  exact .bind (write_cuts _ _) fun _ => .of_leaves (.pure _)

theorem attach_cuts (fronts : platform.Fronts) (pci : PciFunction) (settings : Settings) :
    Cuts limit (fun state => state.2.trail)
      (@attach π Emulator (Emulator.upTo limit) platform pci settings) (attach platform pci settings) := by
  rw [@attach_eq π Emulator (Emulator.upTo limit), attach_eq]
  refine .bind (.of_leaves (opening_leaves fronts pci settings)) fun _ => ?_
  unfold bringUp
  generalize Register.multicastEntries = entries
  refine .bind (.second (.carrying _ (.bind (.second (write_cuts _ _)) fun _ => .of_leaves fun _ => rfl))) fun _ => ?_
  refine .bind (.second (settleMac_cuts _)) fun mac => ?_
  refine .bind (.second (clearMulticast_cuts _ _)) fun _ => ?_
  refine .bind (raiseTransmit_cuts fronts settings) fun transmitRing => .thenIfStopped ?_ fun _ => rfl
  refine .bind (raiseReceive_cuts fronts settings) fun receiveRing => .thenIfStopped ?_ fun _ => rfl
  refine .bind (.second (.bind (Emulator.read_cuts _) fun _ => write_cuts _ _)) fun _ => ?_
  refine .bind (.of_leaves (.mapRefusal (.of_ends fun state => ?_))) fun _ => ?_
  · exact (fronts.route _ state).mono (fun _ _ spared => spared.trail) (fun _ _ fails => fails.spared.trail)
  refine .bind (.second (.carrying _ (.bind (.second (write_cuts _ _)) fun _ => .of_leaves fun _ => rfl))) fun _ => ?_
  exact .bind (.second (.of_leaves fun _ => rfl)) fun _ => .of_leaves (.pure _)

end Controller

/-! ### Every point of the run -/

/-- An engine that is on works on a complete ring of the size that was asked for, in pages of its own. -/
structure ShowsComplete (start : Machine Emulator) (settings : Settings) (machine : Machine Emulator) : Prop where
  transmit : machine.device.word .transmitControl &&& Register.Transmit.enable ≠ 0 →
    ∃ table : DescriptorTable, table.length = settings.transmitLength ∧ ¬ start.memory.Knows table.page ∧
      TransmitLaid table machine
  receive : machine.device.word .receiveControl &&& Register.Receive.enable ≠ 0 →
    ∃ ring : ReceiveRing, ring.capacity = settings.receiveLength ∧ (∀ page ∈ ring.pages, ¬ start.memory.Knows page) ∧
      ReceiveLaid ring machine

structure WorksAsSet (settings : Settings) (controller : Controller) (machine : Machine Emulator) : Prop where
  transmitLength : controller.transmitRing.capacity = settings.transmitLength
  transmit : TransmitLaid controller.transmitRing.table machine
  transmitter : machine.device.word .transmitControl &&& Register.Transmit.enable ≠ 0
  receiveLength : controller.receiveRing.capacity = settings.receiveLength
  receive : ReceiveLaid controller.receiveRing machine
  receiver : machine.device.word .receiveControl &&& Register.Receive.enable ≠ 0
  multicast : ∀ index < Register.multicastEntries,
    machine.device.registers (Register.multicastTable.offset + index * 4) = 0
  address : machine.device.mac = some controller.mac
  asked : ∀ mac, settings.mac = some mac → controller.mac = mac
  unmasked : controller.interrupts.unmasked = settings.causes
  mask : machine.device.mask = settings.causes.bits

/-- Bringing up is at a point where it has made so many register writes, and the next is this one. The machine
is the one at that point, except that pages taken so far have been given back; that leaves their bytes. -/
structure PausedAt (platform : Platform π Emulator) (pci : PciFunction) (settings : Settings)
    (state : π × Machine Emulator) (count : Nat) (offset : Nat) (word : UInt32) (machine : Machine Emulator) : Prop where
  stopped : ∃ host, @Controller.attach π Emulator (Emulator.upTo (state.2.trail.length + count)) platform pci settings
    state = .error (.violated (.windowAccess offset word.toNat)) (host, machine)
  count : machine.trail.length = state.2.trail.length + count
  next : machine.trail ++ [(offset, word)] <+: ((Controller.attach platform pci settings).after state).2.trail

/-- At each point of bringing up, before and after the next register write, the device is shown complete rings
only, and from the first write to the last no interrupt is let through. That is how it stays if bringing up
fails, and otherwise the controller works as set. -/
def ShowsOnlyComplete (platform : Platform π Emulator) (pci : PciFunction) (settings : Settings)
    (state : π × Machine Emulator) : Prop :=
  (∀ count, ((Controller.attach platform pci settings).after state).2.trail.length ≤ state.2.trail.length + count ∨
    ∃ offset word machine, PausedAt platform pci settings state count offset word machine ∧
      ShowsComplete state.2 settings machine ∧
      ShowsComplete state.2 settings { machine with device := machine.device.store offset word } ∧
      (count ≠ 0 → machine.device.mask = 0)) ∧
  (Controller.attach platform pci settings).Ends state
    (fun controller after => ShowsComplete state.2 settings after.2 ∧ WorksAsSet settings controller after.2)
    (fun _ after => ShowsComplete state.2 settings after.2 ∧
      (after.2.trail.length ≠ state.2.trail.length → after.2.device.mask = 0))

section

variable {start machine : Machine Emulator} {owners held : List PageId} {settings : Settings} {exposure : Exposure}
  {controller : Controller}

/-- Of a device that was off at the start only those rings are at work that it has been switched on for. -/
theorem Underway.complete (under : Underway start owners settings held exposure machine)
    (transmitterOff : start.device.word .transmitControl &&& Register.Transmit.enable = 0)
    (receiverOff : start.device.word .receiveControl &&& Register.Receive.enable = 0) :
    ShowsComplete start settings machine := by
  have holds := under.holds
  cases exposure with
  | nothing =>
    refine ⟨fun on => absurd ?_ on, fun on => absurd ?_ on⟩
    · rw [holds.1, transmitterOff]
    · rw [holds.2, receiverOff]
  | transmitter table =>
    refine ⟨fun _ => ⟨table, holds.1.length, holds.1.fresh, holds.1.laid⟩, fun on => absurd ?_ on⟩
    rw [holds.2, receiverOff]
  | both table ring =>
    exact ⟨fun _ => ⟨table, holds.1.length, holds.1.fresh, holds.1.laid⟩,
      fun _ => ⟨ring, holds.2.length, holds.2.fresh, holds.2.laid⟩⟩

theorem Controller.CameUp.asSet (up : CameUp start owners settings controller machine) :
    WorksAsSet settings controller machine where
  transmitLength := up.under.holds.1.length
  transmit := up.under.holds.1.laid
  transmitter := by
    rw [up.under.holds.1.control]
    decide
  receiveLength := up.under.holds.2.length
  receive := up.under.holds.2.laid
  receiver := by
    rw [up.under.holds.2.control]
    decide
  multicast _ inside := up.multicast inside
  address := up.address
  asked mac given := by
    rcases up.mac with same | ⟨none, -⟩
    · exact Option.some.inj (same.symm.trans given)
    · rw [none] at given
      cases given
  unmasked := up.causes
  mask := up.mask

end

/-- Bringing up never shows the device a ring before it is complete. -/
theorem attach_shows_complete_rings (fronts : platform.Fronts) (pci : PciFunction) (settings : Settings)
    (state : π × Machine Emulator)
    (transmitterOff : state.2.device.word .transmitControl &&& Register.Transmit.enable = 0)
    (receiverOff : state.2.device.word .receiveControl &&& Register.Receive.enable = 0) :
    ShowsOnlyComplete platform pci settings state := by
  obtain ⟨owners, accounts⟩ := state.2.memory.exists_accounts
  have trail (machine : Machine Emulator) : machine.device.writes = state.2.device.writes →
      machine.trail.length = state.2.trail.length := fun same => by rw [Machine.trail, same, Machine.trail]
  refine ⟨fun count => ?_, ?_⟩
  · -- The run that may make so many writes either is the whole one, or stops at the next.
    have cut := (Controller.attach_cuts fronts pci settings).agrees state (Nat.le_add_right _ count)
    have shown : (@Controller.attach π Emulator (Emulator.upTo (state.2.trail.length + count)) platform pci
        settings).Ends state _ _ := Controller.attach_shown (Emulator.gate_upTo _) fronts pci accounts
    rcases cut with ⟨-, short⟩ | ⟨offset, word, ⟨host, machine⟩, stopped, spent, next⟩
    · exact .inl short
    have halted := (Step.ends_of_error stopped).mp shown
    obtain ⟨exposure, under, -⟩ := halted.shown
    obtain ⟨word', later, same, kept⟩ := halted.next offset word.toNat rfl
    obtain rfl := UInt32.toNat_inj.mp same
    refine .inr ⟨offset, word', machine, ⟨⟨host, stopped⟩, spent, next⟩, under.complete transmitterOff receiverOff,
      kept.complete transmitterOff receiverOff, fun some => ?_⟩
    refine halted.masked.resolve_left fun same => ?_
    have unmoved := (trail machine same).symm.trans spent
    omega
  · refine (Controller.attach_shown .opened fronts pci accounts).mono ?_ ?_
    · intro controller after up
      exact ⟨up.under.complete transmitterOff receiverOff, up.asSet⟩
    · intro stop after halted
      obtain ⟨exposure, under, -⟩ := halted.shown
      refine ⟨under.complete transmitterOff receiverOff, fun moved => ?_⟩
      exact halted.masked.resolve_left fun same => moved (trail _ same)

/-- A new device has both engines off. -/
theorem attach_shows_complete_rings_new :
    ShowsOnlyComplete Board.platform Board.pciFunction {}
      (Board.create none, ⟨.empty, Emulator.create .emulated, #[]⟩) := by
  have transmitterOff : (Emulator.create .emulated).word .transmitControl &&& Register.Transmit.enable = 0 := rfl
  have receiverOff : (Emulator.create .emulated).word .receiveControl &&& Register.Receive.enable = 0 := rfl
  exact attach_shows_complete_rings Board.platform_fronts _ _ _ transmitterOff receiverOff

end PacketPath
