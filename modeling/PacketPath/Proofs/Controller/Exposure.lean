import PacketPath.Proofs.Controller.Fronting
import PacketPath.Proofs.Controller.Laid
import PacketPath.Proofs.Controller.Outcome
import PacketPath.Proofs.Register.Gate

/-! What the device is shown while a controller is brought up. An engine is switched on only when its ring is
complete in memory and the device has been told where it is. That is followed from each register write to
the next, on any platform in front of the device, whichever call or write turns out to be the last. -/

set_option autoImplicit false

namespace PacketPath

variable {π : Type} {start machine after : Machine Emulator} {owners held pages : List PageId}
  {settings : Settings} {bus : RegisterBus Emulator} {platform : Platform π Emulator} {host : π}

/-! ### How far the device has been let in -/

inductive Exposure where
  | nothing
  | transmitter (table : DescriptorTable)
  | both (table : DescriptorTable) (ring : ReceiveRing)

/-- The error is one that comes when so much has been switched on. -/
def Exposure.Explains : Exposure → AttachError → Prop
  | .nothing, error => ∀ stage detail, error = .platform stage detail →
      stage ≠ .receiveTable ∧ stage ≠ .receiveBuffer ∧ stage ≠ .route
  | .transmitter _, error => ∃ stage detail, error = .platform stage detail ∧
      (stage = .receiveTable ∨ stage = .receiveBuffer)
  | .both _ _, error => ∃ detail, error = .platform .route detail

structure TransmitShown (start : Machine Emulator) (settings : Settings) (table : DescriptorTable)
    (machine : Machine Emulator) : Prop where
  length : table.length = settings.transmitLength
  fresh : ¬ start.memory.Knows table.page
  laid : TransmitLaid table machine
  control : machine.device.word .transmitControl = Register.Transmit.operating

structure ReceiveShown (start : Machine Emulator) (settings : Settings) (ring : ReceiveRing)
    (machine : Machine Emulator) : Prop where
  length : ring.capacity = settings.receiveLength
  fresh : ∀ page ∈ ring.pages, ¬ start.memory.Knows page
  laid : ReceiveLaid ring machine
  control : machine.device.word .receiveControl = Register.Receive.operating

def Exposure.Holds (start : Machine Emulator) (settings : Settings) (machine : Machine Emulator) : Exposure → Prop
  | .nothing => machine.device.word .transmitControl = start.device.word .transmitControl ∧
      machine.device.word .receiveControl = start.device.word .receiveControl
  | .transmitter table => TransmitShown start settings table machine ∧
      machine.device.word .receiveControl = start.device.word .receiveControl
  | .both table ring => TransmitShown start settings table machine ∧ ReceiveShown start settings ring machine

/-- Bringing up is under way. What was there at the start is as it was, and besides the pages that had
owners, those in `held` are held. -/
structure Underway (start : Machine Emulator) (owners : List PageId) (settings : Settings) (held : List PageId)
    (exposure : Exposure) (machine : Machine Emulator) : Prop where
  grows : start.memory.Grows (fun _ => False) machine.memory
  accounts : machine.memory.Accounts (held ++ owners)
  holds : exposure.Holds start settings machine

/-- Bringing up has stopped. No interrupt has been let through since the first write. If a write was refused,
what the device is shown would have been in order after it as well. -/
structure Halted (start : Machine Emulator) (owners : List PageId) (settings : Settings) (held : List PageId)
    (stop : Stop AttachError) (machine : Machine Emulator) : Prop where
  masked : machine.device.writes = start.device.writes ∨ machine.device.mask = 0
  shown : ∃ exposure, Underway start owners settings held exposure machine ∧
    ∀ error, stop = .refused error → exposure.Explains error
  next : ∀ offset size, stop = .violated (.windowAccess offset size) → ∃ word exposure, word.toNat = size ∧
    Underway start owners settings held exposure { machine with device := machine.device.store offset word }

variable {exposure : Exposure} {table : DescriptorTable} {ring : ReceiveRing}

theorem TransmitShown.store (shown : TransmitShown start settings table machine) (offset : Nat) (word : UInt32)
    (control : Register.transmitControl.offset ≠ offset)
    (apart : ∀ register ∈ Emulator.transmitAim, register.offset ≠ offset) :
    TransmitShown start settings table { machine with device := machine.device.store offset word } :=
  { shown with
    laid := shown.laid.store offset word apart
    control := (machine.device.word_store_of_ne word control).trans shown.control }

theorem ReceiveShown.store (shown : ReceiveShown start settings ring machine) (offset : Nat) (word : UInt32)
    (control : Register.receiveControl.offset ≠ offset)
    (apart : ∀ register ∈ Emulator.receiveAim, register.offset ≠ offset) :
    ReceiveShown start settings ring { machine with device := machine.device.store offset word } :=
  { shown with
    laid := shown.laid.store offset word apart
    control := (machine.device.word_store_of_ne word control).trans shown.control }

namespace Underway

theorem store_nothing (under : Underway start owners settings held .nothing machine) (offset : Nat) (word : UInt32)
    (apart : ∀ register ∈ [Register.transmitControl, .receiveControl], register.offset ≠ offset) :
    Underway start owners settings held .nothing { machine with device := machine.device.store offset word } := by
  refine { under with holds := ⟨?_, ?_⟩ }
  · exact (machine.device.word_store_of_ne word (apart .transmitControl (by decide))).trans under.holds.1
  · exact (machine.device.word_store_of_ne word (apart .receiveControl (by decide))).trans under.holds.2

theorem store_transmitter (under : Underway start owners settings held (.transmitter table) machine) (offset : Nat)
    (word : UInt32)
    (apart : ∀ register ∈ [Register.transmitControl, .receiveControl] ++ Emulator.transmitAim,
      register.offset ≠ offset) :
    Underway start owners settings held (.transmitter table)
      { machine with device := machine.device.store offset word } := by
  refine { under with holds := ⟨?_, ?_⟩ }
  · refine under.holds.1.store offset word (apart .transmitControl (by decide)) fun register listed => ?_
    exact apart register (List.mem_append_right _ listed)
  · exact (machine.device.word_store_of_ne word (apart .receiveControl (by decide))).trans under.holds.2

theorem store_both (under : Underway start owners settings held (.both table ring) machine) (offset : Nat)
    (word : UInt32)
    (apart : ∀ register ∈ [Register.transmitControl, .receiveControl] ++ (Emulator.transmitAim ++ Emulator.receiveAim),
      register.offset ≠ offset) :
    Underway start owners settings held (.both table ring)
      { machine with device := machine.device.store offset word } := by
  refine { under with holds := ⟨?_, ?_⟩ }
  · refine under.holds.1.store offset word (apart .transmitControl (by decide)) fun register listed => ?_
    exact apart register (List.mem_append_right _ (List.mem_append_left _ listed))
  · refine under.holds.2.store offset word (apart .receiveControl (by decide)) fun register listed => ?_
    exact apart register (List.mem_append_right _ (List.mem_append_right _ listed))

theorem of_grows (under : Underway start owners settings held exposure machine)
    (grows : machine.memory.Grows (fun _ => False) after.memory) (accounts : after.memory.Accounts (pages ++ owners))
    (device : after.device = machine.device) : Underway start owners settings pages exposure after := by
  refine ⟨under.grows.trans grows, accounts, ?_⟩
  have holds := under.holds
  cases exposure with
  | nothing =>
    unfold Exposure.Holds
    rw [device]
    exact holds
  | transmitter table =>
    refine ⟨{ holds.1 with laid := holds.1.laid.of_grows grows device, control := device ▸ holds.1.control }, ?_⟩
    rw [device]
    exact holds.2
  | both table ring =>
    exact ⟨{ holds.1 with laid := holds.1.laid.of_grows grows device, control := device ▸ holds.1.control },
      { holds.2 with laid := holds.2.laid.of_grows grows device, control := device ▸ holds.2.control }⟩

theorem of_spared (under : Underway start owners settings held exposure machine) (spared : machine.Spared after) :
    Underway start owners settings held exposure after :=
  under.of_grows spared.grows (spared.accounts under.accounts) spared.device

theorem release (under : Underway start owners settings (pages ++ held) exposure machine) :
    Underway start owners settings held exposure
      { machine with memory := machine.memory.releaseAll pages } := by
  have accounts := under.accounts
  rw [List.append_assoc] at accounts
  exact under.of_grows (Memory.changes_releaseAll _ _ pages).grows accounts.releaseAll rfl

end Underway

namespace Halted

variable {stop : Stop AttachError}

theorem release (halted : Halted start owners settings (pages ++ held) stop machine) :
    Halted start owners settings held stop { machine with memory := machine.memory.releaseAll pages } where
  masked := halted.masked
  shown := by
    obtain ⟨exposure, under, explained⟩ := halted.shown
    exact ⟨exposure, under.release, explained⟩
  next offset size refused := by
    obtain ⟨word, exposure, same, under⟩ := halted.next offset size refused
    exact ⟨word, exposure, same, under.release⟩

theorem of_spared (begun : Underway start owners settings [] .nothing start)
    (spared : start.Spared after) (own : ∀ offset size, stop ≠ .violated (.windowAccess offset size))
    (explained : ∀ error, stop = .refused error → Exposure.nothing.Explains error) :
    Halted start owners settings [] stop after where
  masked := .inl (by rw [spared.device])
  shown := ⟨.nothing, begun.of_spared spared, explained⟩
  next offset size same := absurd same (own offset size)

theorem of_fails {own : Stop String} {stage : AttachStage}
    (under : Underway start owners settings held exposure machine)
    (masked : machine.device.writes = start.device.writes ∨ machine.device.mask = 0)
    (fails : Platform.Fails machine own after) (explained : ∀ detail, exposure.Explains (.platform stage detail)) :
    Halted start owners settings held (own.map (.platform stage)) after where
  masked := fails.spared.device ▸ masked
  shown := by
    refine ⟨exposure, under.of_spared fails.spared, fun error same => ?_⟩
    cases own with
    | refused detail =>
      cases same
      exact explained detail
    | violated | unfinished => cases same
  next offset size same := absurd same (fails.map_ne offset size)

end Halted

namespace Gate

variable {good : Unit → Machine Emulator → Prop} {next : Exposure}

/-- A write, made or refused, that leaves what the device is shown in order. -/
theorem ends_underway (gate : Gate bus) {offset : Nat} {word : UInt32}
    (under : Underway start owners settings held exposure machine)
    (masked : machine.device.writes = start.device.writes ∨ machine.device.mask = 0)
    (kept : Underway start owners settings held next { machine with device := machine.device.store offset word })
    (made : good () { machine with device := machine.device.store offset word }) :
    (@Machine.store Emulator AttachError bus offset word).Ends machine good
      (Halted start owners settings held) := by
  refine gate.ends_store ⟨masked, ⟨exposure, under, nofun⟩, fun place size same => ?_⟩ made
  cases same
  exact ⟨word, next, rfl, kept⟩

theorem write (gate : Gate bus) {register : Register} {word : UInt32}
    (under : Underway start owners settings held exposure machine) (masked : machine.device.mask = 0)
    (kept : Underway start owners settings held next
      { machine with device := machine.device.store register.offset word })
    (apart : register.offset ≠ Register.maskSet.offset)
    (made : Underway start owners settings held next
        { machine with device := machine.device.store register.offset word } →
      (machine.device.store register.offset word).mask = 0 →
      good () { machine with device := machine.device.store register.offset word }) :
    (@Register.write Emulator AttachError bus register word).Ends machine good (Halted start owners settings held) :=
  gate.ends_underway under (.inr masked) kept (made kept (machine.device.mask_store_of_ne word apart masked))

end Gate

namespace Controller

/-- Pages that are given back when a step stops count as held until then. -/
theorem keeping_shown {α : Type} {step : Step AttachError (π × Machine Emulator) α} {state : π × Machine Emulator}
    {good : α → π × Machine Emulator → Prop}
    (ends : step.Ends state good (fun stop after => Halted start owners settings (pages ++ held) stop after.2)) :
    (keeping pages step).Ends state good (fun stop after => Halted start owners settings held stop after.2) := by
  unfold keeping
  rw [Step.ends_thenIfStopped]
  exact ends.mono (fun _ _ => id) (fun _ _ halted => halted.release)

/-! ### The transmit ring -/

theorem allocate_shown (fronts : platform.Fronts) (stage : AttachStage) {state : π × Machine Emulator}
    {good : PageId → π × Machine Emulator → Prop}
    (under : Underway start owners settings held exposure state.2) (masked : state.2.device.mask = 0)
    (explained : ∀ detail, exposure.Explains (.platform stage detail))
    (given : ∀ page after, state.2.Granted page after.2 → good page after) :
    (atStage stage platform.allocate).Ends state good
      (fun stop after => Halted start owners settings held stop after.2) := by
  unfold atStage
  rw [Step.ends_mapRefusal]
  refine (fronts.allocate state).mono given ?_
  exact fun stop after fails => .of_fails under (.inr masked) fails explained

def transmitWrites (settings : Settings) (base : UInt64) : List (Nat × UInt32) :=
  [(Register.transmitBaseLow.offset, UInt32.ofNat base.toNat),
    (Register.transmitBaseHigh.offset, UInt32.ofNat (base.toNat / 2 ^ 32)),
    (Register.transmitLength.offset, UInt32.ofNat (settings.transmitLength * Limits.descriptorSize)),
    (Register.transmitHead.offset, 0),
    (Register.transmitTail.offset, 0),
    (Register.transmitControl.offset, Register.Transmit.operating),
    (Register.transmitGap.offset, Register.standardGap),
    (Register.transmitDelay.offset, settings.transmitDelay.toUInt32)]

theorem program_transmit_shown (gate : Gate bus) (ring : TransmitRing) {good : Unit → Machine Emulator → Prop}
    (under : Underway start owners settings held .nothing machine) (masked : machine.device.mask = 0)
    (told : ∀ device, device = machine.device.aimTransmit (machine.memory.page ring.table.page).base
        ring.table.byteLength →
      Underway start owners settings held .nothing { machine with device := device } → device.mask = 0 →
      good () { machine with device := device }) :
    (@TransmitRing.program Emulator AttachError bus ring).Ends machine good (Halted start owners settings held) := by
  unfold TransmitRing.program
  simp only [Step.ends_bind, Machine.ends_baseOf]
  refine gate.write under masked (under.store_nothing _ _ (by decide)) (by decide) fun under masked => ?_
  refine gate.write under masked (under.store_nothing _ _ (by decide)) (by decide) fun under masked => ?_
  refine gate.write under masked (under.store_nothing _ _ (by decide)) (by decide) fun under masked => ?_
  refine gate.write under masked (under.store_nothing _ _ (by decide)) (by decide) fun under masked => ?_
  refine gate.write under masked (under.store_nothing _ _ (by decide)) (by decide) fun under masked => ?_
  exact told _ rfl under masked

theorem raiseTransmit_shown (gate : Gate bus) (fronts : platform.Fronts)
    (fits : Settings.ringFits settings.transmitLength = true) {state : π × Machine Emulator}
    (under : Underway start owners settings held .nothing state.2) (masked : state.2.device.mask = 0) :
    (@raiseTransmit π Emulator bus platform settings).Ends state
      (fun ring after => ∃ page base, ring = .blank ⟨page, settings.transmitLength⟩ ∧
        Underway start owners settings (page :: held) (.transmitter ⟨page, settings.transmitLength⟩) after.2 ∧
        after.2.device.mask = 0 ∧ after.2.device = state.2.device.storeAll (transmitWrites settings base))
      (fun stop after => Halted start owners settings held stop after.2) := by
  obtain ⟨several, paged⟩ := ringFits_bounds fits
  have small : settings.transmitLength < 2 ^ 16 := DescriptorTable.length_lt_of_paged paged
  unfold raiseTransmit
  rw [Step.ends_bind]
  refine allocate_shown fronts _ under masked (by rintro _ _ _ ⟨⟩; decide) ?_
  rintro page ⟨host, given⟩ granted
  refine keeping_shown ?_
  simp only [Step.ends_second, Step.ends_bind]
  have size : (given.memory.page page).size = Limits.pageSize := granted.size
  have known : given.memory.Knows page := granted.knows
  apply DescriptorTable.create_ends (by rw [size]; exact paged) small
  intro zeroed laid
  have there : zeroed.memory.Knows page := laid.changes.knows _ known
  have seated : DescriptorTable.Fits ⟨page, settings.transmitLength⟩ zeroed.memory :=
    .of_page paged ((laid.changes.size _ known).trans size)
  refine (TransmitRing.create_ends seated there).mono ?_ (fun _ _ => False.elim)
  rintro _ marked ⟨rfl, idle, done⟩
  have writes := laid.trans idle
  have fresh : ¬ start.memory.Knows page := fun before => granted.fresh (under.grows.knows page before)
  have same : marked.device = state.2.device := writes.device.trans granted.device
  -- Only the new page was written, so all that was there is still as it was.
  have under : Underway start owners settings ([page] ++ held) .nothing marked := by
    refine under.of_grows (granted.grows.trans_fresh writes.changes.grows ?_) ?_ same
    · rintro id rfl
      exact granted.fresh
    · exact fun id => (writes.handles id).trans (granted.accounts under.accounts id)
  have masked : marked.device.mask = 0 := same ▸ masked
  refine program_transmit_shown gate _ under masked fun device told under masked => ?_
  -- The table is complete, and the device knows of it: now the engine may be switched on.
  have complete : TransmitLaid ⟨page, settings.transmitLength⟩ { marked with device := device } :=
    .of_aim small ((writes.changes.size _ known).trans size) paged done told
  have shown : Underway start owners settings ([page] ++ held) (.transmitter ⟨page, settings.transmitLength⟩)
      { marked with device := device.store Register.transmitControl.offset Register.Transmit.operating } :=
    { under with holds := ⟨⟨rfl, fresh, complete.store _ _ (by decide), rfl⟩, under.holds.2⟩ }
  refine gate.write under masked shown (by decide) fun under masked => ?_
  refine gate.write under masked (under.store_transmitter _ _ (by decide)) (by decide) fun under masked => ?_
  refine gate.write under masked (under.store_transmitter _ _ (by decide)) (by decide) fun under masked => ?_
  rw [Step.ends_pure]
  refine ⟨page, (marked.memory.page page).base, rfl, under, masked, ?_⟩
  rw [← same, told]
  rfl

/-! ### The receive ring -/

def receiveWrites (settings : Settings) (base : UInt64) : List (Nat × UInt32) :=
  [(Register.receiveBaseLow.offset, UInt32.ofNat base.toNat),
    (Register.receiveBaseHigh.offset, UInt32.ofNat (base.toNat / 2 ^ 32)),
    (Register.receiveLength.offset, UInt32.ofNat (settings.receiveLength * Limits.descriptorSize)),
    (Register.receiveHead.offset, 0),
    (Register.receiveTail.offset, UInt32.ofNat (settings.receiveLength - 1)),
    (Register.smallPacketDetect.offset, settings.smallPacketThreshold.toUInt32 &&& Register.smallPacketMask),
    (Register.receiveControl.offset, Register.Receive.operating)]

structure Built (settings : Settings) (page : PageId) (pool : List PageId) (before : Machine Emulator)
    (ring : ReceiveRing) (after : Machine Emulator) : Prop where
  blank : ring = .blank ⟨page, settings.receiveLength⟩ pool
  grows : before.memory.Grows (fun _ => False) after.memory
  device : after.device = before.device
  accounts : ∀ owners, before.memory.Accounts owners → after.memory.Accounts (pool ++ page :: owners)
  fresh : ∀ id ∈ page :: pool, ¬ before.memory.Knows id
  /-- The device only has to be told. -/
  laid : ∀ device device' : Emulator, device' = device.aimReceive (after.memory.page page).base
      (settings.receiveLength * Limits.descriptorSize) (settings.receiveLength - 1) →
    ReceiveLaid ring { after with device := device' }

theorem receiveRing_built {page : PageId} {pool : List PageId} {given laid stocked : Machine Emulator}
    (granted : machine.Granted page given) (zeroed : Machine.Writes (· = page) given laid)
    (filled : Stocked settings.receiveLength laid pool stocked)
    (paged : settings.receiveLength * Limits.descriptorSize ≤ Limits.pageSize) :
    (ReceiveRing.create ⟨page, settings.receiveLength⟩ pool : Step AttachError _ _).Ends stocked
      (fun ring after => Built settings page pool machine ring after) (fun _ _ => False) := by
  have small : settings.receiveLength < 2 ^ 16 := DescriptorTable.length_lt_of_paged paged
  have known : laid.memory.Knows page := zeroed.changes.knows _ granted.knows
  have there : stocked.memory.Knows page := filled.grows.knows _ known
  have size : (stocked.memory.page page).size = Limits.pageSize := by
    rw [filled.grows.size known not_false, zeroed.changes.size _ granted.knows, granted.size]
  have seated : DescriptorTable.Fits ⟨page, settings.receiveLength⟩ stocked.memory := .of_page paged size
  have other : page ∉ pool := fun listed => filled.fresh page listed known
  have pooled : ∀ id ∈ pool, stocked.memory.Knows id ∧ id ≠ page ∧
      (stocked.memory.page id).size = Limits.pageSize := by
    intro id listed
    refine ⟨filled.knows listed, fun same => other (same ▸ listed), ?_⟩
    unfold Page.size
    rw [filled.zeroed id listed, Array.size_replicate]
  have zeros : (ReceiveRing.create ⟨page, settings.receiveLength⟩ pool : Step AttachError _ _).Ends stocked
      (fun _ after => ∀ id ∈ pool, (after.memory.page id).bytes = Array.replicate Limits.pageSize 0)
      (fun _ _ => False) := by
    unfold ReceiveRing.create
    simp only [Step.ends_bind, Step.ends_ite, Step.ends_violate, Step.ends_pure]
    refine ⟨fun wrong => wrong filled.length, fun _ => ?_⟩
    exact ReceiveRing.bindPool_zeros seated there pooled filled.apart 0 (by rw [filled.length]; exact Nat.le_of_eq (Nat.zero_add _))
  refine ((ReceiveRing.create_ends seated there pooled filled.length).and zeros).mono ?_ (fun _ _ stopped => stopped.1)
  rintro _ after ⟨⟨rfl, writes, vacant⟩, zeros⟩
  have older := granted.grows.trans_fresh zeroed.changes.grows (by
    rintro id rfl
    exact granted.fresh)
  have fresh : ∀ id ∈ page :: pool, ¬ machine.memory.Knows id := by
    intro id listed
    rcases List.mem_cons.mp listed with rfl | listed
    · exact granted.fresh
    · exact fun before => filled.fresh id listed (older.knows id before)
  exact
    { blank := rfl
      grows := (older.trans filled.grows).trans_fresh writes.changes.grows fun id written =>
        fresh id (List.mem_cons.mpr written)
      device := writes.device.trans (filled.device.trans (zeroed.device.trans granted.device))
      accounts := by
        intro owners accounts id
        have given := granted.accounts accounts
        have cleared : laid.memory.Accounts (page :: owners) := fun id => (zeroed.handles id).trans (given id)
        exact (writes.handles id).trans (filled.accounts _ cleared id)
      fresh := fresh
      laid := by
        intro device device' told
        refine .of_aim small ((writes.changes.size _ there).trans size) paged filled.length
          (List.nodup_cons.mpr ⟨other, filled.apart⟩) ?_ zeros told
        intro slot id owned
        have inside : slot < settings.receiveLength := by
          have bound := (Array.getElem?_eq_some_iff.mp owned).1
          exact Nat.lt_of_lt_of_eq bound filled.length
        obtain ⟨holder, owned', cell⟩ := vacant slot inside
        rw [owned, Option.some.injEq] at owned'
        rw [owned']
        exact cell }

theorem program_receive_shown (gate : Gate bus) (ring : ReceiveRing) {table : DescriptorTable}
    {good : Unit → Machine Emulator → Prop} (several : ring.capacity ≠ 0)
    (under : Underway start owners settings held (.transmitter table) machine) (masked : machine.device.mask = 0)
    (told : ∀ device, device = machine.device.aimReceive (machine.memory.page ring.table.page).base
        ring.table.byteLength (ring.capacity - 1) →
      Underway start owners settings held (.transmitter table) { machine with device := device } →
      device.mask = 0 → good () { machine with device := device }) :
    (@ReceiveRing.program Emulator AttachError bus ring).Ends machine good (Halted start owners settings held) := by
  unfold ReceiveRing.program
  simp only [Step.ends_bind, Machine.ends_baseOf, Step.ends_ite, Step.ends_violate]
  refine gate.write under masked (under.store_transmitter _ _ (by decide)) (by decide) fun under masked => ?_
  refine gate.write under masked (under.store_transmitter _ _ (by decide)) (by decide) fun under masked => ?_
  refine gate.write under masked (under.store_transmitter _ _ (by decide)) (by decide) fun under masked => ?_
  refine gate.write under masked (under.store_transmitter _ _ (by decide)) (by decide) fun under masked => ?_
  refine ⟨fun none => absurd none several, fun _ => ?_⟩
  refine gate.write under masked (under.store_transmitter _ _ (by decide)) (by decide) fun under masked => ?_
  exact told _ rfl under masked

theorem raiseReceive_shown (gate : Gate bus) (fronts : platform.Fronts)
    (fits : Settings.ringFits settings.receiveLength = true) {table : DescriptorTable}
    {state : π × Machine Emulator} (under : Underway start owners settings held (.transmitter table) state.2)
    (masked : state.2.device.mask = 0) :
    (@raiseReceive π Emulator bus platform settings).Ends state
      (fun ring after => ∃ page pool base, ring = .blank ⟨page, settings.receiveLength⟩ pool ∧
        Underway start owners settings (ring.pages ++ held) (.both table ring) after.2 ∧
        after.2.device.mask = 0 ∧ after.2.device = state.2.device.storeAll (receiveWrites settings base))
      (fun stop after => Halted start owners settings held stop after.2) := by
  obtain ⟨several, paged⟩ := ringFits_bounds fits
  have small : settings.receiveLength < 2 ^ 16 := DescriptorTable.length_lt_of_paged paged
  have earlier := under.grows.knows
  unfold raiseReceive
  rw [Step.ends_bind]
  refine allocate_shown fronts _ under masked (fun detail => ⟨_, _, rfl, .inl rfl⟩) ?_
  rintro page ⟨host, given⟩ granted
  refine keeping_shown ?_
  rw [Step.ends_bind, Step.ends_second]
  apply DescriptorTable.create_ends (by rw [granted.size]; exact paged) small
  intro laid zeroed
  have under' : Underway start owners settings ([page] ++ held) (.transmitter table) laid := by
    refine under.of_grows (granted.grows.trans_fresh zeroed.changes.grows ?_) ?_
      (zeroed.device.trans granted.device)
    · rintro id rfl
      exact granted.fresh
    · exact fun id => (zeroed.handles id).trans (granted.accounts under.accounts id)
  have masked' : laid.device.mask = 0 := by
    rw [zeroed.device, granted.device]
    exact masked
  rw [Step.ends_bind]
  refine (allocatePool_fronts fronts settings.receiveLength (host, laid)).mono ?_ ?_
  · rintro pool ⟨host, stocked⟩ filled
    refine keeping_shown ?_
    rw [Step.ends_second, Step.ends_bind]
    refine (receiveRing_built granted zeroed filled paged).mono ?_ (fun _ _ => False.elim)
    rintro ring bound built
    have under : Underway start owners settings (pool ++ ([page] ++ held)) (.transmitter table) bound := by
      have accounts := built.accounts _ under.accounts
      exact under.of_grows built.grows (by simpa using accounts) built.device
    have masked : bound.device.mask = 0 := built.device ▸ masked
    obtain rfl := built.blank
    have slots : (ReceiveRing.blank ⟨page, settings.receiveLength⟩ pool).capacity ≠ 0 :=
      Nat.ne_of_gt (Nat.lt_of_succ_lt several)
    rw [Step.ends_bind]
    refine program_receive_shown gate _ slots under masked fun device told under masked => ?_
    simp only [Step.ends_bind, Step.ends_pure]
    refine gate.write under masked (under.store_transmitter _ _ (by decide)) (by decide) fun under masked => ?_
    -- The ring is complete, and the device knows of it: now the engine may be switched on.
    have complete := (built.laid _ _ told).store Register.smallPacketDetect.offset
      (settings.smallPacketThreshold.toUInt32 &&& Register.smallPacketMask) (by decide)
    have fresh (id : PageId) (listed : id ∈ page :: pool) : ¬ start.memory.Knows id := fun before =>
      built.fresh id listed (earlier id before)
    have shown : Underway start owners settings (pool ++ ([page] ++ held))
        (.both table (.blank ⟨page, settings.receiveLength⟩ pool)) { bound with
          device := (device.store Register.smallPacketDetect.offset
            (settings.smallPacketThreshold.toUInt32 &&& Register.smallPacketMask)).store
              Register.receiveControl.offset Register.Receive.operating } :=
      { under with holds := ⟨under.holds.1.store _ _ (by decide) (by decide),
          ⟨rfl, fresh, complete.store _ _ (by decide), rfl⟩⟩ }
    refine gate.write under masked shown (by decide) fun under masked => ?_
    refine ⟨page, pool, (bound.memory.page page).base, rfl, ?_, masked, ?_⟩
    · refine { under with accounts := under.accounts.congr fun id => ?_ }
      have pages : (ReceiveRing.blank ⟨page, settings.receiveLength⟩ pool).pages = [page] ++ pool := rfl
      simp only [pages, List.count_append]
      omega
    · rw [← built.device, told]
      rfl
  · rintro _ after ⟨own, rfl, fails⟩
    exact .of_fails under' (.inr masked') fails fun detail => ⟨_, _, rfl, .inr rfl⟩

/-! ### The whole controller -/

def macWrites : Option MacAddress → List (Nat × UInt32)
  | some mac => [(Register.addressLow.offset, mac.lowWord), (Register.addressHigh.offset, mac.highWord)]
  | none => []

def clearingWrites (index count : Nat) : List (Nat × UInt32) :=
  (List.range' index count).map fun entry => (Register.multicastTable.offset + entry * 4, 0)

def raisingWrites (settings : Settings) (transmitBase receiveBase : UInt64) (control : UInt32) :
    List (Nat × UInt32) :=
  transmitWrites settings transmitBase ++ receiveWrites settings receiveBase ++
    [(Register.control.offset, control ||| Register.setLinkUp), (Register.maskSet.offset, settings.causes.bits)]

def script (settings : Settings) (transmitBase receiveBase : UInt64) (control : UInt32) : List (Nat × UInt32) :=
  [(Register.maskClear.offset, 0xFFFFFFFF)] ++ macWrites settings.mac ++
    clearingWrites 0 Register.multicastEntries ++ raisingWrites settings transmitBase receiveBase control

theorem disable_shown (gate : Gate bus) (under : Underway start owners settings held .nothing machine)
    (same : machine.device = start.device) :
    (Step.carrying .masked (@Interrupts.disable Emulator AttachError bus)).Ends machine
      (fun value after => value.2 = .masked ∧ Underway start owners settings held .nothing after ∧
        after.device.mask = 0 ∧ after.device = machine.device.storeAll [(Register.maskClear.offset, 0xFFFFFFFF)])
      (Halted start owners settings held) := by
  unfold Interrupts.disable
  simp only [Step.ends_carrying, Step.ends_bind, Step.ends_second, Step.ends_first, Step.ends_modify]
  have kept := under.store_nothing Register.maskClear.offset 0xFFFFFFFF (by decide)
  have masked : machine.device.mask &&& ~~~0xFFFFFFFF = 0 := UInt32.and_zero
  exact gate.ends_underway under (.inl (same ▸ rfl)) kept ⟨rfl, kept, masked, rfl⟩

theorem settleMac_shown (gate : Gate bus) (mac : Option MacAddress)
    (under : Underway start owners settings held .nothing machine) (masked : machine.device.mask = 0) :
    (@settleMac Emulator bus mac).Ends machine
      (fun settled after => Underway start owners settings held .nothing after ∧ after.device.mask = 0 ∧
        (mac = some settled ∨ mac = none ∧ machine.device.mac = some settled) ∧
        after.device = machine.device.storeAll (macWrites mac))
      (Halted start owners settings held) := by
  cases mac with
  | some mac =>
    unfold settleMac
    simp only [Step.ends_bind, Machine.ends_note, Step.ends_pure]
    refine gate.write under masked (under.store_nothing _ _ (by decide)) (by decide) fun under masked => ?_
    refine gate.write under masked (under.store_nothing _ _ (by decide)) (by decide) fun under masked => ?_
    exact ⟨under.of_grows (.of_pages rfl) under.accounts rfl, masked, .inl trivial, rfl⟩
  | none =>
    have own : MacAddress.ofWords? (machine.device.load Register.addressLow.offset).1
        ((machine.device.load Register.addressLow.offset).2.load Register.addressHigh.offset).1 =
        machine.device.mac := rfl
    unfold settleMac
    simp only [Step.ends_bind, gate.ends_read, own]
    cases settled : machine.device.mac with
    | none =>
      refine ⟨.inr masked, ⟨.nothing, under, ?_⟩, by rintro _ _ ⟨⟩⟩
      rintro _ ⟨⟩ _ _ ⟨⟩
    | some mac =>
      simp only [Step.ends_bind, Machine.ends_note, Step.ends_pure]
      exact ⟨under.of_grows (.of_pages rfl) under.accounts rfl, masked, .inr ⟨trivial, trivial⟩, rfl⟩

theorem clearMulticast_shown (gate : Gate bus) (index : Nat) {count : Nat}
    (inside : index + count ≤ Register.multicastEntries)
    (under : Underway start owners settings held .nothing machine) (masked : machine.device.mask = 0) :
    (@clearMulticast Emulator bus index count).Ends machine
      (fun _ after => Underway start owners settings held .nothing after ∧ after.device.mask = 0 ∧
        after.device = machine.device.storeAll (clearingWrites index count))
      (Halted start owners settings held) := by
  induction count generalizing index machine with
  | zero => exact ⟨under, masked, rfl⟩
  | succ count ih =>
    have below : ∀ register ∈ [Register.transmitControl, .receiveControl, .maskSet],
        register.offset < Register.multicastTable.offset := by decide
    have apart (register : Register) (listed : register ∈ [Register.transmitControl, .receiveControl, .maskSet]) :
        register.offset ≠ Register.multicastTable.offset + index * 4 := by
      have low := below register listed
      omega
    have kept := under.store_nothing (Register.multicastTable.offset + index * 4) 0
      fun register listed => apart register (List.mem_append_left [Register.maskSet] listed)
    have later := machine.device.mask_store_of_ne 0 (apart .maskSet (by decide)).symm masked
    unfold clearMulticast Register.writeMulticast
    rw [Step.ends_bind, if_pos (by omega)]
    refine gate.ends_underway under (.inr masked) kept ?_
    exact ih (index + 1) (by omega) kept later

structure CameUp (start : Machine Emulator) (owners : List PageId) (settings : Settings) (controller : Controller)
    (after : Machine Emulator) : Prop where
  transmits : Settings.ringFits settings.transmitLength = true
  receives : Settings.ringFits settings.receiveLength = true
  transmitBlank : ∃ page, controller.transmitRing = .blank ⟨page, settings.transmitLength⟩
  receiveBlank : ∃ page pool, controller.receiveRing = .blank ⟨page, settings.receiveLength⟩ pool
  under : Underway start owners settings controller.pages
    (.both controller.transmitRing.table controller.receiveRing) after
  device : ∃ transmitBase receiveBase control,
    after.device = start.device.storeAll (script settings transmitBase receiveBase control)
  causes : controller.interrupts.unmasked = settings.causes
  mask : after.device.mask = settings.causes.bits
  mac : settings.mac = some controller.mac ∨ settings.mac = none ∧ start.device.mac = some controller.mac

theorem bringUp_shown (gate : Gate bus) (fronts : platform.Fronts) (pci : PciFunction)
    (transmits : Settings.ringFits settings.transmitLength = true)
    (receives : Settings.ringFits settings.receiveLength = true) {state : π × Machine Emulator}
    (under : Underway start owners settings [] .nothing state.2) (same : state.2.device = start.device) :
    (@bringUp π Emulator bus platform pci settings).Ends state
      (fun controller after => CameUp start owners settings controller after.2)
      (fun stop after => Halted start owners settings [] stop after.2) := by
  unfold bringUp
  generalize all : Register.multicastEntries = entries
  simp only [Step.ends_bind, Step.ends_second]
  refine (disable_shown gate under same).mono ?_ (fun _ _ => id)
  rintro ⟨_, interrupts⟩ disabled ⟨rfl, under, masked, first⟩
  refine (settleMac_shown gate settings.mac under masked).mono ?_ (fun _ _ => id)
  rintro mac addressed ⟨under, masked, settled, second⟩
  refine (clearMulticast_shown gate 0 (by omega) under masked).mono ?_ (fun _ _ => id)
  rintro - cleared ⟨under, masked, third⟩
  refine (raiseTransmit_shown gate fronts transmits under masked).mono ?_ (fun _ _ => id)
  rintro _ ⟨host, sending⟩ ⟨page, transmitBase, rfl, under, masked, fourth⟩
  rw [TransmitRing.pages_blank]
  refine keeping_shown ?_
  rw [Step.ends_bind]
  refine (raiseReceive_shown gate fronts receives under masked).mono ?_ (fun _ _ => id)
  rintro receiveRing ⟨host, serving⟩ ⟨table, pool, receiveBase, blank, under, masked, fifth⟩
  refine keeping_shown ?_
  unfold Register.setBits
  simp only [Step.ends_bind, Step.ends_second, gate.ends_read]
  refine gate.write under masked (under.store_both _ _ (by decide)) (by decide) fun under masked => ?_
  unfold atStage
  rw [Step.ends_mapRefusal]
  refine (fronts.route pci.interruptLine _).mono ?_ ?_
  · rintro - ⟨host, routed⟩ spared
    have under := under.of_spared spared
    unfold Interrupts.enable
    simp only [Step.ends_carrying, Step.ends_bind, Step.ends_second, Step.ends_first, Step.ends_modify, Step.ends_get,
      Machine.ends_note, Step.ends_pure]
    have kept := under.store_both Register.maskSet.offset settings.causes.bits (by decide)
    refine gate.ends_underway under (.inr (spared.device ▸ masked)) kept ?_
    refine
      { transmits := transmits
        receives := receives
        transmitBlank := ⟨page, rfl⟩
        receiveBlank := ⟨table, pool, blank⟩
        under := ?_
        device := ?_
        causes := congrArg Cause.mk UInt32.zero_or
        mask := ?_
        mac := ?_ }
    · refine kept.of_grows (.of_pages rfl) (kept.accounts.congr fun id => ?_) rfl
      unfold pages
      simp only [TransmitRing.pages_blank, List.append_nil, List.count_append]
      omega
    · refine ⟨transmitBase, receiveBase, (serving.device.load Register.control.offset).1, ?_⟩
      unfold script raisingWrites
      simp only [Emulator.storeAll_append]
      rw [spared.device, all, ← same, ← first, ← second, ← third, ← fourth, ← fifth]
      rfl
    · change routed.device.mask ||| settings.causes.bits = _
      rw [spared.device]
      refine (congrArg (· ||| settings.causes.bits) masked).trans UInt32.zero_or
    · refine settled.imp_right fun own => ⟨own.1, ?_⟩
      rw [← own.2, first, same]
      rfl
  · intro own after fails
    exact .of_fails under (.inr masked) fails fun detail => ⟨_, rfl⟩

theorem opening_spares (fronts : platform.Fronts) (pci : PciFunction) (state : π × Machine Emulator) :
    (opening platform pci settings).Ends state
      (fun _ after => state.2.Spared after.2 ∧ Settings.ringFits settings.transmitLength = true ∧
        Settings.ringFits settings.receiveLength = true)
      (fun stop after => state.2.Spared after.2 ∧ (∀ offset size, stop ≠ .violated (.windowAccess offset size)) ∧
        ∀ error, stop = .refused error → Exposure.nothing.Explains error) := by
  have noted (log : Array LogLine) : state.2.Spared { state.2 with log := log } := .of_pages rfl rfl
  -- What is found wrong here is nothing that the platform says.
  have refused {error : AttachError} {machine : Machine Emulator} (spared : state.2.Spared machine)
      (apart : ∀ stage detail, error ≠ .platform stage detail) :
      state.2.Spared machine ∧ (∀ offset size, Stop.refused error ≠ .violated (.windowAccess offset size)) ∧
        ∀ other, Stop.refused error = .refused other → Exposure.nothing.Explains other := by
    refine ⟨spared, by rintro _ _ ⟨⟩, ?_⟩
    rintro _ ⟨⟩ stage detail same
    exact absurd same (apart stage detail)
  have failed {own : Stop String} {stage : AttachStage} {middle machine : Machine Emulator}
      (spared : state.2.Spared middle) (fails : Platform.Fails middle own machine)
      (early : stage ≠ .receiveTable ∧ stage ≠ .receiveBuffer ∧ stage ≠ .route) :
      state.2.Spared machine ∧ (∀ offset size, own.map (AttachError.platform stage) ≠ .violated (.windowAccess offset size)) ∧
        ∀ error, own.map (AttachError.platform stage) = .refused error → Exposure.nothing.Explains error := by
    refine ⟨spared.trans fails.spared, fun offset size => fails.map_ne offset size, ?_⟩
    rintro error same _ _ rfl
    cases own with
    | refused =>
      cases same
      exact early
    | violated | unfinished => cases same
  unfold opening checkFunction checkSettings checkWindow atStage
  simp only [Step.ends_bind, Step.ends_ite, Step.ends_second, Machine.ends_note, Step.ends_refuse, Step.ends_pure,
    Step.ends_mapRefusal]
  refine ⟨fun _ => refused (noted _) (by rintro _ _ ⟨⟩), fun _ => ?_⟩
  cases valid : settings.validate with
  | error error => exact refused (.of_pages rfl rfl) (by rintro _ _ ⟨⟩)
  | ok =>
    refine (fronts.enable pci _).mono ?_ (fun stop after fails => failed (noted _) fails (by decide))
    rintro - enabled spared
    have spared := (noted _).trans spared
    refine ⟨fun _ => refused spared (by rintro _ _ ⟨⟩), fun _ => ?_⟩
    refine (fronts.map _ _ enabled).mono ?_ (fun stop after fails => failed spared fails (by decide))
    rintro - mapped later
    exact ⟨spared.trans later, ringFits_of_validate valid⟩

/-- Whatever happens while a controller is brought up, and wherever it ends, the device has been shown complete
rings only. -/
theorem attach_shown (gate : Gate bus) (fronts : platform.Fronts) (pci : PciFunction) {state : π × Machine Emulator}
    (accounts : state.2.memory.Accounts owners) :
    (@attach π Emulator bus platform pci settings).Ends state
      (fun controller after => CameUp state.2 owners settings controller after.2)
      (fun stop after => Halted state.2 owners settings [] stop after.2) := by
  have begun : Underway state.2 owners settings [] .nothing state.2 := ⟨.refl _ _, accounts, rfl, rfl⟩
  rw [@attach_eq π Emulator bus, Step.ends_bind]
  refine (opening_spares fronts pci state).mono ?_ ?_
  rotate_left
  · rintro stop after ⟨spared, own, explained⟩
    exact .of_spared begun spared own explained
  rintro - opened ⟨spared, transmits, receives⟩
  exact bringUp_shown gate fronts pci transmits receives (begun.of_spared spared) spared.device

end Controller

end PacketPath
