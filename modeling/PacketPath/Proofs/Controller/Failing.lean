import PacketPath.Proofs.Controller.Exposure

/-! What a failed bringing up leaves behind. The pages taken for the rings are given back, but an engine that
had been switched on by then stays on: it still works on a ring that nobody holds any longer. -/

set_option autoImplicit false

namespace PacketPath

variable {π : Type} {start machine : Machine Emulator} {owners : List PageId} {settings : Settings}
  {platform : Platform π Emulator} {error : AttachError} {exposure : Exposure}

def AttachError.ComesAt (error : AttachError) (stages : List AttachStage) : Prop :=
  ∃ stage ∈ stages, ∃ detail, error = .platform stage detail

/-- Bringing up failed with this error, and whether an engine is on depends on how far it got. An engine that is
on works on a ring in pages that have no handle left. -/
structure LeftRunning (start : Machine Emulator) (settings : Settings) (error : AttachError)
    (machine : Machine Emulator) : Prop where
  handles : ∀ id, machine.memory.handles id = start.memory.handles id
  transmitter : machine.device.word .transmitControl &&& Register.Transmit.enable ≠ 0 ↔
    error.ComesAt [.receiveTable, .receiveBuffer, .route]
  receiver : machine.device.word .receiveControl &&& Register.Receive.enable ≠ 0 ↔ error.ComesAt [.route]
  transmitTable : error.ComesAt [.receiveTable, .receiveBuffer, .route] → ∃ table : DescriptorTable,
    table.length = settings.transmitLength ∧ machine.memory.handles table.page = 0 ∧ TransmitLaid table machine
  receiveRing : error.ComesAt [.route] → ∃ ring : ReceiveRing, ring.capacity = settings.receiveLength ∧
    (∀ page ∈ ring.pages, machine.memory.handles page = 0) ∧ ReceiveLaid ring machine

namespace Exposure

theorem Explains.transmitter (explained : exposure.Explains error) :
    exposure ≠ .nothing ↔ error.ComesAt [.receiveTable, .receiveBuffer, .route] := by
  cases exposure with
  | nothing =>
    refine iff_of_false (fun other => other rfl) ?_
    rintro ⟨stage, listed, detail, rfl⟩
    have apart := explained stage detail rfl
    simp only [List.mem_cons, List.not_mem_nil, or_false] at listed
    rcases listed with rfl | rfl | rfl
    · exact apart.1 rfl
    · exact apart.2.1 rfl
    · exact apart.2.2 rfl
  | transmitter =>
    refine iff_of_true nofun ?_
    obtain ⟨stage, detail, rfl, rfl | rfl⟩ := explained <;> exact ⟨_, by decide, detail, rfl⟩
  | both =>
    refine iff_of_true nofun ?_
    obtain ⟨detail, rfl⟩ := explained
    exact ⟨.route, by decide, detail, rfl⟩

theorem Explains.receiver (explained : exposure.Explains error) :
    (∃ table ring, exposure = .both table ring) ↔ error.ComesAt [.route] := by
  cases exposure with
  | nothing =>
    refine iff_of_false nofun ?_
    rintro ⟨stage, listed, detail, rfl⟩
    exact (explained stage detail rfl).2.2 (List.mem_singleton.mp listed)
  | transmitter =>
    refine iff_of_false nofun ?_
    rintro ⟨stage, listed, detail, rfl⟩
    obtain ⟨_, _, ⟨⟩, other⟩ := explained
    rw [List.mem_singleton.mp listed] at other
    exact other.elim nofun nofun
  | both table ring =>
    refine iff_of_true ⟨table, ring, rfl⟩ ?_
    obtain ⟨detail, rfl⟩ := explained
    exact ⟨.route, by decide, detail, rfl⟩

end Exposure

/-- All that was taken has been given back. -/
theorem Underway.handles (under : Underway start owners settings [] exposure machine)
    (accounts : start.memory.Accounts owners) (id : PageId) :
    machine.memory.handles id = start.memory.handles id :=
  (under.accounts id).trans (accounts id).symm

theorem Underway.leftRunning (under : Underway start owners settings [] exposure machine)
    (accounts : start.memory.Accounts owners) (explained : exposure.Explains error)
    (transmitterOff : start.device.word .transmitControl &&& Register.Transmit.enable = 0)
    (receiverOff : start.device.word .receiveControl &&& Register.Receive.enable = 0) :
    LeftRunning start settings error machine := by
  have holds := under.holds
  -- A page that was not known before had no handle, and all handles taken since are given back.
  have unheld (id : PageId) (fresh : ¬ start.memory.Knows id) : machine.memory.handles id = 0 := by
    rw [under.handles accounts, Memory.handles, Memory.page_of_not_knows fresh]
    rfl
  have transmitter : machine.device.word .transmitControl &&& Register.Transmit.enable ≠ 0 ↔ exposure ≠ .nothing := by
    cases exposure with
    | nothing => exact iff_of_false (fun on => on (holds.1 ▸ transmitterOff)) fun other => other rfl
    | transmitter | both => exact iff_of_true (holds.1.control ▸ by decide) (by rintro ⟨⟩)
  have receiver : machine.device.word .receiveControl &&& Register.Receive.enable ≠ 0 ↔
      ∃ table ring, exposure = .both table ring := by
    cases exposure with
    | nothing | transmitter => exact iff_of_false (fun on => on (holds.2 ▸ receiverOff)) (by rintro ⟨_, _, ⟨⟩⟩)
    | both table ring => exact iff_of_true (holds.2.control ▸ by decide) ⟨table, ring, rfl⟩
  refine
    { handles := under.handles accounts
      transmitter := transmitter.trans explained.transmitter
      receiver := receiver.trans explained.receiver
      transmitTable := fun late => ?_
      receiveRing := fun late => ?_ }
  · cases exposure with
    | nothing => exact absurd rfl (explained.transmitter.mpr late)
    | transmitter table | both table => exact ⟨table, holds.1.length, unheld _ holds.1.fresh, holds.1.laid⟩
  · obtain ⟨table, ring, rfl⟩ := explained.receiver.mpr late
    exact ⟨ring, holds.2.length, fun page listed => unheld page (holds.2.fresh page listed), holds.2.laid⟩

/-- If bringing up fails, the engines that it had switched on stay on, over rings that it has given back. -/
theorem failed_attach_leaves_engines_on (fronts : platform.Fronts) {pci : PciFunction} {settings : Settings}
    {state after : π × Machine Emulator} {error : AttachError}
    (failed : Controller.attach platform pci settings state = .error (.refused error) after)
    (transmitterOff : state.2.device.word .transmitControl &&& Register.Transmit.enable = 0)
    (receiverOff : state.2.device.word .receiveControl &&& Register.Receive.enable = 0) :
    LeftRunning state.2 settings error after.2 := by
  obtain ⟨owners, accounts⟩ := state.2.memory.exists_accounts
  have halted := (Step.ends_of_error failed).mp (Controller.attach_shown .opened fronts pci accounts)
  obtain ⟨exposure, under, explained⟩ := halted.shown
  exact under.leftRunning accounts (explained error rfl) transmitterOff receiverOff

/-! ### A platform that routes no interrupts -/

def Platform.unrouted (platform : Platform π Emulator) (detail : String) : Platform π Emulator :=
  { platform with route := fun _ => Step.refuse detail }

theorem Platform.Fronts.unrouted (fronts : platform.Fronts) (detail : String) :
    (platform.unrouted detail).Fronts :=
  { fronts with route := fun _ _ => ⟨nofun, .of_pages rfl rfl⟩ }

namespace Controller

theorem allocatePool_unrouted (platform : Platform π Emulator) (detail : String) (count : Nat) :
    allocatePool (platform.unrouted detail) count = allocatePool platform count := by
  induction count with
  | zero => rfl
  | succ count ih =>
    unfold allocatePool
    rw [ih]
    rfl

theorem raiseReceive_unrouted (platform : Platform π Emulator) (detail : String) (settings : Settings) :
    raiseReceive (platform.unrouted detail) settings = raiseReceive platform settings := by
  unfold raiseReceive
  rw [allocatePool_unrouted]
  rfl

theorem attach_unrouted {board : Board} {pci : PciFunction} (start : Machine Emulator) (detail : String)
    (housed : Housed owners board start.memory) (suits : Suits pci settings board start.device) :
    ∃ after, attach (Board.platform.unrouted detail) pci settings (board, start) =
      .error (.refused (.platform .route detail)) after := by
  have comes := (attach_ends housed).mono (fun _ _ => id) fun _ _ unsuitable =>
    unsuitable suits
  have fails : (attach (Board.platform.unrouted detail) pci settings).Ends (board, start) (fun _ _ => False)
      (fun stop _ => stop = .refused (.platform .route detail)) := by
    rw [attach_eq] at comes ⊢
    unfold bringUp at comes ⊢
    rw [raiseReceive_unrouted]
    generalize Register.multicastEntries = entries at comes ⊢
    simp only [keeping, atStage, Step.ends_bind, Step.ends_thenIfStopped, Step.ends_mapRefusal] at comes ⊢
    refine Step.Ends.mono comes (fun _ opened comes => ?_) (fun _ _ => False.elim)
    refine Step.Ends.mono comes (fun _ masked comes => ?_) (fun _ _ => False.elim)
    refine Step.Ends.mono comes (fun _ addressed comes => ?_) (fun _ _ => False.elim)
    refine Step.Ends.mono comes (fun _ cleared comes => ?_) (fun _ _ => False.elim)
    refine Step.Ends.mono comes (fun _ sending comes => ?_) (fun _ _ => False.elim)
    refine Step.Ends.mono comes (fun _ serving comes => ?_) (fun _ _ => False.elim)
    exact Step.Ends.mono comes (fun _ linked _ => rfl) (fun _ _ => False.elim)
  obtain ⟨stop, after, failed, rfl⟩ := fails.exists_error
  exact ⟨after, failed⟩

end Controller

/-- On a new board that routes no interrupts both engines are left on, and their rings are nobody's. -/
theorem failed_attach_leaves_engines_on_unrouted :
    ∃ after : Board × Machine Emulator,
      Controller.attach (Board.platform.unrouted "irq refused") Board.pciFunction {}
        (Board.create none, ⟨.empty, Emulator.create .emulated, #[]⟩) =
          .error (.refused (.platform .route "irq refused")) after ∧
      after.2.device.word .transmitControl &&& Register.Transmit.enable ≠ 0 ∧
      after.2.device.word .receiveControl &&& Register.Receive.enable ≠ 0 ∧
      ∃ (table : DescriptorTable) (ring : ReceiveRing), TransmitLaid table after.2 ∧ ReceiveLaid ring after.2 ∧
        ∀ page ∈ table.page :: ring.pages, after.2.memory.handles page = 0 := by
  have housed : Housed [] (Board.create none) .empty := ⟨⟨.nil, nofun, nofun, nofun⟩, fun _ => rfl⟩
  have suits : Controller.Suits Board.pciFunction {} (Board.create none) (Emulator.create .emulated) :=
    Board.suits (by decide) (Board.hasRoom_create (by decide))
  obtain ⟨after, failed⟩ := Controller.attach_unrouted ⟨.empty, Emulator.create .emulated, #[]⟩ "irq refused" housed
    suits
  have left := failed_attach_leaves_engines_on (Board.platform_fronts.unrouted _) failed rfl rfl
  have late : AttachError.ComesAt (.platform .route "irq refused") [.route] := ⟨_, by decide, _, rfl⟩
  have later : AttachError.ComesAt (.platform .route "irq refused") [.receiveTable, .receiveBuffer, .route] :=
    ⟨_, by decide, _, rfl⟩
  obtain ⟨table, -, table_unheld, transmitLaid⟩ := left.transmitTable later
  obtain ⟨ring, -, ring_unheld, receiveLaid⟩ := left.receiveRing late
  refine ⟨after, failed, left.transmitter.mpr later, left.receiver.mpr late, table, ring, transmitLaid, receiveLaid, ?_⟩
  intro page listed
  rcases List.mem_cons.mp listed with rfl | pooled
  · exact table_unheld
  · exact ring_unheld page pooled

end PacketPath
