import PacketPath.Proofs.Controller.Script

/-! A controller that is brought up on a device that others have used. Its rings begin at their first slots, and
the device is told so, but no register write moves the device: it goes on where it was. So the two are in
step only if the device was where new rings begin. -/

set_option autoImplicit false

namespace PacketPath

variable {π : Type} {start after : Machine Emulator} {owners : List PageId} {settings : Settings}
  {controller : Controller} {platform : Platform π Emulator}

/-- Driver and device agree on the next slot in either direction, and the device has nothing to fetch. -/
structure InStep (controller : Controller) (device : Emulator) : Prop where
  transmit : device.transmitHead = controller.transmitRing.tail
  receive : device.receiveHead = controller.receiveRing.cursor
  fetched : device.transmitPending = 0

/-- Both rings begin at their first slots, and the device is where it was. What it has still to fetch has grown
by the distance from the tail it was told before to the beginning of the new ring. -/
structure GoesOn (settings : Settings) (before : Emulator) (controller : Controller) (after : Emulator) : Prop where
  tail : controller.transmitRing.tail = 0
  cursor : controller.receiveRing.cursor = 0
  transmitHead : after.transmitHead = before.transmitHead
  receiveHead : after.receiveHead = before.receiveHead
  transmitPending : after.transmitPending = min (before.transmitPending +
    (settings.transmitLength - (before.word .transmitTail).toNat % settings.transmitLength) %
      settings.transmitLength) settings.transmitLength

theorem Controller.CameUp.goesOn (up : CameUp start owners settings controller after) :
    GoesOn settings start.device controller after.device := by
  obtain ⟨_, transmitBlank⟩ := up.transmitBlank
  obtain ⟨_, _, receiveBlank⟩ := up.receiveBlank
  obtain ⟨transmitHead, receiveHead, transmitPending⟩ := up.places
  exact ⟨transmitBlank ▸ rfl, receiveBlank ▸ rfl, transmitHead, receiveHead, transmitPending⟩

theorem GoesOn.inStep_iff {before later : Emulator} (goes : GoesOn settings before controller later)
    (several : settings.transmitLength ≠ 0) :
    InStep controller later ↔ before.transmitHead = 0 ∧ before.receiveHead = 0 ∧ before.transmitPending = 0 ∧
      settings.transmitLength ∣ (before.word .transmitTail).toNat := by
  have pending : later.transmitPending = 0 ↔ before.transmitPending = 0 ∧
      settings.transmitLength ∣ (before.word .transmitTail).toNat := by
    have bound := Nat.mod_lt (before.word .transmitTail).toNat (Nat.pos_of_ne_zero several)
    rw [goes.transmitPending, Nat.dvd_iff_mod_eq_zero]
    generalize (before.word .transmitTail).toNat % settings.transmitLength = old at bound
    -- The way round the ring from the old tail is no way only if that was at the front already.
    rcases Nat.eq_zero_or_pos old with rfl | moved
    · rw [Nat.sub_zero, Nat.mod_self]
      omega
    · rw [Nat.mod_eq_of_lt (by omega)]
      omega
  constructor
  · rintro ⟨transmit, receive, fetched⟩
    exact ⟨goes.transmitHead.symm.trans (transmit.trans goes.tail),
      goes.receiveHead.symm.trans (receive.trans goes.cursor), pending.mp fetched⟩
  · rintro ⟨transmit, receive, fetched⟩
    exact ⟨(goes.transmitHead.trans transmit).trans goes.tail.symm,
      (goes.receiveHead.trans receive).trans goes.cursor.symm, pending.mpr fetched⟩

/-- A device goes on where it was when a controller is brought up. The two are in step only if it was at the
front of its rings, with nothing to fetch and a tail at the front of the new ring. -/
theorem attach_goes_on (fronts : platform.Fronts) {pci : PciFunction} {settings : Settings}
    {controller : Controller} {state after : π × Machine Emulator}
    (attached : Controller.attach platform pci settings state = .ok controller after) :
    GoesOn settings state.2.device controller after.2.device ∧
      (InStep controller after.2.device ↔ state.2.device.transmitHead = 0 ∧ state.2.device.receiveHead = 0 ∧
        state.2.device.transmitPending = 0 ∧
        settings.transmitLength ∣ (state.2.device.word .transmitTail).toNat) := by
  obtain ⟨owners, accounts⟩ := state.2.memory.exists_accounts
  have up := (Step.ends_of_ok attached).mp (Controller.attach_shown .opened fronts pci accounts)
  have several := (Controller.ringFits_bounds up.transmits).1
  exact ⟨up.goesOn, up.goesOn.inStep_iff (by omega)⟩

/-- Behind a device that has taken a frame for somebody else a new controller looks for frames in the wrong
slot. -/
theorem attach_goes_on_used : ∃ controller, ∃ after : Board × Machine Emulator,
    Controller.attach Board.platform Board.pciFunction {}
      (Board.create none, ⟨.empty, { Emulator.create .emulated with receiveHead := 1 }, #[]⟩) =
        .ok controller after ∧
    controller.receiveRing.cursor = 0 ∧ after.2.device.receiveHead = 1 ∧ ¬ InStep controller after.2.device := by
  have housed : Housed [] (Board.create none) .empty := ⟨⟨.nil, nofun, nofun, nofun⟩, fun _ => rfl⟩
  have suits : Controller.Suits Board.pciFunction {} (Board.create none) (Emulator.create .emulated) :=
    Board.suits (by decide) (Board.hasRoom_create (by decide))
  obtain ⟨controller, after, attached, -⟩ := Controller.exists_attach
    ⟨.empty, { Emulator.create .emulated with receiveHead := 1 }, #[]⟩ housed { suits with mac := .inr (by decide) }
  have goes := attach_goes_on Board.platform_fronts attached
  refine ⟨controller, after, attached, goes.1.cursor, goes.1.receiveHead, fun inStep => ?_⟩
  exact absurd (goes.2.mp inStep).2.1 (by decide)

end PacketPath
