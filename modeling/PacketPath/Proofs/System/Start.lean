import PacketPath.Proofs.System.Sound

/-! Where runs start: a controller that has just been attached. Until then nobody has told the device
anything, though others may have used the board. -/

set_option autoImplicit false

namespace PacketPath

variable {rules : Rules} {settings : Settings} {site next : Site} {controller : Controller}

inductive Attached (settings : Settings) : Controller → Site → Prop where
  | intro {rules : Rules} {mac : MacAddress} {limit : Option Nat} {pci : PciFunction} {before : Site}
      {controller : Controller} {board : Board} {machine : Machine Emulator}
      (earlier : PageActions rules (Site.fresh mac limit) before)
      (attached : Controller.attach Board.platform pci settings (before.others.board, before.machine) =
        .ok controller (board, machine)) :
      Attached settings controller { before with machine := machine, others.board := board }

structure Unattached (mac : MacAddress) (site : Site) : Prop where
  housed : Housed site.owned site.others.board site.machine.memory
  distinct : site.bus.Distinct
  device : site.machine.device = .create mac
  arrivals : site.others.arrivals = []
  points : site.others.points = []

theorem Site.unattached_fresh (mac : MacAddress) (limit : Option Nat) : Unattached mac (fresh mac limit) where
  housed := ⟨⟨.nil, nofun, nofun, nofun⟩, fun _ => rfl⟩
  distinct := List.nodup_nil
  device := rfl
  arrivals := rfl
  points := rfl

theorem PageActions.unattached {mac : MacAddress} (start : Unattached mac site)
    (actions : PageActions rules site next) :
    Unattached mac next := by
  induction actions with
  | none => exact start
  | more before action ih =>
    have effect : PageActionEffect rules [] _ _ := action.effect ih.housed ih.distinct
    exact ⟨effect.housed, effect.distinct, effect.device.trans ih.device, effect.arrivals.trans ih.arrivals,
      effect.points.trans ih.points⟩

structure Started (settings : Settings) (controller : Controller) (site : Site) : Prop where
  sound : Sound controller [] 0 site
  transmitBlank : ∃ page, controller.transmitRing = .blank ⟨page, settings.transmitLength⟩
  receiveBlank : ∃ page pool, controller.receiveRing = .blank ⟨page, settings.receiveLength⟩ pool
  flies : TransmitRing.Flies (controller.transmitRing, site.machine) []
  wire : site.machine.device.wire = ⟨[], []⟩
  arrivals : site.others.arrivals = []
  points : site.others.points = []

theorem Attached.started (attached : Attached settings controller site) :
    Started settings controller site := by
  cases attached with
  | @intro rules mac limit pci before controller board machine earlier attached =>
    have start := earlier.unattached (Site.unattached_fresh mac limit)
    -- Others may have used the board, but nobody else tells the device of a ring.
    have unused : Controller.TransmitUnused before.machine.device.transmitSide := start.device ▸ ⟨rfl, rfl, rfl⟩
    have idle : before.machine.device.receiveSide.head = 0 := by rw [start.device]; rfl
    have up := (Step.ends_of_ok attached).mp (Controller.attach_ends start.housed)
    have flies : TransmitRing.Carries _ _ _ [] := up.flies unused
    exact
      { sound :=
          { housed := by
              rw [List.append_nil]
              exact up.housed
            distinct := start.distinct
            apart := up.apart
            reached := up.reached
            sole := fun id listed => ⟨nofun, fun held => up.fresh id listed (start.housed.accounts.knows held)⟩
            wired := flies.wired
            consumed := Nat.zero_le _
            stands := by
              dsimp only
              rw [start.arrivals]
              exact up.stands idle }
        transmitBlank := up.transmitBlank
        receiveBlank := up.receiveBlank
        flies := up.flies unused
        wire := up.wire.trans (by rw [start.device]; rfl)
        arrivals := start.arrivals
        points := start.points }

theorem PageActions.exists_attached {mac : MacAddress} {limit : Option Nat} {pci : PciFunction}
    (earlier : PageActions rules (Site.fresh mac limit) site)
    (suits : Controller.Suits pci settings site.others.board site.machine.device) :
    ∃ controller later, Attached settings controller later ∧ later.bus = site.bus ∧
      later.others.held = site.others.held ∧ later.others.receipts = site.others.receipts ∧
      site.machine.memory.ChangesWithin (fun _ => False) later.machine.memory := by
  have start := earlier.unattached (Site.unattached_fresh mac limit)
  obtain ⟨controller, ⟨board, machine⟩, attached, up⟩ := Controller.exists_attach _ start.housed suits
  exact ⟨controller, _, ⟨earlier, attached⟩, rfl, rfl, rfl, up.changes⟩

theorem exists_attached_beside : ∃ controller site page, Attached {} controller site ∧
    site.bus = .empty ∧ site.others.held = [page] ∧ site.others.receipts = [] ∧ site.machine.memory.Reaches page := by
  have start := Site.unattached_fresh ⟨0x52, 0x54, 0, 0x12, 0x34, 0x56⟩ none
  have ends := (Board.allocate_room start.housed).mono (fun _ _ given => given)
    (fun _ _ full => full (Board.hasRoom_create (by decide)))
  obtain ⟨page, ⟨board, machine⟩, allocated, out, room⟩ := ends.exists_ok
  have earlier : PageActions .free (Site.fresh ⟨0x52, 0x54, 0, 0x12, 0x34, 0x56⟩ none) _ :=
    .more (.none _) (.allocate allocated)
  have suits : Controller.Suits Board.pciFunction {} board machine.device := by
    rw [out.device]
    exact Board.suits (by decide) (room _ (Board.hasRoom_create (by decide)))
  obtain ⟨controller, site, attached, bus, held, receipts, changes⟩ := earlier.exists_attached suits
  have known := out.housed.accounts.knows (List.mem_cons_self ..)
  exact ⟨controller, site, page, attached, bus, held, receipts, changes.reaches known out.reached⟩

end PacketPath
