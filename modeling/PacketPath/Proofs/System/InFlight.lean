import PacketPath.Proofs.Pump.Inbound
import PacketPath.Proofs.Pump.Outbound
import PacketPath.Proofs.System.Transmission

/-! Flights: the ring and the device agree on them, and those on pages that matter lie where the device sees them.
Between one move of the others and the next, the driver and the pumps only add to them. -/

set_option autoImplicit false

namespace PacketPath

variable {rules : Rules} {extra : List PageId} {recycled : Nat} {site next : Site} {controller later : Controller}
  {scope plain : PageId → Prop} {flights : List Flight} {page : PageId}

/-! ### Steps that move no flight -/

/-- A step of the driver or of a pump that puts nothing into flight and lets nothing go. The others are not
asked, and no point is put on record. -/
structure KeepsFlights (scope : PageId → Prop) (controller later : Controller) (site next : Site) : Prop where
  own : later.own = controller.own
  changes : site.machine.memory.ChangesWithin scope next.machine.memory
  flies : ∀ flights, TransmitRing.Flies (controller.transmitRing, site.machine) flights →
    TransmitRing.Flies (later.transmitRing, next.machine) flights
  wire : next.machine.device.wire = site.machine.device.wire
  points : next.others.points = site.others.points

theorem Controller.TransmitOnly.own {before after : Controller × Machine Emulator}
    (transmitOnly : Controller.TransmitOnly before after) :
    after.1.own = before.1.own := by
  have table : after.1.transmitRing.table = before.1.transmitRing.table := transmitOnly.leads.table
  unfold Controller.own
  rw [table, transmitOnly.receiveRing]

theorem Controller.TransmitUpkeep.unmoved {after : Controller × Machine Emulator}
    (upkeep : Controller.TransmitUpkeep (controller, site.machine) after) :
    KeepsFlights (· = controller.transmitRing.table.page) controller after.1 site { site with machine := after.2 } where
  own := upkeep.transmitOnly.own
  changes := upkeep.transmitOnly.leads.changes
  flies := upkeep.flies
  wire := upkeep.transmitOnly.wire
  points := rfl

theorem Draws.unmoved {frame : Option (List UInt8)} {after : Controller × Machine Emulator}
    (draws : Draws extra page controller site frame after) (sound : Sound controller extra recycled site)
    (turns : page ∈ extra) :
    KeepsFlights (fun id => id = controller.receiveRing.table.page ∨ id = page) controller after.1 site
      { site with machine := after.2 } where
  own := by
    unfold Controller.own
    rw [draws.receiveOnly.transmitRing, draws.receiveOnly.leads.pages]
  changes := draws.receiveOnly.leads.changes
  flies flights := by
    apply draws.receiveOnly.flies
    · exact sound.tables_apart
    · rintro rfl
      exact (sound.sole _ (Sound.table_mem_own controller)).1 turns
  wire := Emulator.wire_of_transmitSide draws.receiveOnly.leads.transmitSide
  points := rfl

theorem KeepsFlights.of_memory {memory : Memory} {log : Array LogLine}
    (changes : site.machine.memory.ChangesWithin (fun _ => False) memory) (bus : MessageBus) :
    KeepsFlights (fun _ => False) controller controller site
      { site with machine := { site.machine with memory := memory, log := log }, bus := bus } where
  own := rfl
  changes := changes
  flies _ flies := flies.carries.of_changes changes id
  wire := rfl
  points := rfl

theorem KeepsFlights.of_held (controller : Controller) (site : Site) (held : List PageId) :
    KeepsFlights (fun _ => False) controller controller site { site with others.held := held } :=
  ⟨rfl, .refl _ _, fun _ => id, rfl, rfl⟩

/-! ### Flights of the ring -/

/-- The flights of the ring. Those on plain pages lie where the device sees them. -/
structure InFlight (plain : PageId → Prop) (controller : Controller) (machine : Machine Emulator)
    (flights : List Flight) : Prop where
  flies : TransmitRing.Flies (controller.transmitRing, machine) flights
  accessible : ∀ flight ∈ flights, plain flight.fragment.page → flight.Accessible controller machine.memory

theorem Flight.Accessible.stays {flight : Flight} {memory after : Memory}
    (accessible : flight.Accessible controller memory)
    (own : later.own = controller.own) (known : memory.Knows flight.fragment.page)
    (changes : memory.ChangesWithin scope after) : flight.Accessible later after where
  reached := changes.reaches known accessible.reached
  foreign := own ▸ accessible.foreign
  begins := accessible.begins
  ends := accessible.ends

namespace InFlight

theorem knows (inFlight : InFlight plain controller site.machine flights) {flight : Flight}
    (listed : flight ∈ flights) :
    site.machine.memory.Knows flight.fragment.page :=
  inFlight.flies.carries.knows_of_mem listed

theorem unmoved (inFlight : InFlight plain controller site.machine flights)
    (unmoved : KeepsFlights scope controller later site next) :
    InFlight plain later next.machine flights where
  flies := unmoved.flies flights inFlight.flies
  accessible flight listed matters := (inFlight.accessible flight listed matters).stays unmoved.own
    (inFlight.knows listed) unmoved.changes

theorem adds (inFlight : InFlight plain controller site.machine flights) {fragment : Fragment}
    {after : Controller × Machine Emulator} (adds : Controller.Adds fragment (controller, site.machine) after)
    (known : site.machine.memory.Knows fragment.page)
    (accessible : plain fragment.page → Flight.Accessible ⟨fragment, true⟩ controller site.machine.memory) :
    InFlight plain after.1 after.2 (flights ++ [⟨fragment, true⟩]) where
  flies := adds.flies flights inFlight.flies
  accessible flight listed matters := by
    rcases List.mem_append.mp listed with before | new
    · exact (inFlight.accessible flight before matters).stays adds.transmitOnly.own
        (inFlight.knows before) adds.transmitOnly.leads.changes
    · obtain rfl := List.mem_singleton.mp new
      exact (accessible matters).stays adds.transmitOnly.own known adds.transmitOnly.leads.changes

/-- Whatever the others and the device do, flights only leave, in order; the wire takes them up. -/
theorem move (inFlight : InFlight plain controller site.machine flights) (sound : Sound controller extra recycled site)
    (move : Move rules site next) :
    ∃ count, count ≤ flights.length ∧ InFlight plain controller next.machine (flights.drop count) ∧
      Gathers controller.transmitRing site.machine.memory (flights.take count) site.machine.device.wire
        next.machine.device.wire := by
  obtain ⟨count, bounded, flies, gathers⟩ := move.leaving sound inFlight.flies
  have changes := (move.keepsReserved sound).2.changes
  refine ⟨count, bounded, ⟨flies, fun flight listed matters => ?_⟩, gathers⟩
  -- What is left was in flight before, and the others cannot move its page.
  have before := List.mem_of_mem_drop listed
  exact (inFlight.accessible flight before matters).stays rfl (inFlight.knows before) changes

end InFlight

end PacketPath
