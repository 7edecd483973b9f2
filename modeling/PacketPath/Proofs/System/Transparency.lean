import PacketPath.Proofs.System.Upkeep

/-! Upkeep of the transmit ring makes no difference to anybody, as long as no other page lies where something is
handed over. An address is all that the device is given: somebody may hold a page that it was never told of, at the
address of a page that it was told of. While the ring keeps that other page, the device finds it there and sends what
it holds; once the ring is reclaimed, it finds nothing. -/

set_option autoImplicit false

namespace PacketPath

open Step

variable {settings : Settings} {session next : Session} {ring : TransmitRing} {machine : Machine Emulator}
  {fragment : Fragment} {flight : Flight} {limit : Nat} {address : UInt64} {kept unmapped : PageId}

/-! ### One flight -/

theorem Call.eq_of_mem_transmit {other : Fragment} (listed : other ∈ (Call.transmit fragment).fragments) :
    other = fragment :=
  List.mem_singleton.mp listed

theorem Session.Offers.allowed (offers : session.Offers fragment) :
    (Act.ask (.transmit fragment)).Allowed session :=
  ⟨fun _ listed => Call.eq_of_mem_transmit listed ▸ offers, nofun⟩

theorem TransmitRing.post_binds {endsFrame : Bool} (seated : ring.Seated machine.memory) :
    (post fragment endsFrame).Ends (ring, machine)
      (fun _ after => after.1.tail = ring.next ring.tail ∧
        ∀ slot, after.1.binding slot = if slot = ring.tail then some fragment.page else ring.binding slot)
      (fun _ _ => True) := by
  apply post_ends (Emulator.port .transmitTail) trivial seated
  · exact fun _ _ => trivial
  · exact fun _ _ _ _ => trivial
  · exact fun _ _ _ _ => ⟨rfl, binding_posted seated.tail_bound _ _ _⟩

structure Session.PostedAlone (settings : Settings) (fragment : Fragment) (before after : Session) : Prop where
  sound : after.Sound settings
  flies : TransmitRing.Flies (after.controller.transmitRing, after.site.machine) [⟨fragment, true⟩]
  tail : after.controller.transmitRing.tail =
    before.controller.transmitRing.next before.controller.transmitRing.tail
  binding : ∀ slot, after.controller.transmitRing.binding slot =
    if slot = before.controller.transmitRing.tail then some fragment.page
    else before.controller.transmitRing.binding slot
  changes : before.site.machine.memory.ChangesWithin (· ∈ before.controller.own) after.site.machine.memory
  own : after.controller.own = before.controller.own
  wire : after.site.machine.device.wire = before.site.machine.device.wire
  bus : after.site.bus = before.site.bus
  others : after.site.others = before.site.others

theorem Session.Consistent.posts (consistent : session.Consistent settings []) (offers : session.Offers fragment)
    (sendable : fragment.Sendable session.site.machine.memory) :
    ((Act.ask (.transmit fragment)).perform session).1 = .asked (.ok none) ∧
      Session.PostedAlone settings fragment session ((Act.ask (.transmit fragment)).perform session).2 := by
  have sound := consistent.sound
  have carries := consistent.flies.carries
  have allowed := offers.allowed
  have pagesKnown := (allowed.allows sound).pagesKnown sound
  have leaves := Call.perform_leaves sound.site pagesKnown
  have flies := Call.perform_flies sound.site consistent.flies pagesKnown
    (fun _ listed => Call.eq_of_mem_transmit listed ▸ sendable) (allowed.outside sound)
  have posted : (Call.transmit fragment).perform.Ends (session.controller, session.site.machine)
      (fun frame after => frame = none ∧ after.1.transmitRing.tail =
          session.controller.transmitRing.next session.controller.transmitRing.tail ∧
        ∀ slot, after.1.transmitRing.binding slot = if slot = session.controller.transmitRing.tail then
          some fragment.page else session.controller.transmitRing.binding slot)
      (fun _ _ => False) := by
    unfold Call.perform Controller.transmit
    simp only [Step.ends_bind, Step.ends_mapRefusal, Controller.ends_onTransmit, Step.ends_pure, true_and]
    refine ((TransmitRing.post_flies_of_sendable consistent.flies sendable).and
      (TransmitRing.post_binds carries.wired.seated)).mono (fun _ _ both => both.2) ?_
    rintro stop after ⟨⟨-, -, full⟩, -⟩
    -- A ring in which nothing is in flight is not full.
    have several := carries.wired.several
    rw [List.length_nil] at full
    omega
  obtain ⟨frame, after, ended, rfl, tail, binding⟩ := posted.exists_ok
  obtain ⟨left, -⟩ := (Step.ends_of_ok ended).mp leaves
  have aloft := (Step.ends_of_ok ended).mp flies
  simp only [Act.perform, ended]
  refine ⟨trivial, ?_⟩
  exact
    { sound := ⟨left.sound, left.transmitCapacity.trans sound.transmitCapacity,
        left.receiveCapacity.trans sound.receiveCapacity⟩
      flies := aloft
      tail := tail
      binding := binding
      changes := left.changes.mono fun id => by
        rintro (mine | none)
        · exact mine
        · cases none
      own := left.own
      wire := left.wire
      bus := rfl
      others := rfl }

/-- Whether the only flight is sent depends on whether something is found at its address. -/
theorem Emulator.serve_lone (ready : TransmitReady limit ring machine [flight]) (found : Nat → TransmitStatus) :
    (serve ring 1 found).Ends machine
      (fun _ after => (∃ place, flight.located machine.memory = .ok place) ∧
        ∃ bytes, after.device.wire = machine.device.wire.gather bytes flight.endsFrame)
      (fun _ after => (∃ fault, flight.located machine.memory = .error fault) ∧
        after.device.wire = machine.device.wire) := by
  -- The slot gives the engine no more than an address, so what is found there decides.
  have fetches : (transmit 1).Ends machine (fun _ _ => ∃ place, flight.located machine.memory = .ok place)
      (fun _ _ => ∃ fault, flight.located machine.memory = .error fault) := by
    apply transmit_ends ready.wired
    rw [ready.flies.carries.pending]
    change (fetchSlots _ _ 1).Ends _ _ _
    unfold fetchSlots
    rw [Step.ends_bind]
    refine (fetchSlot_located ready).mono ?_ ?_
    · rintro _ _ ⟨id, offset, _, seen, -⟩
      exact ⟨(id, offset), seen⟩
    · rintro _ _ ⟨fault, missing, -⟩
      exact ⟨fault, missing⟩
  unfold serve
  simp only [Step.ends_bind, Step.ends_get, Machine.ends_changeMemory, Step.ends_pure]
  refine (fetches.and (transmit_flies ready 1)).mono ?_ ?_
  · rintro _ after ⟨place, rfl, fetched⟩
    refine ⟨place, ?_⟩
    have gathers : Gathers ring machine.memory [flight] machine.device.wire after.device.wire := fetched.gathers
    cases gathers with
    | next bytes _ later => exact ⟨bytes, later.eq_of_nil⟩
  · rintro _ after ⟨fault, stuck, short, fetched, -⟩
    refine ⟨fault, ?_⟩
    have none : stuck = 0 := by
      rw [List.length_singleton] at short
      omega
    subst none
    exact fetched.gathers.eq_of_nil

namespace Session.PostedAlone

variable {before after : Session}

theorem serve (posts : Session.PostedAlone settings fragment before after) (found : Nat → TransmitStatus) :
    ((∃ place, Flight.located ⟨fragment, true⟩ after.site.machine.memory = .ok place) →
        ((Act.serve 1 found).perform after).2.site.machine.device.wire ≠ before.site.machine.device.wire) ∧
      ((∃ fault, Flight.located ⟨fragment, true⟩ after.site.machine.memory = .error fault) →
        ((Act.serve 1 found).perform after).2.site.machine.device.wire = before.site.machine.device.wire) := by
  have served := Emulator.serve_lone (posts.sound.site.transmitReady posts.flies) found
  rw [← posts.wire]
  unfold Act.perform Session.work
  cases ended : Emulator.serve after.controller.transmitRing 1 found after.site.machine with
  | ok count later =>
    obtain ⟨⟨place, located⟩, bytes, wire⟩ := (Step.ends_of_ok ended).mp served
    simp only [ended]
    refine ⟨fun _ same => ?_, fun ⟨fault, missing⟩ => ?_⟩
    · -- A frame more went out.
      have longer := congrArg (fun wire => wire.sent.length) (wire.symm.trans same)
      simp [Wire.gather] at longer
    · rw [located] at missing
      cases missing
  | error stop later =>
    obtain ⟨⟨fault, missing⟩, wire⟩ := (Step.ends_of_error ended).mp served
    simp only [ended]
    refine ⟨fun ⟨place, located⟩ => ?_, fun _ => wire⟩
    rw [missing] at located
    cases located

end Session.PostedAlone

theorem Flight.address_of_offset_zero (memory : Memory) (page : PageId) (length : Nat) (endsFrame : Bool) :
    Flight.address ⟨⟨page, 0, length⟩, endsFrame⟩ memory = (memory.page page).base :=
  UInt64.add_zero _

/-! ### A page that nobody but the ring keeps -/

/-- The ring keeps the last handles to a page that it is done with, and somebody holds a page that the device was not
told of and that begins at the same address. -/
structure Session.StaleAlias (settings : Settings) (session : Session) (kept unmapped : PageId) : Prop where
  consistent : session.Consistent settings []
  reached : session.site.machine.memory.Reaches kept
  bound : ∃ slot, slot ≠ session.controller.transmitRing.tail ∧
    session.controller.transmitRing.binding slot = some kept
  gone : kept ∉ session.site.owned
  foreign : kept ∉ session.controller.own
  apart : kept ≠ unmapped
  offers : session.Offers ⟨unmapped, 0, 1⟩
  base : (session.site.machine.memory.page unmapped).base = (session.site.machine.memory.page kept).base

theorem Session.Offers.sendable_of_offset_zero {page : PageId} (offers : session.Offers ⟨page, 0, 1⟩)
    (sound : session.Sound settings) : Fragment.Sendable ⟨page, 0, 1⟩ session.site.machine.memory where
  knows := sound.site.knows_held offers.1
  short := show 1 ≤ Limits.maxFrame by decide
  address := ⟨_, Address.advance_eq_ok_iff.mpr rfl⟩

namespace Session.StaleAlias

theorem known (stale : session.StaleAlias settings kept unmapped) : session.site.machine.memory.Knows kept :=
  stale.consistent.sound.site.housed.charted.knows_of_reaches stale.reached

theorem address_eq (stale : session.StaleAlias settings kept unmapped)
    (posts : Session.PostedAlone settings ⟨unmapped, 0, 1⟩ session next) :
    Flight.address ⟨⟨unmapped, 0, 1⟩, true⟩ next.site.machine.memory =
      (next.site.machine.memory.page kept).base := by
  have sendable := stale.offers.sendable_of_offset_zero stale.consistent.sound
  rw [Flight.address_of_offset_zero, posts.changes.base _ sendable.knows, posts.changes.base _ stale.known, stale.base]

theorem sends (stale : session.StaleAlias settings kept unmapped) (found : Nat → TransmitStatus) :
    (session.after [.ask (.transmit ⟨unmapped, 0, 1⟩), .serve 1 found]).site.machine.device.wire ≠
      session.site.machine.device.wire := by
  obtain ⟨-, posts⟩ := stale.consistent.posts stale.offers
    (stale.offers.sendable_of_offset_zero stale.consistent.sound)
  have sound := posts.sound.site
  refine (posts.serve found).1 ⟨(kept, 0), ?_⟩
  unfold Flight.located
  rw [stale.address_eq posts]
  refine sound.housed.charted.locate_eq (posts.changes.reaches stale.known stale.reached) ?_ rfl (by decide) ?_
  · obtain ⟨slot, other, bound⟩ := stale.bound
    have kept := posts.binding slot
    rw [if_neg other, bound] at kept
    exact sound.alive (List.mem_append_left _ (TransmitRing.mem_pages_of_binding kept))
  · change 0 + 1 ≤ Limits.pageSize
    decide

theorem handles_eq_zero (stale : session.StaleAlias settings kept unmapped) {after : Session}
    (consistent : next.Consistent settings []) (alike : Session.Alike False session next)
    (settled : next.controller.transmitRing.settled next.site.machine.memory = next.controller.transmitRing)
    (posts : Session.PostedAlone settings ⟨unmapped, 0, 1⟩ next after) :
    after.site.machine.memory.handles kept = 0 := by
  have carries := consistent.flies.carries
  have own : after.controller.own = session.controller.own := posts.own.trans alike.controller.own
  -- Nothing is in flight, so every slot is done, and a settled ring keeps no page of such a slot.
  have free (slot : Nat) : next.controller.transmitRing.binding slot = none := by
    by_cases inside : slot < next.controller.transmitRing.capacity
    · have done := carries.rest slot inside (by simp [Ring.arc])
      rw [← settled, TransmitRing.binding_settled, if_pos done]
    · exact TransmitRing.binding_eq_none_of_le (by rw [carries.wired.seated.bindings]; omega)
  have transmits : kept ∉ after.controller.transmitRing.pages := by
    intro listed
    rcases TransmitRing.mem_pages_iff.mp listed with rfl | ⟨slot, bound⟩
    · exact stale.foreign (own ▸ Sound.table_mem_own after.controller)
    · rw [posts.binding, free] at bound
      split at bound
      · exact stale.apart (Option.some.inj bound).symm
      · cases bound
  have receives : kept ∉ after.controller.receiveRing.pages := fun listed =>
    stale.foreign (own ▸ List.mem_cons_of_mem _ listed)
  have owned : after.site.owned = session.site.owned := by
    unfold Site.owned
    rw [posts.others, posts.bus, alike.others, alike.bus]
  rw [posts.sound.site.housed.accounts, List.count_eq_zero]
  intro listed
  simp only [Controller.pages, List.append_nil, List.mem_append] at listed
  rcases listed with (here | here) | here
  · exact transmits here
  · exact receives here
  · exact stale.gone (owned ▸ here)

theorem of_alike (stale : session.StaleAlias settings kept unmapped) (alike : Session.Alike False session next) :
    next.Offers ⟨unmapped, 0, 1⟩ ∧
      (next.site.machine.memory.page unmapped).base = (next.site.machine.memory.page kept).base := by
  have held : next.site.others.held = session.site.others.held := congrArg Others.held alike.others
  have memory := alike.memory
  refine ⟨⟨held ▸ stale.offers.1, (memory.fragment ..).trans stale.offers.2⟩, ?_⟩
  rw [memory.base, memory.base, stale.base]

/-- The ring was settled: the device finds nothing, and nothing is sent. -/
theorem silent_of_settled (stale : session.StaleAlias settings kept unmapped)
    (consistent : next.Consistent settings []) (alike : Session.Alike False session next)
    (settled : next.controller.transmitRing.settled next.site.machine.memory = next.controller.transmitRing)
    (found : Nat → TransmitStatus) :
    (next.after [.ask (.transmit ⟨unmapped, 0, 1⟩), .serve 1 found]).site.machine.device.wire =
      next.site.machine.device.wire := by
  obtain ⟨offers, base⟩ := stale.of_alike alike
  have known := alike.memory.knows_iff.mpr stale.known
  have sendable := offers.sendable_of_offset_zero consistent.sound
  obtain ⟨-, posts⟩ := consistent.posts offers sendable
  have missing := posts.sound.site.housed.charted.locate_dead
    (posts.changes.reaches known (alike.memory.reaches_iff.mpr stale.reached))
    (stale.handles_eq_zero consistent alike settled posts) 1 (Nat.add_zero _).symm (show 0 < Limits.pageSize by decide)
  rw [posts.changes.base _ known, ← base, ← posts.changes.base _ sendable.knows,
    ← Flight.address_of_offset_zero _ unmapped 1 true] at missing
  exact (posts.serve found).2 ⟨_, missing⟩

theorem silent (stale : session.StaleAlias settings kept unmapped) (found : Nat → TransmitStatus) :
    (session.after [.ask .reclaim, .ask (.transmit ⟨unmapped, 0, 1⟩), .serve 1 found]).site.machine.device.wire =
      session.site.machine.device.wire := by
  have self : Bisimilar settings False session session [] := ⟨.refl _, stale.consistent, stale.consistent⟩
  have bisimilar := self.skip (show (Act.ask .reclaim).isUpkeep = true from rfl)
  obtain ⟨causes, device⟩ := bisimilar.alike.device
  refine (stale.silent_of_settled bisimilar.other bisimilar.alike stale.consistent.reclaimed found).trans ?_
  rw [device]
  rfl

end Session.StaleAlias

/-! ### Waiting slots -/

theorem TransmitRing.Carries.unaliased {memory : Memory} {side : Emulator.TransmitSide} {flights : List Flight}
    (carries : ring.Carries memory side flights)
    (alone : ∀ flight ∈ flights, ∀ page, memory.Reaches page → memory.Encloses page (flight.address memory) →
      page = flight.fragment.page) : ring.Unaliased memory := by
  intro slot inside waiting page reached encloses
  obtain ⟨flight, listed, asks⟩ := carries.exists_flight inside waiting
  rw [asks.cell] at encloses
  rw [asks.binding, alone flight listed page reached encloses]

/-- Pages that the device was told of lie apart, so flights in such pages are never in each other's way. -/
theorem Session.Mapped.unaliased {flights : List Flight} (mapped : session.Mapped settings flights) :
    session.controller.transmitRing.Unaliased session.site.machine.memory := by
  refine mapped.inFlight.flies.carries.unaliased fun flight listed page reached encloses => ?_
  have charted := mapped.sound.site.housed.charted
  have accessible := mapped.inFlight.accessible flight listed trivial
  obtain ⟨_, _, asks⟩ := mapped.inFlight.flies.carries.exists_asks listed
  have place := Address.advance_eq_ok_iff.mp asks.advance
  have begins := accessible.begins
  refine charted.encloses_unique accessible.reached reached ⟨?_, ?_⟩ encloses
  · omega
  · rw [charted.size_of_reaches accessible.reached]
    omega

theorem Memory.Charted.not_encloses_last {memory : Memory} {page : PageId} (charted : memory.Charted limit)
    (bounded : limit < 2 ^ 64) (reached : memory.Reaches page) : ¬ memory.Encloses page 0xFFFFFFFFFFFFFFFF := by
  have below := charted.below _ reached
  rintro ⟨-, ends⟩
  rw [charted.size_of_reaches reached] at ends
  rw [show (0xFFFFFFFFFFFFFFFF : UInt64).toNat = 2 ^ 64 - 1 from rfl] at ends
  dsimp only at below
  omega

/-! ### How it comes to that -/

theorem Session.Mapped.serves {flights : List Flight} (mapped : session.Mapped settings flights) (most : Nat)
    (found : Nat → TransmitStatus) :
    Session.Mapped settings ((Act.serve most found).perform session).2 (flights.drop most) ∧
      ((Act.serve most found).perform session).2.controller = session.controller ∧
      ((Act.serve most found).perform session).2.site.others = session.site.others ∧
      ((Act.serve most found).perform session).2.site.bus = session.site.bus ∧
      session.site.machine.memory.ChangesWithin (· = session.controller.transmitRing.table.page)
        ((Act.serve most found).perform session).2.site.machine.memory := by
  have served := Emulator.serve_flies (mapped.sound.site.transmitReady mapped.inFlight.flies) mapped.visible most found
  obtain ⟨count, after, ended, rfl, serves, flies, persists⟩ := served.exists_ok
  have drop : flights.drop (min flights.length most) = flights.drop most :=
    List.drop_eq_drop_iff.mpr (by omega)
  unfold Act.perform Session.work
  simp only [ended]
  rw [← drop]
  exact ⟨mapped.continues (mapped.consistent.sent serves flies persists), trivial, trivial, trivial, serves.changes⟩

structure Session.HoldsUnmapped (settings : Settings) (session : Session) (page unmapped : PageId) : Prop where
  mapped : session.Mapped settings []
  reached : session.site.machine.memory.Reaches page
  held : session.site.others.held = [unmapped, page]
  bus : session.site.bus = .empty
  apart : page ≠ unmapped
  size : (session.site.machine.memory.page unmapped).size = Limits.pageSize

theorem exists_holds_unmapped (place : UInt64 → UInt64) : ∃ controller site base page unmapped,
    Attached {} controller site ∧
    ((Act.make base Limits.pageSize).perform (.opened controller site)).2.HoldsUnmapped {} page unmapped ∧
    (((Act.make base Limits.pageSize).perform
        (.opened controller site)).2.site.machine.memory.page unmapped).base =
      place (((Act.make base Limits.pageSize).perform
        (.opened controller site)).2.site.machine.memory.page page).base := by
  obtain ⟨controller, site, page, attached, bus, held, -, reached⟩ := exists_attached_beside
  have mapped : (Session.opened controller site).Mapped {} [] := attached.mapped
  have known := mapped.sound.site.housed.charted.knows_of_reaches reached
  have apart : page ≠ ⟨site.machine.memory.pages.size⟩ := by
    rintro rfl
    exact Nat.lt_irrefl _ known
  generalize chosen : place (site.machine.memory.page page).base = base
  have made : site.machine.memory.allocate base Limits.pageSize =
      some (site.machine.memory.adopt base (Array.replicate Limits.pageSize 0)) := if_neg (by decide)
  have action := mapped.continues (mapped.consistent.action (.make base Limits.pageSize made))
  have pages := Memory.page_adopt site.machine.memory base (Array.replicate Limits.pageSize 0)
  refine ⟨controller, site, base, page, ⟨site.machine.memory.pages.size⟩, attached, ?_⟩
  unfold Act.perform
  simp only [made]
  refine ⟨?_, ?_⟩
  · exact
      { mapped := action
        reached := (Memory.changes_adopt (fun _ => False) _ _ _).reaches known reached
        held := congrArg (_ :: ·) held
        bus := bus
        apart := apart
        size := by
          dsimp only
          rw [pages, if_pos rfl]
          exact Array.size_replicate }
  · rw [pages, pages, if_pos rfl, if_neg apart, chosen]

structure Session.SentAlone (settings : Settings) (fragment : Fragment) (before after : Session) : Prop where
  mapped : after.Mapped settings []
  tail : after.controller.transmitRing.tail =
    before.controller.transmitRing.next before.controller.transmitRing.tail
  binding : after.controller.transmitRing.binding before.controller.transmitRing.tail = some fragment.page
  changes : before.site.machine.memory.ChangesWithin (fun _ => True) after.site.machine.memory
  own : after.controller.own = before.controller.own
  held : after.site.others.held = before.site.others.held.erase fragment.page
  bus : after.site.bus = before.site.bus

theorem Session.Mapped.sends_alone (mapped : session.Mapped settings []) (offers : session.Offers fragment)
    (reached : session.site.machine.memory.Reaches fragment.page) (found : Nat → TransmitStatus) :
    session.Admits Act.Unaliased [.ask (.transmit fragment), .release fragment.page, .serve 1 found] ∧
      Session.SentAlone settings fragment session
        (session.after [.ask (.transmit fragment), .release fragment.page, .serve 1 found]) := by
  obtain ⟨accessible, sendable⟩ := offers.accessible mapped.sound reached true
  obtain ⟨-, posts⟩ := mapped.consistent.posts offers sendable
  have known := mapped.sound.site.housed.charted.knows_of_reaches reached
  have own : ((Act.ask (.transmit fragment)).perform session).2.controller.own = session.controller.own := posts.own
  have posted : Session.Mapped settings ((Act.ask (.transmit fragment)).perform session).2 [⟨fragment, true⟩] := by
    refine ⟨posts.sound, posts.flies, fun flight listed _ => ?_⟩
    rw [List.mem_singleton.mp listed]
    exact accessible.stays own known posts.changes
  have mine : fragment.page ∈ ((Act.ask (.transmit fragment)).perform session).2.site.others.held := by
    rw [posts.others]
    exact offers.1
  have left : Session.Mapped settings ((Act.release fragment.page).perform _).2 [⟨fragment, true⟩] :=
    posted.continues (posted.consistent.action (.release fragment.page mine))
  refine ⟨⟨⟨offers.allowed, trivial⟩, ⟨mine, trivial⟩, ⟨trivial, left.unaliased⟩, trivial⟩, ?_⟩
  change Session.SentAlone settings fragment session
    ((Act.serve 1 found).perform ((Act.release fragment.page).perform _).2).2
  generalize ((Act.ask (.transmit fragment)).perform session).2 = given at posts left ⊢
  obtain ⟨sent, controller, others, bus, written⟩ := left.serves 1 found
  generalize ((Act.serve 1 found).perform _).2 = last at sent controller others bus written ⊢
  -- Neither giving the page up nor sending it is anything to the controller.
  have controller : last.controller = given.controller := controller
  exact
    { mapped := sent
      tail := by rw [controller, posts.tail]
      binding := by rw [controller, posts.binding, if_pos rfl]
      changes := (posts.changes.mono fun _ _ => trivial).trans
        ((Memory.changes_release _ given.site.machine.memory fragment.page).trans (written.mono fun _ _ => trivial))
      own := by rw [controller, posts.own]
      held := by
        rw [others, ← posts.others]
        rfl
      bus := bus.trans posts.bus }

namespace Session.HoldsUnmapped

theorem mem_page (holds : session.HoldsUnmapped settings kept unmapped) : kept ∈ session.site.others.held := by
  rw [holds.held]
  exact List.mem_cons_of_mem _ (List.mem_singleton_self _)

theorem mem_unmapped (holds : session.HoldsUnmapped settings kept unmapped) : unmapped ∈ session.site.others.held := by
  rw [holds.held]
  exact List.mem_cons_self ..

theorem known (holds : session.HoldsUnmapped settings kept unmapped) {page : PageId}
    (held : page ∈ session.site.others.held) : session.site.machine.memory.Knows page :=
  holds.mapped.sound.site.knows_held held

theorem erased (holds : session.HoldsUnmapped settings kept unmapped) :
    session.site.others.held.erase kept = [unmapped] := by
  rw [holds.held, List.erase_cons_tail (by simpa using holds.apart.symm), List.erase_cons_head]

theorem sends (holds : session.HoldsUnmapped settings kept unmapped) (found : Nat → TransmitStatus) :
    session.Admits Act.Unaliased [.ask (.transmit ⟨kept, 0, 1⟩), .release kept, .serve 1 found] ∧
      Session.SentAlone settings ⟨kept, 0, 1⟩ session
        (session.after [.ask (.transmit ⟨kept, 0, 1⟩), .release kept, .serve 1 found]) ∧
      (session.after [.ask (.transmit ⟨kept, 0, 1⟩), .release kept, .serve 1 found]).Offers ⟨unmapped, 0, 1⟩ := by
  have whole := holds.mapped.sound.site.housed.charted.size_of_reaches holds.reached
  have offers : session.Offers ⟨kept, 0, 1⟩ :=
    ⟨holds.mem_page, Memory.fragment_of_whole whole Nat.one_ne_zero (show 1 ≤ Limits.maxFrame by decide)⟩
  obtain ⟨admits, sent⟩ := holds.mapped.sends_alone offers holds.reached found
  refine ⟨admits, sent, ?_, Memory.fragment_of_whole ?_ Nat.one_ne_zero (show 1 ≤ Limits.maxFrame by decide)⟩
  · rw [sent.held, holds.erased]
    exact List.mem_singleton_self _
  · rw [sent.changes.size _ (holds.known holds.mem_unmapped), holds.size]

end Session.HoldsUnmapped

theorem Session.Mapped.not_reaches_last {flights : List Flight} {page : PageId}
    (mapped : session.Mapped settings flights)
    (last : (session.site.machine.memory.page page).base = 0xFFFFFFFFFFFFFFFF) :
    ¬ session.site.machine.memory.Reaches page := by
  intro reached
  have charted := mapped.sound.site.housed.charted
  refine charted.not_encloses_last (Sound.bounded session.site) reached ?_
  unfold Memory.Encloses
  rw [charted.size_of_reaches reached, last]
  exact ⟨Nat.le_refl _, Nat.lt_add_of_pos_right (by decide)⟩

theorem Session.Mapped.stuck_at_last {page : PageId} (mapped : session.Mapped settings [])
    (offers : session.Offers ⟨page, 0, 1⟩)
    (last : (session.site.machine.memory.page page).base = 0xFFFFFFFFFFFFFFFF) (found : Nat → TransmitStatus) :
    session.Admits Act.Unaliased [.ask (.transmit ⟨page, 0, 1⟩), .serve 1 found, .ask .reclaim] := by
  have sendable := offers.sendable_of_offset_zero mapped.sound
  obtain ⟨-, posts⟩ := mapped.consistent.posts offers sendable
  have charted := posts.sound.site.housed.charted
  refine ⟨⟨offers.allowed, trivial⟩, ⟨trivial, ?_⟩, ⟨Act.allowed_of_isUpkeep rfl, trivial⟩, trivial⟩
  refine posts.flies.carries.unaliased fun flight listed other reached encloses => ?_
  rw [List.mem_singleton.mp listed, Flight.address_of_offset_zero, posts.changes.base _ sendable.knows,
    last] at encloses
  exact absurd encloses (charted.not_encloses_last (Sound.bounded _) reached)

theorem Session.HoldsUnmapped.stale (holds : session.HoldsUnmapped settings kept unmapped)
    (base : (session.site.machine.memory.page unmapped).base = (session.site.machine.memory.page kept).base)
    (found : Nat → TransmitStatus) :
    session.Admits Act.Unaliased [.ask (.transmit ⟨kept, 0, 1⟩), .release kept, .serve 1 found] ∧
      (session.after [.ask (.transmit ⟨kept, 0, 1⟩), .release kept, .serve 1 found]).StaleAlias settings kept
        unmapped := by
  obtain ⟨admits, sent, offers⟩ := holds.sends found
  refine ⟨admits, ?_⟩
  generalize session.after _ = last at sent offers ⊢
  exact
    { consistent := sent.mapped.consistent
      reached := sent.changes.reaches (holds.known holds.mem_page) holds.reached
      bound := by
        refine ⟨session.controller.transmitRing.tail, ?_, sent.binding⟩
        rw [sent.tail]
        intro same
        -- A ring of several slots goes on to another one.
        have wired := holds.mapped.inFlight.flies.carries.wired
        have next := Ring.succ_mod_sub wired.several wired.seated.tail
        rw [show (_ + 1) % _ = _ from same.symm, Nat.add_sub_cancel_left, Nat.mod_self] at next
        cases next
      gone := by
        unfold Site.owned
        rw [sent.held, holds.erased, sent.bus, holds.bus]
        exact List.not_mem_cons_of_ne_of_not_mem holds.apart List.not_mem_nil
      foreign := by
        rw [sent.own]
        exact holds.mapped.sound.site.foreign holds.mem_page
      apart := holds.apart
      offers := offers
      base := by
        rw [sent.changes.base _ (holds.known holds.mem_page), sent.changes.base _ (holds.known holds.mem_unmapped),
          base] }

/-! ### What can be told -/

variable {controller : Controller} {site : Site} {acts more : List Act}

/-- As long as no page but the one handed over lies at the address of a waiting slot whenever the device transmits:
however often, and whenever, the ring of a controller is reclaimed or its interrupts are serviced, everybody gets the
same answers, and memory, the tail, what was written to registers, what was sent, and the counters of posts are the
same in the end. If nobody changed a report and both runs end with a reclaim, the rings are the same, with the
pages that they keep and all their counters. -/
theorem upkeep_is_transparent (attached : Attached settings controller site)
    (admits : (Session.opened controller site).Admits Act.Unaliased acts) (same : Act.plain more = Act.plain acts) :
    let one := (Session.opened controller site).after acts
    let other := (Session.opened controller site).after more
    (Session.opened controller site).answers more = (Session.opened controller site).answers acts ∧
      (∀ id, (other.site.machine.memory.page id).bytes = (one.site.machine.memory.page id).bytes) ∧
      other.controller.transmitRing.table = one.controller.transmitRing.table ∧
      other.controller.transmitRing.tail = one.controller.transmitRing.tail ∧
      other.site.machine.device.writes = one.site.machine.device.writes ∧
      other.site.machine.device.wire = one.site.machine.device.wire ∧
      other.controller.transmitRing.counters.posted = one.controller.transmitRing.counters.posted ∧
      other.controller.transmitRing.counters.packets = one.controller.transmitRing.counters.packets ∧
      other.controller.transmitRing.counters.busy = one.controller.transmitRing.counters.busy ∧
      ((∀ act ∈ acts, ¬ act.Revises) → acts.getLast? = some (.ask .reclaim) → more.getLast? = some (.ask .reclaim) →
        other.controller.transmitRing = one.controller.transmitRing) := by
  -- What is seen is the same in any case; for the rings themselves no report may change.
  have weak : Bisimilar settings False (.opened controller site) (.opened controller site) [] := attached.bisimilar
  have strong : Bisimilar settings True (.opened controller site) (.opened controller site) [] := attached.bisimilar
  obtain ⟨answers, _, ⟨alike, -, -⟩⟩ := weak.run admits (fun never => never.elim) same
  obtain ⟨causes, device⟩ := alike.device
  intro one other
  have machine : other.site.machine.device = _ := device
  refine ⟨answers, alike.memory.bytes, alike.controller.transmit.table, alike.controller.transmit.tail, ?_, ?_,
    alike.controller.transmit.posted, alike.controller.transmit.packets, alike.controller.transmit.busy, ?_⟩
  · rw [machine]
  · rw [machine]
    rfl
  · intro fixed last last'
    obtain ⟨front, rfl⟩ := List.getLast?_eq_some_iff.mp last
    obtain ⟨front', rfl⟩ := List.getLast?_eq_some_iff.mp last'
    exact strong.rings admits (fun act listed => fixed act (List.mem_append_left _ listed)) same

/-- A page is posted, given up and sent, with collisions. Then a page at the end of all addresses is posted, of which
the device was not told: it faults there, whether the ring is reclaimed at the end only, or all along. -/
theorem upkeep_is_transparent_once : ∃ controller site acts more unmapped, Attached {} controller site ∧
    (Session.opened controller site).Admits Act.Unaliased acts ∧ Act.plain more = Act.plain acts ∧
    acts.length < more.length ∧ .ask (.transmit ⟨unmapped, 0, 1⟩) ∈ acts ∧
    ¬ ((Session.opened controller site).after (acts.take 1)).site.machine.memory.Reaches unmapped ∧
    (Session.opened controller site).answers more = (Session.opened controller site).answers acts ∧
    ((Session.opened controller site).after more).controller.transmitRing =
      ((Session.opened controller site).after acts).controller.transmitRing := by
  obtain ⟨controller, site, base, page, unmapped, attached, holds, last⟩ :=
    exists_holds_unmapped fun _ => 0xFFFFFFFFFFFFFFFF
  obtain ⟨early, sent, offers⟩ := holds.sends fun _ => ⟨0x06⟩
  have late := sent.mapped.stuck_at_last offers
    (by rw [sent.changes.base _ (holds.known holds.mem_unmapped), last]) fun _ => ⟨0x06⟩
  have admits : (Session.opened controller site).Admits Act.Unaliased
      (.make base Limits.pageSize :: ([.ask (.transmit ⟨page, 0, 1⟩), .release page, .serve 1 fun _ => ⟨0x06⟩] ++
        [.ask (.transmit ⟨unmapped, 0, 1⟩), .serve 1 fun _ => ⟨0x06⟩, .ask .reclaim])) :=
    ⟨⟨trivial, trivial⟩, early.append late⟩
  have same : Act.plain [.ask .reclaim, .make base Limits.pageSize, .ask (.transmit ⟨page, 0, 1⟩),
      .ask .serviceInterrupts, .release page, .serve 1 fun _ => ⟨0x06⟩, .ask .reclaim,
      .ask (.transmit ⟨unmapped, 0, 1⟩), .serve 1 fun _ => ⟨0x06⟩, .ask .serviceInterrupts, .ask .reclaim] =
        Act.plain (.make base Limits.pageSize ::
          ([.ask (.transmit ⟨page, 0, 1⟩), .release page, .serve 1 fun _ => ⟨0x06⟩] ++
            [.ask (.transmit ⟨unmapped, 0, 1⟩), .serve 1 fun _ => ⟨0x06⟩, .ask .reclaim])) := rfl
  obtain ⟨answers, -, -, -, -, -, -, -, -, rings⟩ := upkeep_is_transparent attached admits same
  refine ⟨controller, site, _, _, unmapped, attached, admits, same, show 7 < 11 by decide, by simp, ?_, answers,
    rings (by simp [Act.Revises]) rfl rfl⟩
  exact holds.mapped.not_reaches_last last

/-- If a page may be handed over at whose address another one lies, then what is sent can depend on whether the ring was
reclaimed meanwhile. -/
theorem upkeep_can_be_observed : ∃ controller site acts more, Attached {} controller site ∧
    (Session.opened controller site).Admits (fun session act => act.Allowed session) acts ∧
    (Session.opened controller site).Admits (fun session act => act.Allowed session) more ∧
    Act.plain more = Act.plain acts ∧
    ((Session.opened controller site).after more).site.machine.device.wire ≠
      ((Session.opened controller site).after acts).site.machine.device.wire := by
  obtain ⟨controller, site, base, kept, unmapped, attached, holds, same⟩ := exists_holds_unmapped id
  obtain ⟨early, stale⟩ := holds.stale same fun _ => ⟨0⟩
  obtain ⟨front, before, stale⟩ : ∃ front, (Session.opened controller site).Admits
      (fun session act => act.Allowed session) front ∧
      ((Session.opened controller site).after front).StaleAlias {} kept unmapped :=
    ⟨.make base Limits.pageSize :: _, ⟨trivial, early.mono fun _ _ => And.left⟩, stale⟩
  have alike : Session.Alike False ((Session.opened controller site).after front) _ :=
    Act.perform_alike stale.consistent.sound (show (Act.ask .reclaim).isUpkeep = true from rfl)
  have allowed {session : Session} (offers : session.Offers ⟨unmapped, 0, 1⟩) :
      session.Admits (fun session act => act.Allowed session)
        [.ask (.transmit ⟨unmapped, 0, 1⟩), .serve 1 fun _ => ⟨0⟩] :=
    ⟨offers.allowed, trivial, trivial⟩
  refine ⟨controller, site, front ++ [.ask (.transmit ⟨unmapped, 0, 1⟩), .serve 1 fun _ => ⟨0⟩],
    front ++ [.ask .reclaim, .ask (.transmit ⟨unmapped, 0, 1⟩), .serve 1 fun _ => ⟨0⟩], attached,
    before.append (allowed stale.offers),
    before.append ⟨Act.allowed_of_isUpkeep rfl, allowed (stale.of_alike alike).1⟩, ?_, ?_⟩
  · simp [Act.plain, Act.isUpkeep]
  · rw [Session.after_append, Session.after_append]
    refine (stale.silent fun _ => ⟨0⟩).trans_ne (stale.sends fun _ => ⟨0⟩).symm

end PacketPath
