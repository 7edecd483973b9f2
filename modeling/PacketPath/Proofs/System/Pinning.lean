import PacketPath.Proofs.System.OutboundState

/-! Pinning: a page that is being sent stays alive until its slot is reported done, whoever gives up his handles.
So the transmit engine finds every byte that it is sent for. -/

set_option autoImplicit false

namespace PacketPath

variable {rules : Rules} {settings : Settings} {controller later : Controller} {site next : Site} {extra : List PageId}
  {recycled : Nat} {flights : List Flight} {scope : PageId → Prop} {machine : Machine Emulator}
  {posted : List Posted} {state : OutboundState}

/-! ### What flights pin -/

/-- Every slot that is not reported done keeps a page alive in which the bytes lie that it asks for. -/
def TransmitRing.Pins (ring : TransmitRing) (memory : Memory) : Prop :=
  ∀ slot < ring.capacity, (ring.table.transmitCell memory slot).status.isDone = false →
    ∃ page, ring.binding slot = some page ∧ memory.isAlive page = true ∧
      (memory.page page).base.toNat ≤ (ring.table.transmitCell memory slot).address.toNat ∧
      (ring.table.transmitCell memory slot).address.toNat + (ring.table.transmitCell memory slot).length.toNat ≤
        (memory.page page).base.toNat + (memory.page page).size

def Machine.Transmits (machine : Machine Emulator) : Prop :=
  ∀ most, (Emulator.transmit most).Ends machine (fun count _ => count = min machine.device.transmitPending most)
    (fun _ _ => False)

theorem InFlight.pins (inFlight : InFlight (fun _ => True) controller site.machine flights)
    (sound : Sound controller extra recycled site) : controller.transmitRing.Pins site.machine.memory := by
  intro slot inside pending
  obtain ⟨flight, listed, asks⟩ := inFlight.flies.carries.exists_flight inside pending
  have accessible := inFlight.accessible flight listed trivial
  obtain ⟨address, found, cell⟩ := asks.address
  have sum := Address.advance_eq_ok_iff.mp found
  have length := TransmitRing.length_request address asks.short flight.endsFrame
  refine ⟨flight.fragment.page, asks.binding, ?_, ?_, ?_⟩
  · -- The slot holds a handle of its own to the page.
    have listed : flight.fragment.page ∈ controller.pages :=
      List.mem_append_left _ (TransmitRing.mem_pages_of_binding asks.binding)
    simpa [Memory.isAlive] using sound.alive listed
  · rw [cell]
    change _ ≤ address.toNat
    omega
  · have ends := accessible.ends
    rw [cell, length, sound.housed.charted.size_of_reaches accessible.reached]
    change address.toNat + _ ≤ _
    omega

theorem InFlight.transmits (inFlight : InFlight (fun _ => True) controller site.machine flights)
    (sound : Sound controller extra recycled site) : site.machine.Transmits := by
  have pending : site.machine.device.transmitPending = flights.length := inFlight.flies.carries.pending
  intro most
  refine (Emulator.transmit_flies (sound.transmitReady inFlight.flies) most).mono ?_ ?_
  · rintro count after ⟨rfl, -⟩
    rw [pending]
  · -- The engine is stuck only at a flight that it cannot see.
    rintro _ after ⟨stuck, -, -, flight, here, unseen⟩
    exact unseen (inFlight.accessible flight (List.mem_of_getElem? here) trivial).visible

/-! ### The invariant -/

structure Pinning (controller : Controller) (site : Site) : Prop where
  inFlight : ∃ flights, InFlight (fun _ => True) controller site.machine flights
  transmits : ∀ machine ∈ site.others.points, machine.Transmits

namespace Pinning

theorem seen (pinning : Pinning controller site) (sound : Sound controller extra recycled site) :
    Pinning controller site.seen where
  inFlight := pinning.inFlight
  transmits machine listed := by
    obtain ⟨flights, inFlight⟩ := pinning.inFlight
    rcases List.mem_append.mp listed with before | now
    · exact pinning.transmits machine before
    · rw [List.mem_singleton.mp now]
      exact inFlight.transmits sound

theorem moves (pinning : Pinning controller site) (sound : Sound controller extra recycled site)
    (moves : Moves rules site next) : Pinning controller next := by
  induction moves with
  | none => exact pinning
  | more before move ih =>
    have middle := (before.keepsReserved sound).1
    obtain ⟨flights, inFlight⟩ := ih.inFlight
    obtain ⟨count, -, left, -⟩ := inFlight.move middle move
    have moved : Pinning controller _ := ⟨⟨_, left⟩, move.points_eq middle ▸ ih.transmits⟩
    exact moved.seen (move.keepsReserved middle).1

theorem preserved (rules : Rules) : Preserved rules (fun _ => True) fun _ => Pinning where
  moves sound pinning moves := (pinning.seen sound).moves sound.seen moves
  unmoved := by
    intro scope posted controller later site next pinning unmoved
    obtain ⟨flights, inFlight⟩ := pinning.inFlight
    exact ⟨⟨flights, inFlight.unmoved unmoved⟩, unmoved.points ▸ pinning.transmits⟩
  adds := by
    intro extra posted controller site request after sound pinning held inside reached _ adds
    obtain ⟨flights, inFlight⟩ := pinning.inFlight
    have foreign : request.fragment.page ∉ controller.own := fun own => (sound.sole _ own).1 held
    have accessible := sound.accessible foreign inside (reached trivial) true
    exact ⟨⟨_, inFlight.adds adds (sound.knows_extra held) fun _ => accessible⟩, pinning.transmits⟩

end Pinning

/-! ### Calls -/

structure OutboundState.Permits (state : OutboundState) (call : Call) : Prop where
  fragments : ∀ fragment ∈ call.fragments, fragment.page ∈ state.site.others.held ∧
    state.site.machine.memory.fragment fragment.page fragment.offset fragment.length = .ok fragment ∧
    state.site.machine.memory.Reaches fragment.page
  target : ∀ target, call.target = some target → target ∈ state.site.others.held

theorem OutboundState.Permits.pinning {call : Call} (permits : state.Permits call)
    (maintains : state.Maintains fun _ => Pinning) :
    call.perform.Ends (state.controller, state.site.machine)
      (fun _ after => (state.called after).Sound ∧ Pinning after.1 { state.site with machine := after.2 })
      (fun _ after => (state.called after).Sound ∧ Pinning after.1 { state.site with machine := after.2 }) := by
  obtain ⟨sound, ⟨flights, inFlight⟩, transmits⟩ := maintains
  have sound : PacketPath.Sound state.controller [] state.controller.receiveRing.recycled state.site := sound
  have inside (fragment : Fragment) (listed : fragment ∈ call.fragments) :=
    (Memory.fragment_eq_ok (permits.fragments fragment listed).2.1).2
  have pagesKnown : call.PagesKnown state.controller state.site.machine.memory := by
    refine ⟨fun fragment listed => ?_, fun target here => sound.fillable (permits.target target here)⟩
    exact sound.knows_held (permits.fragments fragment listed).1
  have sendable (fragment : Fragment) (listed : fragment ∈ call.fragments) :=
    sound.sendable (inside fragment listed) (permits.fragments fragment listed).2.2
  have elsewhere : call.target ≠ some state.controller.transmitRing.table.page := fun target =>
    sound.foreign (permits.target _ target) (Sound.table_mem_own _)
  -- Whatever flies after the call lies where it did, or where the call was told to find it.
  have kept {frame : Option (List UInt8)} {after : Controller × Machine Emulator} {flights' : List Flight}
      (leaves : Call.Leaves call.target state.controller state.site frame after)
      (flies : TransmitRing.Flies (after.1.transmitRing, after.2) flights')
      (among : ∀ flight ∈ flights', flight ∈ flights ∨ flight.fragment ∈ call.fragments) :
      (state.called after).Sound ∧ Pinning after.1 { state.site with machine := after.2 } := by
    refine ⟨leaves.sound.seen, ⟨flights', flies, fun flight listed _ => ?_⟩, transmits⟩
    rcases among flight listed with before | posted
    · exact (inFlight.accessible flight before trivial).stays leaves.own (inFlight.knows before) leaves.changes
    · obtain ⟨held, -, reached⟩ := permits.fragments _ posted
      have accessible := sound.accessible (sound.foreign held) (inside _ posted) reached flight.endsFrame
      exact accessible.stays leaves.own (sound.knows_held held) leaves.changes
  refine ((Call.perform_leaves sound pagesKnown).and
    (Call.perform_flies sound inFlight.flies pagesKnown sendable elsewhere)).mono ?_ ?_
  · rintro frame after ⟨⟨leaves, -⟩, flies⟩
    apply kept leaves flies
    intro flight listed
    exact (List.mem_append.mp listed).imp id Flight.exists_of_mem_ofFrame
  · rintro stop after ⟨⟨leaves, -⟩, flies⟩
    exact kept leaves flies fun flight listed => .inl listed

/-! ### The contract -/

/-- Every slot that is not done pins its page. The transmit engine stops for nothing, neither now nor at any point
on record, those in the pauses of the pumps among them. -/
structure OutboundState.Pins (state : OutboundState) : Prop where
  pinned : state.controller.transmitRing.Pins state.site.machine.memory
  transmits : state.site.machine.Transmits
  always : ∀ machine ∈ state.site.others.points, machine.Transmits

theorem Attached.maintains_pinning (attached : Attached settings controller site)
    (run : Relation.ReflTransGen (OutboundState.Round OutboundState.Permits) (.opened controller site) state) :
    state.Maintains fun _ => Pinning := by
  induction run with
  | refl =>
    have started := attached.started
    have pinning : Pinning controller site := by
      refine ⟨⟨[], started.flies, nofun⟩, ?_⟩
      rw [started.points]
      nofun
    exact ⟨attached.opens, pinning.seen started.sound⟩
  | tail _ round ih => exact round.maintains (Pinning.preserved _) (fun _ _ permits => permits.pinning) ih

/-- Whatever calls are made of an attached controller and whatever pumps work with it, in any order, nobody can
take a page away from the device before it is sent. -/
theorem transmit_pages_pinned (attached : Attached settings controller site)
    (run : Relation.ReflTransGen (OutboundState.Round OutboundState.Permits) (.opened controller site) state) :
    state.Pins := by
  have maintains := attached.maintains_pinning run
  obtain ⟨flights, inFlight⟩ := maintains.holds.inFlight
  have sound : PacketPath.Sound state.controller [] state.controller.receiveRing.recycled state.site := maintains.sound
  exact ⟨inFlight.pins sound, inFlight.transmits sound, maintains.holds.transmits⟩

theorem Attached.exists_filled {page : PageId} (attached : Attached settings controller site)
    (held : site.others.held = [page]) (reached : site.machine.memory.Reaches page) {count : Nat}
    (few : count ≤ controller.transmitRing.capacity) :
    ∃ state flights, Relation.ReflTransGen (OutboundState.Round OutboundState.Permits) (.opened controller site) state ∧
      TransmitRing.Flies (state.controller.transmitRing, state.site.machine) flights ∧ flights.length = count ∧
      state.controller.transmitRing.capacity = controller.transmitRing.capacity ∧ state.site.bus = site.bus ∧
      state.site.others.held = [page] ∧ state.site.machine.memory.Reaches page := by
  induction count with
  | zero => exact ⟨_, [], .refl, attached.started.flies, rfl, rfl, rfl, held, reached⟩
  | succ count ih =>
    obtain ⟨state, flights, run, flies, length, capacity, bus, held, reached⟩ := ih (by omega)
    have sound : PacketPath.Sound state.controller [] state.controller.receiveRing.recycled state.site :=
      (attached.maintains_pinning run).sound
    have valid : state.site.machine.memory.fragment page 0 60 = .ok ⟨page, 0, 60⟩ :=
      Memory.fragment_of_whole (sound.housed.charted.size_of_reaches reached) (by decide) (by decide)
    have permits : state.Permits (.transmit ⟨page, 0, 60⟩) := by
      refine ⟨fun fragment listed => ?_, nofun⟩
      rw [List.mem_singleton.mp listed]
      exact ⟨held ▸ List.mem_singleton_self page, valid, reached⟩
    have sendable := sound.sendable (Memory.fragment_eq_ok valid).2 reached
    -- There is room, so the frame is not turned away.
    have posts : (Call.transmit ⟨page, 0, 60⟩).perform.Ends (state.controller, state.site.machine)
        (fun _ after => TransmitRing.Flies (after.1.transmitRing, after.2) (flights ++ [⟨⟨page, 0, 60⟩, true⟩]) ∧
          TransmitRing.Leads (state.controller.transmitRing, state.site.machine) (after.1.transmitRing, after.2))
        (fun _ _ => False) := by
      unfold Call.perform Controller.transmit
      simp only [Step.ends_bind, Step.ends_mapRefusal, Controller.ends_onTransmit, Step.ends_pure]
      refine ((TransmitRing.post_flies_of_sendable flies sendable).and
        (TransmitRing.post_leads flies.carries.wired.seated sendable.knows)).mono ?_ ?_
      · rintro _ after ⟨⟨-, flies⟩, leads⟩
        exact ⟨flies, leads⟩
      · rintro _ after ⟨⟨-, -, full⟩, -⟩
        omega
    obtain ⟨flies, leads⟩ := (posts.mono (fun _ _ => id) (fun _ _ => False.elim)).after
    refine ⟨_, _, run.tail (.call _ permits), flies, ?_, leads.capacity.trans capacity, bus, held,
      leads.changes.reaches sendable.knows reached⟩
    rw [List.length_append, List.length_singleton, length]

/-- A frame is posted, and its sender gives up the only handle that he has to its page. -/
theorem transmit_pages_pinned_once : ∃ controller site state, Attached {} controller site ∧
    Relation.ReflTransGen (OutboundState.Round OutboundState.Permits) (.opened controller site) state ∧
    state.site.others.held = [] ∧ state.site.machine.device.transmitPending = 1 ∧ state.Pins := by
  obtain ⟨controller, site, page, attached, -, held, -, reached⟩ := exists_attached_beside
  have several := attached.started.flies.carries.wired.several
  obtain ⟨state, flights, run, flies, one, -, -, held, -⟩ := attached.exists_filled held reached (Nat.le_of_lt several)
  have released := run.tail
    (.pause (.more (.none _) (.action (.release page (held ▸ List.mem_singleton_self page)))))
  refine ⟨controller, site, _, attached, released, ?_, flies.carries.pending.trans one,
    transmit_pages_pinned attached released⟩
  change state.site.others.held.erase page = []
  rw [held, List.erase_cons_head]

end PacketPath
