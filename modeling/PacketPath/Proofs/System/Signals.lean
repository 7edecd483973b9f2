import PacketPath.Proofs.System.Causes

/-! Signals: whatever there is to do about a ring, an interrupt cause says so until the interrupts are serviced. So
the next service reports it, whenever it comes. -/

set_option autoImplicit false

namespace PacketPath

variable {ε : Type} {settings : Settings} {controller : Controller} {machine : Machine Emulator} {site : Site}
  {session next : Session} {flights : List Flight} {call : Call}

/-! ### What a service does -/

theorem Interrupts.service_reports (interrupts : Interrupts) (machine : Machine Emulator) :
    (service : Step ε _ _).Ends (interrupts, machine)
      (fun work after => work = .ofCauses machine.device.pending.named ∧ after.2.memory = machine.memory)
      (fun _ _ => False) := by
  unfold service
  simp only [Step.ends_bind, Step.ends_second, Register.ends_read, Step.ends_ite, Step.ends_first,
    Step.ends_modify, Machine.ends_note, Step.ends_pure]
  -- What is found is noted and counted, but the answer depends on the causes alone.
  refine ⟨fun _ => ⟨fun _ => ⟨fun _ => ?_, fun _ => ?_⟩, fun _ => ⟨fun _ => ?_, fun _ => ?_⟩⟩,
    fun _ => ⟨fun _ => ⟨fun _ => ?_, fun _ => ?_⟩, fun _ => ⟨fun _ => ?_, fun _ => ?_⟩⟩⟩
  all_goals exact ⟨rfl, trivial⟩

theorem Controller.serviceInterrupts_reports (seated : controller.transmitRing.Seated machine.memory) :
    (serviceInterrupts : Step ε _ _).Ends (controller, machine)
      (fun work after => work = .ofCauses machine.device.pending.named ∧
        (work.transmitDone = true →
          TransmitRing.Clear controller.transmitRing.capacity (after.1.transmitRing, after.2))) (fun _ _ => False) := by
  unfold serviceInterrupts
  rw [Step.ends_bind, ends_onInterrupts]
  refine (Interrupts.service_reports controller.interrupts machine).mono ?_ (fun _ _ => id)
  rintro work after ⟨same, memory⟩
  -- What is said about the link at the end changes neither the answer nor the ring.
  have linked (middle : Controller × Machine Emulator)
      (clear : work.transmitDone = true →
        TransmitRing.Clear controller.transmitRing.capacity (middle.1.transmitRing, middle.2)) :
      (do
        if work.linkChanged then
          let state := if ← Step.second linkUp then "up" else "down"
          Step.second (Machine.note .info s!"[e1000] link {state}")
        return work : Step ε _ _).Ends middle
          (fun work after => work = .ofCauses machine.device.pending.named ∧
            (work.transmitDone = true →
              TransmitRing.Clear controller.transmitRing.capacity (after.1.transmitRing, after.2)))
          (fun _ _ => False) := by
    unfold linkUp
    simp only [Step.ends_bind, Step.ends_ite, Step.ends_second, Register.ends_read, Machine.ends_note,
      Step.ends_pure]
    exact ⟨fun _ => ⟨same, clear⟩, fun _ => ⟨same, clear⟩⟩
  rw [Step.ends_ite]
  refine ⟨fun _ => ?_, fun quiet => linked _ fun done => absurd done quiet⟩
  have clears : (reclaim : Step ε _ _).Ends ({ controller with interrupts := after.1 }, after.2)
      (fun _ after => TransmitRing.Clear controller.transmitRing.capacity (after.1.transmitRing, after.2))
      (fun _ _ => False) := by
    unfold reclaim
    rw [ends_onTransmit]
    exact TransmitRing.reclaim_clears (memory ▸ seated)
  rw [Step.ends_bind]
  exact clears.mono (fun _ middle clear => linked middle fun _ => clear) (fun _ _ => id)

/-! ### Slots that are spent -/

theorem Call.perform_spent (sound : Sound controller [] controller.receiveRing.recycled site)
    (pagesKnown : call.PagesKnown controller site.machine.memory)
    (outside : call.target ≠ some controller.transmitRing.table.page) :
    call.perform.Ends (controller, site.machine)
      (fun _ after => ∀ slot, after.1.transmitRing.Spent after.2.memory slot →
        controller.transmitRing.Spent site.machine.memory slot)
      (fun _ after => ∀ slot, after.1.transmitRing.Spent after.2.memory slot →
        controller.transmitRing.Spent site.machine.memory slot) := by
  have seated := sound.wired.seated
  -- Nothing that is taken from the receive ring is put into the transmit table.
  have kept {after : Controller × Machine Emulator}
      (receiveOnly : Controller.ReceiveOnly (fun id => call.target = some id) (controller, site.machine) after)
      (slot : Nat) (spent : after.1.transmitRing.Spent after.2.memory slot) :
      controller.transmitRing.Spent site.machine.memory slot := by
    have cells := DescriptorTable.cell_of_changes receiveOnly.leads.changes seated.knows
      (not_or.mpr ⟨sound.tables_apart, outside⟩)
    unfold TransmitRing.Spent DescriptorTable.transmitCell at spent ⊢
    rwa [receiveOnly.transmitRing, cells] at spent
  cases call with
  | transmit fragment =>
    unfold perform Controller.transmit
    simp only [Step.ends_bind, Step.ends_mapRefusal, Controller.ends_onTransmit, Step.ends_pure]
    exact (TransmitRing.post_leads seated (pagesKnown.fragments fragment (List.mem_singleton_self _))).mono
      (fun _ _ leads => leads.spent) (fun _ _ leads => leads.spent)
  | transmitFrame fragments =>
    unfold perform Controller.transmitFrame
    simp only [Step.ends_bind, Step.ends_mapRefusal, Controller.ends_onTransmit, Step.ends_pure]
    exact (TransmitRing.postFrame_leads seated pagesKnown.fragments).mono
      (fun _ _ leads => leads.spent) (fun _ _ leads => leads.spent)
  | reclaim =>
    unfold perform
    simp only [Step.ends_bind, Step.ends_pure]
    exact (Controller.reclaim_upkeep seated).mono (fun _ _ upkeep => upkeep.transmitOnly.leads.spent)
      (fun _ _ => False.elim)
  | serviceInterrupts =>
    unfold perform
    simp only [Step.ends_bind, Step.ends_pure]
    exact (Controller.serviceInterrupts_upkeep seated).mono (fun _ _ upkeep => upkeep.transmitOnly.leads.spent)
      (fun _ _ => False.elim)
  | receive | receiveInto | receiveIntoPage =>
    exact (perform_receiveOnly sound pagesKnown trivial).mono (fun _ _ => kept) (fun _ _ => kept)

/-! ### Sessions -/

/-- A call that may be made: of fragments that the user can offer, in pages that the device reaches, and into a page
that the user holds. -/
structure Session.AllowsMapped (session : Session) (call : Call) : Prop where
  fragments : ∀ fragment ∈ call.fragments,
    session.Offers fragment ∧ session.site.machine.memory.Reaches fragment.page
  target : ∀ target, call.target = some target → target ∈ session.site.others.held

theorem Session.AllowsMapped.allowed (permitted : session.AllowsMapped call) : (Act.ask call).Allowed session :=
  ⟨fun fragment listed => (permitted.fragments fragment listed).1, permitted.target⟩

theorem Session.AllowsMapped.reached (permitted : session.AllowsMapped call) :
    ∀ fragment ∈ call.fragments, session.site.machine.memory.Reaches fragment.page :=
  fun fragment listed => (permitted.fragments fragment listed).2

theorem Event.mapped {proper : Session → Call → Prop} (mapped : session.Mapped settings flights)
    (event : Event (fun _ => .free) proper session next)
    (permitted : ∀ call, proper session call → session.AllowsMapped call) : ∃ later, next.Mapped settings later := by
  have sound := event.sound mapped.sound fun call allowed => (permitted call allowed).allowed.allows mapped.sound
  have asked {call : Call} (allowed : proper session call) :=
    mapped.asks (permitted call allowed).allowed (permitted call allowed).reached
  cases event with
  | move move =>
    obtain ⟨count, -, inFlight, -⟩ := mapped.inFlight.move mapped.sound.site move
    exact ⟨_, sound, inFlight⟩
  | answered call allowed ended => exact ⟨_, (Step.ends_of_ok ended).mp (asked allowed _ _)⟩
  | stopped call allowed ended => exact ⟨_, (Step.ends_of_error ended).mp (asked allowed _ _)⟩

structure Session.SpentSignalled (settings : Settings) (session : Session) : Prop where
  mapped : ∃ flights, session.Mapped settings flights
  signalled : ∀ slot, session.controller.transmitRing.Spent session.site.machine.memory slot →
    session.site.machine.device.pending.meets ⟨0x03⟩ = true

namespace Session.SpentSignalled

/-- After a service no slot is spent: if the causes hint at one it is reclaimed, and otherwise there is none. -/
theorem services (signals : session.SpentSignalled settings) :
    (Controller.serviceInterrupts : Step ε _ _).Ends (session.controller, session.site.machine)
      (fun work after => work = .ofCauses session.site.machine.device.pending.named ∧
        ∀ slot, ¬ after.1.transmitRing.Spent after.2.memory slot) (fun _ _ => False) := by
  obtain ⟨flights, mapped⟩ := signals.mapped
  have seated := mapped.inFlight.flies.carries.wired.seated
  refine ((Controller.serviceInterrupts_reports seated).and (Controller.serviceInterrupts_upkeep seated)).mono ?_
    (fun _ _ => And.left)
  rintro work after ⟨⟨same, clear⟩, upkeep⟩
  refine ⟨same, fun slot spent => ?_⟩
  have leads := upkeep.transmitOnly.leads
  have done : work.transmitDone = true := by
    rw [same]
    exact (Cause.meets_named (by decide)).trans (signals.signalled slot (leads.spent slot spent))
  exact (clear done).not_spent (leads.bindings.trans seated.bindings).le slot spent

/-- A call leaves no slot spent that no cause speaks of. Only a service takes causes away, and it leaves no slot
spent. -/
theorem calls (signals : session.SpentSignalled settings) (permitted : session.AllowsMapped call) :
    call.perform.Ends (session.controller, session.site.machine)
      (fun _ after => ∀ slot, after.1.transmitRing.Spent after.2.memory slot →
        after.2.device.pending.meets ⟨0x03⟩ = true)
      (fun _ after => ∀ slot, after.1.transmitRing.Spent after.2.memory slot →
        after.2.device.pending.meets ⟨0x03⟩ = true) := by
  obtain ⟨flights, mapped⟩ := signals.mapped
  have allows := permitted.allowed.allows mapped.sound
  by_cases services : call = .serviceInterrupts
  · subst services
    unfold Call.perform
    simp only [Step.ends_bind, Step.ends_pure]
    exact signals.services.mono (fun _ _ ends slot spent => absurd spent (ends.2 slot)) (fun _ _ => False.elim)
  · have holds := Call.perform_holds services session.controller session.site.machine
    have spent := Call.perform_spent mapped.sound.site (allows.pagesKnown mapped.sound)
      (permitted.allowed.outside mapped.sound)
    have kept {after : Controller × Machine Emulator} (holds : after.2.device.Holds session.site.machine.device.pending)
        (spent : ∀ slot, after.1.transmitRing.Spent after.2.memory slot →
          session.controller.transmitRing.Spent session.site.machine.memory slot) (slot : Nat)
        (here : after.1.transmitRing.Spent after.2.memory slot) : after.2.device.pending.meets ⟨0x03⟩ = true :=
      holds.meets (signals.signalled slot (spent slot here))
    exact (holds.and spent).mono (fun _ _ both => kept both.1 both.2) (fun _ _ both => kept both.1 both.2)

end Session.SpentSignalled

/-- A slot becomes spent only as the transmit engine says that it has finished one. -/
theorem Session.Mapped.move_spent {next : Site} (mapped : session.Mapped settings flights)
    (move : Move .free session.site next) (slot : Nat)
    (spent : session.controller.transmitRing.Spent next.machine.memory slot) :
    session.controller.transmitRing.Spent session.site.machine.memory slot ∨
      next.machine.device.pending.meets ⟨0x03⟩ = true := by
  have sound := mapped.sound.site
  have known := sound.wired.seated.knows
  -- Whatever leaves the table alone leaves its slots as they are.
  have elsewhere {scope : PageId → Prop} (changes : session.site.machine.memory.ChangesWithin scope next.machine.memory)
      (outside : ¬ scope session.controller.transmitRing.table.page) :
      session.controller.transmitRing.Spent session.site.machine.memory slot ∨
        next.machine.device.pending.meets ⟨0x03⟩ = true := by
    left
    have cells := DescriptorTable.cell_of_changes changes known outside
    unfold TransmitRing.Spent DescriptorTable.transmitCell at spent ⊢
    rwa [cells] at spent
  cases move with
  | action action =>
    refine elsewhere (action.effect sound.housed sound.distinct).changes ?_
    rintro ⟨held, -⟩
    exact mapped.sound.site.foreign held (Sound.table_mem_own _)
  | transmit limit =>
    have transmitted := mapped.inFlight.transmit_signals sound limit
    refine (transmitted.mono (fun _ _ => And.right) (fun _ _ => False.elim)).after.imp (fun same => ?_) id
    rwa [same] at spent
  | inject frame errors taken =>
    exact elsewhere ((Step.ends_of_ok taken).mp (sound.receive_ends frame errors)).1.changes sound.table_not_mem
  | lose frame errors refused =>
    exact elsewhere ((Step.ends_of_error refused).mp (sound.receive_ends frame errors)).1.changes sound.table_not_mem
  | raise cause => exact .inl spent

theorem Event.signals (signals : session.SpentSignalled settings)
    (event : Event (fun _ => .free) Session.AllowsMapped session next) :
    next.SpentSignalled settings := by
  obtain ⟨flights, mapped⟩ := signals.mapped
  refine ⟨event.mapped mapped fun _ => id, ?_⟩
  cases event with
  | move move =>
    intro slot spent
    rcases mapped.move_spent move slot spent with before | signalled
    · exact (move.holds mapped.sound.site mapped.inFlight).meets (signals.signalled slot before)
    · exact signalled
  | answered call permitted ended => exact (Step.ends_of_ok ended).mp (signals.calls permitted)
  | stopped call permitted ended => exact (Step.ends_of_error ended).mp (signals.calls permitted)

theorem Event.holds (mapped : session.Mapped settings flights)
    (event : Event (fun _ => .free) (fun session call => session.AllowsMapped call ∧ call ≠ .serviceInterrupts) session
      next) : next.site.machine.device.Holds session.site.machine.device.pending := by
  cases event with
  | move move => exact move.holds mapped.sound.site mapped.inFlight
  | answered call allowed ended => exact (Step.ends_of_ok ended).mp (Call.perform_holds allowed.2 _ _)
  | stopped call allowed ended => exact (Step.ends_of_error ended).mp (Call.perform_holds allowed.2 _ _)

theorem Event.mono {rules : Session → Rules} {proper wider : Session → Call → Prop}
    (event : Event rules proper session next) (covered : ∀ call, proper session call → wider session call) :
    Event rules wider session next := by
  cases event with
  | move move => exact .move move
  | answered call allowed ended => exact .answered call (covered call allowed) ended
  | stopped call allowed ended => exact .stopped call (covered call allowed) ended

/-! ### The next service -/

def Session.BeforeService : Session → Session → Prop :=
  Event (fun _ => .free) fun session call => session.AllowsMapped call ∧ call ≠ .serviceInterrupts

/-- Whatever happens before, the next service of the interrupts ends in this way. -/
def Session.NextService (session : Session) (reports : Work → Controller × Machine Emulator → Prop) : Prop :=
  ∀ later, Relation.ReflTransGen Session.BeforeService session later →
    (Controller.serviceInterrupts : Step CallError _ _).Ends (later.controller, later.site.machine) reports
      (fun _ _ => False)

def Session.Cleared (after : Controller × Machine Emulator) : Prop :=
  ∀ slot, ¬ after.1.transmitRing.Spent after.2.memory slot

structure Session.ReportsWork (session : Session) : Prop where
  /-- A slot that keeps a page although it is done is reported, and none is left. -/
  spent : ∀ slot, session.controller.transmitRing.Spent session.site.machine.memory slot →
    session.NextService fun work after => work.transmitDone = true ∧ Session.Cleared after
  /-- A frame that came in is reported. -/
  arrived : ∀ frame errors machine, Emulator.receive frame errors session.site.machine = .ok () machine →
    Session.NextService { session with site := { session.site with
      machine := machine, others.arrivals := session.site.others.arrivals ++ [⟨frame, errors⟩] } }
        fun work _ => work.receiveReady = true
  /-- A frame that found the ring full is reported. -/
  missed : ∀ frame errors machine,
    Emulator.receive frame errors session.site.machine = .error (.refused .ringFull) machine →
      Session.NextService { session with site := { session.site with machine := machine } }
        fun work _ => work.receiveReady = true

namespace Session.SpentSignalled

theorem beforeService (signals : session.SpentSignalled settings) {later : Session}
    (run : Relation.ReflTransGen Session.BeforeService session later) :
    later.SpentSignalled settings ∧ later.site.machine.device.Holds session.site.machine.device.pending := by
  induction run with
  | refl => exact ⟨signals, .refl _⟩
  | tail _ event ih =>
    obtain ⟨before, holds⟩ := ih
    obtain ⟨flights, mapped⟩ := before.mapped
    obtain ⟨more, pending⟩ := event.holds mapped
    exact ⟨(event.mono fun _ => And.left).signals before, holds.more pending⟩

/-- A cause that is pending now is reported by the next service. -/
theorem next_service (signals : session.SpentSignalled settings) {mask : Cause}
    (pending : session.site.machine.device.pending.meets mask = true) (known : 0xDF &&& mask.bits = mask.bits) :
    session.NextService fun work after =>
      (∃ cause : Cause, work = .ofCauses cause ∧ cause.meets mask = true) ∧ Session.Cleared after := by
  intro later run
  obtain ⟨signals, holds⟩ := signals.beforeService run
  refine signals.services.mono ?_ (fun _ _ => id)
  rintro work after ⟨same, cleared⟩
  exact ⟨⟨_, same, (Cause.meets_named known).trans (holds.meets pending)⟩, cleared⟩

theorem reportsWork (signals : session.SpentSignalled settings) : session.ReportsWork where
  spent slot spent later run := by
    refine (signals.next_service (signals.signalled slot spent) (by decide) later run).mono ?_ (fun _ _ => id)
    rintro _ after ⟨⟨cause, rfl, meets⟩, cleared⟩
    exact ⟨meets, cleared⟩
  arrived frame errors machine taken later run := by
    obtain ⟨flights, mapped⟩ := signals.mapped
    have pending := (Step.ends_of_ok taken).mp (mapped.sound.site.receive_signals frame errors)
    have moved := Event.signals signals (.move (.inject frame errors taken))
    have meets : machine.device.pending.meets ⟨0xD0⟩ = true := by
      rw [pending, Cause.meets_union, show Cause.received.meets ⟨0xD0⟩ = true by decide, Bool.or_true]
    refine (moved.next_service meets (by decide) later run).mono ?_ (fun _ _ => id)
    rintro _ after ⟨⟨cause, rfl, meets⟩, -⟩
    exact meets
  missed frame errors machine refused later run := by
    obtain ⟨flights, mapped⟩ := signals.mapped
    have pending := ((Step.ends_of_error refused).mp (mapped.sound.site.receive_signals frame errors)).2 rfl
    have moved := Event.signals signals (.move (.lose frame errors refused))
    have meets : machine.device.pending.meets ⟨0xD0⟩ = true := by
      rw [pending, Cause.meets_union, show Cause.receiverOverrun.meets ⟨0xD0⟩ = true by decide, Bool.or_true]
    refine (moved.next_service meets (by decide) later run).mono ?_ (fun _ _ => id)
    rintro _ after ⟨⟨cause, rfl, meets⟩, -⟩
    exact meets

end Session.SpentSignalled

theorem Attached.signals (attached : Attached settings controller site) :
    (Session.opened controller site).SpentSignalled settings where
  mapped := ⟨[], attached.mapped⟩
  signalled slot spent := by
    -- No slot of a new ring keeps a page.
    obtain ⟨page, blank⟩ := attached.started.transmitBlank
    have bound := spent.1
    dsimp only at bound
    rw [blank, TransmitRing.binding_blank] at bound
    cases bound

/-- After a controller was attached, whatever calls are made of it and whatever the device and the others do, nothing
that there is to do is lost: the next service of the interrupts reports slots that are done and reclaims them, and it
reports that a frame came in or was lost. -/
theorem interrupt_work_is_reported (attached : Attached settings controller site)
    (run : Relation.ReflTransGen (Event (fun _ => .free) Session.AllowsMapped) (.opened controller site) session) :
    session.ReportsWork := by
  suffices signals : session.SpentSignalled settings from signals.reportsWork
  induction run with
  | refl => exact attached.signals
  | tail _ event ih => exact event.signals ih

theorem Session.Mapped.exists_spent {flight : Flight} (mapped : session.Mapped settings [flight]) :
    ∃ slot, session.controller.transmitRing.Spent ((Emulator.transmit 1).after session.site.machine).memory slot := by
  have carries := mapped.inFlight.flies.carries
  have asks := carries.asked 0 flight rfl
  have inside : (session.site.machine.device.transmitSide.head + 0) % session.controller.transmitRing.capacity <
      session.controller.transmitRing.capacity := Nat.mod_lt _ (Nat.lt_of_succ_lt carries.wired.several)
  generalize (session.site.machine.device.transmitSide.head + 0) % session.controller.transmitRing.capacity = slot
    at asks inside
  generalize ended : (Emulator.transmit 1).after session.site.machine = last
  refine ⟨slot, by rw [asks.binding]; rfl, ?_⟩
  apply Step.Ends.reached ended
  refine (Emulator.transmit_flies (mapped.sound.site.transmitReady mapped.inFlight.flies) 1).mono ?_ ?_
  · rintro count after ⟨all, fetched⟩
    have flies := fetched.flies
    rw [all, List.length_singleton, Nat.min_self, List.drop_one, List.tail_cons] at flies
    exact flies.carries.rest slot inside List.not_mem_nil
  · rintro _ _ ⟨stuck, -, -, other, here, hidden⟩
    exact absurd (mapped.visible other (List.mem_of_getElem? here)) hidden

/-- A frame is posted and sent, and its page is not yet given back. -/
theorem interrupt_work_is_reported_once : ∃ controller site session slot, Attached {} controller site ∧
    Relation.ReflTransGen (Event (fun _ => .free) Session.AllowsMapped) (.opened controller site) session ∧
    session.controller.transmitRing.Spent session.site.machine.memory slot ∧ session.ReportsWork := by
  obtain ⟨controller, site, page, attached, -, held, -, reached⟩ := exists_attached_beside
  have started := attached.started
  have size := started.sound.housed.charted.size_of_reaches reached
  have valid : site.machine.memory.fragment page 0 60 = .ok ⟨page, 0, 60⟩ :=
    Memory.fragment_of_whole size (by decide) (by decide)
  have permitted : (Session.opened controller site).AllowsMapped (.transmit ⟨page, 0, 60⟩) := by
    refine ⟨fun fragment listed => ?_, nofun⟩
    rw [List.mem_singleton.mp listed]
    exact ⟨⟨held ▸ List.mem_singleton_self page, valid⟩, reached⟩
  -- The ring is empty, so the frame is not turned away.
  have answer : (Call.transmit ⟨page, 0, 60⟩).perform.Ends (controller, site.machine) (fun _ _ => True)
      (fun _ _ => False) := by
    have sendable := started.sound.sendable (Memory.fragment_eq_ok valid).2 reached
    unfold Call.perform Controller.transmit
    simp only [Step.ends_bind, Step.ends_mapRefusal, Controller.ends_onTransmit, Step.ends_pure]
    refine (TransmitRing.post_flies_of_sendable started.flies sendable).mono (fun _ _ _ => trivial) ?_
    rintro _ after ⟨-, -, full⟩
    have several := started.flies.carries.wired.several
    rw [List.length_nil] at full
    omega
  obtain ⟨frame, ⟨controller', machine'⟩, ended, -⟩ := answer.exists_ok
  have posted : Event (fun _ => .free) Session.AllowsMapped (.opened controller site) _ := .answered _ permitted ended
  have aloft : Session.Mapped {} _ [⟨⟨page, 0, 60⟩, true⟩] :=
    (Step.ends_of_ok ended).mp (attached.mapped.asks permitted.allowed permitted.reached [] [])
  obtain ⟨slot, spent⟩ := aloft.exists_spent
  have run := (Relation.ReflTransGen.single posted).tail (.move (.transmit 1))
  exact ⟨controller, site, _, slot, attached, run, spent, interrupt_work_is_reported attached run⟩

end PacketPath
