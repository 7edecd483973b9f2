import PacketPath.Proofs.System.Session

/-! Reception: seen from its user, the receive side is a bounded queue. The useful frames that came in
are delivered in order, once each and as they were, and a frame that comes in is refused only when the
queue is full. -/

set_option autoImplicit false

namespace PacketPath

variable {rules : Session → Rules} {settings : Settings} {session next : Session} {controller : Controller}
  {site : Site}

structure Tallied (session : Session) : Prop where
  delivered : session.delivered = clean (session.site.others.arrivals.take session.controller.receiveRing.recycled)
  dropped : session.controller.receiveRing.counters.dropped =
    (session.site.others.arrivals.take session.controller.receiveRing.recycled).countP Arrival.spoiled

theorem Tallied.leaves {target : Option PageId} {frame : Option (List UInt8)} {after : Controller × Machine Emulator}
    (tallied : Tallied session) (leaves : Call.Leaves target session.controller session.site frame after)
    (accepted : List (List (List UInt8))) :
    Tallied
      { controller := after.1
        site := { session.site with machine := after.2 }
        accepted := accepted
        delivered := session.delivered ++ frame.toList } := by
  obtain ⟨gone, taken, useful, dropped, -⟩ := leaves.recycles.exists_taken
  constructor
  · dsimp only
    rw [taken, clean_append, useful, tallied.delivered]
  · dsimp only
    rw [taken, List.countP_append, dropped, tallied.dropped]

theorem Event.tallied (sound : session.Sound settings) (tallied : Tallied session)
    (event : Event rules Session.Allows session next) : Tallied next := by
  cases event with
  | @move next move =>
    obtain ⟨more, arrivals⟩ := (move.keepsReserved sound.site).2.arrivals
    have kept : (session.site.others.arrivals ++ more).take session.controller.receiveRing.recycled =
        session.site.others.arrivals.take session.controller.receiveRing.recycled :=
      List.take_append_of_le_length sound.site.consumed
    constructor
    · dsimp only
      rw [arrivals, kept]
      exact tallied.delivered
    · dsimp only
      rw [arrivals, kept]
      exact tallied.dropped
  | answered call allowed ended => exact tallied.leaves (sound.answered allowed ended) _
  | stopped call allowed ended =>
    have leaves := tallied.leaves (sound.stopped allowed ended) session.accepted
    rw [Option.toList_none, List.append_nil] at leaves
    exact leaves

/-! ### The queue -/

namespace Session

def taken (session : Session) : List Arrival :=
  session.site.others.arrivals.take session.controller.receiveRing.recycled

def queue (session : Session) : List Arrival :=
  session.site.others.arrivals.drop session.controller.receiveRing.recycled

/-- A session keeps a queue of received frames. What was delivered are the useful ones among the frames
that were handed back, and the others still stand in the ring as they came in. One slot less than there
are can be used: a frame that fits a buffer is refused when that many frames are in the ring, and only
then. A call on the receive side delivers the oldest useful frame; it stops only if its destination is
too short, or begins past the end of its page, and then no useful frame is lost. -/
structure Queues (settings : Settings) (session : Session) : Prop where
  consumed : session.taken.length = session.controller.receiveRing.recycled
  delivered : session.delivered = clean session.taken
  complete : clean session.site.others.arrivals = session.delivered ++ clean session.queue
  dropped : session.controller.receiveRing.counters.dropped = session.taken.countP Arrival.spoiled
  bounded : session.queue.length ≤ settings.receiveLength - 1
  kept : ∀ i arrival, session.queue[i]? = some arrival →
    session.controller.receiveRing.Filled session.site.machine.memory
      ((session.controller.receiveRing.cursor + i) % settings.receiveLength) arrival
  arrives : ∀ frame errors, frame.length ≤ Limits.receiveBuffer →
    (Emulator.receive frame errors).Ends session.site.machine
      (fun _ _ => session.queue.length < settings.receiveLength - 1)
      (fun stop _ => stop = .refused .ringFull ∧ session.queue.length = settings.receiveLength - 1)
  answers : ∀ call, session.Allows call →
    call.perform.Ends (session.controller, session.site.machine)
      (fun frame _ => call.Receives → frame = (clean session.queue).head?)
      (fun stop after => (call.Within session.site.machine.memory → call.MayStop stop) ∧
        clean (session.site.others.arrivals.drop after.1.receiveRing.recycled) = clean session.queue)

end Session

theorem Tallied.queues (sound : session.Sound settings) (tallied : Tallied session) : session.Queues settings := by
  have stands : session.controller.receiveRing.Holds session.site.machine.memory
      session.site.machine.device.receiveSide session.queue := sound.site.stands
  have bounded := stands.bounded
  have filled := stands.filled
  have capacity := sound.receiveCapacity
  rw [capacity] at bounded filled
  refine ⟨?_, tallied.delivered, ?_, tallied.dropped, by omega, filled, ?_, ?_⟩
  · exact List.length_take_of_le sound.site.consumed
  · rw [tallied.delivered, Session.queue, ← clean_append, List.take_append_drop]
  · intro frame errors short
    refine (sound.site.receive_ends frame errors).mono ?_ ?_
    · rintro _ after ⟨-, -, room, -⟩
      rwa [capacity] at room
    · rintro stop after ⟨-, -, ⟨-, long⟩ | ⟨full, -, count⟩⟩
      · omega
      · rw [capacity] at count
        exact ⟨full, count⟩
  · intro call allows
    refine (Call.perform_leaves sound.site (allows.pagesKnown sound)).mono (fun _ _ answer => answer.2) ?_
    rintro stop after ⟨leaves, mayStop⟩
    exact ⟨mayStop, leaves.recycles.clean_eq.symm⟩

/-- Whatever calls are made of an attached controller and whatever happens around it, in any order, its
receive side is a bounded queue that loses nothing and repeats nothing. -/
theorem reception_refines_queue (attached : Attached settings controller site)
    (run : Relation.ReflTransGen (Event rules Session.Allows) (.opened controller site) session) :
    session.Queues settings := by
  suffices kept : session.Sound settings ∧ Tallied session from kept.2.queues kept.1
  induction run with
  | refl =>
    have started := attached.started
    obtain ⟨_, _, blank⟩ := started.receiveBlank
    refine ⟨attached.begins, ?_, ?_⟩
    · dsimp only
      rw [started.arrivals, List.take_nil]
      rfl
    · dsimp only
      rw [started.arrivals, List.take_nil, blank]
      rfl
  | tail _ event ih => exact ⟨event.sound ih.1 fun _ => id, event.tallied ih.1 ih.2⟩

/-- A frame comes in and is received. -/
theorem reception_refines_queue_once : ∃ controller site session, Attached {} controller site ∧
    Relation.ReflTransGen (Event (fun _ => .free) Session.Allows) (.opened controller site) session ∧
    session.delivered = [[1, 2, 3]] ∧ session.Queues {} := by
  have earlier : PageActions .free (Site.fresh ⟨0x52, 0x54, 0, 0x12, 0x34, 0x56⟩ none) _ := .none _
  obtain ⟨controller, site, attached, -⟩ :=
    earlier.exists_attached (Board.suits (by decide) (Board.hasRoom_create (by decide)))
  have none : Relation.ReflTransGen (Event (fun _ => .free) Session.Allows) (.opened controller site) _ := .refl
  have start := reception_refines_queue attached none
  have arrivals := attached.started.arrivals
  obtain ⟨_, _, blank⟩ := attached.started.receiveBlank
  have recycled : controller.receiveRing.recycled = 0 := by rw [blank]; rfl
  -- The ring is empty, so the frame is not refused.
  have comes : (Emulator.receive [1, 2, 3] .none).Ends site.machine (fun _ _ => True) (fun _ _ => False) := by
    refine (start.arrives [1, 2, 3] .none (by decide)).mono (fun _ _ _ => trivial) ?_
    rintro _ _ ⟨-, full⟩
    rw [Session.queue, arrivals, List.drop_nil] at full
    exact absurd full (by decide)
  obtain ⟨⟨⟩, later, taken, -⟩ := comes.exists_ok
  have injected : Event (fun _ => .free) Session.Allows ⟨controller, site, [], []⟩ ⟨controller, _, [], []⟩ :=
    .move (.inject [1, 2, 3] .none taken)
  have middle := reception_refines_queue attached (.single injected)
  have allows : Session.Allows ⟨controller, { site with
      machine := later, others.arrivals := site.others.arrivals ++ [⟨[1, 2, 3], .none⟩] }, [], []⟩ .receive :=
    ⟨nofun, nofun⟩
  have answer : Call.receive.perform.Ends (controller, later) (fun frame _ => frame = some [1, 2, 3])
      (fun _ _ => False) := by
    refine (middle.answers .receive allows).mono (fun frame _ answer => ?_) (fun _ _ stopped => stopped.1 nofun)
    rw [answer trivial, Session.queue, recycled, arrivals]
    rfl
  obtain ⟨_, ⟨controller', machine'⟩, ended, rfl⟩ := answer.exists_ok
  have received : Event (fun _ => .free) Session.Allows _ _ := .answered .receive allows ended
  have run := (Relation.ReflTransGen.single injected).tail received
  exact ⟨controller, site, _, attached, run, rfl, reception_refines_queue attached run⟩

end PacketPath
