import PacketPath.Proofs.Host.Findings
import PacketPath.Proofs.System.InFlight

/-! Acts: what is done in a session, written down so that one list of acts can be compared with another. Every
act is answered, and the flights that it leaves can be told from its answer. -/

set_option autoImplicit false

namespace PacketPath

/-- What the user of a controller, the device or somebody else does. -/
inductive Act where
  | ask (call : Call)
  /-- Count the slots that can be posted. -/
  | countFree
  /-- The transmit engine runs, and something is found about each slot that it finishes. -/
  | serve (limit : Nat) (found : Nat → TransmitStatus)
  /-- The device changes the status of a slot that is done already. -/
  | revise (slot : Nat) (found : TransmitStatus)
  /-- A frame comes in. -/
  | inject (frame : List UInt8) (errors : ReceiveErrors)
  | raise (cause : Cause)
  /-- Ask the board for a page. -/
  | allocate
  /-- Make a page that the device is not told of, at any address. -/
  | make (base : UInt64) (size : Nat)
  | retain (page : PageId)
  | release (page : PageId)
  | write (page : PageId) (offset : Nat) (data : List UInt8)

inductive Answer where
  | none
  | asked (ended : Except (Stop CallError) (Option (List UInt8)))
  | counted (ended : Except (Stop Empty) Nat)
  | served (ended : Except (Stop HostError) Nat)
  | injected (ended : Except (Stop HostError) Unit)
  | page (page : PageId)

variable {ε α : Type}

def Session.work (session : Session) (step : Step ε (Machine Emulator) α) : Except (Stop ε) α × Session :=
  match step session.site.machine with
  | .ok value machine => (.ok value, { session with site.machine := machine })
  | .error stop machine => (.error stop, { session with site.machine := machine })

namespace Act

def perform (session : Session) : Act → Answer × Session
  | .ask call =>
    match call.perform (session.controller, session.site.machine) with
    | .ok frame (controller, machine) =>
      (.asked (.ok frame),
        { controller := controller
          site := { session.site with machine := machine }
          accepted := session.accepted ++ call.frames session.site.machine.memory
          delivered := session.delivered ++ frame.toList })
    | .error stop (controller, machine) =>
      (.asked (.error stop),
        { session with controller := controller, site := { session.site with machine := machine } })
  | .countFree =>
    let (ended, next) := session.work session.controller.transmitRing.freeSlots
    (.counted ended, next)
  | .serve limit found =>
    let (ended, next) := session.work (Emulator.serve session.controller.transmitRing limit found)
    (.served ended, next)
  | .revise slot found =>
    let ring := session.controller.transmitRing
    (.none, { session with
      site.machine.memory := ring.mark (fun _ => found) session.site.machine.memory [slot] })
  | .inject frame errors =>
    match Emulator.receive frame errors session.site.machine with
    | .ok () machine =>
      (.injected (.ok ()), { session with site := { session.site with
        machine := machine, others.arrivals := session.site.others.arrivals ++ [⟨frame, errors⟩] } })
    | .error stop machine =>
      (.injected (.error stop), { session with site := { session.site with machine := machine } })
  | .raise cause =>
    (.none, { session with site.machine.device := session.site.machine.device.raise cause })
  | .allocate =>
    match Board.allocate (session.site.others.board, session.site.machine) with
    | .ok page (board, machine) =>
      (.page page, { session with site := { session.site with
        machine := machine, others.board := board, others.held := page :: session.site.others.held } })
    | .error _ _ => (.none, session)
  | .make base size =>
    match session.site.machine.memory.allocate base size with
    | some (page, memory) =>
      (.page page, { session with site := { session.site with
        machine.memory := memory, others.held := page :: session.site.others.held } })
    | none => (.none, session)
  | .retain page =>
    (.none, { session with site := { session.site with
      machine.memory := session.site.machine.memory.retain page
      others.held := page :: session.site.others.held } })
  | .release page =>
    (.none, { session with site := { session.site with
      machine.memory := session.site.machine.memory.release page
      others.held := session.site.others.held.erase page } })
  | .write page offset data =>
    (.none, { session with site.machine.memory := session.site.machine.memory.overwrite page offset data })

/-- Nobody works on pages that he does not hold, or past their ends, and the device changes the status of
finished slots only. -/
def Allowed (session : Session) : Act → Prop
  | .ask call => (∀ fragment ∈ call.fragments, session.Offers fragment) ∧
      ∀ target, call.target = some target → target ∈ session.site.others.held
  | .revise slot _ => slot < session.controller.transmitRing.capacity ∧
      (session.controller.transmitRing.table.transmitCell session.site.machine.memory slot).status.isDone = true
  | .retain page | .release page => page ∈ session.site.others.held
  | .write page offset data => page ∈ session.site.others.held ∧
      session.site.machine.memory.access page offset data.length = .ok ()
  | _ => True

/-- What an act may leave in flight: a call adds some of its fragments at the end, and everything else lets flights
leave, in order. -/
def Leaves (flights later : List Flight) : Act → Prop
  | .ask call => later <+: flights ++ Flight.ofFrame call.fragments
  | _ => later <:+ flights

theorem Leaves.unique {act : Act} {flights one other : List Flight} (first : act.Leaves flights one)
    (second : act.Leaves flights other) (same : other.length = one.length) : other = one := by
  cases act
  case ask => exact (List.prefix_of_prefix_length_le second first (Nat.le_of_eq same)).eq_of_length same
  all_goals exact (List.suffix_of_suffix_length_le second first (Nat.le_of_eq same)).eq_of_length same

end Act

variable {settings : Settings} {session after : Session} {flights later : List Flight} {next : Site}
  {scope : PageId → Prop} {act : Act}

structure Session.Consistent (settings : Settings) (session : Session) (flights : List Flight) : Prop where
  sound : session.Sound settings
  flies : TransmitRing.Flies (session.controller.transmitRing, session.site.machine) flights

structure Session.Mapped (settings : Settings) (session : Session) (flights : List Flight) : Prop where
  sound : session.Sound settings
  inFlight : InFlight (fun _ => True) session.controller session.site.machine flights

structure Session.Continues (settings : Settings) (before after : Session) (flights later : List Flight) : Prop where
  consistent : after.Consistent settings later
  left : later <:+ flights
  controller : after.controller = before.controller
  persists : before.controller.transmitRing.Persists before.site.machine.memory after.site.machine.memory
  changes : before.site.machine.memory.ChangesWithin (fun _ => True) after.site.machine.memory

namespace Session.Consistent

variable {machine : Machine Emulator}

theorem alive (consistent : session.Consistent settings flights) {id : PageId}
    (listed : id ∈ session.controller.transmitRing.pages) : 0 < session.site.machine.memory.handles id :=
  consistent.sound.site.alive (List.mem_append_left _ listed)

theorem move (consistent : session.Consistent settings flights) (move : Move .free session.site next)
    (changes : session.site.machine.memory.ChangesWithin scope next.machine.memory)
    (outside : ¬ scope session.controller.transmitRing.table.page)
    (transmitSide : next.machine.device.transmitSide = session.site.machine.device.transmitSide) :
    session.Continues settings { session with site := next } flights flights where
  consistent :=
    { sound :=
          ⟨(move.keepsReserved consistent.sound.site).1, consistent.sound.transmitCapacity,
            consistent.sound.receiveCapacity⟩
      flies := by
        have carries := consistent.flies.carries.of_changes changes outside
        unfold TransmitRing.Flies
        dsimp only
        rwa [transmitSide] }
  left := List.suffix_rfl
  controller := rfl
  persists := .of_changes changes consistent.flies.carries.wired.seated.knows outside
  changes := changes.mono fun _ _ => trivial

theorem action (consistent : session.Consistent settings flights) (action : PageAction .free session.site next) :
    session.Continues settings { session with site := next } flights flights := by
  have effect := action.effect consistent.sound.site.housed consistent.sound.site.distinct
  refine consistent.move (.action action) effect.changes ?_ (by rw [effect.device])
  rintro ⟨held, -⟩
  exact consistent.sound.site.foreign held (Sound.table_mem_own _)

theorem stay (consistent : session.Consistent settings flights) : session.Continues settings session flights flights :=
  ⟨consistent, List.suffix_rfl, rfl, .refl _ _, .refl _ _⟩

theorem injected (consistent : session.Consistent settings flights) (frame : List UInt8) (errors : ReceiveErrors) :
    session.Continues settings ((Act.inject frame errors).perform session).2 flights flights := by
  have sound := consistent.sound.site
  have ends := sound.receive_ends frame errors
  unfold Act.perform
  cases ended : Emulator.receive frame errors session.site.machine with
  | ok _ machine =>
    simp only [ended]
    obtain ⟨fills, -⟩ := (Step.ends_of_ok ended).mp ends
    exact consistent.move (.inject frame errors ended) fills.changes sound.table_not_mem fills.transmitSide
  | error stop machine =>
    simp only [ended]
    obtain ⟨fills, -⟩ := (Step.ends_of_error ended).mp ends
    exact consistent.move (.lose frame errors ended) fills.changes sound.table_not_mem fills.transmitSide

theorem served (consistent : session.Consistent settings flights)
    (serves : Emulator.Serves session.controller.transmitRing session.site.machine machine)
    (flies : TransmitRing.Flies (session.controller.transmitRing, machine) later) :
    Session.Consistent settings { session with site.machine := machine } later :=
  ⟨⟨consistent.sound.site.served serves, consistent.sound.transmitCapacity, consistent.sound.receiveCapacity⟩, flies⟩

theorem sent {count : Nat} (consistent : session.Consistent settings flights)
    (serves : Emulator.Serves session.controller.transmitRing session.site.machine machine)
    (flies : TransmitRing.Flies (session.controller.transmitRing, machine) (flights.drop count))
    (persists : session.controller.transmitRing.Persists session.site.machine.memory machine.memory) :
    session.Continues settings { session with site.machine := machine } flights (flights.drop count) where
  consistent := consistent.served serves flies
  left := List.drop_suffix ..
  controller := rfl
  persists := persists
  changes := serves.changes.mono fun _ _ => trivial

end Session.Consistent

namespace Session.Mapped

theorem consistent (mapped : session.Mapped settings flights) : session.Consistent settings flights :=
  ⟨mapped.sound, mapped.inFlight.flies⟩

theorem visible (mapped : session.Mapped settings flights) (flight : Flight) (listed : flight ∈ flights) :
    flight.Visible session.controller.transmitRing session.site.machine.memory :=
  (mapped.inFlight.accessible flight listed trivial).visible

theorem stays (mapped : session.Mapped settings flights) (consistent : after.Consistent settings later)
    (left : later ⊆ flights) (own : after.controller.own = session.controller.own)
    (changes : session.site.machine.memory.ChangesWithin scope after.site.machine.memory) :
    after.Mapped settings later where
  sound := consistent.sound
  inFlight :=
    { flies := consistent.flies
      accessible := fun flight listed matters => (mapped.inFlight.accessible flight (left listed) matters).stays own
        (mapped.inFlight.knows (left listed)) changes }

theorem continues (mapped : session.Mapped settings flights)
    (continues : session.Continues settings after flights later) :
    after.Mapped settings later :=
  mapped.stays continues.consistent continues.left.subset
    (congrArg Controller.own continues.controller) continues.changes

end Session.Mapped

theorem Attached.mapped {controller : Controller} {site : Site} (attached : Attached settings controller site) :
    (Session.opened controller site).Mapped settings [] :=
  ⟨attached.begins, attached.started.flies, nofun⟩

theorem Act.Allowed.allows {call : Call} (allowed : Act.Allowed session (.ask call))
    (sound : session.Sound settings) : session.Allows call where
  fragments := allowed.1
  target target here := sound.site.fillable (allowed.2 target here)

theorem Act.Allowed.outside {call : Call} (allowed : Act.Allowed session (.ask call))
    (sound : session.Sound settings) : call.target ≠ some session.controller.transmitRing.table.page :=
  fun target => sound.site.foreign (allowed.2 _ target) (Sound.table_mem_own _)

theorem Session.Consistent.asked {call : Call} {frame : Option (List UInt8)} {after : Controller × Machine Emulator}
    {accepted : List (List (List UInt8))} {delivered : List (List UInt8)}
    (consistent : session.Consistent settings flights)
    (leaves : Call.Leaves call.target session.controller session.site frame after)
    (flies : TransmitRing.Flies (after.1.transmitRing, after.2) later) :
    Session.Consistent settings ⟨after.1, { session.site with machine := after.2 }, accepted, delivered⟩ later where
  sound := ⟨leaves.sound, leaves.transmitCapacity.trans consistent.sound.transmitCapacity,
    leaves.receiveCapacity.trans consistent.sound.receiveCapacity⟩
  flies := flies

theorem Session.Mapped.asked {call : Call} {frame : Option (List UInt8)} {after : Controller × Machine Emulator}
    {accepted : List (List (List UInt8))} {delivered : List (List UInt8)}
    (mapped : session.Mapped settings flights)
    (leaves : Call.Leaves call.target session.controller session.site frame after)
    (flies : TransmitRing.Flies (after.1.transmitRing, after.2) later)
    (accessible : ∀ flight ∈ later, flight.Accessible session.controller session.site.machine.memory) :
    Session.Mapped settings ⟨after.1, { session.site with machine := after.2 }, accepted, delivered⟩ later := by
  have kept : Session.Consistent settings ⟨after.1, { session.site with machine := after.2 }, accepted, delivered⟩
      later := mapped.consistent.asked leaves flies
  refine ⟨kept.sound, kept.flies, fun flight listed _ => (accessible flight listed).stays leaves.own ?_ leaves.changes⟩
  exact mapped.sound.site.housed.charted.knows_of_reaches (accessible flight listed).reached

/-- What everybody does but the user of the controller, except that a report is changed. -/
def Act.IsExternal : Act → Prop
  | .ask _ | .revise .. => False
  | _ => True

/-- What is done apart from the controller leaves it as it is, and what was reported to it. -/
theorem Act.continues (consistent : session.Consistent settings flights) (apart : act.IsExternal)
    (allowed : act.Allowed session) : ∃ later, session.Continues settings (act.perform session).2 flights later := by
  have sound := consistent.sound
  have wired := consistent.flies.carries.wired
  cases act with
  | ask | revise => exact apart.elim
  | countFree =>
    have counted : (session.controller.transmitRing.freeSlots : Step Empty _ _).Ends session.site.machine
        (fun _ after => after = session.site.machine) (fun _ _ => False) :=
      (TransmitRing.ends_doneRun wired.seated.fits _ wired.seated.tail).mpr rfl
    obtain ⟨_, _, ended, rfl⟩ := counted.exists_ok
    unfold perform Session.work
    simp only [ended]
    exact ⟨_, consistent.stay⟩
  | serve limit found =>
    have served := Emulator.serve_fetches (sound.site.transmitReady consistent.flies) limit found
    unfold perform Session.work
    cases ended : Emulator.serve session.controller.transmitRing limit found session.site.machine with
    | ok count machine =>
      simp only [ended]
      obtain ⟨-, serves, flies, persists⟩ := (Step.ends_of_ok ended).mp served
      exact ⟨_, consistent.sent serves flies persists⟩
    | error stop machine =>
      simp only [ended]
      obtain ⟨stuck, serves, flies, persists, -⟩ := (Step.ends_of_error ended).mp served
      exact ⟨_, consistent.sent serves flies persists⟩
  | inject frame errors => exact ⟨_, consistent.injected frame errors⟩
  | raise cause => exact ⟨_, consistent.move (.raise cause) (.refl (fun _ => False) _) id rfl⟩
  | allocate =>
    unfold perform
    cases ended : Board.allocate (session.site.others.board, session.site.machine) with
    | ok page after => exact ⟨_, consistent.action (.allocate ended)⟩
    | error stop after => exact ⟨_, consistent.stay⟩
  | make base size =>
    unfold perform
    cases made : session.site.machine.memory.allocate base size with
    | some new =>
      simp only [made]
      exact ⟨_, consistent.action (.make base size made)⟩
    | none =>
      simp only [made]
      exact ⟨_, consistent.stay⟩
  | retain page => exact ⟨_, consistent.action (.retain page allowed)⟩
  | release page => exact ⟨_, consistent.action (.release page allowed)⟩
  | write page offset data => exact ⟨_, consistent.action (.write page offset data allowed.1 id allowed.2)⟩

theorem Act.leaves_of_suffix (apart : act.IsExternal) (left : later <:+ flights) : act.Leaves flights later := by
  cases act with
  | ask | revise => exact apart.elim
  | countFree | serve | inject | raise | allocate | make | retain | release | write => exact left

theorem Session.Consistent.revised (consistent : session.Consistent settings flights) {slot : Nat}
    {found : TransmitStatus} (allowed : (Act.revise slot found).Allowed session) :
    ((Act.revise slot found).perform session).2.Consistent settings flights := by
  have carries := consistent.flies.carries
  refine consistent.served (Emulator.serves_mark carries.wired.head _ _) ?_
  refine carries.marked (fun _ => found) fun other listed => ?_
  rw [List.mem_singleton.mp listed]
  exact allowed

/-- An act that is allowed keeps the session sound, whether or not the device can see what is in flight. -/
theorem Act.consistent (consistent : session.Consistent settings flights) (allowed : act.Allowed session) :
    ∃ later, (act.perform session).2.Consistent settings later ∧ act.Leaves flights later := by
  have gone (apart : act.IsExternal) : ∃ later, (act.perform session).2.Consistent settings later ∧
      act.Leaves flights later := by
    obtain ⟨later, continues⟩ := act.continues consistent apart allowed
    exact ⟨later, continues.consistent, leaves_of_suffix apart continues.left⟩
  cases act with
  | ask call =>
    have sound := consistent.sound
    have allows := allowed.allows sound
    have short (fragment : Fragment) (listed : fragment ∈ call.fragments) : fragment.length ≤ Limits.maxFrame :=
      (Memory.fragment_eq_ok (allowed.1 fragment listed).2).2.short
    have adds := Call.perform_adds sound.site consistent.flies (allows.pagesKnown sound) short (allowed.outside sound)
    unfold perform
    cases ended : call.perform (session.controller, session.site.machine) with
    | ok frame after =>
      simp only [ended]
      exact ⟨_, consistent.asked (sound.answered allows ended) ((Step.ends_of_ok ended).mp adds), List.prefix_rfl⟩
    | error stop after =>
      simp only [ended]
      obtain ⟨first, front, flies⟩ := (Step.ends_of_error ended).mp adds
      exact ⟨_, consistent.asked (sound.stopped allows ended) flies, (List.prefix_append_right_inj _).mpr front⟩
  | revise slot found => exact ⟨flights, consistent.revised allowed, List.suffix_rfl⟩
  | countFree | serve | inject | raise | allocate | make | retain | release | write => exact gone trivial

/-- A call of fragments in pages that the device reaches puts them into flight where the device can see them, all or
none of them. -/
theorem Session.Mapped.asks {call : Call} (mapped : session.Mapped settings flights)
    (allowed : (Act.ask call).Allowed session)
    (reached : ∀ fragment ∈ call.fragments, session.site.machine.memory.Reaches fragment.page)
    (accepted : List (List (List UInt8))) (delivered : List (List UInt8)) :
    call.perform.Ends (session.controller, session.site.machine)
      (fun _ after => Session.Mapped settings ⟨after.1, { session.site with machine := after.2 }, accepted, delivered⟩
        (flights ++ Flight.ofFrame call.fragments))
      (fun _ after => Session.Mapped settings ⟨after.1, { session.site with machine := after.2 }, accepted, delivered⟩
        flights) := by
  have sound := mapped.sound
  have allows := allowed.allows sound
  have offered (fragment : Fragment) (listed : fragment ∈ call.fragments) (endsFrame : Bool) :=
    (allowed.1 fragment listed).accessible sound (reached fragment listed) endsFrame
  -- A post adds its flights at the end; every other call leaves the flights alone.
  have flies := Call.perform_flies sound.site mapped.inFlight.flies (allows.pagesKnown sound)
    (fun fragment listed => (offered fragment listed true).2) (allowed.outside sound)
  have leaves := Call.perform_leaves sound.site (allows.pagesKnown sound)
  refine (flies.and leaves).mono ?_ ?_
  · rintro frame after ⟨flies, leaves, -⟩
    refine mapped.asked leaves flies fun flight listed => ?_
    rcases List.mem_append.mp listed with before | new
    · exact mapped.inFlight.accessible flight before trivial
    · exact (offered _ (Flight.exists_of_mem_ofFrame new) flight.endsFrame).1
  · rintro stop after ⟨flies, leaves, -⟩
    exact mapped.asked leaves flies fun flight listed => mapped.inFlight.accessible flight listed trivial

end PacketPath
