import Mathlib.Logic.Relation
import PacketPath.Proofs.System.Calls

/-! Sessions: a user makes calls of a controller while the others do what they do, in any order. What
was accepted for sending and what was delivered is kept on record. -/

set_option autoImplicit false

namespace PacketPath

/-- A controller at its site, with what its user has seen of it. -/
structure Session where
  controller : Controller
  site : Site
  /-- The frames accepted for sending, oldest first, each as the bytes of its fragments at that time. -/
  accepted : List (List (List UInt8)) := []
  /-- The frames delivered, oldest first. -/
  delivered : List (List UInt8) := []

/-- The frames that a call hands over: one, unless it has no fragment. -/
def Call.frames (call : Call) (memory : Memory) : List (List (List UInt8)) :=
  if call.fragments = [] then []
  else [call.fragments.map fun fragment => memory.slice fragment.page fragment.offset fragment.length]

namespace Session

abbrev opened (controller : Controller) (site : Site) : Session :=
  { controller := controller, site := site }

def Offers (session : Session) (fragment : Fragment) : Prop :=
  fragment.page ∈ session.site.others.held ∧
    session.site.machine.memory.fragment fragment.page fragment.offset fragment.length = .ok fragment

/-- A call that may be made: of fragments that the user can offer, and into a page that exists and is not
one of the receive ring's own. -/
structure Allows (session : Session) (call : Call) : Prop where
  fragments : ∀ fragment ∈ call.fragments, session.Offers fragment
  target : ∀ target, call.target = some target →
    session.site.machine.memory.Knows target ∧ target ∉ session.controller.receiveRing.pages

end Session

/-- One thing that happens in a session: a move of the others, or a call, which is answered or stops. The
rules for the others may depend on how far the session has come. -/
inductive Event (rules : Session → Rules) (proper : Session → Call → Prop) : Session → Session → Prop where
  | move {session : Session} {next : Site} (move : Move (rules session) session.site next) :
      Event rules proper session { session with site := next }
  | answered {session : Session} {frame : Option (List UInt8)} {controller : Controller}
      {machine : Machine Emulator} (call : Call) (allowed : proper session call)
      (ended : call.perform (session.controller, session.site.machine) = .ok frame (controller, machine)) :
      Event rules proper session
        { controller := controller
          site := { session.site with machine := machine }
          accepted := session.accepted ++ call.frames session.site.machine.memory
          delivered := session.delivered ++ frame.toList }
  | stopped {session : Session} {stop : Stop CallError} {controller : Controller} {machine : Machine Emulator}
      (call : Call) (allowed : proper session call)
      (ended : call.perform (session.controller, session.site.machine) = .error stop (controller, machine)) :
      Event rules proper session
        { session with controller := controller, site := { session.site with machine := machine } }

/-- What every session keeps: the site is sound, the rings keep their lengths, and the counters of the
receive ring tell how many of the frames that came in are out of the ring again. -/
structure Session.Sound (settings : Settings) (session : Session) : Prop where
  site : PacketPath.Sound session.controller [] session.controller.receiveRing.recycled session.site
  transmitCapacity : session.controller.transmitRing.capacity = settings.transmitLength
  receiveCapacity : session.controller.receiveRing.capacity = settings.receiveLength

variable {rules : Session → Rules} {proper : Session → Call → Prop} {settings : Settings} {session next : Session}
  {call : Call}

theorem Session.Allows.pagesKnown (allows : session.Allows call) (sound : session.Sound settings) :
    call.PagesKnown session.controller session.site.machine.memory where
  fragments fragment listed := sound.site.knows_held (allows.fragments fragment listed).1
  target := allows.target

theorem Attached.begins {controller : Controller} {site : Site} (attached : Attached settings controller site) :
    (Session.opened controller site).Sound settings := by
  have started := attached.started
  obtain ⟨_, transmitBlank⟩ := started.transmitBlank
  obtain ⟨_, _, receiveBlank⟩ := started.receiveBlank
  refine ⟨?_, ?_, ?_⟩
  · dsimp only
    rw [show controller.receiveRing.recycled = 0 by rw [receiveBlank]; rfl]
    exact started.sound
  · dsimp only
    rw [transmitBlank]
    rfl
  · dsimp only
    rw [receiveBlank]
    rfl

theorem Session.Sound.answered {frame : Option (List UInt8)} {after : Controller × Machine Emulator}
    (sound : session.Sound settings) (allows : session.Allows call)
    (ended : call.perform (session.controller, session.site.machine) = .ok frame after) :
    Call.Leaves call.target session.controller session.site frame after :=
  ((Step.ends_of_ok ended).mp (Call.perform_leaves sound.site (allows.pagesKnown sound))).1

theorem Session.Sound.stopped {stop : Stop CallError} {after : Controller × Machine Emulator}
    (sound : session.Sound settings) (allows : session.Allows call)
    (ended : call.perform (session.controller, session.site.machine) = .error stop after) :
    Call.Leaves call.target session.controller session.site none after :=
  ((Step.ends_of_error ended).mp (Call.perform_leaves sound.site (allows.pagesKnown sound))).1

theorem Event.sound (sound : session.Sound settings) (event : Event rules proper session next)
    (allows : ∀ call, proper session call → session.Allows call) : next.Sound settings := by
  cases event with
  | move move => exact ⟨(move.keepsReserved sound.site).1, sound.transmitCapacity, sound.receiveCapacity⟩
  | answered call allowed ended =>
    have leaves := sound.answered (allows call allowed) ended
    exact ⟨leaves.sound, leaves.transmitCapacity.trans sound.transmitCapacity,
      leaves.receiveCapacity.trans sound.receiveCapacity⟩
  | stopped call allowed ended =>
    have leaves := sound.stopped (allows call allowed) ended
    exact ⟨leaves.sound, leaves.transmitCapacity.trans sound.transmitCapacity,
      leaves.receiveCapacity.trans sound.receiveCapacity⟩

end PacketPath
