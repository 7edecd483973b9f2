import PacketPath.Proofs.Host.Displaced
import PacketPath.Proofs.System.Signals

/-! Independence: what is done on the transmit side and what is done on the receive side can be done in either
order. Each is answered as if the other had not been done, and both orders leave the same behind, but for the order
in which registers were written. -/

set_option autoImplicit false

namespace PacketPath

open Step

namespace Step

variable {ε ε' σ α β : Type} {like : σ → σ → Prop} {one other : σ}

theorem Agree.ended {step step' : Step ε σ α} (agree : Agree like step step' one other) :
    step'.ended other = step.ended one := by
  unfold Step.ended
  rcases agree.cases with ⟨value, after, after', done, done', -⟩ | ⟨stop, after, after', done, done', -⟩ <;>
    rw [done, done']

theorem Agree.after {step step' : Step ε σ α} (agree : Agree like step step' one other) :
    like (step.after one) (step'.after other) := by
  unfold Step.after
  rcases agree.cases with ⟨value, after, after', done, done', alike⟩ | ⟨stop, after, after', done, done', alike⟩ <;>
    rw [done, done'] <;> exact alike

/-- Two steps that can be taken in either order: each ends after the other as it ends without it, and both orders
leave the same behind. -/
structure Commute (same : σ → σ → Prop) (step : Step ε σ α) (step' : Step ε' σ β) (state : σ) : Prop where
  first : step.ended (step'.after state) = step.ended state
  second : step'.ended (step.after state) = step'.ended state
  after : same (step.after (step'.after state)) (step'.after (step.after state))

end Step

/-! ### Operations -/

inductive Outgoing where
  | transmit (fragment : Fragment)
  | transmitFrame (fragments : List Fragment)
  | reclaim
  /-- The transmit engine runs. -/
  | process (limit : Nat)

namespace Outgoing

def Error : Outgoing → Type
  | transmit _ | transmitFrame _ => TransmitError
  | reclaim => Empty
  | process _ => HostError

def Value : Outgoing → Type
  | transmit _ | transmitFrame _ => Unit
  | reclaim | process _ => Nat

def step : (operation : Outgoing) → Step operation.Error (Controller × Machine Emulator) operation.Value
  | transmit fragment => Controller.transmit fragment
  | transmitFrame fragments => Controller.transmitFrame fragments
  | reclaim => Controller.reclaim
  | process limit => Step.second (Emulator.transmit limit)

def fragments : Outgoing → List Fragment
  | transmit fragment => [fragment]
  | transmitFrame fragments => fragments
  | _ => []

end Outgoing

inductive Incoming where
  /-- A frame comes in. -/
  | inject (frame : List UInt8) (errors : ReceiveErrors)
  | receive
  | receiveInto (destination : List UInt8)

namespace Incoming

def Error : Incoming → Type
  | inject .. => HostError
  | receive | receiveInto _ => ReceiveError

def Value : Incoming → Type
  | inject .. => Unit
  | receive => Option (List UInt8)
  | receiveInto _ => Option (Nat × List UInt8)

def step : (operation : Incoming) → Step operation.Error (Controller × Machine Emulator) operation.Value
  | inject frame errors => Step.second (Emulator.receive frame errors)
  | receive => Controller.receive
  | receiveInto destination => Controller.receiveInto destination

end Incoming

/-- The same controller over the same machine, but for what was noted and the order in which registers were written. -/
structure Controller.SameButOrder (one other : Controller × Machine Emulator) : Prop where
  controller : other.1 = one.1
  machine : Machine.SameButOrder one.2 other.2

variable {settings : Settings} {session : Session} {flights : List Flight} {queue : List Arrival}
  {one other : Controller × Machine Emulator} {call : Call}

/-! ### Controllers with one ring in common -/

namespace Controller

variable {ε α ρ : Type} {covered : ρ → Prop} {like : Machine Emulator → Machine Emulator → Prop}

def withTransmit (controller : Controller) (ring : TransmitRing) : Controller :=
  { controller with transmitRing := ring }

def withReceive (controller : Controller) (ring : ReceiveRing) : Controller :=
  { controller with receiveRing := ring }

def Moved (put : Controller → ρ → Controller) (like : Machine Emulator → Machine Emulator → Prop)
    (one other : Controller) (after after' : Controller × Machine Emulator) : Prop :=
  ∃ ring, after.1 = put one ring ∧ after'.1 = put other ring ∧ like after.2 after'.2

variable {controller controller' : Controller} {machine machine' : Machine Emulator}

theorem within_moved {part : Controller → ρ} {put : Controller → ρ → Controller}
    {step : Step ε (ρ × Machine Emulator) α} (ring : part controller' = part controller)
    (agree : Agree (Machine.Paired covered like) step step (part controller, machine) (part controller, machine')) :
    Agree (Moved put like controller controller')
      (Step.within (fun state => (part state.1, state.2)) (fun state after => (put state.1 after.1, after.2)) step)
      (Step.within (fun state => (part state.1, state.2)) (fun state after => (put state.1 after.1, after.2)) step)
      (controller, machine) (controller', machine') := by
  have both : Agree (Machine.Paired covered like) step step (part controller, machine)
      (part controller', machine') := by
    rw [ring]
    exact agree
  refine .within both fun after after' kept => ?_
  exact ⟨after.1, rfl, congrArg (put controller') kept.ring, kept.machine⟩

theorem onTransmit_moved {covered : TransmitRing → Prop} {step : Step ε (TransmitRing × Machine Emulator) α}
    (ring : controller'.transmitRing = controller.transmitRing)
    (agree : Agree (Machine.Paired covered like) step step (controller.transmitRing, machine)
      (controller.transmitRing, machine')) :
    Agree (Moved withTransmit like controller controller') (onTransmit step) (onTransmit step) (controller, machine)
      (controller', machine') :=
  within_moved ring agree

theorem onReceive_moved {covered : ReceiveRing → Prop} {step : Step ε (ReceiveRing × Machine Emulator) α}
    (ring : controller'.receiveRing = controller.receiveRing)
    (agree : Agree (Machine.Paired covered like) step step (controller.receiveRing, machine)
      (controller.receiveRing, machine')) :
    Agree (Moved withReceive like controller controller') (onReceive step) (onReceive step) (controller, machine)
      (controller', machine') :=
  within_moved ring agree

theorem second_moved {put : Controller → ρ → Controller} {ring : ρ} {step : Step ε (Machine Emulator) α}
    (own : put controller ring = controller) (own' : put controller' ring = controller')
    (agree : Agree like step step machine machine') :
    Agree (Moved put like controller controller') (Step.second step) (Step.second step) (controller, machine)
      (controller', machine') :=
  .within agree fun _ _ kept => ⟨ring, own.symm, own'.symm, kept⟩

end Controller

/-! ### Stages -/

def Session.Stage (settings : Settings) (flights : List Flight) (queue : List Arrival)
    (state : Controller × Machine Emulator) : Prop :=
  ∃ session : Session, session.Mapped settings flights ∧
    session.site.others.arrivals.drop session.controller.receiveRing.recycled = queue ∧
    (session.controller, session.site.machine) = state

variable {flights' : List Flight} {queue' : List Arrival}

/-- From two states that are the same on the transmit side, an operation on that side ends in the same way. -/
theorem Outgoing.agree (operation : Outgoing) (stage : Session.Stage settings flights queue one)
    (stage' : Session.Stage settings flights queue' other)
    (ring : other.1.transmitRing = one.1.transmitRing)
    (same : Machine.SameSending (· ∈ one.1.receiveRing.pages) one.2 other.2) :
    Agree (Controller.Moved Controller.withTransmit
      (Machine.Sending (· ∈ one.1.receiveRing.pages) one.2 other.2) one.1 other.1)
      operation.step operation.step one other := by
  obtain ⟨session, mapped, -, rfl⟩ := stage
  obtain ⟨session', mapped', -, rfl⟩ := stage'
  dsimp only at ring same ⊢
  have sound := mapped.sound.site
  have sound' := mapped'.sound.site
  have view := Machine.sending_view (· ∈ session.controller.receiveRing.pages) session.site.machine
    session'.site.machine
  have grips := Machine.sending_grips (· ∈ session.controller.receiveRing.pages) session.site.machine
    session'.site.machine
  have alike : Machine.Sending (· ∈ session.controller.receiveRing.pages) session.site.machine session'.site.machine
      session.site.machine session'.site.machine := ⟨same, .refl _, .refl _ _⟩
  have covered := sound.table_not_mem
  cases operation with
  | transmit fragment =>
    exact Controller.onTransmit_moved ring (TransmitRing.post_agree_paired view grips rfl covered alike fragment true)
  | transmitFrame fragments =>
    exact Controller.onTransmit_moved ring (TransmitRing.postFrame_agree_paired view grips rfl covered alike fragments)
  | reclaim => exact Controller.onTransmit_moved ring (TransmitRing.reclaim_agree view grips covered alike)
  | process limit =>
    have same : session.controller.withTransmit session.controller.transmitRing = session.controller := rfl
    refine Controller.second_moved same ?_ ?_
    · rw [← ring]
      rfl
    · refine Emulator.transmit_agree_of_visible view (Machine.sending_sends ..) alike (congrArg _ ring) covered
        (sound.transmitReady mapped.inFlight.flies) (sound'.transmitReady mapped'.inFlight.flies) mapped.visible
        mapped'.visible ?_ limit
      -- No flight lies in a page of the pool, so the receive side may differ there.
      intro flight listed pooled
      exact (mapped.inFlight.accessible flight listed trivial).foreign (List.mem_cons_of_mem _ pooled)

theorem Incoming.agree (operation : Incoming) (stage : Session.Stage settings flights queue one)
    (stage' : Session.Stage settings flights' queue other)
    (ring : other.1.receiveRing = one.1.receiveRing)
    (same : Machine.SameReceiving (· ∈ one.1.receiveRing.pages) one.2 other.2) :
    Agree (Controller.Moved Controller.withReceive
      (Machine.Receiving (· ∈ one.1.receiveRing.pages) one.2 other.2) one.1 other.1)
      operation.step operation.step one other := by
  obtain ⟨session, mapped, queued, rfl⟩ := stage
  obtain ⟨session', mapped', queued', rfl⟩ := stage'
  dsimp only at ring same ⊢
  have sound := mapped.sound.site
  have sound' := mapped'.sound.site
  have view := Machine.receiving_view (· ∈ session.controller.receiveRing.pages) session.site.machine
    session'.site.machine
  have alike : Machine.Receiving (· ∈ session.controller.receiveRing.pages) session.site.machine session'.site.machine
      session.site.machine session'.site.machine := ⟨same, .refl _, .refl _ _⟩
  have covered : session.controller.receiveRing.Covered (· ∈ session.controller.receiveRing.pages) := fun _ => id
  cases operation with
  | inject frame errors =>
    have same : session.controller.withReceive session.controller.receiveRing = session.controller := rfl
    refine Controller.second_moved same ?_ ?_
    · rw [← ring]
      rfl
    · have ready := sound.receiveReady
      have ready' := sound'.receiveReady
      rw [queued] at ready
      rw [queued', ring] at ready'
      exact Emulator.receive_agree view (Machine.receiving_lands ..) alike covered ready ready' frame errors
  | receive => exact Controller.onReceive_moved ring (ReceiveRing.receive_agree view rfl covered alike)
  | receiveInto destination =>
    exact Controller.onReceive_moved ring (ReceiveRing.receiveInto_agree view rfl covered alike destination)

def Session.ContinuesWith (settings : Settings) (session : Session) (flights : List Flight)
    (state : Controller × Machine Emulator) : Prop :=
  ∃ later : Session, later.Mapped settings flights ∧ later.site.others = session.site.others ∧
    (later.controller, later.site.machine) = state

theorem Session.AllowsMapped.of_target_eq_none (none : call.target = .none)
    (offers : ∀ fragment ∈ call.fragments,
      session.Offers fragment ∧ session.site.machine.memory.Reaches fragment.page) : session.AllowsMapped call := by
  refine ⟨offers, fun target here => ?_⟩
  rw [none] at here
  cases here

theorem Session.Mapped.performs (mapped : session.Mapped settings flights) (permitted : session.AllowsMapped call) :
    call.perform.Ends (session.controller, session.site.machine)
      (fun _ => session.ContinuesWith settings (flights ++ Flight.ofFrame call.fragments))
      (fun _ => session.ContinuesWith settings flights) :=
  (mapped.asks permitted.allowed permitted.reached session.accepted session.delivered).mono
    (fun _ _ mapped => ⟨_, mapped, rfl, rfl⟩) (fun _ _ mapped => ⟨_, mapped, rfl, rfl⟩)

theorem Outgoing.continuesWith {operation : Outgoing} (mapped : session.Mapped settings flights)
    (offers : ∀ fragment ∈ operation.fragments,
      session.Offers fragment ∧ session.site.machine.memory.Reaches fragment.page) :
    ∃ flights', session.ContinuesWith settings flights'
      (operation.step.after (session.controller, session.site.machine)) := by
  have asked {call : Call} (permitted : session.AllowsMapped call) :
      call.perform.Ends (session.controller, session.site.machine)
        (fun _ after => ∃ flights', session.ContinuesWith settings flights' after)
        (fun _ after => ∃ flights', session.ContinuesWith settings flights' after) :=
    (mapped.performs permitted).mono (fun _ _ kept => ⟨_, kept⟩) (fun _ _ kept => ⟨_, kept⟩)
  cases operation with
  | transmit fragment =>
    have permitted : session.AllowsMapped (.transmit fragment) := .of_target_eq_none rfl offers
    have ends := asked permitted
    unfold Call.perform at ends
    simp only [ends_bind, ends_mapRefusal, ends_pure] at ends
    exact ends.after
  | transmitFrame fragments =>
    have permitted : session.AllowsMapped (.transmitFrame fragments) := .of_target_eq_none rfl offers
    have ends := asked permitted
    unfold Call.perform at ends
    simp only [ends_bind, ends_mapRefusal, ends_pure] at ends
    exact ends.after
  | reclaim =>
    -- There is no refusal to translate here, so the call is followed through its upkeep of the ring.
    have upkeep : (Controller.reclaim : Step Empty _ _).Ends _ _ _ :=
      Controller.reclaim_upkeep mapped.sound.site.wired.seated
    have kept : (Controller.reclaim : Step Empty _ _).Ends (session.controller, session.site.machine)
        (fun _ => session.ContinuesWith settings flights) (fun _ => session.ContinuesWith settings flights) := by
      refine upkeep.mono (fun _ after upkeep => ?_) (fun _ _ => False.elim)
      have leaves : Call.Leaves (Call.target .reclaim) _ _ _ _ :=
        Call.leaves_of_transmitOnly mapped.sound.site upkeep.transmitOnly
      refine ⟨⟨after.1, { session.site with machine := after.2 }, session.accepted, session.delivered⟩, ?_, rfl, rfl⟩
      exact mapped.asked leaves (upkeep.flies _ mapped.inFlight.flies) fun flight listed =>
        mapped.inFlight.accessible flight listed trivial
    exact ⟨flights, kept.after⟩
  | process limit =>
    have event : Event (fun _ => .free) Session.AllowsMapped session _ := .move (.transmit limit)
    obtain ⟨flights', kept⟩ := event.mapped mapped fun _ => id
    refine ⟨flights', _, kept, rfl, ?_⟩
    unfold step Step.after Step.second Step.within
    dsimp only
    cases Emulator.transmit limit session.site.machine <;> rfl

theorem Outgoing.stage {operation : Outgoing} (mapped : session.Mapped settings flights)
    (offers : ∀ fragment ∈ operation.fragments,
      session.Offers fragment ∧ session.site.machine.memory.Reaches fragment.page) :
    ∃ flights', Session.Stage settings flights'
      (session.site.others.arrivals.drop session.controller.receiveRing.recycled)
      (operation.step.after (session.controller, session.site.machine)) := by
  have start : Session.Stage settings flights _ _ := ⟨session, mapped, rfl, rfl⟩
  obtain ⟨ring, moved, -⟩ := (operation.agree start start rfl (.refl _)).after
  obtain ⟨flights', later, kept, others, same⟩ := operation.continuesWith mapped offers
  refine ⟨flights', later, kept, ?_, same⟩
  rw [← same] at moved
  dsimp only at moved
  rw [others, moved]
  rfl

theorem Incoming.stage (operation : Incoming) (mapped : session.Mapped settings flights) :
    ∃ queue', Session.Stage settings flights queue'
      (operation.step.after (session.controller, session.site.machine)) := by
  -- A call that hands over nothing adds no flight.
  have taken {call : Call} (receives : call.fragments = []) (permitted : session.AllowsMapped call) :
      call.perform.Ends (session.controller, session.site.machine)
        (fun _ => session.ContinuesWith settings flights) (fun _ => session.ContinuesWith settings flights) := by
    have performs := mapped.performs permitted
    rwa [receives, show Flight.ofFrame [] = [] from rfl, List.append_nil] at performs
  suffices kept : ∃ later : Session, later.Mapped settings flights ∧ (later.controller, later.site.machine) =
      operation.step.after (session.controller, session.site.machine) by
    obtain ⟨later, kept, same⟩ := kept
    exact ⟨_, later, kept, rfl, same⟩
  cases operation with
  | inject frame errors =>
    have gone := mapped.continues (mapped.consistent.injected frame errors)
    unfold step Step.after Step.second Step.within
    dsimp only
    cases ended : Emulator.receive frame errors session.site.machine <;>
      simp only [Act.perform, ended] at gone <;> exact ⟨_, gone, rfl⟩
  | receive =>
    have permitted : session.AllowsMapped .receive := .of_target_eq_none rfl (List.forall_mem_nil _)
    have ends := taken rfl permitted
    unfold Call.perform at ends
    rw [ends_mapRefusal] at ends
    obtain ⟨later, kept, -, same⟩ := ends.after
    exact ⟨later, kept, same⟩
  | receiveInto destination =>
    have permitted : session.AllowsMapped (.receiveInto destination) :=
      .of_target_eq_none rfl (List.forall_mem_nil _)
    have ends := taken rfl permitted
    unfold Call.perform at ends
    simp only [ends_bind, ends_mapRefusal, ends_pure] at ends
    obtain ⟨later, kept, -, same⟩ := ends.after
    exact ⟨later, kept, same⟩

/-- In whatever order two operations on the two sides are done, both are answered in the same way, and they leave
the same behind. -/
theorem Session.Mapped.independent (mapped : session.Mapped settings flights) (outgoing : Outgoing)
    (incoming : Incoming)
    (offers : ∀ fragment ∈ outgoing.fragments,
      session.Offers fragment ∧ session.site.machine.memory.Reaches fragment.page) :
    Step.Commute Controller.SameButOrder outgoing.step incoming.step (session.controller, session.site.machine) := by
  have stage : Session.Stage settings flights _ _ := ⟨session, mapped, rfl, rfl⟩
  obtain ⟨flights', sent⟩ := outgoing.stage mapped offers
  obtain ⟨queue', received⟩ := incoming.stage mapped
  -- What each operation does to the other side, it does from wherever it starts.
  obtain ⟨ring, moved, -, aside⟩ := (outgoing.agree stage stage rfl (.refl _)).after
  obtain ⟨ring', moved', -, aside'⟩ := (incoming.agree stage stage rfl (.refl _)).after
  have late := outgoing.agree stage received (by rw [moved']; rfl) aside'.theirs
  have late' := incoming.agree stage sent (by rw [moved]; rfl) aside.theirs
  refine ⟨late.ended, late'.ended, ?_⟩
  obtain ⟨last, alone, after, machine⟩ := late.after
  obtain ⟨last', alone', after', machine'⟩ := late'.after
  refine ⟨?_, machine.meet machine'⟩
  rw [after, after', alone, alone']
  rfl

variable {controller : Controller} {site : Site}

theorem Attached.exists_flights (attached : Attached settings controller site)
    (run : Relation.ReflTransGen (Event (fun _ => .free) Session.AllowsMapped) (.opened controller site) session) :
    ∃ flights, session.Mapped settings flights := by
  induction run with
  | refl => exact ⟨[], attached.mapped⟩
  | tail _ event ih =>
    obtain ⟨flights, mapped⟩ := ih
    exact event.mapped mapped fun _ => id

/-- After a controller was attached, whatever has been called and whatever the device and the others have done: to
hand over fragments, to reclaim, or to let the transmit engine run, makes no difference to a frame that comes in or is
taken out, nor the other way. Both are answered as they would be alone, and the controller, the memory and the device
are the same in the end in either order, but for the order of the register writes. -/
theorem sides_are_independent (attached : Attached settings controller site)
    (run : Relation.ReflTransGen (Event (fun _ => .free) Session.AllowsMapped) (.opened controller site) session)
    (outgoing : Outgoing) (incoming : Incoming)
    (offers : ∀ fragment ∈ outgoing.fragments,
      session.Offers fragment ∧ session.site.machine.memory.Reaches fragment.page) :
    Step.Commute Controller.SameButOrder outgoing.step incoming.step (session.controller, session.site.machine) := by
  obtain ⟨flights, mapped⟩ := attached.exists_flights run
  exact mapped.independent outgoing incoming offers

/-- A frame is posted while another one comes in. -/
theorem sides_are_independent_once : ∃ controller site page, Attached {} controller site ∧
    (Session.opened controller site).Offers ⟨page, 0, 60⟩ ∧ site.machine.memory.Reaches page ∧
    Step.Commute Controller.SameButOrder (Controller.transmit ⟨page, 0, 60⟩)
      (Step.second (Emulator.receive (List.replicate 60 0x5A) ⟨0⟩)) (controller, site.machine) := by
  obtain ⟨controller, site, page, attached, -, held, -, reached⟩ := exists_attached_beside
  have size := attached.begins.site.housed.charted.size_of_reaches reached
  have valid : site.machine.memory.fragment page 0 60 = .ok ⟨page, 0, 60⟩ :=
    Memory.fragment_of_whole size (by decide) (by decide)
  have offers : (Session.opened controller site).Offers ⟨page, 0, 60⟩ := ⟨held ▸ List.mem_singleton_self page, valid⟩
  refine ⟨controller, site, page, attached, offers, reached, ?_⟩
  refine sides_are_independent attached .refl (.transmit ⟨page, 0, 60⟩) (.inject (List.replicate 60 0x5A) ⟨0⟩) ?_
  intro fragment listed
  rw [List.mem_singleton.mp listed]
  exact ⟨offers, reached⟩

end PacketPath
