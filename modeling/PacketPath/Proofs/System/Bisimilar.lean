import PacketPath.Proofs.System.Acts
import PacketPath.Proofs.System.CallsAlike

/-! Sessions that differ in when the transmit ring was reclaimed or the interrupts were serviced. Every other act is
answered alike in both, and leaves them bisimilar. -/

set_option autoImplicit false

namespace PacketPath

open Step

variable {settings : Settings} {settles : Prop} {session one other third next next' : Session}
  {flights later later' : List Flight} {act : Act}

/-! ### Pages of the others -/

namespace Board

variable {first second : Machine Emulator}

theorem grown_alike (board : Board) (alike : first.Alike second) :
    (board.grown first.memory).Alike (board.grown second.memory) := by
  unfold grown
  rw [alike.memory.count]
  exact (alike.memory.adopt ..).register _

theorem allocate_agree (board : Board) (alike : first.Alike second) :
    Agree (fun after after' => after'.1 = after.1 ∧ after.2.Alike after'.2) allocate allocate (board, first)
      (board, second) := by
  have made (machine : Machine Emulator) : machine.memory.allocate board.nextBase Limits.pageSize =
      some (machine.memory.adopt board.nextBase (Array.replicate Limits.pageSize 0)) := if_neg (by decide)
  have grown := board.grown_alike alike
  cases spent : board.limit.filter fun limit => limit ≤ board.allocated with
  | some limit =>
    have ended (machine : Machine Emulator) :
        allocate (board, machine) = .error (.refused (.outOfPages limit)) (board, machine) := by
      simp only [allocate, spent]
    exact .of_error (ended first) (ended second) ⟨rfl, alike⟩
  | none =>
    cases advanced : Address.advance board.nextBase Limits.pageSize with
    | error violation =>
      have ended (machine : Machine Emulator) : allocate (board, machine) = .error (.violated violation)
          (board, { machine with memory := (board.grown machine.memory).release ⟨machine.memory.pages.size⟩ }) := by
        simp only [allocate, spent, made, advanced]
        rfl
      refine .of_error (ended first) (ended second) ⟨rfl, ?_, alike.device⟩
      exact ((Memory.Alike.release ..).symm.trans grown).trans (.release ..)
    | ok nextBase =>
      have ended (machine : Machine Emulator) : allocate (board, machine) = .ok ⟨machine.memory.pages.size⟩
          ({ board with nextBase := nextBase, allocated := board.allocated + 1 },
            { machine with memory := board.grown machine.memory }) := by
        simp only [allocate, spent, made, advanced]
        rfl
      have ended' := ended second
      rw [alike.memory.count] at ended'
      exact .of_ok (ended first) ended' ⟨rfl, grown, alike.device⟩

end Board

/-! ### Sessions -/

/-- Sessions that differ in what the transmit ring keeps, in what it counted as it gave pages back, and in
interrupts. -/
structure Session.Alike (settles : Prop) (one other : Session) : Prop where
  controller : Controller.Alike settles (one.controller, one.site.machine) (other.controller, other.site.machine)
  bus : other.site.bus = one.site.bus
  others : other.site.others = one.site.others
  accepted : other.accepted = one.accepted
  delivered : other.delivered = one.delivered

namespace Session.Alike

theorem refl (session : Session) : Session.Alike settles session session :=
  ⟨.refl _, rfl, rfl, rfl, rfl⟩

theorem symm (alike : Session.Alike settles one other) : Session.Alike settles other one :=
  ⟨alike.controller.symm, alike.bus.symm, alike.others.symm, alike.accepted.symm, alike.delivered.symm⟩

theorem trans (first : Session.Alike settles one other) (second : Session.Alike settles other third) :
    Session.Alike settles one third :=
  ⟨first.controller.trans second.controller, second.bus.trans first.bus, second.others.trans first.others,
    second.accepted.trans first.accepted, second.delivered.trans first.delivered⟩

theorem memory (alike : Session.Alike settles one other) :
    one.site.machine.memory.Alike other.site.machine.memory :=
  alike.controller.machine.memory

theorem device (alike : Session.Alike settles one other) :
    one.site.machine.device.Alike other.site.machine.device :=
  alike.controller.machine.device

theorem weaken (alike : Session.Alike settles one other) : Session.Alike False one other :=
  { alike with
    controller := ⟨{ alike.controller.transmit with settled := False.elim }, alike.controller.receiveRing⟩ }

theorem of_site {machine machine' : Machine Emulator} {others others' : Others}
    (alike : Session.Alike settles one other) (machines : machine.Alike machine') (same : others' = others) :
    Session.Alike False { one with site := { one.site with machine := machine, others := others } }
      { other with site := { other.site with machine := machine', others := others' } } :=
  { alike with
    controller :=
      ⟨{ alike.controller.transmit with machine := machines, settled := False.elim }, alike.controller.receiveRing⟩
    others := same }

theorem work {ε α : Type} {step step' : Step ε (Machine Emulator) α} (alike : Session.Alike settles one other)
    (agree : Agree Machine.Alike step step' one.site.machine other.site.machine) :
    (other.work step').1 = (one.work step).1 ∧ Session.Alike False (one.work step).2 (other.work step').2 := by
  unfold Session.work
  rcases agree.cases with ⟨value, after, after', ended, ended', kept⟩ | ⟨stop, after, after', ended, ended', kept⟩
  · simp only [ended, ended']
    exact ⟨trivial, alike.of_site kept alike.others⟩
  · simp only [ended, ended']
    exact ⟨trivial, alike.of_site kept alike.others⟩

end Session.Alike

/-- At the address that the device was given in a slot that is not done, no page lies but the one that the ring keeps
for the slot, as far as the device was told of pages. -/
def TransmitRing.Unaliased (ring : TransmitRing) (memory : Memory) : Prop :=
  ∀ slot < ring.capacity, (ring.table.transmitCell memory slot).status.isDone = false →
    ∀ page, memory.Reaches page → memory.Encloses page (ring.table.transmitCell memory slot).address →
      ring.binding slot = some page

theorem TransmitRing.Unaliased.page_eq {ring : TransmitRing} {memory : Memory} {side : Emulator.TransmitSide}
    (unaliased : ring.Unaliased memory) (carries : ring.Carries memory side flights) {flight : Flight}
    (listed : flight ∈ flights) {page : PageId} (reached : memory.Reaches page)
    (encloses : memory.Encloses page (flight.address memory)) : page = flight.fragment.page := by
  obtain ⟨slot, stands, asks⟩ := carries.exists_asks listed
  have bound := unaliased slot (Ring.lt_of_mem_arc carries.wired.head stands) asks.not_done page reached (by
    rw [asks.cell]
    exact encloses)
  rw [asks.binding] at bound
  exact (Option.some.inj bound).symm

namespace Act

def isUpkeep : Act → Bool
  | .ask .reclaim | .ask .serviceInterrupts => true
  | _ => false

theorem isUpkeep_ask {call : Call} : (ask call).isUpkeep = true ↔ call.IsUpkeep := by
  cases call <;> simp [Act.isUpkeep, Call.IsUpkeep]

theorem exists_call_of_isUpkeep (isUpkeep : act.isUpkeep = true) : ∃ call : Call, act = .ask call ∧ call.IsUpkeep := by
  unfold Act.isUpkeep at isUpkeep
  split at isUpkeep
  · exact ⟨_, rfl, trivial⟩
  · exact ⟨_, rfl, trivial⟩
  · cases isUpkeep

theorem allowed_of_isUpkeep (isUpkeep : act.isUpkeep = true) : act.Allowed session := by
  obtain ⟨call, rfl, looks⟩ := exists_call_of_isUpkeep isUpkeep
  obtain ⟨fragments, target⟩ := looks.bare
  unfold Act.Allowed
  dsimp only
  rw [fragments, target]
  exact ⟨nofun, nofun⟩

/-- Upkeep of the transmit ring leaves a session like the one before. -/
theorem perform_alike (sound : session.Sound settings) (isUpkeep : act.isUpkeep = true) :
    Session.Alike settles session (act.perform session).2 := by
  obtain ⟨call, rfl, looks⟩ := exists_call_of_isUpkeep isUpkeep
  have seated : (session.controller, session.site.machine).1.transmitRing.Seated session.site.machine.memory :=
    sound.site.wired.seated
  obtain ⟨_, after, ended, rfl, alike⟩ := (Call.perform_alike looks seated).exists_ok
  have none : call.frames session.site.machine.memory = [] := if_pos looks.bare.1
  simp only [perform, ended, none]
  exact ⟨alike, rfl, rfl, List.append_nil _, List.append_nil _⟩

theorem leaves_of_isUpkeep (isUpkeep : act.isUpkeep = true) : act.Leaves flights flights := by
  obtain ⟨call, rfl, looks⟩ := exists_call_of_isUpkeep isUpkeep
  exact List.prefix_append ..

def Revises : Act → Prop
  | .revise .. => True
  | _ => False

/-- An act that is allowed. When it lets the device transmit, no page lies at the address of a waiting slot but the one
that was handed over. -/
def Unaliased (session : Session) (act : Act) : Prop :=
  act.Allowed session ∧
    match act with
    | .serve .. => session.controller.transmitRing.Unaliased session.site.machine.memory
    | _ => True

end Act

structure Bisimilar (settings : Settings) (settles : Prop) (one other : Session) (flights : List Flight) : Prop where
  alike : Session.Alike settles one other
  one : one.Consistent settings flights
  other : other.Consistent settings flights

namespace Bisimilar

theorem symm (bisimilar : Bisimilar settings settles one other flights) :
    Bisimilar settings settles other one flights :=
  ⟨bisimilar.alike.symm, bisimilar.other, bisimilar.one⟩

theorem allowed (bisimilar : Bisimilar settings settles one other flights) (allowed : act.Allowed one) :
    act.Allowed other := by
  have held : other.site.others.held = one.site.others.held := congrArg Others.held bisimilar.alike.others
  have memory := bisimilar.alike.memory
  have table : other.controller.transmitRing.table = one.controller.transmitRing.table :=
    bisimilar.alike.controller.transmit.table
  cases act with
  | ask call =>
    refine ⟨fun fragment listed => ?_, fun target here => ?_⟩
    · obtain ⟨mine, valid⟩ := allowed.1 fragment listed
      exact ⟨held ▸ mine, (memory.fragment ..).trans valid⟩
    · exact held ▸ allowed.2 target here
  | revise slot found =>
    unfold Act.Allowed TransmitRing.capacity at allowed ⊢
    rwa [table, memory.transmitCell]
  | retain page | release page =>
    unfold Act.Allowed at allowed ⊢
    exact held ▸ allowed
  | write page offset data => exact ⟨held ▸ allowed.1, (memory.access ..).trans allowed.2⟩
  | countFree | serve | inject | raise | allocate | make => trivial

/-- Where only the page that was handed over can be found, it is found in both sessions, or in neither. -/
theorem located (bisimilar : Bisimilar settings settles one other flights)
    (unaliased : one.controller.transmitRing.Unaliased one.site.machine.memory) {flight : Flight}
    (listed : flight ∈ flights) :
    flight.located other.site.machine.memory = flight.located one.site.machine.memory := by
  have memory := bisimilar.alike.memory
  have entered : one.site.machine.memory.Entered := bisimilar.one.sound.site.housed.charted.base
  have kept {session : Session} (consistent : session.Consistent settings flights) :
      session.site.machine.memory.isAlive flight.fragment.page = true := by
    obtain ⟨_, _, asks⟩ := consistent.flies.carries.exists_asks listed
    exact decide_eq_true (consistent.alive (TransmitRing.mem_pages_of_binding asks.binding))
  unfold Flight.located
  rw [show flight.address other.site.machine.memory = flight.address one.site.machine.memory by
    unfold Flight.address; rw [memory.base]]
  refine entered.locate_congr memory.reachable (fun id _ => memory.size id) (fun page reached encloses => ?_) _
  rw [unaliased.page_eq bisimilar.one.flies.carries listed reached encloses, kept bisimilar.one, kept bisimilar.other]

theorem agree_serve (bisimilar : Bisimilar settings settles one other flights)
    (unaliased : one.controller.transmitRing.Unaliased one.site.machine.memory) (limit : Nat)
    (found : Nat → TransmitStatus) :
    ((Act.serve limit found).perform other).1 = ((Act.serve limit found).perform one).1 ∧
      Session.Alike False ((Act.serve limit found).perform one).2 ((Act.serve limit found).perform other).2 := by
  have alike := bisimilar.alike
  have ready := bisimilar.one.sound.site.transmitReady bisimilar.one.flies
  have ready' := bisimilar.other.sound.site.transmitReady bisimilar.other.flies
  have worked := alike.work (Emulator.serve_agree alike.controller.machine alike.controller.transmit.table ready ready'
    (fun _ => bisimilar.located unaliased) limit found)
  exact ⟨congrArg Answer.served worked.1, worked.2⟩

theorem agree_inject (bisimilar : Bisimilar settings settles one other flights) (frame : List UInt8)
    (errors : ReceiveErrors) :
    ((Act.inject frame errors).perform other).1 = ((Act.inject frame errors).perform one).1 ∧
      Session.Alike False ((Act.inject frame errors).perform one).2 ((Act.inject frame errors).perform other).2 := by
  have alike := bisimilar.alike
  have rings : other.controller.receiveRing = one.controller.receiveRing := alike.controller.receiveRing
  have ready' := bisimilar.other.sound.site.receiveReady
  rw [rings, alike.others] at ready'
  have agree := Emulator.receive_agree Machine.Alike.view Emulator.lands_alike alike.controller.machine
    (fun _ _ => trivial) bisimilar.one.sound.site.receiveReady ready' frame errors
  rcases agree.cases with ⟨_, after, after', ended, ended', kept⟩ | ⟨stop, after, after', ended, ended', kept⟩
  · simp only [Act.perform, ended, ended']
    exact ⟨trivial, alike.of_site kept (by rw [alike.others])⟩
  · simp only [Act.perform, ended, ended']
    exact ⟨trivial, alike.of_site kept alike.others⟩

theorem agree_of_apart (bisimilar : Bisimilar settings settles one other flights) (apart : act.IsExternal)
    (proper : act.Unaliased one) :
    (act.perform other).1 = (act.perform one).1 ∧
      Session.Alike False (act.perform one).2 (act.perform other).2 := by
  have alike := bisimilar.alike
  have memory := alike.memory
  cases act with
  | ask | revise => exact apart.elim
  | countFree =>
    have counted : Agree _ (one.controller.transmitRing.freeSlots : Step Empty _ _) _ _ _ :=
      TransmitRing.freeSlots_agree alike.controller.transmit bisimilar.one.flies.carries.wired.seated
        bisimilar.other.flies.carries.wired.seated
    have worked := alike.work (counted.mono fun _ _ same => by rw [same.1, same.2]; exact alike.controller.machine)
    exact ⟨congrArg Answer.counted worked.1, worked.2⟩
  | serve limit found => exact bisimilar.agree_serve proper.2 limit found
  | inject frame errors => exact bisimilar.agree_inject frame errors
  | raise cause =>
    have raised := (Emulator.Alike.raise _ cause).symm.trans (alike.device.trans (.raise _ cause))
    exact ⟨rfl, alike.of_site ⟨memory, raised⟩ alike.others⟩
  | allocate =>
    have board : other.site.others.board = one.site.others.board := congrArg Others.board alike.others
    rcases (Board.allocate_agree one.site.others.board alike.controller.machine).cases with
      ⟨page, ⟨_, after⟩, ⟨later, after'⟩, ended, ended', same, kept⟩ | ⟨stop, after, after', ended, ended', -⟩
    · rw [← board] at ended'
      simp only [Act.perform, ended, ended']
      dsimp only at same
      refine ⟨trivial, alike.of_site kept ?_⟩
      rw [same, alike.others]
    · rw [← board] at ended'
      simp only [Act.perform, ended, ended']
      exact ⟨trivial, alike.weaken⟩
  | make base size =>
    rcases memory.allocate base size with ⟨none, none'⟩ | ⟨page, after, after', made, made', kept⟩
    · simp only [Act.perform, none, none']
      exact ⟨trivial, alike.weaken⟩
    · simp only [Act.perform, made, made']
      refine ⟨trivial, alike.of_site ⟨kept, alike.device⟩ ?_⟩
      rw [alike.others]
  | retain page =>
    have retained := (Memory.Alike.retain _ page).symm.trans (memory.trans (.retain _ page))
    exact ⟨rfl, alike.of_site ⟨retained, alike.device⟩ (by rw [alike.others])⟩
  | release page =>
    have released := (Memory.Alike.release _ page).symm.trans (memory.trans (.release _ page))
    exact ⟨rfl, alike.of_site ⟨released, alike.device⟩ (by rw [alike.others])⟩
  | write page offset data => exact ⟨rfl, alike.of_site ⟨memory.overwrite .., alike.device⟩ alike.others⟩

/-- Slots that are finished meanwhile are finished in both sessions, so the rings settle to the same again. -/
theorem settle (bisimilar : Bisimilar settings settles one other flights)
    (continues : one.Continues settings next flights later)
    (continues' : other.Continues settings next' flights later')
    (kept : Session.Alike False next next') : Session.Alike settles next next' := by
  suffices settled : settles → next'.controller.transmitRing.settled next'.site.machine.memory =
      next.controller.transmitRing.settled next.site.machine.memory from
    { kept with
      controller := ⟨{ kept.controller.transmit with settled := settled }, kept.controller.receiveRing⟩ }
  intro asked
  have before : other.controller.transmitRing.settled other.site.machine.memory =
      one.controller.transmitRing.settled one.site.machine.memory := bisimilar.alike.controller.transmit.settled asked
  rw [continues.controller, continues'.controller]
  calc other.controller.transmitRing.settled next'.site.machine.memory
      = (other.controller.transmitRing.settled other.site.machine.memory).settled next'.site.machine.memory :=
        (TransmitRing.settled_settled continues'.persists bisimilar.other.flies.carries.wired.seated.bindings).symm
    _ = (one.controller.transmitRing.settled one.site.machine.memory).settled next.site.machine.memory := by
        rw [before, TransmitRing.settled_congr (kept.memory.transmitCell _)]
    _ = one.controller.transmitRing.settled next.site.machine.memory :=
        TransmitRing.settled_settled continues.persists bisimilar.one.flies.carries.wired.seated.bindings

/-- An act that is no upkeep of the ring is answered alike, and leaves sessions that are alike. -/
theorem agree (bisimilar : Bisimilar settings settles one other flights) (busy : act.isUpkeep = false)
    (fixed : settles → ¬ act.Revises) (proper : act.Unaliased one) :
    (act.perform other).1 = (act.perform one).1 ∧
      Session.Alike settles (act.perform one).2 (act.perform other).2 := by
  have alike := bisimilar.alike
  have allowed := proper.1
  have allowed' := bisimilar.allowed allowed
  -- Whatever is done apart from the controllers keeps what was reported, so the rings settle as before.
  have apart (apart : act.IsExternal) : (act.perform other).1 = (act.perform one).1 ∧
      Session.Alike settles (act.perform one).2 (act.perform other).2 := by
    obtain ⟨answers, kept⟩ := bisimilar.agree_of_apart apart proper
    obtain ⟨_, continues⟩ := act.continues bisimilar.one apart allowed
    obtain ⟨_, continues'⟩ := act.continues bisimilar.other apart allowed'
    exact ⟨answers, bisimilar.settle continues continues' kept⟩
  cases act with
  | ask call =>
    have plain : ¬ call.IsUpkeep := fun isUpkeep => by
      rw [Act.isUpkeep_ask.mpr isUpkeep] at busy
      cases busy
    have agree := Call.perform_agree plain alike.controller bisimilar.one.sound.site bisimilar.other.sound.site
      ((allowed.allows bisimilar.one.sound).pagesKnown bisimilar.one.sound)
      ((allowed'.allows bisimilar.other.sound).pagesKnown bisimilar.other.sound) (allowed.outside bisimilar.one.sound)
    have frames : call.frames other.site.machine.memory = call.frames one.site.machine.memory := by
      unfold Call.frames
      simp only [alike.memory.slice]
    rcases agree.cases with ⟨frame, after, after', ended, ended', kept⟩ | ⟨stop, after, after', ended, ended', kept⟩
    · simp only [Act.perform, ended, ended', frames, alike.accepted, alike.delivered]
      exact ⟨trivial, kept, alike.bus, alike.others, rfl, rfl⟩
    · simp only [Act.perform, ended, ended']
      exact ⟨trivial, { alike with controller := kept }⟩
  | revise slot found =>
    have marked := TransmitRing.mark_alike alike.memory alike.controller.transmit.table (fun _ => found) [slot]
    have kept : Session.Alike False ((Act.revise slot found).perform one).2
        ((Act.revise slot found).perform other).2 :=
      alike.of_site ⟨marked, alike.device⟩ alike.others
    refine ⟨rfl, { kept with controller := ⟨{ kept.controller.transmit with settled := ?_ }, ?_⟩ }⟩
    -- A report that is changed may be counted in one ring and not in the other.
    · exact fun asked => absurd trivial (fixed asked)
    · exact kept.controller.receiveRing
  | countFree | serve | inject | raise | allocate | make | retain | release | write => exact apart trivial

/-- Sessions that are alike after the same act, or after none in one of them, have the same in flight. -/
theorem of_leaves (kept : Session.Alike settles next next')
    (after : next.Consistent settings later) (after' : next'.Consistent settings later')
    (leaves : act.Leaves flights later) (leaves' : act.Leaves flights later') :
    Bisimilar settings settles next next' later := by
  have pending := after.flies.carries.pending
  have pending' := after'.flies.carries.pending
  rw [kept.device.transmitSide, pending] at pending'
  rw [leaves.unique leaves' pending'.symm] at after'
  exact ⟨kept, after, after'⟩

theorem perform (bisimilar : Bisimilar settings settles one other flights) (busy : act.isUpkeep = false)
    (fixed : settles → ¬ act.Revises) (proper : act.Unaliased one) :
    (act.perform other).1 = (act.perform one).1 ∧
      ∃ later, Bisimilar settings settles (act.perform one).2 (act.perform other).2 later := by
  obtain ⟨answers, kept⟩ := bisimilar.agree busy fixed proper
  obtain ⟨later, after, leaves⟩ := act.consistent bisimilar.one proper.1
  obtain ⟨later', after', leaves'⟩ := act.consistent bisimilar.other (bisimilar.allowed proper.1)
  exact ⟨answers, later, .of_leaves kept after after' leaves leaves'⟩

theorem skip (bisimilar : Bisimilar settings settles one other flights) (isUpkeep : act.isUpkeep = true) :
    Bisimilar settings settles one (act.perform other).2 flights := by
  have kept : Session.Alike settles other (act.perform other).2 := Act.perform_alike bisimilar.other.sound isUpkeep
  obtain ⟨later, after, leaves⟩ := act.consistent bisimilar.other (Act.allowed_of_isUpkeep isUpkeep)
  exact .of_leaves (bisimilar.alike.trans kept) bisimilar.one after (Act.leaves_of_isUpkeep isUpkeep) leaves

end Bisimilar

end PacketPath
