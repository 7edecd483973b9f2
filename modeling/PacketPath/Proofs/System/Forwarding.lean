import PacketPath.Proofs.System.Delivery
import PacketPath.Proofs.System.Lending

/-! Forwarding: frames come in through one pump and are sent out through the other. What the input pump has delivered
stays as it is for as long as anybody holds it, and goes out as it came in. -/

set_option autoImplicit false

namespace PacketPath

variable {rules : Rules} {settings : Settings} {pumpSettings : PumpSettings} {rotation : List PageId} {page : PageId}
  {controller : Controller} {pump : InboundPump} {outbound : OutboundPump} {site next : Site} {endpoint : Endpoint}
  {pause : Pause Emulator Others}

/-! ### States -/

structure ForwardingState where
  inbound : InboundPump
  outbound : OutboundPump
  controller : Controller
  site : Site
  /-- The frames that the output pump posted, oldest first. -/
  posted : List Posted := []

namespace ForwardingState

def receiving (state : ForwardingState) : Running InboundPump Emulator Others :=
  ⟨state.inbound, state.controller, state.site⟩

def sending (state : ForwardingState) : Running OutboundPump Emulator Others :=
  ⟨state.outbound, state.controller, state.site⟩

def received (state : ForwardingState) (after : Running InboundPump Emulator Others) : ForwardingState :=
  { state with inbound := after.pump, controller := after.controller, site := Site.seen after.around }

/-- The state after a step of the output pump. The pump counts the frames that it posts. -/
def sent (state : ForwardingState) (endpoint : Endpoint) (after : Running OutboundPump Emulator Others) :
    ForwardingState :=
  { state with
    outbound := after.pump
    controller := after.controller
    site := Site.seen after.around
    posted := state.posted ++
      endpoint.posts state.site (after.pump.counters.packets - state.outbound.counters.packets) }

def called (state : ForwardingState) (after : Controller × Machine Emulator) : ForwardingState :=
  { state with controller := after.1, site := Site.seen { state.site with machine := after.2 } }

/-- One thing that happens while both pumps work, however it ends: a move of the others, a step of either pump, or a
call for upkeep of the transmit ring. The others may do what they like in every pause of a step. -/
inductive Advances (rules : Rules) : ForwardingState → ForwardingState → Prop where
  | move {state : ForwardingState} {next : Site} (move : Move rules state.site next) :
      Advances rules state { state with site := next.seen }
  | receive {state : ForwardingState} (endpoint : Endpoint) {pause : Pause Emulator Others}
      (lawful : Lawful rules pause)
      (fuel : Nat) :
      Advances rules state
        (state.received ((InboundPump.step endpoint pause fuel).after state.receiving))
  | send {state : ForwardingState} (endpoint : Endpoint) {pause : Pause Emulator Others} (lawful : Lawful rules pause)
      (fuel : Nat) :
      Advances rules state
        (state.sent endpoint ((OutboundPump.serveOne endpoint pause fuel).after state.sending))
  | call {state : ForwardingState} (call : Call) (isUpkeep : call.IsUpkeep) :
      Advances rules state (state.called (call.perform.after (state.controller, state.site.machine)))

end ForwardingState

/-! ### Deliveries on record -/

structure Delivering (rotation : List PageId) (since : Nat) (page : PageId) (phase : InboundPump.Phase) (site : Site) :
    Prop where
  started : since ≤ site.others.points.length
  packs : ∀ frame, phase = .full frame → site.machine.memory.Packs page frame
  lent : ∀ frame, phase = .sent frame → ∃ i machine, since ≤ i ∧ site.seen.others.points[i]? = some machine ∧
    machine.memory.Packs page frame ∧ Lent rotation machine.memory page

namespace Delivering

variable {since : Nat} {phase later : InboundPump.Phase}

theorem keeps (reserved : ∀ page ∈ rotation, rules.reserved page) (turns : page ∈ rotation) (since : Nat)
    (endpoint : Endpoint) (stack : ProcessId) :
    InboundPump.Keeps rules rotation page endpoint stack fun phase _ => Delivering rotation since page phase where
  moves := by
    intro phase controller site next sound delivering moves
    obtain ⟨more, points⟩ := moves.points_prefix sound.seen
    have keepsReserved := (moves.keepsReserved sound.seen).2
    refine ⟨?_, ?_, ?_⟩
    · rw [← points, Site.seen, List.append_assoc, List.length_append]
      exact Nat.le_add_right_of_le delivering.started
    · intro frame full
      have outside := sound.outside_of_reserved turns (reserved page turns)
      exact (delivering.packs frame full).of_slice fun _ _ =>
        keepsReserved.changes.slice (sound.knows_extra turns) outside ..
    · intro frame sent
      obtain ⟨i, machine, after, here, packs, lent⟩ := delivering.lent frame sent
      refine ⟨i, machine, after, ?_, packs, lent⟩
      have inside := (List.getElem?_eq_some_iff.mp here).1
      rw [Site.seen, ← points, List.append_assoc, List.getElem?_append_left inside]
      exact here
  notes := by
    intro phase controller site log delivering
    refine ⟨delivering.started, delivering.packs, fun frame sent => ?_⟩
    obtain ⟨i, machine, after, here, packs, lent⟩ := delivering.lent frame sent
    -- If it is the last point, only the log on it is another one.
    rcases getElem?_push here with before | ⟨rfl, rfl⟩
    · refine ⟨i, machine, after, ?_, packs, lent⟩
      rw [Site.seen, List.getElem?_append_left (List.getElem?_eq_some_iff.mp before).1]
      exact before
    · exact ⟨_, { site.machine with log := log }, after, List.getElem?_concat_length, packs, lent⟩
  misses := by
    intro controller site recycled sound delivering _ _
    refine ⟨delivering.started, ?_, ?_⟩ <;> rintro _ ⟨⟩
  draws := by
    intro controller site frame after sound delivering _ _ packs
    refine ⟨delivering.started, ?_, ?_⟩ <;> rintro _ ⟨⟩
    exact packs
  lends := by
    intro controller site frame sender bus sound delivering own sent
    refine ⟨delivering.started, ?_, ?_⟩ <;> rintro _ ⟨⟩
    have known := sound.knows_extra turns
    have distinct := sound.distinct
    have sound : Sound controller ([] ++ rotation) controller.receiveRing.recycled _ := sound.lends turns sent
    -- The point is the one that is put on record next.
    refine ⟨_, _, delivering.started, List.getElem?_concat_length, ?_, ?_⟩
    · apply (delivering.packs frame rfl).of_slice
      exact (Memory.changes_retain (fun _ => False) known).slice known id
    · apply sound.lent_of_mem_owned
      exact List.mem_append_right _ ((MessageBus.perm_pages_deliver distinct sent).mem_iff.mpr (List.mem_cons_self ..))
  takesBack := by
    intro controller site frame sound delivering
    refine ⟨delivering.started, fun frame full => ?_, ?_⟩
    · have known := sound.knows_extra turns
      have changes := (Memory.changes_retain (fun _ => False) known).trans (Memory.changes_release _ _ page)
      exact (delivering.packs frame full).of_slice (changes.slice known id)
    · rintro _ ⟨⟩

end Delivering

/-! ### The contract -/

/-- The pages of the input pump are lent. As long as one is lent it is not changed, whatever happens. A step that
delivers puts the page on record as it is lent, with the packet in it. Every frame on the wire is one that the output
pump posted. If its page was lent from some point on until its message was taken, it went out as it stood in the page
at that point. A page counts as lent as long as it is in a message, or held by somebody else, or kept by the transmit
ring. -/
structure ForwardingState.Lends (rules : Rules) (rotation : List PageId) (state : ForwardingState) : Prop where
  unchanged : ∀ page ∈ rotation, ∀ (i j : Nat) (before after : Machine Emulator), i ≤ j →
    state.site.others.points[i]? = some before → state.site.others.points[j]? = some after →
    (∀ (k : Nat) (machine : Machine Emulator), i ≤ k → k < j → state.site.others.points[k]? = some machine →
      Lent rotation machine.memory page) →
    (after.memory.page page).bytes = (before.memory.page page).bytes
  delivered : ∀ endpoint pause fuel, Lawful rules pause →
    (InboundPump.step endpoint pause fuel).Ends state.receiving
      (fun delivered after => delivered = true → ∃ i machine frame, state.site.others.points.length ≤ i ∧
        (state.received after).site.others.points[i]? = some machine ∧
        machine.memory.Packs state.inbound.nextPage frame ∧ Lent rotation machine.memory state.inbound.nextPage)
      (fun _ _ => True)
  posted : state.site.machine.device.sent.length ≤ state.posted.length
  forwarded : ∀ (n : Nat) (request : Posted) frame, state.posted[n]? = some request →
    state.site.machine.device.sent[n]? = some frame → request.fragment.page ∈ rotation →
    ∀ (i : Nat) (before : Machine Emulator), i < request.since → state.site.others.points[i]? = some before →
    (∀ (k : Nat) (machine : Machine Emulator), i ≤ k → k < request.since → state.site.others.points[k]? = some machine →
      Lent rotation machine.memory request.fragment.page) →
    frame = before.memory.slice request.fragment.page request.fragment.offset request.fragment.length
  holders : ∀ page, page ∈ state.site.others.held ∨ page ∈ state.site.bus.pages ∨
    (∃ slot, state.controller.transmitRing.binding slot = some page) →
    Lent rotation state.site.machine.memory page

structure ForwardingState.Invariant (rotation : List PageId) (state : ForwardingState) : Prop where
  pages : state.inbound.pages.toList = rotation
  turn : state.inbound.turn < state.inbound.pages.size
  sound : Sound state.controller ([] ++ rotation) state.controller.receiveRing.recycled state.site
  lending : LendingInvariant rotation state.posted 0 [] state.controller state.site
  recorded : state.site.Recorded

def ForwardingState.ServingInvariant (rotation : List PageId) (state : ForwardingState) (fragments : List Fragment) :
    List PageId → Controller → Site → Prop :=
  LendingInvariant rotation (state.posted ++ fragments.map fun fragment => ⟨fragment, state.site.others.points.length⟩)
    state.site.others.points.length

namespace ForwardingState.Invariant

variable {state later : ForwardingState}

theorem turns (inv : state.Invariant rotation) : state.inbound.nextPage ∈ rotation := by
  have listed := InboundPump.nextPage_mem inv.turn
  rwa [inv.pages] at listed

theorem step_ends {invariant : InboundPump.Phase → Controller → Site → Prop} (inv : state.Invariant rotation)
    (keeps : InboundPump.Keeps rules rotation state.inbound.nextPage endpoint state.inbound.settings.stack invariant)
    (start : invariant .idle state.controller state.site) (lawful : Lawful rules pause) (fuel : Nat) :
    (InboundPump.step endpoint pause fuel).Ends state.receiving
      (fun delivered after => ∃ phase, InboundPump.Returns delivered phase ∧
        InboundPump.At (if delivered then state.inbound.onward else state.inbound) rotation invariant phase after)
      (fun stop after => ∃ phase, InboundPump.Stops stop phase ∧
        InboundPump.At state.inbound rotation invariant phase after) :=
  InboundPump.step_ends keeps lawful rfl inv.turns rfl
    ⟨inv.sound, inv.lending.reached, start, rfl, rfl, rfl, rfl⟩ rfl fuel

theorem received (inv : state.Invariant rotation) {pump : InboundPump} {phase : InboundPump.Phase}
    {after : Running InboundPump Emulator Others}
    (reached : InboundPump.At pump rotation
      (fun phase controller site => LendingInvariant rotation state.posted 0 [] controller site ∧
        (phase = .idle → site.Recorded))
      phase after)
    (pages : pump.pages = state.inbound.pages) (turn : pump.turn < pump.pages.size) :
    (state.received after).Invariant rotation where
  pages := by
    rw [ForwardingState.received, reached.pages, pages]
    exact inv.pages
  turn := by
    rw [ForwardingState.received, reached.turn, reached.pages]
    exact turn
  sound := reached.sound.seen
  lending := reached.holds.1.seen reached.sound
  recorded := Site.recorded_seen _

theorem sent (inv : state.Invariant rotation) {more : List Fragment} (first : more <+: endpoint.frames state.site)
    {after : Running OutboundPump Emulator Others}
    (reached : OutboundPump.At (state.outbound.counters.packets + more.length) rotation
      (state.ServingInvariant rotation)
      more [] [] after) :
    (state.sent endpoint after).Invariant rotation := by
  have served : endpoint.posts state.site (after.pump.counters.packets - state.outbound.counters.packets) =
      more.map fun fragment => ⟨fragment, state.site.others.points.length⟩ := by
    rw [reached.packets, Nat.add_sub_cancel_left, Endpoint.posts_length first]
  have serving : LendingInvariant rotation _ _ [] after.controller after.around := reached.holds
  have lending := serving.seen reached.sound
  rw [← served] at lending
  exact ⟨inv.pages, inv.turn, reached.sound.seen,
    { lending with started := Nat.zero_le _, held := nofun }, Site.recorded_seen _⟩

theorem receive (inv : state.Invariant rotation) (reserved : ∀ page ∈ rotation, rules.reserved page)
    (lawful : Lawful rules pause) (fuel : Nat) :
    (state.received ((InboundPump.step endpoint pause fuel).after state.receiving)).Invariant rotation := by
  have keeps := LendingInvariant.inbound reserved inv.turns state.posted endpoint state.inbound.settings.stack
  have start : InboundPump.Phase.idle = .idle → state.site.Recorded := fun _ => inv.recorded
  generalize ended : (InboundPump.step endpoint pause fuel).after state.receiving = last
  apply Step.Ends.reached ended
  refine (inv.step_ends keeps ⟨inv.lending, start⟩ lawful fuel).mono ?_ ?_
  · rintro delivered after ⟨phase, -, reached⟩
    cases delivered with
    | true => exact inv.received reached rfl (Nat.mod_lt _ (Nat.zero_lt_of_lt inv.turn))
    | false => exact inv.received reached rfl inv.turn
  · rintro _ after ⟨phase, -, reached⟩
    exact inv.received reached rfl inv.turn

theorem send (inv : state.Invariant rotation) (reserved : ∀ page ∈ rotation, rules.reserved page)
    (lawful : Lawful rules pause) (fuel : Nat) :
    (state.sent endpoint ((OutboundPump.serveOne endpoint pause fuel).after state.sending)).Invariant rotation := by
  have keeps : OutboundPump.Keeps rules pause rotation (state.ServingInvariant rotation) :=
    LendingInvariant.outbound pause rotation reserved state.posted state.site.others.points.length
  -- The pages of the message are lent from here on: no later point is on record yet.
  have fetched (bus : MessageBus) (hands : List PageId) :
      state.ServingInvariant rotation [] hands state.controller { state.site with bus := bus } := by
    rw [ForwardingState.ServingInvariant, List.map_nil, List.append_nil]
    exact
      { inv.lending with
        queued := inv.lending.queued.unmoved (.of_memory (.refl _ _) bus)
        started := Nat.le_refl _
        held := by
          intro page _ _ k machine behind here
          rw [List.getElem?_eq_none behind] at here
          cases here }
  generalize ended : (OutboundPump.serveOne endpoint pause fuel).after state.sending = last
  apply Step.Ends.reached ended
  refine (OutboundPump.serveOne_ends keeps lawful inv.sound (fun _ => fetched state.site.bus [])
    (fun _ message bus _ _ => fetched bus message.pages) fuel).mono ?_ ?_
  · rintro count after ⟨-, reached⟩
    exact inv.sent List.prefix_rfl reached
  · rintro _ after ⟨more, first, reached⟩
    exact inv.sent first reached

theorem call (inv : state.Invariant rotation) {call : Call} (isUpkeep : call.IsUpkeep) :
    (state.called (call.perform.after (state.controller, state.site.machine))).Invariant rotation := by
  generalize ended : call.perform.after (state.controller, state.site.machine) = last
  apply Step.Ends.reached ended
  refine (Call.perform_upkeep isUpkeep inv.sound.wired.seated).mono (fun _ after upkeep => ?_) (fun _ _ => False.elim)
  have sound := upkeep.transmitOnly.sound inv.sound
  rw [← upkeep.transmitOnly.receiveRing] at sound
  have lending := inv.lending.unmoved inv.sound (fun _ => id) upkeep.unmoved (by
    rintro page turns rfl
    exact absurd (Sound.table_mem_own state.controller) (inv.sound.not_mem_own turns))
  exact ⟨inv.pages, inv.turn, sound.seen, lending.seen sound, Site.recorded_seen _⟩

theorem advances (inv : state.Invariant rotation) (reserved : ∀ page ∈ rotation, rules.reserved page)
    (advances : ForwardingState.Advances rules state later) : later.Invariant rotation := by
  cases advances with
  | @move next move =>
    have sound := (move.keepsReserved inv.sound).1
    have lending := (inv.lending.move inv.recorded inv.sound reserved move).seen sound
    exact ⟨inv.pages, inv.turn, sound.seen, lending, next.recorded_seen⟩
  | receive endpoint lawful fuel => exact inv.receive reserved lawful fuel
  | send endpoint lawful fuel => exact inv.send reserved lawful fuel
  | call call isUpkeep => exact inv.call isUpkeep

theorem unchanged (inv : state.Invariant rotation) (turns : page ∈ rotation) {i j : Nat}
    {before after : Machine Emulator} (ordered : i ≤ j) (first : state.site.others.points[i]? = some before)
    (second : state.site.others.points[j]? = some after)
    (lent : ∀ k machine, i ≤ k → k < j → state.site.others.points[k]? = some machine →
      Lent rotation machine.memory page) :
    (after.memory.page page).bytes = (before.memory.page page).bytes := by
  rcases Nat.eq_or_lt_of_le ordered with rfl | earlier
  · rw [Option.some.inj (first.symm.trans second)]
  · -- What is on record of the later point speaks of the points before it.
    apply inv.lending.recorded j after second page turns i before
    · rw [List.getElem?_take_of_lt earlier]
      exact first
    · intro k machine behind here
      rw [List.getElem?_take] at here
      split at here
      · exact lent k machine behind ‹_› here
      · cases here

theorem lends (inv : state.Invariant rotation) (reserved : ∀ page ∈ rotation, rules.reserved page) :
    state.Lends rules rotation where
  unchanged page turns i j before after ordered first second := inv.unchanged turns ordered first second
  delivered := by
    intro endpoint pause fuel lawful
    have keeps := Delivering.keeps reserved inv.turns state.site.others.points.length endpoint
      state.inbound.settings.stack
    refine (inv.step_ends keeps ⟨Nat.le_refl _, nofun, nofun⟩ lawful fuel).mono ?_ (fun _ _ _ => trivial)
    rintro _ after ⟨phase, returns, reached⟩ rfl
    obtain ⟨frame, sent⟩ := returns
    obtain ⟨i, machine, behind, here, packs, lent⟩ := reached.holds.lent frame sent
    exact ⟨i, machine, frame, behind, here, packs, lent⟩
  posted := inv.lending.queued.within
  forwarded := by
    intro n request frame asked sent turns i before earlier first lent
    obtain ⟨k, machine, behind, here, fewer, rfl⟩ := inv.lending.queued.granted n request frame asked sent turns
    -- From the message on until the frame is out, the pump or the ring holds the page.
    have same := inv.unchanged turns (show i ≤ k by omega) first here (by
      intro m other after short between
      rcases Nat.lt_or_ge m request.since with sooner | taken
      · exact lent m other after sooner between
      · apply inv.lending.kept n request asked turns m other taken between
        apply fewer
        apply List.mem_of_getElem? (i := m)
        rw [List.getElem?_take_of_lt (by omega)]
        exact between)
    change (machine.memory.page request.fragment.page).slice _ _ = (before.memory.page request.fragment.page).slice _ _
    unfold Page.slice
    rw [same]
    rfl
  holders := by
    rintro page (held | lent | ⟨slot, bound⟩)
    · exact inv.sound.lent_of_mem_owned (List.mem_append_left _ held)
    · exact inv.sound.lent_of_mem_owned (List.mem_append_right _ lent)
    · exact inv.sound.lent_of_bound bound

end ForwardingState.Invariant

theorem PumpCreated.opens (pumpCreated : PumpCreated settings pumpSettings controller pump site)
    (outbound : OutboundPump) :
    ForwardingState.Invariant pump.pages.toList ⟨pump, outbound, controller, site, []⟩ := by
  have ready := pumpCreated.ready
  -- There is one point on record so far, so nothing can have changed since.
  have alone {i : Nat} {machine : Machine Emulator} (here : site.others.points[i]? = some machine) :
      i = 0 ∧ machine = site.machine := by
    rw [ready.points, ← List.nil_append [site.machine]] at here
    rcases getElem?_push here with before | ⟨rfl, rfl⟩
    · cases before
    · exact ⟨rfl, rfl⟩
  have queued : Queued (· ∈ pump.pages.toList) [] controller site := by
    apply Queued.start ready.flies ready.wire
    intro before listed
    rw [ready.points] at listed
    exact List.mem_singleton.mp listed
  refine ⟨rfl, ready.turn, ready.sound, ?_, ?_⟩
  · refine
      { reached := ready.reached
        queued := queued
        recorded := ?_
        unspoilt := ?_
        kept := nofun
        started := Nat.zero_le _
        held := nofun }
    · intro j machine here page _ i old earlier
      obtain ⟨rfl, rfl⟩ := alone here
      rw [List.take_zero] at earlier
      cases earlier
    · intro page _ i old here _
      obtain ⟨-, rfl⟩ := alone here
      rfl
  · exact ⟨site.machine, by rw [ready.points]; rfl, rfl⟩

/-- Whatever happens while both pumps work, in any order and in every pause, no page that the input pump has lent is
written to. Pages are lent for reading, so the others keep their hands off them. What is forwarded goes out as it was
delivered. -/
theorem lent_pages_unwritten (pumpCreated : PumpCreated settings pumpSettings controller pump site)
    (reserved : ∀ page ∈ pump.pages.toList, rules.reserved page) {state : ForwardingState}
    (run : Relation.ReflTransGen (ForwardingState.Advances rules) ⟨pump, outbound, controller, site, []⟩ state) :
    state.Lends rules pump.pages.toList := by
  suffices inv : state.Invariant pump.pages.toList from inv.lends reserved
  induction run with
  | refl => exact pumpCreated.opens outbound
  | tail _ advances ih => exact ih.advances reserved advances

/-- A frame comes in and is delivered, and its page is lent. -/
theorem lent_pages_unwritten_once : ∃ controller pump site rules state,
    PumpCreated {} { inputPages := 1 } controller pump site ∧ (∀ page ∈ pump.pages.toList, rules.reserved page) ∧
    Relation.ReflTransGen (ForwardingState.Advances rules) ⟨pump, ⟨{}, {}⟩, controller, site, []⟩ state ∧
    (∃ machine ∈ state.site.others.points, Lent pump.pages.toList machine.memory pump.nextPage) ∧
    state.Lends rules pump.pages.toList := by
  obtain ⟨controller, pump, site, next, bus, rules, pumpCreated, -, reserved, -, injected, -, turns,
    waits, alone, sent⟩ :=
    exists_arrival (show [1, 2, 3].length ≤ Limits.receiveBuffer by decide)
  have ready := pumpCreated.ready
  have sound := (injected.keepsReserved ready.sound).1
  have reached := (injected.keepsReserved ready.sound).2.changes.reaches (ready.sound.knows_extra turns)
    (ready.reached _ turns)
  have lawful : Lawful rules Site.seen := fun site => .none site.seen
  have first : Relation.ReflTransGen (ForwardingState.Advances rules) ⟨pump, ⟨{}, {}⟩, controller, site, []⟩
      ⟨pump, ⟨{}, {}⟩, controller, next.seen, []⟩ := .single (.move injected)
  have run := first.tail (.receive (.process ⟨0x1000⟩) lawful 0)
  have before := lent_pages_unwritten pumpCreated reserved first
  have delivers : (InboundPump.step (.process ⟨0x1000⟩) Site.seen 0).Ends ⟨pump, controller, next.seen⟩
      (fun delivered _ => delivered = true) (fun _ _ => False) :=
    InboundPump.step_delivers sound.seen turns reached waits alone sent 0
  have lends : (InboundPump.step (.process ⟨0x1000⟩) Site.seen 0).Ends ⟨pump, controller, next.seen⟩
      (fun _ after => ∃ machine ∈ (Site.seen after.around).others.points,
        Lent pump.pages.toList machine.memory pump.nextPage)
      (fun _ after => ∃ machine ∈ (Site.seen after.around).others.points,
        Lent pump.pages.toList machine.memory pump.nextPage) := by
    refine ((before.delivered (.process ⟨0x1000⟩) Site.seen 0 lawful).and delivers).mono ?_ ?_
    · rintro _ after ⟨record, rfl⟩
      obtain ⟨i, machine, frame, -, here, -, lent⟩ := record rfl
      exact ⟨machine, List.mem_of_getElem? here, lent⟩
    · rintro _ _ ⟨-, ⟨⟩⟩
  exact ⟨controller, pump, site, rules, _, pumpCreated, reserved, run, lends.after,
    lent_pages_unwritten pumpCreated reserved run⟩

end PacketPath
