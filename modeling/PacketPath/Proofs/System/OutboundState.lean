import Mathlib.Logic.Relation
import PacketPath.Proofs.System.PumpStart
import PacketPath.Proofs.System.Queued

/-! The state of a controller whose user lets pumps of either kind work and makes calls, in any order. An input pump
is given its pages for a step and they come back after it; in between anybody may do with them what he likes. -/

set_option autoImplicit false

namespace PacketPath

structure OutboundState where
  controller : Controller
  site : Site
  /-- The frames that were posted, oldest first. -/
  posted : List Posted := []
  /-- The messages that were taken, oldest first, each with its reader. -/
  taken : List (ProcessId × Message) := []

/-- The message that is taken at an end to be served: the oldest one. -/
def Endpoint.takes (endpoint : Endpoint) (bus : MessageBus) : List (ProcessId × Message) :=
  match endpoint with
  | .closed => []
  | .process reader => (bus.waiting reader).head?.toList.map fun message => (reader, message)

namespace OutboundState

abbrev opened (controller : Controller) (site : Site) : OutboundState :=
  { controller := controller, site := site.seen }

/-- An input pump at work. It has taken over its pages from those who hold some. -/
def receiving (state : OutboundState) (pump : InboundPump) (rest : List PageId) : Running InboundPump Emulator Others :=
  ⟨pump, state.controller, { state.site with others.held := rest }⟩

def sending (state : OutboundState) (pump : OutboundPump) : Running OutboundPump Emulator Others :=
  ⟨pump, state.controller, state.site⟩

def received (state : OutboundState) (pages : List PageId) (after : Running InboundPump Emulator Others) :
    OutboundState :=
  { state with
    controller := after.controller
    site := Site.seen { after.around with others.held := pages ++ after.around.others.held } }

def sent (state : OutboundState) (endpoint : Endpoint) (pump : OutboundPump)
    (after : Running OutboundPump Emulator Others) :
    OutboundState where
  controller := after.controller
  site := Site.seen after.around
  posted := state.posted ++ endpoint.posts state.site (after.pump.counters.packets - pump.counters.packets)
  taken := state.taken ++ endpoint.takes state.site.bus

def called (state : OutboundState) (after : Controller × Machine Emulator) : OutboundState :=
  { state with controller := after.1, site := Site.seen { state.site with machine := after.2 } }

structure ProvidesPages (state : OutboundState) (pump : InboundPump) (rest : List PageId) : Prop where
  given : state.site.others.held.Perm (pump.pages.toList ++ rest)
  reached : ∀ page ∈ pump.pages.toList, state.site.machine.memory.Reaches page
  turn : pump.turn < pump.pages.size

def LendsReached (state : OutboundState) (endpoint : Endpoint) : Prop :=
  ∀ message, endpoint.oldest state.site.bus = some message →
    ∀ page ∈ message.pages, state.site.machine.memory.Reaches page

/-- One thing that happens to a controller, however it ends: a pause, a step of a pump of either kind, or a call. The
others may do what they like, too, in every pause of a step. -/
inductive Round (proper : OutboundState → Call → Prop) : OutboundState → OutboundState → Prop where
  | pause {state : OutboundState} {next : Site} (moves : Moves .free state.site.seen next) :
      Round proper state { state with site := next }
  | receive {state : OutboundState} {pump : InboundPump} {rest : List PageId} (provided : state.ProvidesPages pump rest)
      (endpoint : Endpoint) {pause : Pause Emulator Others} (lawful : Lawful .free pause) (fuel : Nat) :
      Round proper state (state.received pump.pages.toList
        ((InboundPump.step endpoint pause fuel).after (state.receiving pump rest)))
  | send {state : OutboundState} (pump : OutboundPump) {endpoint : Endpoint}
      (lendsReached : state.LendsReached endpoint)
      {pause : Pause Emulator Others} (lawful : Lawful .free pause) (fuel : Nat) :
      Round proper state (state.sent endpoint pump
        ((OutboundPump.serveOne endpoint pause fuel).after (state.sending pump)))
  | call {state : OutboundState} (call : Call) (allowed : proper state call) :
      Round proper state (state.called (call.perform.after (state.controller, state.site.machine)))

end OutboundState

variable {state next : OutboundState} {proper : OutboundState → Call → Prop} {endpoint : Endpoint}
  {pause : Pause Emulator Others}
  {settings : Settings} {controller : Controller} {site : Site}

/-! ### Soundness -/

def OutboundState.Sound (state : OutboundState) : Prop :=
  PacketPath.Sound state.controller [] state.controller.receiveRing.recycled state.site

theorem Attached.opens (attached : Attached settings controller site) :
    (OutboundState.opened controller site).Sound := by
  have started := attached.started
  obtain ⟨_, _, blank⟩ := started.receiveBlank
  have recycled : controller.receiveRing.recycled = 0 := by
    rw [blank]
    rfl
  unfold OutboundState.Sound
  dsimp only
  rw [recycled]
  exact started.sound.seen

namespace OutboundState

theorem Sound.received {pump : InboundPump} {rest : List PageId} {invariant : Controller → Site → Prop}
    (sound : state.Sound) (provided : state.ProvidesPages pump rest)
    (keeps : ∀ page ∈ pump.pages.toList,
      InboundPump.Keeps .free pump.pages.toList page endpoint pump.settings.stack fun _ => invariant)
    (start : invariant state.controller { state.site with others.held := rest }) (lawful : Lawful .free pause)
    (fuel : Nat) {after : Running InboundPump Emulator Others}
    (ended : (InboundPump.step endpoint pause fuel).after (state.receiving pump rest) = after) :
    (state.received pump.pages.toList after).Sound ∧ invariant after.controller after.around := by
  have turns := InboundPump.nextPage_mem provided.turn
  have taken := PacketPath.Sound.takesOver sound provided.given
  rw [List.append_nil] at taken
  have back {phase : InboundPump.Phase} {later : InboundPump} {after : Running InboundPump Emulator Others}
      (reached : InboundPump.At later pump.pages.toList (fun _ => invariant) phase after) :
      (state.received pump.pages.toList after).Sound ∧ invariant after.controller after.around := by
    have sound := reached.sound
    rw [← List.append_nil pump.pages.toList] at sound
    exact ⟨sound.handsOver.seen, reached.holds⟩
  apply Step.Ends.reached ended
  refine (InboundPump.step_ends (keeps _ turns) lawful rfl turns rfl
    ⟨taken, provided.reached, start, rfl, rfl, rfl, rfl⟩ rfl fuel).mono ?_ ?_
  · rintro _ after ⟨phase, -, reached⟩
    exact back reached
  · rintro _ after ⟨phase, -, reached⟩
    exact back reached

variable {invariant : List Posted → Controller → Site → Prop}

structure PostedFrames (state : OutboundState) (endpoint : Endpoint) (pump : OutboundPump)
    (invariant : List Posted → Controller → Site → Prop) (frames : List Fragment)
    (after : Running OutboundPump Emulator Others) : Prop where
  sound : (state.sent endpoint pump after).Sound
  posted : (state.sent endpoint pump after).posted =
    state.posted ++ frames.map fun fragment => ⟨fragment, state.site.others.points.length⟩
  holds : invariant (state.sent endpoint pump after).posted after.controller after.around

/-- A step of an output pump that is answered has posted all frames of the oldest message; any other step has
posted the first of them. -/
theorem Sound.send_ends (sound : state.Sound) (preserved : Preserved .free (fun _ => True) invariant)
    (holds : invariant state.posted state.controller state.site) (lendsReached : state.LendsReached endpoint)
    (lawful : Lawful .free pause) (pump : OutboundPump) (fuel : Nat) :
    (OutboundPump.serveOne endpoint pause fuel).Ends (state.sending pump)
      (fun count after =>
        count = (endpoint.oldest state.site.bus).map
          (fun message => (message.frames state.site.machine.memory).length) ∧
        state.PostedFrames endpoint pump invariant (endpoint.frames state.site) after)
      (fun _ after => ∃ first, first <+: endpoint.frames state.site ∧
        state.PostedFrames endpoint pump invariant first after) := by
  -- Nothing is posted yet, whatever message the step has in its hands.
  have begins (hands : List PageId) (bus : MessageBus)
      (reached : ∀ page ∈ hands, state.site.machine.memory.Reaches page) :
      Serving (fun _ => True) invariant state.posted state.site.others.points.length [] hands state.controller
        { state.site with bus := bus } := by
    refine ⟨?_, Nat.le_refl _, fun page held _ => reached page held⟩
    rw [List.map_nil, List.append_nil]
    exact preserved.unmoved holds (.of_memory (.refl _ _) bus)
  have fetches (reader : ProcessId) (message : Message) (bus : MessageBus)
      (taken : state.site.bus.take reader = .ok (some message, bus)) (own : endpoint = .process reader) := by
    apply begins message.pages bus
    apply lendsReached message
    rw [own]
    exact Endpoint.oldest_of_take taken
  have posts {first : List Fragment} {after : Running OutboundPump Emulator Others}
      (among : first <+: endpoint.frames state.site)
      (reached : OutboundPump.At (pump.counters.packets + first.length) []
        (Serving (fun _ => True) invariant state.posted state.site.others.points.length) first [] [] after) :
      state.PostedFrames endpoint pump invariant first after := by
    -- The counter of the pump tells how many frames a step has posted.
    have posted : (state.sent endpoint pump after).posted =
        state.posted ++ first.map fun fragment => ⟨fragment, state.site.others.points.length⟩ := by
      rw [sent, reached.packets, Nat.add_sub_cancel_left, Endpoint.posts_length among]
    refine ⟨reached.sound.seen, posted, ?_⟩
    rw [posted]
    exact reached.holds.holds
  have start : PacketPath.Sound (state.sending pump).controller [] state.controller.receiveRing.recycled
      (state.sending pump).around := sound
  refine (OutboundPump.serveOne_ends (preserved.outbound pause [] state.posted state.site.others.points.length) lawful
    start (fun _ => begins [] state.site.bus nofun) fetches fuel).mono ?_ ?_
  · rintro count after ⟨answer, reached⟩
    exact ⟨answer, posts List.prefix_rfl reached⟩
  · rintro _ after ⟨first, among, reached⟩
    exact ⟨first, among, posts among reached⟩

/-! ### Rounds -/

structure Maintains (invariant : List Posted → Controller → Site → Prop) (state : OutboundState) : Prop where
  sound : state.Sound
  holds : invariant state.posted state.controller state.site

def CallsKeep (proper : OutboundState → Call → Prop) (invariant : List Posted → Controller → Site → Prop) : Prop :=
  ∀ state call, proper state call → state.Maintains invariant →
    call.perform.Ends (state.controller, state.site.machine)
      (fun _ after => (state.called after).Sound ∧
        invariant state.posted after.1 { state.site with machine := after.2 })
      (fun _ after => (state.called after).Sound ∧
        invariant state.posted after.1 { state.site with machine := after.2 })

theorem Maintains.of_seen {site : Site} (preserved : Preserved .free (fun _ => True) invariant)
    (same : state.site = site.seen)
    (sound : state.Sound) (holds : invariant state.posted state.controller site) : state.Maintains invariant := by
  have ended : PacketPath.Sound state.controller [] state.controller.receiveRing.recycled state.site := sound
  rw [same] at ended
  have before : PacketPath.Sound state.controller [] state.controller.receiveRing.recycled site := { ended with }
  refine ⟨sound, ?_⟩
  rw [same]
  exact preserved.moves before holds (.none _)

/-- An invariant of what was posted is kept by every round if it is kept by the calls. -/
theorem Round.maintains (preserved : Preserved .free (fun _ => True) invariant) (calls : CallsKeep proper invariant)
    (maintains : state.Maintains invariant) (round : Round proper state next) : next.Maintains invariant := by
  obtain ⟨sound, holds⟩ := maintains
  cases round with
  | pause moves =>
    have start : PacketPath.Sound state.controller [] state.controller.receiveRing.recycled state.site := sound
    exact ⟨(moves.keepsReserved start.seen).1, preserved.moves start holds moves⟩
  | @receive pump rest provided endpoint pause lawful fuel =>
    -- Pages change hands before the step and after it, and the memory stays as it is.
    have start := preserved.unmoved holds (.of_held state.controller state.site rest)
    obtain ⟨sound, holds⟩ :=
      sound.received provided (fun page turns => preserved.inbound turns endpoint _ _) start lawful fuel rfl
    exact .of_seen preserved rfl sound (preserved.unmoved holds (.of_held _ _ _))
  | @send pump endpoint lendsReached pause lawful fuel =>
    have back (frames : List Fragment) (after : Running OutboundPump Emulator Others)
        (posts : state.PostedFrames endpoint pump invariant frames after) :
        (state.sent endpoint pump after).Maintains invariant := .of_seen preserved rfl posts.sound posts.holds
    generalize ended : (OutboundPump.serveOne endpoint pause fuel).after (state.sending pump) = last
    apply Step.Ends.reached ended
    refine (sound.send_ends preserved holds lendsReached lawful pump fuel).mono ?_ ?_
    · rintro _ after ⟨-, posts⟩
      exact back _ after posts
    · rintro _ after ⟨first, -, posts⟩
      exact back first after posts
  | call call allowed =>
    have back (after : Controller × Machine Emulator)
        (kept : (state.called after).Sound ∧ invariant state.posted after.1 { state.site with machine := after.2 }) :
        (state.called after).Maintains invariant := .of_seen preserved rfl kept.1 kept.2
    exact ((calls state call allowed ⟨sound, holds⟩).mono (fun _ => back) (fun _ => back)).after

end OutboundState

end PacketPath
