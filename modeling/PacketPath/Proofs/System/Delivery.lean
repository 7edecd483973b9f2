import Mathlib.Data.Bool.Count
import Mathlib.Logic.Relation
import PacketPath.Proofs.System.PumpStart

/-! Delivery: the input pump from end to end. The useful frames that come in reach the stack in order,
once each and as they were; the ones that do not are those that a step had in hand when it stopped. -/

set_option autoImplicit false

namespace PacketPath

variable {rules : Rules} {sender stack : ProcessId} {page : PageId} {endpoint : Endpoint}
  {pause : Pause Emulator Others} {settings : Settings} {pumpSettings : PumpSettings} {controller : Controller}
  {pump : InboundPump} {site : Site}

/-! ### Outcomes -/

def chosen (frames : List (List UInt8)) (outcomes : List Bool) : List (List UInt8) :=
  ((frames.zip outcomes).filter Prod.snd).map Prod.fst

def PumpFault.loses : PumpFault → Bool
  | .stalled .stack _ | .delivery _ => true
  | _ => false

namespace InboundPump.Phase

def drawn : Phase → List (List UInt8)
  | .idle | .empty => []
  | .full frame | .sent frame => [frame]

def lent : Phase → List (List UInt8)
  | .idle | .empty | .full _ => []
  | .sent frame => [frame]

def outcome : Phase → List Bool
  | .idle | .empty => []
  | .full _ => [false]
  | .sent _ => [true]

theorem length_outcome (phase : Phase) : phase.outcome.length = phase.drawn.length := by
  cases phase with
  | idle | empty | full | sent => rfl

theorem count_outcome (phase : Phase) : phase.outcome.count true = phase.lent.length := by
  cases phase with
  | idle | empty | full | sent => rfl

theorem outcome_of_returns {delivered : Bool} {phase : Phase} (returns : Returns delivered phase) :
    phase.outcome = (if delivered then [true] else []) ∧ phase.lent.length = delivered.toNat ∧
      phase.drawn.length = delivered.toNat := by
  cases delivered with
  | true =>
    obtain ⟨frame, rfl⟩ := returns
    exact ⟨rfl, rfl, rfl⟩
  | false =>
    obtain rfl | rfl := returns
    · exact ⟨rfl, rfl, rfl⟩
    · exact ⟨rfl, rfl, rfl⟩

theorem outcome_of_stops {fault : PumpFault} {phase : Phase} (stops : Stops (.refused fault) phase) :
    phase.outcome = (if fault.loses then [false] else []) ∧ phase.lent = [] := by
  cases fault with
  | stalled awaited spent =>
    cases awaited with
    | transmitRing => exact stops.elim
    | inputPage =>
      obtain rfl := stops
      exact ⟨rfl, rfl⟩
    | stack =>
      obtain ⟨frame, rfl⟩ := stops
      exact ⟨rfl, rfl⟩
  | delivery error =>
    obtain ⟨frame, rfl⟩ := stops
    exact ⟨rfl, rfl⟩
  | protocol | receive | transmit => exact stops.elim

theorem chosen_append {frames : List (List UInt8)} {outcomes : List Bool} (whole : frames.length = outcomes.length)
    (phase : Phase) : chosen (frames ++ phase.drawn)
    (outcomes ++ phase.outcome) = chosen frames outcomes ++ phase.lent := by
  unfold chosen
  rw [List.zip_append whole, List.filter_append, List.map_append]
  cases phase with
  | idle | empty | full | sent => rfl

end InboundPump.Phase

/-! ### States -/

/-- An input pump with its controller at a site, and what became of each useful frame that was drawn. -/
structure InboundState where
  pump : InboundPump
  controller : Controller
  site : Site
  /-- Whether the frames that were drawn so far were delivered, oldest first. -/
  outcomes : List Bool := []

namespace InboundState

def taken (state : InboundState) : List Arrival :=
  state.site.others.arrivals.take state.controller.receiveRing.recycled

def letters (state : InboundState) (sender : ProcessId) : List (Message × Memory) :=
  state.site.letters sender state.pump.settings.stack

def running (state : InboundState) : Running InboundPump Emulator Others :=
  ⟨state.pump, state.controller, state.site⟩

def advanced (state : InboundState) (after : Running InboundPump Emulator Others) (outcome : List Bool) :
    InboundState :=
  ⟨after.pump, after.controller, after.around, state.outcomes ++ outcome⟩

end InboundState

/-- The ends of the bus through which the pump may send: its own, or one whose bus is gone. -/
def Endpoint.Serves (sender : ProcessId) (endpoint : Endpoint) : Prop :=
  endpoint = .closed ∨ endpoint = .process sender

/-- One thing that happens around an input pump: a move of the others, or a step of the pump, which yields or ends
with a fault. The others may do what they like in every pause of a step. -/
inductive Round (rules : Rules) (sender : ProcessId) : InboundState → InboundState → Prop where
  | move {state : InboundState} {next : Site} (move : Move rules state.site next) :
      Round rules sender state { state with site := next }
  | yielded {state : InboundState} {delivered : Bool} {after : Running InboundPump Emulator Others}
      {endpoint : Endpoint} {pause : Pause Emulator Others} (fuel : Nat) (serves : endpoint.Serves sender)
      (lawful : Lawful rules pause)
      (ended : InboundPump.step endpoint pause fuel state.running = .ok delivered after) :
      Round rules sender state (state.advanced after (if delivered then [true] else []))
  | failed {state : InboundState} {fault : PumpFault} {after : Running InboundPump Emulator Others}
      {endpoint : Endpoint} {pause : Pause Emulator Others} (fuel : Nat) (serves : endpoint.Serves sender)
      (lawful : Lawful rules pause)
      (ended : InboundPump.step endpoint pause fuel state.running = .error (.refused fault) after) :
      Round rules sender state (state.advanced after (if fault.loses then [false] else []))

/-! ### Inside a step -/

structure InboundState.Stage (state : InboundState) (sender : ProcessId) (page : PageId) (phase : InboundPump.Phase)
    (controller : Controller) (site : Site) : Prop where
  unmoved : phase = .idle → controller = state.controller
  taken : clean (site.others.arrivals.take controller.receiveRing.recycled) = clean state.taken ++ phase.drawn
  packets : controller.receiveRing.counters.packets =
    state.controller.receiveRing.counters.packets + phase.drawn.length
  letters : List.Forall₂ (HoldsFrame state.pump.pages.toList) (chosen (clean state.taken) state.outcomes ++ phase.lent)
    (site.letters sender state.pump.settings.stack)
  packs : ∀ frame, phase = .full frame → site.machine.memory.Packs page frame

variable {state next : InboundState} {phase later : InboundPump.Phase}

theorem InboundState.Stage.draws {frame : Option (List UInt8)} {after : Controller × Machine Emulator}
    (stage : state.Stage sender page .idle controller site)
    (sound : Sound controller state.pump.pages.toList controller.receiveRing.recycled site)
    (turns : page ∈ state.pump.pages.toList) (alone : site.machine.memory.handles page = 1)
    (draws : Draws state.pump.pages.toList page controller site frame after) (busy : later ≠ .idle)
    (drawn : later.drawn = frame.toList) (lent : later.lent = [])
    (packs : ∀ frame, later = .full frame → after.2.memory.Packs page frame) :
    state.Stage sender page later after.1 { site with machine := after.2 } := by
  obtain ⟨gone, taken, useful, -, packets⟩ := draws.recycles.exists_taken
  constructor
  · intro idle
    exact absurd idle busy
  · dsimp only
    rw [taken, clean_append, useful, stage.taken, drawn]
    exact congrArg (· ++ _) (List.append_nil _)
  · rw [packets, stage.packets, drawn]
    rfl
  · have letters := stage.letters
    rw [lent]
    refine Site.holdsFrame_of_same site _ rfl rfl (fun other listed waits offset length => ?_) letters
    refine draws.slice_apart sound listed ?_ offset length
    rintro rfl
    exact (sound.alone turns alone).2 (List.mem_append_right _ waits)
  · exact packs

theorem InboundState.Stage.keeps (reserved : ∀ page ∈ state.pump.pages.toList, rules.reserved page)
    (barred : rules.barred sender state.pump.settings.stack) (serves : endpoint.Serves sender)
    (turns : page ∈ state.pump.pages.toList) :
    InboundPump.Keeps rules state.pump.pages.toList page endpoint state.pump.settings.stack
      (state.Stage sender page) where
  moves := by
    intro phase controller site next sound stage moves
    obtain ⟨_, keepsReserved⟩ := moves.keepsReserved sound.seen
    obtain ⟨more, arrivals⟩ := keepsReserved.arrivals
    have same (offset length : Nat) :
        next.machine.memory.slice page offset length = site.machine.memory.slice page offset length :=
      keepsReserved.changes.slice (sound.knows_extra turns) (sound.outside_of_reserved turns (reserved page turns)) ..
    dsimp only [Site.seen] at arrivals
    refine ⟨stage.unmoved, ?_, stage.packets, moves.holdsFrame sound.seen reserved barred stage.letters, ?_⟩
    · rw [arrivals, List.take_append_of_le_length sound.consumed]
      exact stage.taken
    · intro frame full
      exact (stage.packs frame full).of_slice same
  notes log stage := { stage with }
  misses := by
    intro controller site after sound stage alone draws
    exact stage.draws sound turns alone draws nofun rfl rfl nofun
  draws := by
    intro controller site frame after sound stage alone draws packs
    refine stage.draws sound turns alone draws nofun rfl rfl ?_
    rintro _ ⟨⟩
    exact packs
  lends := by
    intro controller site frame writer bus sound stage own sent
    have changes := Memory.changes_retain (fun _ => False) (sound.knows_extra turns)
    have same (other : PageId) (listed : other ∈ state.pump.pages.toList) (offset length : Nat) :
        (site.machine.memory.retain page).slice other offset length =
          site.machine.memory.slice other offset length :=
      changes.slice (sound.knows_extra listed) id offset length
    -- The endpoint is closed or belongs to the sender, so nobody else can have written the letter.
    obtain rfl : writer = sender := by
      rcases serves with gone | serves
      · rw [gone] at own
        cases own
      · rw [serves] at own
        cases own
        rfl
    have before := stage.letters
    refine ⟨nofun, stage.taken, stage.packets, ?_, nofun⟩
    rw [InboundPump.Phase.lent, List.append_nil] at before
    have letters := Site.letters_deliver { site with machine.memory := site.machine.memory.retain page } sent
      site.machine.log writer state.pump.settings.stack
    rw [if_pos ⟨rfl, rfl⟩] at letters
    rw [letters]
    refine List.rel_append ?_ (.cons ⟨rfl, page, turns, rfl, ?_⟩ .nil)
    · exact Site.holdsFrame_of_same site _ rfl rfl (fun other listed _ => same other listed) before
    · exact (stage.packs frame rfl).of_slice (same page turns)
  takesBack := by
    intro controller site frame sound stage
    have known := sound.knows_extra turns
    have changes := (Memory.changes_retain (fun _ => False) known).trans (Memory.changes_release _ _ page)
    refine ⟨stage.unmoved, stage.taken, stage.packets, ?_, fun frame full => ?_⟩
    · exact Site.holdsFrame_of_same site _ rfl rfl
        (fun _ listed _ => changes.slice (sound.knows_extra listed) id) stage.letters
    · exact (stage.packs frame full).of_slice (changes.slice known id)

/-! ### Across steps -/

/-- What the record agrees with whenever the pump is not in the middle of a step. -/
structure InboundInvariant (first : InboundPump) (sender : ProcessId) (state : InboundState) : Prop where
  sound : Sound state.controller state.pump.pages.toList state.controller.receiveRing.recycled state.site
  reached : ∀ page ∈ state.pump.pages.toList, state.site.machine.memory.Reaches page
  pages : state.pump.pages = first.pages
  settings : state.pump.settings = first.settings
  turn : state.pump.turn < state.pump.pages.size
  decided : (clean state.taken).length = state.outcomes.length
  packets : state.controller.receiveRing.counters.packets = state.outcomes.length
  delivered : state.pump.counters.delivered = state.outcomes.count true
  letters : List.Forall₂ (HoldsFrame state.pump.pages.toList) (chosen (clean state.taken) state.outcomes)
    (state.letters sender)

namespace InboundInvariant

variable {first : InboundPump}

theorem turns (inv : InboundInvariant first sender state) : state.pump.nextPage ∈ state.pump.pages.toList :=
  InboundPump.nextPage_mem inv.turn

theorem stage (inv : InboundInvariant first sender state) :
    state.Stage sender state.pump.nextPage .idle state.controller state.site where
  unmoved _ := rfl
  taken := (List.append_nil _).symm
  packets := rfl
  letters := by
    rw [InboundPump.Phase.lent, List.append_nil]
    exact inv.letters
  packs := nofun

theorem step_ends (inv : InboundInvariant first sender state)
    (reserved : ∀ page ∈ first.pages.toList, rules.reserved page)
    (barred : rules.barred sender first.settings.stack) (serves : endpoint.Serves sender)
    (lawful : Lawful rules pause) (fuel : Nat) :
    (InboundPump.step endpoint pause fuel).Ends state.running
      (fun delivered after => ∃ phase, InboundPump.Returns delivered phase ∧
        InboundPump.At (if delivered then state.pump.onward else state.pump) state.pump.pages.toList
          (state.Stage sender state.pump.nextPage) phase after)
      (fun stop after => ∃ phase, InboundPump.Stops stop phase ∧
        InboundPump.At state.pump state.pump.pages.toList (state.Stage sender state.pump.nextPage) phase
          after) := by
  have closed : ∀ page ∈ state.pump.pages.toList, rules.reserved page := inv.pages ▸ reserved
  have shut : rules.barred sender state.pump.settings.stack := inv.settings ▸ barred
  have keeps := InboundState.Stage.keeps closed shut serves inv.turns
  exact InboundPump.step_ends keeps lawful rfl inv.turns rfl
    ⟨inv.sound, inv.reached, inv.stage, rfl, rfl, rfl, rfl⟩ rfl fuel

/-- However far a step came, the record is right again once the outcome for its frame is noted. -/
theorem advanced (inv : InboundInvariant first sender state) {later : InboundPump}
    {after : Running InboundPump Emulator Others}
    (reached : InboundPump.At later state.pump.pages.toList (state.Stage sender page) phase after)
    (pages : later.pages = state.pump.pages) (settings : later.settings = state.pump.settings)
    (turn : later.turn < later.pages.size)
    (delivered : later.counters.delivered = state.pump.counters.delivered + phase.lent.length) :
    InboundInvariant first sender (state.advanced after phase.outcome) := by
  have same : after.pump.pages = state.pump.pages := reached.pages.trans pages
  have stage := reached.holds
  have taken : clean (state.advanced after phase.outcome).taken = clean state.taken ++ phase.drawn := stage.taken
  have stack : after.pump.settings.stack = state.pump.settings.stack := by rw [reached.settings, settings]
  constructor
  · rw [InboundState.advanced, same]
    exact reached.sound
  · rw [InboundState.advanced, same]
    exact reached.reached
  · exact same.trans inv.pages
  · exact (reached.settings.trans settings).trans inv.settings
  · rw [InboundState.advanced, reached.turn, reached.pages]
    exact turn
  · rw [taken, InboundState.advanced, List.length_append, List.length_append, inv.decided, phase.length_outcome]
  · rw [InboundState.advanced, List.length_append, stage.packets, inv.packets, phase.length_outcome]
  · rw [InboundState.advanced, List.count_append, phase.count_outcome, reached.delivered, delivered, inv.delivered]
  · rw [taken, InboundState.advanced, phase.chosen_append inv.decided, InboundState.letters, same, stack]
    exact stage.letters

theorem move (inv : InboundInvariant first sender state) (reserved : ∀ page ∈ first.pages.toList, rules.reserved page)
    (barred : rules.barred sender first.settings.stack) {next : Site} (move : Move rules state.site next) :
    InboundInvariant first sender { state with site := next } := by
  obtain ⟨sound, keepsReserved⟩ := move.keepsReserved inv.sound
  obtain ⟨more, arrivals⟩ := keepsReserved.arrivals
  have taken : InboundState.taken { state with site := next } = state.taken := by
    unfold InboundState.taken
    dsimp only
    rw [arrivals, List.take_append_of_le_length inv.sound.consumed]
  have letters := move.holdsFrame inv.sound (inv.pages ▸ reserved) (inv.settings ▸ barred) inv.letters
  exact
    { inv with
      sound := sound
      reached := fun page listed => keepsReserved.changes.reaches (inv.sound.knows_extra listed)
        (inv.reached page listed)
      decided := taken ▸ inv.decided
      letters := by rwa [taken] }

end InboundInvariant

theorem Round.invariant {first : InboundPump} (inv : InboundInvariant first sender state)
    (reserved : ∀ page ∈ first.pages.toList, rules.reserved page) (barred : rules.barred sender first.settings.stack)
    (round : Round rules sender state next) : InboundInvariant first sender next := by
  cases round with
  | move move => exact inv.move reserved barred move
  | @yielded delivered after endpoint pause fuel serves lawful ended =>
    obtain ⟨phase, returns, reached⟩ :=
      (Step.ends_of_ok ended).mp (inv.step_ends reserved barred serves lawful fuel)
    -- The phase in which the step yielded tells what has become of the frame that it drew.
    obtain ⟨outcome, lent, -⟩ := InboundPump.Phase.outcome_of_returns returns
    rw [← outcome]
    cases delivered with
    | true =>
      refine inv.advanced reached rfl rfl ?_ ?_
      · exact Nat.mod_lt _ (Nat.zero_lt_of_lt inv.turn)
      · rw [lent]
        rfl
    | false =>
      refine inv.advanced reached rfl rfl inv.turn ?_
      rw [lent]
      rfl
  | failed fuel serves lawful ended =>
    obtain ⟨phase, stops, reached⟩ :=
      (Step.ends_of_error ended).mp (inv.step_ends reserved barred serves lawful fuel)
    obtain ⟨outcome, lent⟩ := InboundPump.Phase.outcome_of_stops stops
    rw [← outcome]
    refine inv.advanced reached rfl rfl inv.turn ?_
    rw [lent]
    rfl

/-! ### The contract -/

structure InboundState.Progress (sender : ProcessId) (drawn sent : Nat) (state next : InboundState) : Prop where
  taken : ∃ frames, frames.length = drawn ∧ clean next.taken = clean state.taken ++ frames
  letters : (next.letters sender).length = (state.letters sender).length + sent

/-- What a step has done when it stops. A wait for the page ends before anything is drawn. -/
def InboundState.StopsAt (sender : ProcessId) (state : InboundState) (after : Running InboundPump Emulator Others) :
    Stop PumpFault → Prop
  | .refused (.stalled .inputPage _) =>
    after.controller.receiveRing = state.controller.receiveRing ∧ Progress sender 0 0 state (state.advanced after [])
  | .refused (.stalled .stack _) | .refused (.delivery _) => Progress sender 1 0 state (state.advanced after [false])
  | .unfinished => True
  | _ => False

/-- An input pump delivers the useful frames that are out of the ring. They reach the stack in order, each
in a page that is lent for reading, with its length in front, except for those that a step drew and then
stopped. The counters of the ring and of the pump tell how many those are. A step that yields a frame draws
and sends one, and a step that yields none draws and sends none. -/
structure InboundState.Delivers (rules : Rules) (sender : ProcessId) (state : InboundState) : Prop where
  decided : (clean state.taken).length = state.outcomes.length
  letters : List.Forall₂ (HoldsFrame state.pump.pages.toList) (chosen (clean state.taken) state.outcomes)
    (state.letters sender)
  packets : state.controller.receiveRing.counters.packets =
    state.pump.counters.delivered + state.outcomes.count false
  steps : ∀ endpoint pause fuel, endpoint.Serves sender → Lawful rules pause →
    (InboundPump.step endpoint pause fuel).Ends state.running
      (fun delivered after => InboundState.Progress sender delivered.toNat delivered.toNat state
        (state.advanced after (if delivered then [true] else [])))
      (fun stop after => state.StopsAt sender after stop)

theorem InboundState.Stage.turns {later : InboundPump} {after : Running InboundPump Emulator Others} {drawn sent : Nat}
    (before : state.Stage sender page .idle state.controller state.site)
    (reached : InboundPump.At later state.pump.pages.toList (state.Stage sender page) phase after)
    (settings : later.settings = state.pump.settings) (first : phase.drawn.length = drawn)
    (second : phase.lent.length = sent) (outcome : List Bool) :
    InboundState.Progress sender drawn sent state (state.advanced after outcome) where
  taken := ⟨phase.drawn, first, reached.holds.taken⟩
  letters := by
    have least := before.letters.length_eq
    have most := reached.holds.letters.length_eq
    have stack : after.pump.settings.stack = state.pump.settings.stack := by rw [reached.settings, settings]
    rw [InboundState.letters, InboundState.letters, InboundState.advanced, stack, ← most, ← least, List.length_append,
      List.length_append, second]
    rfl

theorem InboundInvariant.delivers {first : InboundPump} (inv : InboundInvariant first sender state)
    (reserved : ∀ page ∈ first.pages.toList, rules.reserved page) (barred : rules.barred sender first.settings.stack) :
    state.Delivers rules sender where
  decided := inv.decided
  letters := inv.letters
  packets := by
    rw [inv.packets, inv.delivered]
    exact (List.count_true_add_count_false state.outcomes).symm
  steps endpoint pause fuel serves lawful := by
    refine (inv.step_ends reserved barred serves lawful fuel).mono ?_ ?_
    · rintro delivered after ⟨phase, returns, reached⟩
      obtain ⟨-, lent, drawn⟩ := InboundPump.Phase.outcome_of_returns returns
      refine inv.stage.turns reached ?_ drawn lent _
      cases delivered with
      | true | false => rfl
    · rintro stop after ⟨phase, stops, reached⟩
      cases stop with
      | violated violation => exact stops.elim
      | unfinished => trivial
      | refused fault =>
        cases fault with
        | protocol | receive | transmit => exact stops.elim
        | delivery error =>
          obtain ⟨frame, rfl⟩ := stops
          exact inv.stage.turns reached rfl rfl rfl _
        | stalled awaited spent =>
          cases awaited with
          | transmitRing => exact stops.elim
          | inputPage =>
            obtain rfl := stops
            exact ⟨congrArg Controller.receiveRing (reached.holds.unmoved rfl), inv.stage.turns reached rfl rfl rfl _⟩
          | stack =>
            obtain ⟨frame, rfl⟩ := stops
            exact inv.stage.turns reached rfl rfl rfl _

theorem PumpCreated.invariant (pumpCreated : PumpCreated settings pumpSettings controller pump site)
    (silent : site.letters sender pump.settings.stack = []) :
    InboundInvariant pump sender ⟨pump, controller, site, []⟩ := by
  have ready := pumpCreated.ready
  have recycled : controller.receiveRing.recycled = 0 := by
    unfold ReceiveRing.recycled
    rw [ready.received]
    rfl
  have taken : InboundState.taken ⟨pump, controller, site, []⟩ = [] := by
    unfold InboundState.taken
    rw [recycled, List.take_zero]
  refine ⟨ready.sound, ready.reached, rfl, rfl, ready.turn, ?_, ?_, ?_, ?_⟩
  · rw [taken]
    rfl
  · rw [ready.received]
    rfl
  · rw [ready.counters]
    rfl
  · rw [taken, InboundState.letters, silent]
    exact .nil

/-- Whatever happens around an input pump, in any order and in every pause, it delivers what comes in. -/
theorem input_pump_delivers (pumpCreated : PumpCreated settings pumpSettings controller pump site)
    (silent : site.letters sender pump.settings.stack = []) (reserved : ∀ page ∈ pump.pages.toList, rules.reserved page)
    (barred : rules.barred sender pump.settings.stack)
    (run : Relation.ReflTransGen (Round rules sender) ⟨pump, controller, site, []⟩ state) :
    state.Delivers rules sender := by
  suffices inv : InboundInvariant pump sender state from inv.delivers reserved barred
  induction run with
  | refl => exact pumpCreated.invariant silent
  | tail _ round ih => exact round.invariant ih reserved barred

theorem exists_arrival {frame : List UInt8} (short : frame.length ≤ Limits.receiveBuffer) :
    ∃ controller pump site next bus rules,
    PumpCreated {} { inputPages := 1 } controller pump site ∧ site.letters ⟨0x1000⟩ pump.settings.stack = [] ∧
    (∀ page ∈ pump.pages.toList, rules.reserved page) ∧ rules.barred ⟨0x1000⟩ pump.settings.stack ∧
    Move rules site next ∧ next.others.arrivals = [⟨frame, .none⟩] ∧ pump.nextPage ∈ pump.pages.toList ∧
    (clean (next.others.arrivals.drop controller.receiveRing.recycled)).head? = some frame ∧
    next.machine.memory.handles pump.nextPage = 1 ∧
    next.bus.deliver pump.settings.stack
      ⟨⟨0x1000⟩, Request.inputCode, .page ⟨pump.nextPage, .readable⟩⟩ = .ok bus := by
  obtain ⟨controller, pump, site, page, pumpCreated, pages, settings, turn, free, bus, -, receipts, arrivals⟩ :=
    exists_pumpCreated
  have ready := pumpCreated.ready
  have silent : site.letters ⟨0x1000⟩ pump.settings.stack = [] := by
    unfold Site.letters
    rw [receipts, bus, settings]
    rfl
  have recycled : controller.receiveRing.recycled = 0 := by
    unfold ReceiveRing.recycled
    rw [ready.received]
    rfl
  have next : pump.nextPage = page := by
    unfold InboundPump.nextPage
    rw [pages, turn]
    rfl
  have turns : pump.nextPage ∈ pump.pages.toList := by
    rw [next, pages]
    exact List.mem_singleton_self page
  -- The ring is empty, so the frame is not refused.
  have comes : (Emulator.receive frame .none).Ends site.machine
      (fun _ after => Emulator.Fills controller.receiveRing site.machine after) (fun _ _ => False) := by
    refine (ready.sound.receive_ends frame .none).mono (fun _ _ fills => fills.1) ?_
    rintro _ after ⟨-, -, ⟨-, long⟩ | ⟨-, -, full⟩⟩
    · exact absurd long (Nat.not_lt_of_le short)
    · have holds : controller.receiveRing.Holds site.machine.memory site.machine.device.receiveSide _ :=
        ready.sound.stands
      have several := holds.wired.several
      rw [arrivals, List.drop_nil, List.length_nil] at full
      omega
  obtain ⟨⟨⟩, machine, taken, fills⟩ := comes.exists_ok
  let rules : Rules := ⟨(· ∈ pump.pages.toList), fun writer _ => writer = ⟨0x1000⟩⟩
  have injected : Move rules site _ := .inject frame .none taken
  have waits : (clean (List.drop controller.receiveRing.recycled (site.others.arrivals ++ [⟨frame, .none⟩]))).head? =
      some frame := by
    have useful : Arrival.spoiled ⟨frame, .none⟩ = false := (by decide : ReceiveErrors.spoilFrame .none = false)
    rw [arrivals, recycled]
    simp [clean, useful]
  have alone : machine.memory.handles pump.nextPage = 1 := by
    rw [fills.handles, next, free]
  obtain ⟨later, sent⟩ : ∃ bus, site.bus.deliver pump.settings.stack
      ⟨⟨0x1000⟩, Request.inputCode, .page ⟨pump.nextPage, .readable⟩⟩ = .ok bus := by
    rw [bus, settings]
    exact ⟨_, rfl⟩
  refine ⟨controller, pump, site, _, later, rules, pumpCreated, silent, fun _ => id, rfl, injected, ?_, turns,
    waits, alone,
    sent⟩
  exact (congrArg (· ++ [⟨frame, .none⟩]) arrivals).trans (List.nil_append _)

theorem exists_delivery {frame : List UInt8} (short : frame.length ≤ Limits.receiveBuffer) :
    ∃ controller pump site middle state rules,
    PumpCreated {} { inputPages := 1 } controller pump site ∧ site.letters ⟨0x1000⟩ pump.settings.stack = [] ∧
    (∀ page ∈ pump.pages.toList, rules.reserved page) ∧ rules.barred ⟨0x1000⟩ pump.settings.stack ∧
    Round rules ⟨0x1000⟩ ⟨pump, controller, site, []⟩ middle ∧
    middle.site.others.arrivals = [⟨frame, .none⟩] ∧
    Round rules ⟨0x1000⟩ middle state ∧ state.outcomes = [true] := by
  obtain ⟨controller, pump, site, next, bus, rules, pumpCreated, silent, reserved, barred, injected, arrivals,
    turns, waits,
    alone, sent⟩ := exists_arrival short
  have ready := pumpCreated.ready
  have sound := (injected.keepsReserved ready.sound).1
  have reached := (injected.keepsReserved ready.sound).2.changes.reaches (ready.sound.knows_extra turns)
    (ready.reached _ turns)
  have step : (InboundPump.step (.process ⟨0x1000⟩) Site.seen 0).Ends ⟨pump, controller, next⟩
      (fun delivered _ => delivered = true) (fun _ _ => False) :=
    InboundPump.step_delivers sound turns reached waits alone sent 0
  obtain ⟨_, after, ended, rfl⟩ := step.exists_ok
  have lawful : Lawful rules Site.seen := fun site => .none site.seen
  exact ⟨controller, pump, site, _, _, rules, pumpCreated, silent, reserved, barred, .move injected, arrivals,
    .yielded 0 (.inr rfl) lawful ended, rfl⟩

/-- A frame comes in and is delivered. -/
theorem input_pump_delivers_once : ∃ controller pump site state rules,
    PumpCreated {} { inputPages := 1 } controller pump site ∧ site.letters ⟨0x1000⟩ pump.settings.stack = [] ∧
    (∀ page ∈ pump.pages.toList, rules.reserved page) ∧ rules.barred ⟨0x1000⟩ pump.settings.stack ∧
    Relation.ReflTransGen (Round rules ⟨0x1000⟩) ⟨pump, controller, site, []⟩ state ∧
    state.outcomes = [true] ∧ (state.letters ⟨0x1000⟩).length = 1 ∧ state.Delivers rules ⟨0x1000⟩ := by
  obtain ⟨controller, pump, site, middle, state, rules, pumpCreated, silent, reserved, barred, injected, -, stepped,
    outcomes⟩ := exists_delivery (show [1, 2, 3].length ≤ Limits.receiveBuffer by decide)
  have run : Relation.ReflTransGen (Round rules ⟨0x1000⟩) ⟨pump, controller, site, []⟩ state :=
    .tail (.single injected) stepped
  have delivers := input_pump_delivers pumpCreated silent reserved barred run
  refine ⟨controller, pump, site, state, rules, pumpCreated, silent, reserved, barred, run, outcomes, ?_, delivers⟩
  have decided := delivers.decided
  rw [outcomes] at decided
  obtain ⟨frame, drawn⟩ := List.length_eq_one_iff.mp decided
  rw [← delivers.letters.length_eq, drawn, outcomes]
  rfl

end PacketPath
