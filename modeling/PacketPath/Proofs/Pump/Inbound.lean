import PacketPath.Pump.Inbound
import PacketPath.Proofs.Pump.Waiting
import PacketPath.Proofs.System.Calls
import PacketPath.Proofs.System.Letters

/-! How a step of the input pump ends. The pump waits until a page is its own alone, draws the next
frame into it, and lends the page; the surroundings go on at every pause. What holds through all of this
is shown once for each thing that the pump does. -/

set_option autoImplicit false

namespace PacketPath

variable {rules : Rules} {site next : Site} {controller : Controller} {rotation : List PageId} {page : PageId}

/-! ### Drawing a frame -/

/-- What drawing leaves behind: frames at the front of the queue are handed back, and the one of use
among them, if there is one, stands in the page. -/
structure Draws (rotation : List PageId) (page : PageId) (controller : Controller) (site : Site)
    (frame : Option (List UInt8)) (after : Controller × Machine Emulator) : Prop where
  receiveOnly : Controller.ReceiveOnly (· = page) (controller, site.machine) after
  sound : Sound after.1 rotation after.1.receiveRing.recycled { site with machine := after.2 }
  recycles : Recycles (site.others.arrivals.drop controller.receiveRing.recycled) controller.receiveRing
    after.1.receiveRing frame (site.others.arrivals.drop after.1.receiveRing.recycled)
  short : ∀ bytes, frame = some bytes → bytes.length ≤ Limits.receiveBuffer
  bytes : ∀ bytes, frame = some bytes → after.2.memory.slice page Limits.headerSize bytes.length = bytes

theorem Sound.draw_ends (sound : Sound controller rotation controller.receiveRing.recycled site)
    (turns : page ∈ rotation) (reached : site.machine.memory.Reaches page) :
    (Controller.receiveIntoPage page Limits.headerSize).Ends (controller, site.machine)
      (fun length after => ∃ frame, length = frame.map List.length ∧
        frame = (clean (site.others.arrivals.drop controller.receiveRing.recycled)).head? ∧
        Draws rotation page controller site frame after)
      (fun _ _ => False) := by
  have known := sound.housed.charted.knows_of_reaches reached
  have size := sound.housed.charted.size_of_reaches reached
  have foreign : page ∉ controller.receiveRing.pages := fun pooled =>
    (sound.sole page (List.mem_cons_of_mem _ pooled)).1 turns
  have holds : controller.receiveRing.Holds site.machine.memory site.machine.device.receiveSide _ := sound.stands
  have short {arrival : Arrival}
      (front : (ReceiveRing.upcoming (site.others.arrivals.drop controller.receiveRing.recycled)).head? = some arrival) :
      arrival.frame.length ≤ Limits.receiveBuffer := by
    have listed := (List.dropWhile_sublist _).subset (List.mem_of_mem_head? front)
    obtain ⟨i, inside, here⟩ := List.mem_iff_getElem.mp listed
    exact (holds.filled i arrival (List.getElem?_eq_some_iff.mpr ⟨inside, here⟩)).short
  unfold Controller.receiveIntoPage
  rw [Controller.ends_onReceive]
  refine (ReceiveRing.receiveIntoPage_stands sound.stands sound.roomy foreign known Limits.headerSize).mono ?_ ?_
  · rintro _ after ⟨copied, rfl, taken⟩
    have receiveOnly : Controller.ReceiveOnly (· = page) (controller, site.machine)
        ({ controller with receiveRing := after.1 }, after.2) := ⟨rfl, taken.leads⟩
    have recycles := taken.recycles
    obtain ⟨kept, left⟩ := receiveOnly.handsBack sound taken.stands recycles
    refine ⟨_, ?_, (head?_clean _).symm, receiveOnly, kept, left ▸ recycles, ?_, ?_⟩
    · rw [Option.map_map]
      rfl
    · intro bytes drawn
      obtain ⟨arrival, front, rfl⟩ := Option.map_eq_some_iff.mp drawn
      exact short front
    · intro bytes drawn
      obtain ⟨arrival, front, rfl⟩ := Option.map_eq_some_iff.mp drawn
      exact (copied arrival front).2
  · -- A page has room for the longest frame behind its header.
    rintro stop after ⟨⟨arrival, front, long, -⟩ | ⟨outside, -⟩, -⟩
    · have fits := short front
      rw [size] at long
      exact absurd (Nat.lt_of_lt_of_le long fits) (by decide)
    · rw [size] at outside
      exact absurd outside (by decide)

theorem Sound.alone {recycled : Nat} (sound : Sound controller rotation recycled site) (turns : page ∈ rotation)
    (alone : site.machine.memory.handles page = 1) : rotation.count page = 1 ∧ page ∉ site.owned := by
  have turn := List.count_pos_iff.mpr turns
  have count := sound.housed.accounts page
  rw [List.count_append, List.count_append, alone] at count
  constructor
  · omega
  · intro held
    have other := List.count_pos_iff.mpr held
    omega

theorem Draws.slice_apart {frame : Option (List UInt8)} {after : Controller × Machine Emulator}
    (draws : Draws rotation page controller site frame after) {recycled : Nat}
    (sound : Sound controller rotation recycled site) {other : PageId} (listed : other ∈ rotation)
    (apart : other ≠ page) (offset length : Nat) :
    after.2.memory.slice other offset length = site.machine.memory.slice other offset length := by
  apply draws.receiveOnly.leads.changes.slice (sound.knows_extra listed)
  rintro (table | same)
  · exact (sound.sole other (List.mem_cons_of_mem _ (table ▸ List.mem_cons_self ..))).1 listed
  · exact apart same

theorem Draws.headed {frame : List UInt8} {after : Controller × Machine Emulator}
    (draws : Draws rotation page controller site (some frame) after) (turns : page ∈ rotation)
    (reached : after.2.memory.Reaches page) :
    Draws rotation page controller site (some frame)
        (after.1, { after.2 with memory := after.2.memory.overwrite page 0 (Word.bytes 4 frame.length) }) ∧
      (after.2.memory.overwrite page 0 (Word.bytes 4 frame.length)).Packs page frame := by
  have writes : Machine.Writes (· = page) after.2
      { after.2 with memory := after.2.memory.overwrite page 0 (Word.bytes 4 frame.length) } :=
    .overwrite after.2 (by rfl) _ _
  have size := draws.sound.housed.charted.size_of_reaches reached
  dsimp only at size
  have room : 0 + (Word.bytes 4 frame.length).length ≤ (after.2.memory.page page).size := by
    rw [size, Word.length_bytes]
    decide
  have header := Page.slice_overwrite room
  have behind : (after.2.memory.overwrite page 0 (Word.bytes 4 frame.length)).slice page Limits.headerSize
      frame.length = frame := by
    rw [Memory.slice, Memory.page_overwrite, if_pos rfl, Page.slice_overwrite_apart]
    · exact draws.bytes frame rfl
    · rw [Word.length_bytes]
      exact .inl (by decide)
  have receiveOnly : Controller.ReceiveOnly (· = page) (controller, site.machine)
      (after.1, { after.2 with memory := after.2.memory.overwrite page 0 (Word.bytes 4 frame.length) }) :=
    ⟨draws.receiveOnly.transmitRing, draws.receiveOnly.leads.trans (.of_writes _ writes)⟩
  refine ⟨⟨receiveOnly, ?_, draws.recycles, draws.short, ?_⟩, ?_, behind⟩
  · refine draws.sound.shift (draws.sound.housed.of_changes writes.changes writes.reachable writes.handles)
      draws.sound.distinct (fun _ kept => .inl kept) writes.changes ?_ rfl rfl
    rintro id listed rfl
    exact (draws.sound.sole id listed).1 turns
  · rintro bytes ⟨⟩
    exact behind
  · rw [Memory.slice, Memory.page_overwrite, if_pos rfl]
    rw [Word.length_bytes] at header
    rw [header, Word.ofBytes_bytes, Nat.mod_eq_of_lt]
    exact Nat.lt_of_le_of_lt (draws.short frame rfl) (by decide)

/-! ### Lending a page -/

theorem Sound.lends {recycled : Nat} {sender stack : ProcessId} {code : UInt32} {grant : Grant} {bus : MessageBus}
    (sound : Sound controller rotation recycled site) (turns : grant.page ∈ rotation)
    (sent : site.bus.deliver stack ⟨sender, code, .page grant⟩ = .ok bus) :
    Sound controller rotation recycled
      { site with machine.memory := site.machine.memory.retain grant.page, bus := bus } := by
  have known := sound.knows_extra turns
  have lent := MessageBus.perm_pages_deliver sound.distinct sent
  have pages : bus.pages.Perm (grant.page :: site.bus.pages) := lent
  refine sound.shift ((sound.housed.retain known).congr fun id => ?_) (MessageBus.distinct_deliver sound.distinct sent)
    ?_ (Memory.changes_retain (fun _ => False) known) (fun _ _ => id) rfl rfl
  · simp only [Site.owned, List.count_append, List.count_cons, pages.count_eq]
    omega
  · rintro id (kept | held)
    · exact .inl (.inl kept)
    · simp only [Site.owned, List.mem_append, pages.mem_iff, List.mem_cons] at held ⊢
      rcases held with held | rfl | lent
      · exact .inl (.inr (.inl held))
      · exact .inl (.inl turns)
      · exact .inl (.inr (.inr lent))

theorem Sound.takesBack {recycled : Nat} (sound : Sound controller rotation recycled site) (turns : page ∈ rotation) :
    Sound controller rotation recycled
      { site with machine.memory := (site.machine.memory.retain page).releaseAll [page] } := by
  have known := sound.knows_extra turns
  have changes := (Memory.changes_retain (fun _ => False) known).trans (Memory.changes_release _ _ page)
  exact sound.shift (sound.housed.retain known).release sound.distinct (fun _ kept => .inl kept) changes
    (fun _ _ => id) rfl rfl

/-! ### A whole step -/

namespace InboundPump

theorem nextPage_mem {pump : InboundPump} (turn : pump.turn < pump.pages.size) : pump.nextPage ∈ pump.pages.toList := by
  unfold nextPage
  rw [Array.getElem?_eq_getElem turn, Option.getD_some]
  exact Array.getElem_mem_toList turn

inductive Phase where
  /-- Nothing was drawn yet. -/
  | idle
  /-- There was no frame of use. -/
  | empty
  /-- A frame stands in the page and is not lent. -/
  | full (frame : List UInt8)
  /-- The page was lent with a frame. -/
  | sent (frame : List UInt8)

def Phase.offered (frame : List UInt8) : Except DeliveryError Unit → Phase
  | .ok _ => .sent frame
  | .error _ => .full frame

/-- An invariant of a step that draws into the page is kept by each thing that happens: by what the
others do in a pause, by a line in the log, and by what the pump itself does. -/
structure Keeps (rules : Rules) (rotation : List PageId) (page : PageId) (endpoint : Endpoint)
    (stack : ProcessId) (invariant : Phase → Controller → Site → Prop) : Prop where
  moves : ∀ {phase controller site next}, Sound controller rotation controller.receiveRing.recycled site →
    invariant phase controller site → Moves rules site.seen next → invariant phase controller next
  notes : ∀ {phase controller site} log, invariant phase controller site →
    invariant phase controller { site with machine.log := log }
  misses : ∀ {controller site after}, Sound controller rotation controller.receiveRing.recycled site →
    invariant .idle controller site → site.machine.memory.handles page = 1 →
    Draws rotation page controller site none after →
    invariant .empty after.1 { site with machine := after.2 }
  draws : ∀ {controller site frame after}, Sound controller rotation controller.receiveRing.recycled site →
    invariant .idle controller site → site.machine.memory.handles page = 1 →
    Draws rotation page controller site (some frame) after → after.2.memory.Packs page frame →
    invariant (.full frame) after.1 { site with machine := after.2 }
  lends : ∀ {controller site frame sender bus}, Sound controller rotation controller.receiveRing.recycled site →
    invariant (.full frame) controller site → endpoint = .process sender →
    site.bus.deliver stack ⟨sender, Request.inputCode, .page ⟨page, .readable⟩⟩ = .ok bus →
    invariant (.sent frame) controller
      { site with machine.memory := site.machine.memory.retain page, bus := bus }
  takesBack : ∀ {controller site frame}, Sound controller rotation controller.receiveRing.recycled site →
    invariant (.full frame) controller site →
    invariant (.full frame) controller
      { site with machine.memory := (site.machine.memory.retain page).releaseAll [page] }

def onward (pump : InboundPump) : InboundPump :=
  { pump with
    turn := (pump.turn + 1) % pump.pages.size
    counters.delivered := pump.counters.delivered + 1 }

/-- What holds in a phase of a step. Of the pump's counters only the deliveries are looked at. -/
structure At (pump : InboundPump) (rotation : List PageId) (invariant : Phase → Controller → Site → Prop)
    (phase : Phase) (running : Running InboundPump Emulator Others) : Prop where
  sound : Sound running.controller rotation running.controller.receiveRing.recycled running.around
  reached : ∀ page ∈ rotation, running.around.machine.memory.Reaches page
  holds : invariant phase running.controller running.around
  pages : running.pump.pages = pump.pages
  settings : running.pump.settings = pump.settings
  turn : running.pump.turn = pump.turn
  delivered : running.pump.counters.delivered = pump.counters.delivered

def Returns : Bool → Phase → Prop
  | true, phase => ∃ frame, phase = .sent frame
  | false, phase => phase = .idle ∨ phase = .empty

def Stops : Stop PumpFault → Phase → Prop
  | .refused (.stalled .inputPage _), phase => phase = .idle
  | .refused (.stalled .stack _), phase | .refused (.delivery _), phase => ∃ frame, phase = .full frame
  | .unfinished, _ => True
  | _, _ => False

variable {pump : InboundPump} {invariant : Phase → Controller → Site → Prop} {phase : Phase}
  {running : Running InboundPump Emulator Others} {endpoint : Endpoint} {stack : ProcessId}
  {pause : Pause Emulator Others}

theorem At.paused (here : At pump rotation invariant phase running)
    (keeps : Keeps rules rotation page endpoint stack invariant) (lawful : Lawful rules pause) :
    At pump rotation invariant phase { running with around := pause running.around } := by
  obtain ⟨sound, keepsReserved⟩ := (lawful running.around).keepsReserved here.sound.seen
  exact
    { here with
      sound := sound
      reached := fun id listed => keepsReserved.changes.reaches (here.sound.knows_extra listed) (here.reached id listed)
      holds := keeps.moves here.sound here.holds (lawful running.around) }

theorem At.noted (here : At pump rotation invariant phase running)
    (keeps : Keeps rules rotation page endpoint stack invariant) (log : Array LogLine) :
    At pump rotation invariant phase { running with around.machine.log := log } :=
  { here with
    sound := { here.sound with }
    holds := keeps.notes log here.holds }

theorem tryClaim_ends (here : At pump rotation invariant .idle running) :
    (tryClaim page : Step PumpFault _ _).Ends running
      (Retry.found (At pump rotation invariant .idle) fun _ after =>
        At pump rotation invariant .idle after ∧ after.around.machine.memory.handles page = 1)
      (fun _ _ => False) := by
  unfold tryClaim
  rw [Step.ends_bind, Step.ends_get, Step.ends_pure]
  split
  case isTrue alone => exact ⟨here, by simpa [Memory.isExclusive] using alone⟩
  case isFalse => exact here

theorem tryLend_ends (keeps : Keeps rules rotation page endpoint stack invariant) (turns : page ∈ rotation)
    (toStack : pump.settings.stack = stack) {frame : List UInt8}
    (here : At pump rotation invariant (.full frame) running) :
    (tryLend endpoint page : Step PumpFault _ _).Ends running
      (Retry.found (At pump rotation invariant (.full frame)) fun outcome after =>
        At pump rotation invariant (.offered frame outcome) after)
      (fun _ _ => False) := by
  have known := here.sound.knows_extra turns
  have back : At pump rotation invariant (.full frame) { running with
      around.machine.memory := (running.around.machine.memory.retain page).releaseAll [page] } :=
    { here with
      sound := here.sound.takesBack turns
      reached := fun id listed =>
        ((Memory.changes_retain (fun _ => False) known).trans (Memory.changes_release _ _ page)).reaches
          (here.sound.knows_extra listed) (here.reached id listed)
      holds := keeps.takesBack here.sound here.holds }
  unfold tryLend
  simp only [Step.ends_bind, Step.ends_get, Running.ends_onMachine, Machine.ends_retain, Step.ends_attempt,
    Running.ends_onAround]
  apply Surroundings.send_ends
  · rintro (process | _) -
    · exact back
    · exact back
  · intro sender bus log own sent
    rw [here.settings, toStack] at sent
    have lent : At pump rotation invariant (.sent frame) { running with
        around.machine.memory := running.around.machine.memory.retain page, around.bus := bus } :=
      { here with
        sound := here.sound.lends turns sent
        reached := fun id listed => (Memory.changes_retain (fun _ => False) known).reaches
          (here.sound.knows_extra listed) (here.reached id listed)
        holds := keeps.lends here.sound here.holds own sent }
    exact lent.noted keeps log

theorem awaitPage_ends (keeps : Keeps rules rotation page endpoint stack invariant) (lawful : Lawful rules pause)
    (here : At pump rotation invariant .idle running) (budget : Budget) (fuel : Nat) :
    (Running.await .inputPage budget fuel pause tallyPageWaits (tryClaim page)).Ends running
      (fun _ after => At pump rotation invariant .idle after ∧ after.around.machine.memory.handles page = 1)
      (fun stop after => ∃ phase, Stops stop phase ∧ At pump rotation invariant phase after) := by
  refine Running.await_ends (fun _ here => (tryClaim_ends here).mono (fun _ _ => id) (fun _ _ => False.elim))
    (fun _ here => here.paused keeps lawful) ?_ ?_ ?_ _ _ here
  · rintro _ waits claimed ⟨here, alone⟩
    exact ⟨{ here with }, alone⟩
  · intro spent waits waiting here
    exact ⟨.idle, rfl, { here with }⟩
  · intro waiting here
    exact ⟨.idle, trivial, here⟩

theorem awaitLend_ends (keeps : Keeps rules rotation page endpoint stack invariant) (lawful : Lawful rules pause)
    (turns : page ∈ rotation) (toStack : pump.settings.stack = stack) {frame : List UInt8}
    (here : At pump rotation invariant (.full frame) running) (budget : Budget) (fuel : Nat) :
    (Running.await .stack budget fuel pause tallySendWaits (tryLend endpoint page)).Ends running
      (fun outcome after => At pump rotation invariant (.offered frame outcome) after)
      (fun stop after => ∃ phase, Stops stop phase ∧ At pump rotation invariant phase after) := by
  refine Running.await_ends
    (fun _ here => (tryLend_ends keeps turns toStack here).mono (fun _ _ => id) (fun _ _ => False.elim))
    (fun _ here => here.paused keeps lawful) ?_ ?_ ?_ _ _ here
  · intro outcome waits offered here
    exact { here with }
  · intro spent waits offered here
    exact ⟨.full frame, ⟨frame, rfl⟩, { here with }⟩
  · intro offered here
    exact ⟨.full frame, trivial, here⟩

theorem At.missed {after : Controller × Machine Emulator} (here : At pump rotation invariant .idle running)
    (keeps : Keeps rules rotation page endpoint stack invariant)
    (alone : running.around.machine.memory.handles page = 1)
    (draws : Draws rotation page running.controller running.around none after) :
    At pump rotation invariant .empty { running with controller := after.1, around.machine := after.2 } :=
  { here with
    sound := draws.sound
    reached := fun id listed => draws.receiveOnly.leads.changes.reaches (here.sound.knows_extra listed)
      (here.reached id listed)
    holds := keeps.misses here.sound here.holds alone draws }

theorem At.drawn {after : Controller × Machine Emulator} {frame : List UInt8}
    (here : At pump rotation invariant .idle running)
    (keeps : Keeps rules rotation page endpoint stack invariant) (turns : page ∈ rotation)
    (alone : running.around.machine.memory.handles page = 1)
    (draws : Draws rotation page running.controller running.around (some frame) after)
    (reached : after.2.memory.Reaches page) :
    At pump rotation invariant (.full frame)
      { running with
        controller := after.1
        around.machine := { after.2 with
          memory := after.2.memory.overwrite page 0 (Word.bytes 4 frame.length) } } := by
  obtain ⟨headed, packs⟩ := draws.headed turns reached
  exact
    { here with
      sound := headed.sound
      reached := fun id listed => headed.receiveOnly.leads.changes.reaches (here.sound.knows_extra listed)
        (here.reached id listed)
      holds := keeps.draws here.sound here.holds alone headed packs }

theorem At.goneOn (here : At pump rotation invariant phase running)
    (keeps : Keeps rules rotation page endpoint stack invariant) (lawful : Lawful rules pause) (log : Array LogLine)
    {later : InboundPump} (pages : later.pages = pump.pages) (settings : later.settings = pump.settings)
    (turn : later.turn = (pump.turn + 1) % pump.pages.size)
    (delivered : later.counters.delivered = pump.counters.delivered + 1) :
    At pump.onward rotation invariant phase
      ⟨later, running.controller, pause { running.around with machine.log := log }⟩ :=
  have last := (here.noted keeps log).paused keeps lawful
  ⟨last.sound, last.reached, last.holds, pages, settings, turn, delivered⟩

/-- A step of the pump keeps what each thing in it keeps, and stops only where it may: before anything
was drawn if its page stays in use, and with a frame in hand if the stack does not take it. -/
theorem step_ends (keeps : Keeps rules rotation page endpoint stack invariant) (lawful : Lawful rules pause)
    (next : pump.nextPage = page) (turns : page ∈ rotation) (toStack : pump.settings.stack = stack)
    (start : At pump rotation invariant .idle running) (same : running.pump = pump) (fuel : Nat) :
    (step endpoint pause fuel).Ends running
      (fun delivered after => ∃ phase, Returns delivered phase ∧
        At (if delivered then pump.onward else pump) rotation invariant phase after)
      (fun stop after => ∃ phase, Stops stop phase ∧ At pump rotation invariant phase after) := by
  subst same
  unfold step
  rw [Step.ends_bind, Step.ends_get, Step.ends_bind, Running.ends_onMachine]
  unfold Controller.receiveReady
  rw [ReceiveRing.ends_isReady start.sound.stands, Step.ends_ite]
  refine ⟨fun _ => ⟨.idle, .inl rfl, { start with }⟩, fun _ => ?_⟩
  rw [Step.ends_bind, next]
  refine (awaitPage_ends keeps lawful start _ fuel).mono ?_ (fun _ _ stopped => stopped)
  rintro _ claimed ⟨here, alone⟩
  rw [Step.ends_bind, Step.ends_mapRefusal, Running.ends_onController]
  refine (here.sound.draw_ends turns (here.reached page turns)).mono ?_ (fun _ _ => False.elim)
  rintro _ after ⟨_ | frame, rfl, -, draws⟩
  · exact ⟨.empty, .inr rfl, { here.missed keeps alone draws with }⟩
  · have reached : after.2.memory.Reaches page :=
      draws.receiveOnly.leads.changes.reaches (here.sound.knows_extra turns) (here.reached page turns)
    have size := draws.sound.housed.charted.size_of_reaches reached
    dsimp only [Option.map_some]
    rw [Step.ends_bind, Running.ends_onMachine, Machine.ends_writeWord (by rw [size]; decide), Step.ends_bind]
    refine (awaitLend_ends keeps lawful turns toStack (here.drawn keeps turns alone draws reached) _ fuel).mono ?_
      (fun _ _ stopped => stopped)
    rintro (error | ⟨⟩) offered here
    · rw [Step.ends_bind, Step.ends_orRefuse]
      refine ⟨nofun, ?_⟩
      rintro _ ⟨⟩
      exact ⟨.full frame, ⟨frame, rfl⟩, here⟩
    · rw [Step.ends_bind, Step.ends_orRefuse]
      refine ⟨?_, nofun⟩
      rintro _ ⟨⟩
      simp only [Step.ends_bind, Running.ends_onMachine, Machine.ends_baseOf, Machine.ends_note, count,
        Running.ends_changePump, Running.ends_yield, Step.ends_pure]
      refine ⟨.sent frame, ⟨frame, rfl⟩, ?_⟩
      refine here.goneOn keeps lawful _ here.pages here.settings ?_ (congrArg (· + 1) here.delivered)
      change (offered.pump.turn + 1) % offered.pump.pages.size = _
      rw [here.turn, here.pages]

theorem step_delivers {site : Site} {frame : List UInt8} {sender : ProcessId} {bus : MessageBus}
    (sound : Sound controller rotation controller.receiveRing.recycled site) (turns : pump.nextPage ∈ rotation)
    (reached : site.machine.memory.Reaches pump.nextPage)
    (comes : (clean (site.others.arrivals.drop controller.receiveRing.recycled)).head? = some frame)
    (free : site.machine.memory.handles pump.nextPage = 1)
    (sent : site.bus.deliver pump.settings.stack ⟨sender, Request.inputCode, .page ⟨pump.nextPage, .readable⟩⟩ =
      .ok bus) (fuel : Nat) :
    (step (.process sender) pause fuel).Ends ⟨pump, controller, site⟩ (fun delivered _ => delivered = true)
      (fun _ _ => False) := by
  have known := sound.knows_extra turns
  unfold step
  rw [Step.ends_bind, Step.ends_get, Step.ends_bind, Running.ends_onMachine]
  unfold Controller.receiveReady
  rw [ReceiveRing.ends_isReady sound.stands, Step.ends_ite]
  refine ⟨fun vacant => ?_, fun _ => ?_⟩
  · cases queue : site.others.arrivals.drop controller.receiveRing.recycled with
    | nil => simp [queue, clean] at comes
    | cons => simp [queue] at vacant
  rw [Step.ends_bind]
  apply Running.await_ends_of_ready
  unfold tryClaim
  rw [Step.ends_bind, Step.ends_get, Step.ends_pure, if_pos (by simpa [Memory.isExclusive] using free)]
  refine ⟨(), rfl, fun _ => ?_⟩
  rw [Step.ends_bind, Step.ends_mapRefusal, Running.ends_onController]
  refine (sound.draw_ends turns reached).mono ?_ (fun _ _ => False.elim)
  rintro _ after ⟨_, rfl, same, draws⟩
  rw [comes] at same
  subst same
  have size := draws.sound.housed.charted.size_of_reaches (draws.receiveOnly.leads.changes.reaches known reached)
  dsimp only [Option.map_some]
  rw [Step.ends_bind, Running.ends_onMachine, Machine.ends_writeWord, Step.ends_bind]
  · apply Running.await_ends_of_ready
    unfold tryLend
    simp only [Step.ends_bind, Step.ends_get, Running.ends_onMachine, Machine.ends_retain, Step.ends_attempt,
      Running.ends_onAround]
    apply Surroundings.send_ends
    · rintro error (⟨gone, -⟩ | ⟨writer, own, refused⟩)
      · cases gone
      · cases own
        cases sent.symm.trans refused
    · intro writer bus log own sent
      refine ⟨.ok (), rfl, fun _ => ?_⟩
      rw [Step.ends_orRefuse]
      refine ⟨fun _ _ => ?_, ?_⟩
      · simp only [Machine.ends_baseOf, Machine.ends_note, count, Running.ends_changePump, Running.ends_yield,
          Step.ends_pure]
      · rintro _ ⟨⟩
  · rw [size]
    decide

end InboundPump

end PacketPath
