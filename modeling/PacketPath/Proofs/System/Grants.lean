import PacketPath.Proofs.Pump.Pausing
import PacketPath.Proofs.System.Pinning
import PacketPath.Proofs.System.Sending

/-! Grants: for how long a message keeps its pages alive. While the output pump serves a message it has all handles that
came with it, in every pause. When serving is over, however it ended, they are gone, and what is left of a page's
handles is what there was before and what the ring and the others have taken and given back since. -/

set_option autoImplicit false

namespace PacketPath

variable {settings : Settings} {controller : Controller} {site : Site} {state : OutboundState} {reader : ProcessId}
  {message : Message} {bus : MessageBus} {pause : Pause Emulator Others} {pump : OutboundPump} {fuel : Nat}
  {frames : List Fragment} {last : Running OutboundPump Emulator Others}

inductive AfterPauses (pause : Pause Emulator Others) (start : MessageBus × Others) : MessageBus × Others → Prop where
  | none : AfterPauses pause start start
  | more {site : Site} (before : AfterPauses pause start (site.bus, site.others)) :
      AfterPauses pause start ((pause site).bus, (pause site).others)

namespace OutboundState

def serving (state : OutboundState) (pump : OutboundPump) (bus : MessageBus) : Running OutboundPump Emulator Others :=
  ⟨pump, state.controller, { state.site with bus := bus }⟩

/-! ### The invariant -/

structure HandleInvariant (state : OutboundState) (bus : MessageBus) (pause : Pause Emulator Others)
    (posted : List Fragment)
    (controller : Controller) (site : Site) : Prop where
  rebinds : TransmitRing.Rebinds (posted.map Fragment.page) state.controller.transmitRing controller.transmitRing
  receiveRing : controller.receiveRing = state.controller.receiveRing
  paused : AfterPauses pause (bus, state.site.others) (site.bus, site.others)

theorem HandleInvariant.outbound (state : OutboundState) (bus : MessageBus) (rules : Rules)
    (pause : Pause Emulator Others)
    (extra : List PageId) : OutboundPump.Keeps rules pause extra
      fun posted _ => state.HandleInvariant bus pause posted where
  pauses _ tracked _ := { tracked with paused := tracked.paused.more }
  notes _ tracked := { tracked with }
  posts := by
    intro posted hands controller site fragment after _ tracked _ _ adds
    refine ⟨?_, adds.transmitOnly.receiveRing.trans tracked.receiveRing, tracked.paused⟩
    rw [List.map_append]
    exact tracked.rebinds.trans adds.rebinds
  upkeep := by
    intro posted hands controller site after _ tracked upkeep
    refine ⟨?_, upkeep.transmitOnly.receiveRing.trans tracked.receiveRing, tracked.paused⟩
    rw [← List.append_nil (posted.map Fragment.page)]
    exact tracked.rebinds.trans upkeep.rebinds
  grips _ tracked _ := { tracked with }
  drops _ tracked := { tracked with }

/-! ### The contract -/

/-- A pause while a message is served. The first of its frames are posted; whatever has become of them, every page has
all handles that came with the message and those that the pump has taken, besides those of the rings and of the
others. -/
structure Lends (state : OutboundState) (pump : OutboundPump) (message : Message) (frames : List Fragment)
    (last : Running OutboundPump Emulator Others) : Prop where
  asked : frames = message.frames state.site.machine.memory
  posted : ∃ first, first <+: frames ∧ last.pump.counters.packets = pump.counters.packets + first.length ∧
    TransmitRing.Rebinds (first.map Fragment.page) state.controller.transmitRing last.controller.transmitRing
  handles : ∀ id, last.around.machine.memory.handles id =
    message.pages.count id + (frames.map Fragment.page).count id + last.controller.pages.count id +
      (Site.owned last.around).count id

/-- A message was served until some of its frames were posted. Its handles are gone: a page has the handles that it had
before, without those of the message, with those that the ring took for the frames and without those that it released,
and with whatever the others have more or less since. -/
structure Settles (state : OutboundState) (pump : OutboundPump) (message : Message) (bus : MessageBus)
    (pause : Pause Emulator Others) (posted : List Fragment) (after : Running OutboundPump Emulator Others) : Prop where
  packets : after.pump.counters.packets = pump.counters.packets + posted.length
  created : after.controller.transmitRing.counters.posted =
    state.controller.transmitRing.counters.posted + posted.length
  paused : AfterPauses pause (bus, state.site.others) (after.around.bus, after.around.others)
  handles : ∃ released,
    (state.controller.transmitRing.pages ++ posted.map Fragment.page).Perm
      (after.controller.transmitRing.pages ++ released) ∧
    after.controller.transmitRing.counters.released =
      state.controller.transmitRing.counters.released + released.length ∧
    ∀ id, after.around.machine.memory.handles id + message.pages.count id + released.count id +
        (state.site.others.held ++ bus.pages).count id =
      state.site.machine.memory.handles id + (posted.map Fragment.page).count id + (Site.owned after.around).count id

/-- A message that an output pump has taken keeps its pages alive for as long as it is served, and no longer. What the
step does depends on what the others do in its own pauses and on nothing else that they would do. -/
structure Grants (state : OutboundState) (pump : OutboundPump) (reader : ProcessId) (message : Message)
    (bus : MessageBus)
    (pause : Pause Emulator Others) (fuel : Nat) : Prop where
  pauses : ∀ other : Pause Emulator Others,
    (∀ frames last, OutboundPump.PausesAt pause fuel message frames (state.serving pump bus) last →
      other last.around = pause last.around) →
    OutboundPump.serveOne (.process reader) other fuel (state.sending pump) =
      OutboundPump.serveOne (.process reader) pause fuel (state.sending pump)
  lends : ∀ frames last, OutboundPump.PausesAt pause fuel message frames (state.serving pump bus) last →
    state.Lends pump message frames last
  settles : (OutboundPump.serveOne (.process reader) pause fuel).Ends (state.sending pump)
    (fun count after => count = some (message.frames state.site.machine.memory).length ∧
      state.Settles pump message bus pause (message.frames state.site.machine.memory) after)
    (fun _ after => ∃ first, first <+: message.frames state.site.machine.memory ∧
      state.Settles pump message bus pause first after)

theorem HandleInvariant.begins (state : OutboundState) (bus : MessageBus) (pause : Pause Emulator Others) :
    state.HandleInvariant bus pause [] state.controller { state.site with bus := bus } :=
  ⟨.refl _, rfl, .none⟩

theorem HandleInvariant.settles {posted : List Fragment} (sound : state.Sound)
    (taken : state.site.bus.take reader = .ok (some message, bus))
    (reached : OutboundPump.At (pump.counters.packets + posted.length) []
      (fun posted _ => state.HandleInvariant bus pause posted) posted [] [] last) :
    state.Settles pump message bus pause posted last := by
  obtain ⟨⟨created, released, same, counted⟩, receiveRing, paused⟩ := reached.holds
  rw [List.length_map] at created
  refine ⟨reached.packets, created, paused, released, same, counted, fun id => ?_⟩
  -- Before and after, the handles of a page are those of the rings and of the others.
  have before := sound.housed.accounts id
  have after := reached.sound.housed.accounts id
  have lent := (MessageBus.perm_pages_take sound.distinct taken).count_eq id
  have bound := same.count_eq id
  simp only [Controller.pages, Site.owned, receiveRing, List.count_append, List.count_nil] at before after lent bound ⊢
  omega

theorem Sound.lends (sound : state.Sound) (taken : state.site.bus.take reader = .ok (some message, bus))
    (lawful : Lawful .free pause)
    (pauses : OutboundPump.PausesAt pause fuel message frames (state.serving pump bus) last) :
    state.Lends pump message frames last := by
  have fetched := PacketPath.Sound.fetches sound taken
  have start : OutboundPump.At pump.counters.packets [] (fun posted _ => state.HandleInvariant bus pause posted) [] []
      message.pages (state.serving pump bus) := ⟨fetched, HandleInvariant.begins .., rfl, nofun⟩
  obtain ⟨asked, first, rest, split, here⟩ :=
    pauses.stops (HandleInvariant.outbound state bus .free pause []) lawful start fun _ => id
  refine ⟨asked, ⟨first, ⟨rest, split.symm⟩, here.packets, here.holds.rebinds⟩, fun id => ?_⟩
  have accounts := here.sound.housed.accounts id
  simp only [List.count_append, List.count_nil] at accounts
  omega

theorem Sound.settles (sound : state.Sound) (taken : state.site.bus.take reader = .ok (some message, bus))
    (lawful : Lawful .free pause) (pump : OutboundPump) (fuel : Nat) :
    (OutboundPump.serveOne (.process reader) pause fuel).Ends (state.sending pump)
      (fun count after => count = some (message.frames state.site.machine.memory).length ∧
        state.Settles pump message bus pause (message.frames state.site.machine.memory) after)
      (fun _ after => ∃ first, first <+: message.frames state.site.machine.memory ∧
        state.Settles pump message bus pause first after) := by
  have oldest : Endpoint.oldest (.process reader) state.site.bus = some message := Endpoint.oldest_of_take taken
  have asked : Endpoint.frames (.process reader) state.site = message.frames state.site.machine.memory := by
    rw [Endpoint.frames, oldest]
    rfl
  -- The mailbox is not empty, and what is fetched from it is this message.
  have idle (none : Endpoint.oldest (.process reader) state.site.bus = none) :
      state.HandleInvariant bus pause [] state.controller state.site := by
    rw [oldest] at none
    cases none
  have fetches (process : ProcessId) (other : Message) (after : MessageBus)
      (fetched : state.site.bus.take process = .ok (some other, after))
      (same : Endpoint.process reader = .process process) :
      state.HandleInvariant bus pause [] state.controller { state.site with bus := after } := by
    cases same
    rw [taken] at fetched
    cases fetched
    exact HandleInvariant.begins ..
  have start : PacketPath.Sound (state.sending pump).controller [] state.controller.receiveRing.recycled
      (state.sending pump).around := sound
  rw [← asked]
  refine (OutboundPump.serveOne_ends (HandleInvariant.outbound state bus .free pause []) lawful start idle
    fetches fuel).mono
    ?_ ?_
  · rintro count after ⟨answer, reached⟩
    refine ⟨?_, HandleInvariant.settles sound taken reached⟩
    rw [answer, asked, show Endpoint.oldest _ (state.sending pump).around.bus = some message from oldest]
    rfl
  · rintro _ after ⟨first, among, reached⟩
    exact ⟨first, among, HandleInvariant.settles sound taken reached⟩

end OutboundState

/-- Whatever has happened to an attached controller before, whatever the message is, and whatever the others do in the
pauses, the message keeps its pages while it is served, and every handle that it carried is gone afterwards. -/
theorem grants_last_while_serving (attached : Attached settings controller site)
    (run : Relation.ReflTransGen (OutboundState.Round OutboundState.Permits) (.opened controller site) state)
    (pump : OutboundPump)
    (taken : state.site.bus.take reader = .ok (some message, bus)) (lawful : Lawful .free pause) (fuel : Nat) :
    state.Grants pump reader message bus pause fuel := by
  have sound := (attached.maintains_pinning run).sound
  exact
    { pauses := fun other agree => OutboundPump.serveOne_congr taken agree
      lends := fun frames last pauses => sound.lends taken lawful pauses
      settles := sound.settles taken lawful pump fuel }

theorem OutboundPump.exists_pausesAt {flights : List Flight} {batch : Batch} {piece : Piece} {fragment : Fragment}
    {running : Running OutboundPump Emulator Others} (request : message.request = .ok (.outputBatch batch))
    (pieces : batch.pieces = [piece])
    (valid : running.around.machine.memory.fragment piece.grant.page piece.offset piece.length = .ok fragment)
    (known : running.around.machine.memory.Knows fragment.page)
    (flies : TransmitRing.Flies (running.controller.transmitRing, running.around.machine) flights)
    (full : flights.length = running.controller.transmitRing.capacity)
    (twice : running.pump.settings.budget = .attempts 2) :
    ∃ last, PausesAt pause fuel message [fragment] running last := by
  have looked : lookUp (.outputBatch batch) running.around.machine = .ok [fragment] running.around.machine := by
    apply Step.Ends.eq_ok
    simp only [lookUp, pieces, fragments, Piece.fragment, Step.ends_bind, Step.ends_get, valid,
      Step.ends_pure, and_self]
  have retained := Memory.changes_retainAll (fun _ => False) fun page (listed : page ∈ [fragment.page]) =>
    List.mem_singleton.mp listed ▸ known
  have flown : TransmitRing.Flies (running.controller.transmitRing,
      { running.around.machine with memory := running.around.machine.memory.retainAll [fragment.page] }) flights :=
    flies.carries.of_changes retained id
  -- The slots are all in flight, so the first attempt to post is turned away.
  have missed : (tryPost fragment : Step PumpFault (Running OutboundPump Emulator Others) _).Ends
      { running with around.machine.memory := running.around.machine.memory.retainAll [fragment.page] }
      (fun outcome _ => outcome = none) (fun _ _ => False) := by
    unfold tryPost Controller.transmit
    rw [Step.ends_bind, Step.ends_attempt, Running.ends_onController, Controller.ends_onTransmit]
    refine (TransmitRing.post_flies flown (retained.knows _ known) (Memory.fragment_eq_ok valid).2.short).mono ?_ ?_
    · rintro _ after ⟨room, -⟩
      omega
    · rintro stop after ⟨-, ⟨rfl, -⟩ | ⟨violation, -, room, -⟩⟩
      · rfl
      · omega
  obtain ⟨_, last, missed, rfl⟩ := missed.exists_ok
  refine ⟨last, _, request, running.around.machine, looked, .first ?_⟩
  unfold AwaitsAt
  dsimp only
  rw [twice]
  exact .now missed

/-- With every slot in flight somebody asks for one frame more. The pump that takes his message waits for a slot. -/
theorem grants_last_while_serving_once :
    let pump : OutboundPump := ⟨{ budget := .attempts 2 }, {}⟩
    ∃ controller site state message bus page, Attached {} controller site ∧
      Relation.ReflTransGen (OutboundState.Round OutboundState.Permits) (.opened controller site) state ∧
      state.site.bus.take ⟨0x2000⟩ = .ok (some message, bus) ∧ message.pages = [page] ∧ Lawful .free Site.seen ∧
      (∃ last, OutboundPump.PausesAt Site.seen 0 message [⟨page, 0, 60⟩] (state.serving pump bus) last) ∧
      state.Grants pump ⟨0x2000⟩ message bus Site.seen 0 := by
  intro pump
  obtain ⟨controller, site, page, attached, empty, held, -, reached⟩ := exists_attached_beside
  obtain ⟨state, flights, run, flies, full, capacity, bus, held, reached⟩ :=
    attached.exists_filled held reached (Nat.le_refl _)
  have idle : state.site.seen.bus = .empty := bus.trans empty
  obtain ⟨next, message, later, batch, moves, memory, device, taken, request, pieces⟩ := Site.exists_asks idle held
  have asked := run.tail (.pause moves)
  have sound : PacketPath.Sound state.controller [] state.controller.receiveRing.recycled state.site :=
    (attached.maintains_pinning run).sound
  have charted := sound.housed.charted
  have valid : next.machine.memory.fragment page 0 60 = .ok ⟨page, 0, 60⟩ := by
    rw [memory]
    exact Memory.fragment_of_whole (charted.size_of_reaches reached) (by decide) (by decide)
  have flown : TransmitRing.Flies (state.controller.transmitRing, next.machine) flights := by
    unfold TransmitRing.Flies
    rw [memory, device]
    exact flies
  have pages : message.pages = [page] := by
    rw [Message.pages, ← Request.attachment_of_decode request]
    change batch.pieces.map _ = _
    rw [pieces]
    rfl
  have lawful : Lawful .free Site.seen := fun site => .none site.seen
  refine ⟨controller, site, _, message, later, page, attached, asked, taken, pages, lawful, ?_,
    grants_last_while_serving attached asked pump taken lawful 0⟩
  have known : next.machine.memory.Knows page := memory ▸ charted.knows_of_reaches reached
  exact OutboundPump.exists_pausesAt request pieces valid known flown (full.trans capacity.symm) rfl

end PacketPath
