import PacketPath.Proofs.System.OutboundState

/-! What output pumps do for those who send to them. The messages in a mailbox are served in the order in which they
came, and the frames that they ask for go over the wire in that order, each of them once and nothing besides. -/

set_option autoImplicit false

namespace PacketPath

variable {rules : Rules} {settings : Settings} {controller : Controller} {site next start : Site}
  {reader : ProcessId} {took fetched first waiting : List Message}
  {message : Message} {state later : OutboundState} {endpoint : Endpoint}

/-! ### Mailboxes -/

/-- What may become of the messages that wait in a mailbox: others come behind them, and the oldest one is taken by
a pump or fetched by somebody else. -/
inductive MailboxHistory (first : List Message) : (took fetched waiting : List Message) → Prop where
  | none : MailboxHistory first [] [] first
  | comes {took fetched waiting : List Message} (message : Message)
      (before : MailboxHistory first took fetched waiting) :
      MailboxHistory first took fetched (waiting ++ [message])
  | taken {took fetched waiting : List Message} {message : Message}
      (before : MailboxHistory first took fetched (message :: waiting)) :
      MailboxHistory first (took ++ [message]) fetched waiting
  | fetched {took fetched waiting : List Message} {message : Message}
      (before : MailboxHistory first took fetched (message :: waiting)) :
      MailboxHistory first took (fetched ++ [message]) waiting

/-- Messages leave a mailbox in the order in which they came. -/
theorem MailboxHistory.exists_gone (history : MailboxHistory first took fetched waiting) :
    ∃ fresh gone, first ++ fresh = gone ++ waiting ∧ took.Sublist gone ∧ fetched.Sublist gone ∧
      gone.length = took.length + fetched.length := by
  -- What is gone keeps the order of leaving, no matter who took it.
  induction history with
  | none => exact ⟨[], [], List.append_nil _, .refl _, .refl _, rfl⟩
  | comes message _ ih =>
    obtain ⟨fresh, gone, all, among, others, count⟩ := ih
    refine ⟨fresh ++ [message], gone, ?_, among, others, count⟩
    rw [← List.append_assoc, all, List.append_assoc]
  | @taken took fetched waiting message _ ih =>
    obtain ⟨fresh, gone, all, among, others, count⟩ := ih
    refine ⟨fresh, gone ++ [message], ?_, among.append (.refl _), others.trans (List.sublist_append_left ..), ?_⟩
    · rw [all, List.append_assoc, List.singleton_append]
    · simp only [List.length_append, count, List.length_singleton]
      omega
  | @fetched took fetched waiting message _ ih =>
    obtain ⟨fresh, gone, all, among, others, count⟩ := ih
    refine ⟨fresh, gone ++ [message], ?_, among.trans (List.sublist_append_left ..), others.append (.refl _), ?_⟩
    · rw [all, List.append_assoc, List.singleton_append]
    · simp only [List.length_append, count, List.length_singleton]
      omega

def Site.fetchedFrom (site : Site) (reader : ProcessId) : List Message :=
  (site.others.receipts.filter fun receipt => receipt.receiver = reader).map Receipt.message

def Site.MailboxSince (reader : ProcessId) (start : Site) (took : List Message) (site : Site) : Prop :=
  ∃ fetched, site.fetchedFrom reader = start.fetchedFrom reader ++ fetched ∧
    MailboxHistory (start.bus.waiting reader) took fetched (site.bus.waiting reader)

namespace Site.MailboxSince

theorem refl (reader : ProcessId) (start : Site) : MailboxSince reader start [] start :=
  ⟨[], (List.append_nil _).symm, .none⟩

theorem of_same (mailbox : MailboxSince reader start took site) (receipts : next.others.receipts = site.others.receipts)
    (waiting : next.bus.waiting reader = site.bus.waiting reader) : MailboxSince reader start took next := by
  unfold MailboxSince Site.fetchedFrom
  rw [receipts, waiting]
  exact mailbox

theorem seen (mailbox : MailboxSince reader start took site) : MailboxSince reader start took site.seen :=
  mailbox.of_same rfl rfl

theorem delivers {receiver : ProcessId} {bus : MessageBus} (mailbox : MailboxSince reader start took site)
    (sent : site.bus.deliver receiver message = .ok bus) : MailboxSince reader start took { site with bus := bus } := by
  have waiting := MessageBus.waiting_deliver sent reader
  split at waiting
  case isFalse => exact mailbox.of_same rfl waiting
  case isTrue =>
    obtain ⟨fetched, receipts, history⟩ := mailbox
    refine ⟨fetched, receipts, ?_⟩
    rw [waiting]
    exact history.comes message

theorem action (mailbox : MailboxSince reader start took site) (action : PageAction rules site next) :
    MailboxSince reader start took next := by
  cases action with
  | allocate | make | retain | release | write | wait => exact mailbox.of_same rfl rfl
  | register process => exact mailbox.of_same rfl (MessageBus.waiting_register ..)
  | setReceiving process receiving => exact mailbox.of_same rfl (MessageBus.waiting_setReceiving ..)
  | send sender receiver code attachment holds allowed =>
    apply Step.Ends.after
    apply Surroundings.send_ends
    · intro error _
      exact mailbox.of_same rfl rfl
    · intro process bus log _ sent
      exact (mailbox.delivers sent).of_same rfl rfl
  | @fetch message bus process taken =>
    have waiting := MessageBus.waiting_take taken reader
    obtain ⟨fetched, receipts, history⟩ := mailbox
    -- Others may fetch from any mailbox, so it matters whether it is this one.
    by_cases here : reader = process
    · rw [if_pos here] at waiting
      rw [waiting] at history
      refine ⟨fetched ++ [message], ?_, history.fetched⟩
      rw [← List.append_assoc, ← receipts]
      simp [Site.fetchedFrom, here]
    · rw [if_neg here] at waiting
      rw [waiting] at history
      refine ⟨fetched, ?_, history⟩
      rw [← receipts]
      simp [Site.fetchedFrom, Ne.symm here]

theorem moves (mailbox : MailboxSince reader start took site) (moves : Moves rules site next) :
    MailboxSince reader start took next := by
  induction moves with
  | none => exact mailbox
  | @more middle last before move ih =>
    cases move with
    | action action => exact (ih.action action).seen
    | transmit | inject | lose | raise => exact ih.of_same rfl rfl

theorem takes {process : ProcessId} {bus : MessageBus} (mailbox : MailboxSince reader start took site)
    (taken : site.bus.take process = .ok (some message, bus)) :
    MailboxSince reader start (took ++ if process = reader then [message] else []) { site with bus := bus } := by
  have waiting := MessageBus.waiting_take taken reader
  obtain ⟨fetched, receipts, history⟩ := mailbox
  refine ⟨fetched, receipts, ?_⟩
  by_cases here : reader = process
  · rw [if_pos here] at waiting
    rw [if_pos here.symm]
    exact (waiting ▸ history).taken
  · rw [if_neg here] at waiting
    rw [if_neg (Ne.symm here), List.append_nil]
    exact waiting ▸ history

theorem inbound (rules : Rules) (rotation : List PageId) (page : PageId) (endpoint : Endpoint) (stack : ProcessId) :
    InboundPump.Keeps rules rotation page endpoint stack fun _ _ => MailboxSince reader start took where
  moves _ mailbox moves := mailbox.seen.moves moves
  notes _ mailbox := mailbox.of_same rfl rfl
  misses _ mailbox _ _ := mailbox.of_same rfl rfl
  draws _ mailbox _ _ _ := mailbox.of_same rfl rfl
  lends _ mailbox _ sent := (mailbox.delivers sent).of_same rfl rfl
  takesBack _ mailbox := mailbox.of_same rfl rfl

theorem outbound (rules : Rules) (pause : Pause Emulator Others) (extra : List PageId) :
    OutboundPump.Keeps rules pause extra fun _ _ _ => MailboxSince reader start took where
  pauses _ mailbox moves := mailbox.seen.moves moves
  notes _ mailbox := mailbox.of_same rfl rfl
  posts _ mailbox _ _ _ := mailbox.of_same rfl rfl
  upkeep _ mailbox _ := mailbox.of_same rfl rfl
  grips _ mailbox _ := mailbox.of_same rfl rfl
  drops _ mailbox := mailbox.of_same rfl rfl

end Site.MailboxSince

theorem Endpoint.takes_of_none {bus : MessageBus} (none : endpoint.oldest bus = none) : endpoint.takes bus = [] := by
  cases endpoint with
  | closed => rfl
  | process reader =>
    change (bus.waiting reader).head?.toList.map _ = []
    have empty : (bus.waiting reader).head? = .none := none
    rw [empty]
    rfl

theorem Endpoint.takes_of_take {bus after : MessageBus} (taken : bus.take reader = .ok (some message, after)) :
    Endpoint.takes (.process reader) bus = [(reader, message)] := by
  have here : (bus.waiting reader).head? = some message := Endpoint.oldest_of_take taken
  change (bus.waiting reader).head?.toList.map _ = _
  rw [here]
  rfl

namespace OutboundState

def takenFrom (state : OutboundState) (reader : ProcessId) : List Message :=
  (state.taken.filter fun entry => entry.1 = reader).map Prod.snd

def MailboxBetween (reader : ProcessId) (state later : OutboundState) : Prop :=
  ∃ took, later.takenFrom reader = state.takenFrom reader ++ took ∧ Site.MailboxSince reader state.site took later.site

namespace MailboxBetween

variable {middle : OutboundState} {pause : Pause Emulator Others}

theorem received {pump : InboundPump} {rest : List PageId} (mailbox : MailboxBetween reader state middle)
    (sound : middle.Sound) (provided : middle.ProvidesPages pump rest) (lawful : Lawful .free pause) (fuel : Nat) :
    MailboxBetween reader state (middle.received pump.pages.toList
      ((InboundPump.step endpoint pause fuel).after (middle.receiving pump rest))) := by
  obtain ⟨took, taken, mailbox⟩ := mailbox
  have keeps (page : PageId) (_ : page ∈ pump.pages.toList) :
      InboundPump.Keeps .free pump.pages.toList page endpoint pump.settings.stack
        fun _ _ => Site.MailboxSince reader state.site took := Site.MailboxSince.inbound ..
  have kept := (sound.received provided keeps (mailbox.of_same rfl rfl) lawful fuel rfl).2
  exact ⟨took, taken, kept.of_same rfl rfl⟩

theorem sent (mailbox : MailboxBetween reader state middle) (sound : middle.Sound) (lawful : Lawful .free pause)
    (pump : OutboundPump) (fuel : Nat) :
    MailboxBetween reader state (middle.sent endpoint pump
      ((OutboundPump.serveOne endpoint pause fuel).after (middle.sending pump))) := by
  obtain ⟨took, taken, mailbox⟩ := mailbox
  -- What a step takes is settled before it begins: the oldest message, or none.
  obtain ⟨more, takes⟩ : ∃ more,
      ((endpoint.takes middle.site.bus).filter fun entry => entry.1 = reader).map Prod.snd = more := ⟨_, rfl⟩
  have back (after : Running OutboundPump Emulator Others)
      (kept : Site.MailboxSince reader state.site (took ++ more) after.around) :
      MailboxBetween reader state (middle.sent endpoint pump after) := by
    refine ⟨took ++ more, ?_, kept.of_same rfl rfl⟩
    rw [← List.append_assoc, ← taken, ← takes]
    simp [takenFrom, OutboundState.sent]
  have start : PacketPath.Sound (middle.sending pump).controller [] middle.controller.receiveRing.recycled
      (middle.sending pump).around := sound
  have idle (none : endpoint.oldest middle.site.bus = none) :
      Site.MailboxSince reader state.site (took ++ more) middle.site := by
    have nothing : more = [] := by
      rw [← takes, Endpoint.takes_of_none none]
      rfl
    rw [nothing, List.append_nil]
    exact mailbox
  have fetches (process : ProcessId) (message : Message) (bus : MessageBus)
      (fetched : middle.site.bus.take process = .ok (some message, bus)) (own : endpoint = .process process) :
      Site.MailboxSince reader state.site (took ++ more) { middle.site with bus := bus } := by
    have one : more = if process = reader then [message] else [] := by
      rw [← takes, own, Endpoint.takes_of_take fetched]
      split <;> simp_all
    rw [one]
    exact mailbox.takes fetched
  have keeps : OutboundPump.Keeps .free pause [] fun _ _ _ => Site.MailboxSince reader state.site (took ++ more) :=
    Site.MailboxSince.outbound ..
  generalize ended : (OutboundPump.serveOne endpoint pause fuel).after (middle.sending pump) = last
  apply Step.Ends.reached ended
  refine (OutboundPump.serveOne_ends keeps lawful start idle fetches fuel).mono ?_ ?_
  · rintro _ after ⟨-, reached⟩
    exact back after reached.holds
  · rintro _ after ⟨_, -, reached⟩
    exact back after reached.holds

end MailboxBetween

theorem Round.mailbox {proper : OutboundState → Call → Prop} {middle : OutboundState}
    (round : Round proper middle later)
    (sound : middle.Sound) (mailbox : MailboxBetween reader state middle) : MailboxBetween reader state later := by
  cases round with
  | pause moves =>
    obtain ⟨took, taken, mailbox⟩ := mailbox
    exact ⟨took, taken, mailbox.seen.moves moves⟩
  | receive provided endpoint lawful fuel => exact mailbox.received sound provided lawful fuel
  | send pump lendsReached lawful fuel => exact mailbox.sent sound lawful pump fuel
  | call =>
    obtain ⟨took, taken, mailbox⟩ := mailbox
    exact ⟨took, taken, mailbox.of_same rfl rfl⟩

/-! ### The contract -/

def outs (state : OutboundState) : Nat :=
  state.site.machine.outs

/-- The bytes of a frame as they stood in its packet when its message was taken. -/
def asked (state : OutboundState) (request : Posted) : List UInt8 :=
  (state.site.others.points[request.since - 1]?).elim [] fun machine => request.flight.bytes machine.memory

/-- From when its message was taken until it is out as frame `n`, nobody writes the bytes of a frame. -/
def Unwritten (state : OutboundState) (n : Nat) (request : Posted) : Prop :=
  ∀ k machine, request.since ≤ k + 1 → state.site.others.points[k]? = some machine → machine.outs ≤ n →
    request.flight.bytes machine.memory = state.asked request

structure Appends (state : OutboundState) (endpoint : Endpoint) (pump : OutboundPump) (frames : List Fragment)
    (after : Running OutboundPump Emulator Others) : Prop where
  posted : (state.sent endpoint pump after).posted =
    state.posted ++ frames.map fun fragment => ⟨fragment, state.site.others.points.length⟩
  queue : TransmitRing.Flies (after.controller.transmitRing, after.around.machine)
    (((state.sent endpoint pump after).posted.drop after.around.machine.outs).map Posted.flight)

/-- What is posted is queued, and the device sends it in order. A step of an output pump that is answered has posted
all frames that the oldest message asks for, or none if no message waits; any other step has posted the first of
them. The messages that pumps take leave their mailbox in the order in which they came. -/
structure Sends (state : OutboundState) : Prop where
  recorded : state.site.Recorded
  queue : TransmitRing.Flies (state.controller.transmitRing, state.site.machine)
    ((state.posted.drop state.outs).map Posted.flight)
  pending : state.outs + state.site.machine.device.transmitPending = state.posted.length
  wire : (∀ n request, state.posted[n]? = some request → state.Unwritten n request) →
    state.site.machine.device.wire = ⟨[], (state.posted.take state.outs).map state.asked⟩
  serves : ∀ endpoint pump pause fuel, state.LendsReached endpoint → Lawful .free pause →
    (OutboundPump.serveOne endpoint pause fuel).Ends (state.sending pump)
      (fun count after =>
        count = (endpoint.oldest state.site.bus).map
          (fun message => (message.frames state.site.machine.memory).length) ∧
        state.Appends endpoint pump (endpoint.frames state.site) after)
      (fun _ after => ∃ first, first <+: endpoint.frames state.site ∧ state.Appends endpoint pump first after)
  order : ∀ later, Relation.ReflTransGen (Round fun _ call => call.IsUpkeep) state later → ∀ reader,
    ∃ took fetched fresh gone,
      later.takenFrom reader = state.takenFrom reader ++ took ∧
      later.site.fetchedFrom reader = state.site.fetchedFrom reader ++ fetched ∧
      state.site.bus.waiting reader ++ fresh = gone ++ later.site.bus.waiting reader ∧
      took.Sublist gone ∧ fetched.Sublist gone ∧ gone.length = took.length + fetched.length

end OutboundState

/-! ### Queued frames -/

namespace Queued

variable {posted : List Posted}

theorem pending (queued : Queued (fun _ => True) posted controller site) :
    site.machine.outs + site.machine.device.transmitPending = posted.length := by
  have pending : site.machine.device.transmitPending = _ := queued.inFlight.flies.carries.pending
  rw [pending, List.length_map, List.length_drop]
  exact Nat.add_sub_cancel' queued.within

end Queued

namespace OutboundState

theorem Maintains.wire (maintains : state.Maintains (Queued fun _ => True))
    (unwritten : ∀ n request, state.posted[n]? = some request → state.Unwritten n request) :
    state.site.machine.device.wire = ⟨[], (state.posted.take state.outs).map state.asked⟩ := by
  have queued := maintains.holds
  have sent : state.site.machine.device.wire.sent = (state.posted.take state.outs).map state.asked := by
    apply List.ext_getElem?
    intro n
    -- The device sends what stands in a page at some point in between, and nobody has written there.
    rw [List.getElem?_map, List.getElem?_take]
    split
    case isFalse behind => exact List.getElem?_eq_none (Nat.le_of_not_lt behind)
    case isTrue out =>
      have short : n < state.posted.length := Nat.lt_of_lt_of_le out queued.within
      have asked := List.getElem?_eq_getElem short
      obtain ⟨frame, sent⟩ : ∃ frame, state.site.machine.device.wire.sent[n]? = some frame :=
        ⟨_, List.getElem?_eq_getElem out⟩
      have granted := queued.granted n state.posted[n] frame asked sent trivial
      rw [sent, asked, granted.eq_of_unwritten (unwritten n _ asked)]
      rfl
  rw [← sent, ← queued.gathered]

theorem calls_keep {invariant : List Posted → Controller → Site → Prop}
    (preserved : Preserved .free (fun _ => True) invariant) : CallsKeep (fun _ call => call.IsUpkeep) invariant := by
  intro state call isUpkeep maintains
  refine (Call.perform_upkeep isUpkeep maintains.sound.wired.seated).mono (fun _ after upkeep => ?_)
    (fun _ _ => False.elim)
  have sound := upkeep.transmitOnly.sound maintains.sound
  rw [← upkeep.transmitOnly.receiveRing] at sound
  exact ⟨sound.seen, preserved.unmoved maintains.holds upkeep.unmoved⟩

theorem Round.recorded {proper : OutboundState → Call → Prop} (round : Round proper state later) :
    later.site.Recorded := by
  cases round with
  | pause moves => cases moves with
    | none => exact Site.recorded_seen _
    | more before move => exact Site.recorded_seen _
  | receive | send | call => exact Site.recorded_seen _

theorem Maintains.sends (maintains : state.Maintains (Queued fun _ => True)) (recorded : state.site.Recorded) :
    state.Sends where
  recorded := recorded
  queue := maintains.holds.inFlight.flies
  pending := maintains.holds.pending
  wire := maintains.wire
  serves := by
    intro endpoint pump pause fuel lendsReached lawful
    refine (maintains.sound.send_ends (Queued.preserved _ _) maintains.holds lendsReached lawful pump fuel).mono ?_ ?_
    · rintro count after ⟨answer, posts⟩
      exact ⟨answer, posts.posted, posts.holds.inFlight.flies⟩
    · rintro _ after ⟨first, among, posts⟩
      exact ⟨first, among, posts.posted, posts.holds.inFlight.flies⟩
  order := by
    intro later run reader
    suffices turned : later.Maintains (Queued fun _ => True) ∧ MailboxBetween reader state later by
      obtain ⟨took, taken, fetched, receipts, history⟩ := turned.2
      obtain ⟨fresh, gone, all, among, others, count⟩ := history.exists_gone
      exact ⟨took, fetched, fresh, gone, taken, receipts, all, among, others, count⟩
    -- The induction is on the rounds; that the site is sound is kept along with the mailbox.
    induction run with
    | refl => exact ⟨maintains, [], (List.append_nil _).symm, .refl ..⟩
    | tail _ round ih =>
      exact ⟨round.maintains (Queued.preserved _ _) (calls_keep (Queued.preserved _ _)) ih.1,
        round.mailbox ih.1.sound ih.2⟩

end OutboundState

/-- Whatever messages come to an attached controller, and whatever else happens around it and in every pause, output
pumps serve them in order, and the wire carries the frames that they ask for in order, and nothing else. -/
theorem output_pump_delivers (attached : Attached settings controller site)
    (run : Relation.ReflTransGen (OutboundState.Round fun _ call => call.IsUpkeep) (.opened controller site) state) :
    state.Sends := by
  suffices kept : state.Maintains (Queued fun _ => True) ∧ state.site.Recorded from kept.1.sends kept.2
  induction run with
  | refl =>
    have started := attached.started
    have queued : Queued (fun _ => True) [] controller site := by
      apply Queued.start started.flies started.wire
      rw [started.points]
      nofun
    exact ⟨⟨attached.opens, queued.seen⟩, Site.recorded_seen site⟩
  | tail _ round ih =>
    exact ⟨round.maintains (Queued.preserved _ _) (OutboundState.calls_keep (Queued.preserved _ _))
      ih.1, round.recorded⟩

/-! ### A batch is served -/

theorem OutboundPump.post_answers {flights : List Flight} {fragment : Fragment}
    (flies : TransmitRing.Flies (controller.transmitRing, site.machine) flights)
    (room : flights.length < controller.transmitRing.capacity) (sendable : fragment.Sendable site.machine.memory)
    (pump : OutboundPump) (pause : Pause Emulator Others) (fuel : Nat) :
    (post pause fuel fragment).Ends ⟨pump, controller, site⟩ (fun _ _ => True) (fun _ _ => False) := by
  unfold post
  rw [Step.ends_bind, Step.ends_get, Step.ends_bind]
  apply Running.await_ends_of_ready
  unfold tryPost Controller.transmit
  rw [Step.ends_bind, Step.ends_attempt, Running.ends_onController, Controller.ends_onTransmit]
  refine ((TransmitRing.post_flies_of_sendable flies sendable).and
    (TransmitRing.post_leads flies.wired.seated sendable.knows)).mono ?_ ?_
  · rintro _ after ⟨-, leads⟩
    obtain ⟨address, found⟩ := (sendable.of_changes leads.changes).address
    refine ⟨_, rfl, fun waits => ?_⟩
    -- What is left is the counter and a log line with the address of the frame.
    simp only [Step.ends_bind, Step.ends_orRefuse, count, Running.ends_changePump, Running.ends_onMachine,
      Fragment.address, Step.ends_inspect, Machine.ends_note]
    refine ⟨fun value answered => ⟨fun address _ => trivial, fun violation missing => ?_⟩, ?_⟩
    · rw [found] at missing
      cases missing
    · rintro _ ⟨⟩
  · rintro _ after ⟨⟨-, -, full⟩, -⟩
    omega

theorem OutboundPump.serveOne_answers {flights : List Flight} {bus : MessageBus} {batch : Batch} {piece : Piece}
    {fragment : Fragment} (waits : site.bus.take reader = .ok (some message, bus))
    (request : message.request = .ok (.outputBatch batch)) (pieces : batch.pieces = [piece])
    (valid : site.machine.memory.fragment piece.grant.page piece.offset piece.length = .ok fragment)
    (flies : TransmitRing.Flies (controller.transmitRing, site.machine) flights)
    (room : flights.length < controller.transmitRing.capacity) (sendable : fragment.Sendable site.machine.memory)
    (pump : OutboundPump) (pause : Pause Emulator Others) (fuel : Nat) :
    (serveOne (.process reader) pause fuel).Ends ⟨pump, controller, site⟩ (fun _ _ => True) (fun _ _ => False) := by
  have retained := Memory.changes_retainAll (fun _ => False) fun page (listed : page ∈ [fragment.page]) =>
    List.mem_singleton.mp listed ▸ sendable.knows
  let held : Site := { site with machine.memory := site.machine.memory.retainAll [fragment.page], bus := bus }
  have flown : TransmitRing.Flies (controller.transmitRing, held.machine) flights :=
    flies.carries.of_changes retained id
  have posts := post_answers flown room (sendable.of_changes retained) pump pause fuel
  rw [ends_serveOne_of_request waits request]
  -- Up to the posting the step runs straight through, since the pieces are known.
  unfold serve
  simp only [Step.ends_bind, Step.ends_mapRefusal, Running.ends_onMachine, pieces, fragments, Piece.fragment,
    Step.ends_get, valid, Step.ends_pure, List.map_cons, List.map_nil, Running.ends_holding, List.forM_eq_forM,
    List.forM_cons, List.forM_nil, count, Running.ends_changePump]
  exact posts

theorem PageAction.exists_of_deliver {rest : List PageId} {sender receiver : ProcessId} {code : UInt32}
    {attachment : Attachment} {bus : MessageBus} (holds : site.others.held.Perm (attachment.pages ++ rest))
    (allowed : ¬ rules.barred sender receiver)
    (delivered : site.bus.deliver receiver ⟨sender, code, attachment⟩ = .ok bus) :
    ∃ log, PageAction rules site { site with machine.log := log, bus := bus, others.held := rest } := by
  have sent : (Surroundings.send (.process sender) receiver code attachment).Ends { site with others.held := rest }
      (fun _ after => ∃ log, after = { site with machine.log := log, bus := bus, others.held := rest })
      (fun _ after => ∃ log, after = { site with machine.log := log, bus := bus, others.held := rest }) := by
    apply Surroundings.send_ends
    · rintro error (⟨⟨⟩, -⟩ | ⟨_, ⟨⟩, refused⟩)
      rw [delivered] at refused
      cases refused
    · rintro _ _ log ⟨⟩ same
      rw [delivered] at same
      cases same
      exact ⟨log, rfl⟩
  obtain ⟨log, same⟩ := sent.after
  exact ⟨log, same ▸ PageAction.send sender receiver code attachment holds allowed⟩

theorem Site.exists_asks {page : PageId} (empty : site.bus = .empty) (held : site.others.held = [page]) :
    ∃ next message bus, ∃ batch : Batch, Moves .free site next ∧ next.machine.memory = site.machine.memory ∧
      next.machine.device = site.machine.device ∧ next.bus.take ⟨0x2000⟩ = .ok (some message, bus) ∧
      message.request = .ok (.outputBatch batch) ∧ batch.pieces = [⟨⟨page, .readable⟩, 0, 60⟩] := by
  obtain ⟨machine, bus, others⟩ := site
  dsimp only at empty held
  subst empty
  let batch : Batch := ⟨[⟨⟨page, .readable⟩, 0, 60⟩], Nat.le_of_ble_eq_true rfl⟩
  let message : Message := ⟨⟨0x1000⟩, Request.outputBatchCode, .pieces batch⟩
  -- One mailbox is opened, and nothing else is on the bus.
  let ready : Site := Site.seen ⟨machine, MessageBus.empty.register ⟨0x2000⟩, others⟩
  have registers : Moves .free ⟨machine, .empty, others⟩ ready := .more (.none _) (.action (.register ⟨0x2000⟩))
  have given : ready.others.held.Perm ((Attachment.pieces batch).pages ++ []) := .of_eq held
  have delivered : ready.bus.deliver ⟨0x2000⟩ message = .ok ⟨[(⟨0x2000⟩, { waiting := [message] })]⟩ := rfl
  have allowed : ¬ Rules.free.barred ⟨0x1000⟩ ⟨0x2000⟩ := id
  obtain ⟨log, sends⟩ := PageAction.exists_of_deliver given allowed delivered
  have request : message.request = .ok (.outputBatch batch) := by
    have present : Grant.isPresent ⟨page, .readable⟩ = true := (by decide : Permission.readable.isPresent = true)
    simp [message, batch, Message.request, Request.decode, Request.inputCode, Request.outputCode,
      Request.outputBatchCode, present]
  exact ⟨_, message, _, batch, registers.more (.action sends), rfl, rfl, rfl, request, rfl⟩

theorem exists_asked : ∃ controller site next message bus, ∃ batch : Batch, ∃ page,
    Attached {} controller site ∧ Moves .free site.seen.seen next ∧ next.machine.memory = site.machine.memory ∧
    next.machine.device = site.machine.device ∧ next.machine.memory.Reaches page ∧
    next.bus.take ⟨0x2000⟩ = .ok (some message, bus) ∧ message.request = .ok (.outputBatch batch) ∧
    batch.pieces = [⟨⟨page, .readable⟩, 0, 60⟩] := by
  obtain ⟨controller, site, page, attached, empty, held, -, reached⟩ := exists_attached_beside
  have idle : site.seen.seen.bus = .empty := empty
  obtain ⟨next, message, bus, batch, moves, memory, device, taken, request, pieces⟩ := Site.exists_asks idle held
  exact ⟨controller, site, next, message, bus, batch, page, attached, moves, memory, device, memory ▸ reached, taken,
    request, pieces⟩

theorem Attached.answers {next : Site} {page : PageId} {bus : MessageBus} {batch : Batch}
    (attached : Attached settings controller site) (memory : next.machine.memory = site.machine.memory)
    (device : next.machine.device = site.machine.device) (reached : next.machine.memory.Reaches page)
    (waits : next.bus.take reader = .ok (some message, bus)) (request : message.request = .ok (.outputBatch batch))
    (pieces : batch.pieces = [⟨⟨page, .readable⟩, 0, 60⟩]) (pump : OutboundPump) (pause : Pause Emulator Others)
    (fuel : Nat) :
    (OutboundPump.serveOne (.process reader) pause fuel).Ends ⟨pump, controller, next⟩ (fun _ _ => True)
      (fun _ _ => False) := by
  have started := attached.started
  have valid : site.machine.memory.fragment page 0 60 = .ok ⟨page, 0, 60⟩ :=
    Memory.fragment_of_whole (started.sound.housed.charted.size_of_reaches (memory ▸ reached)) (by decide) (by decide)
  have sendable := started.sound.sendable (Memory.fragment_eq_ok valid).2 (memory ▸ reached)
  have flies : controller.transmitRing.Carries next.machine.memory next.machine.device.transmitSide [] := by
    rw [memory, device]
    exact started.flies
  rw [← memory] at valid sendable
  exact OutboundPump.serveOne_answers waits request pieces valid flies
    (Nat.lt_of_lt_of_le Nat.zero_lt_two flies.wired.several) sendable pump pause fuel

/-- Somebody asks for a frame to be sent from a page of his, and a pump serves him. -/
theorem output_pump_delivers_once : ∃ controller site state, Attached {} controller site ∧
    Relation.ReflTransGen (OutboundState.Round fun _ call => call.IsUpkeep) (.opened controller site) state ∧
    state.taken.length = 1 ∧ state.posted.length = 1 ∧ state.Sends := by
  obtain ⟨controller, site, next, message, bus, batch, page, attached, asked, memory, device, reached, waits,
    request, pieces⟩ := exists_asked
  let state : OutboundState := { OutboundState.opened controller site with site := next }
  have first : Relation.ReflTransGen (OutboundState.Round fun _ call => call.IsUpkeep)
      (.opened controller site) state :=
    .single (.pause asked)
  have before := output_pump_delivers attached first
  have oldest : Endpoint.oldest (.process ⟨0x2000⟩) next.bus = some message := Endpoint.oldest_of_take waits
  have frames : Endpoint.frames (.process ⟨0x2000⟩) next = [⟨page, 0, 60⟩] := by
    unfold Endpoint.frames Message.frames
    rw [oldest, Option.map_some, Option.getD_some, request]
    change batch.pieces.map _ = _
    rw [pieces]
    rfl
  have lendsReached : state.LendsReached (.process ⟨0x2000⟩) := by
    intro other here lent listed
    obtain rfl : message = other := Option.some.inj (oldest.symm.trans here)
    rw [Message.pages, ← Request.attachment_of_decode request] at listed
    change lent ∈ batch.pieces.map _ at listed
    rw [pieces] at listed
    rw [List.mem_singleton.mp listed]
    exact reached
  have lawful : Lawful .free Site.seen := fun site => .none site.seen
  have answers := attached.answers memory device reached waits request pieces ⟨{}, {}⟩ Site.seen 0
  have posts : (OutboundPump.serveOne (.process ⟨0x2000⟩) Site.seen 0).Ends (state.sending ⟨{}, {}⟩)
      (fun _ after => (state.sent (.process ⟨0x2000⟩) ⟨{}, {}⟩ after).posted.length = 1)
      (fun _ after => (state.sent (.process ⟨0x2000⟩) ⟨{}, {}⟩ after).posted.length = 1) := by
    refine ((before.serves _ _ _ 0 lendsReached lawful).and answers).mono ?_ (fun _ _ stopped => stopped.2.elim)
    rintro _ after ⟨⟨-, appends⟩, -⟩
    rw [appends.posted, show Endpoint.frames _ state.site = _ from frames]
    rfl
  have sends : OutboundState.Round (fun _ call => call.IsUpkeep) state _ := .send ⟨{}, {}⟩ lendsReached lawful 0
  have run := first.tail sends
  refine ⟨controller, site, _, attached, run, ?_, posts.after, output_pump_delivers attached run⟩
  change (Endpoint.takes (.process ⟨0x2000⟩) next.bus).length = 1
  rw [Endpoint.takes_of_take waits]
  rfl

end PacketPath
