import PacketPath.Proofs.Pump.Serving
import PacketPath.Proofs.System.Calls

/-! How the output pump serves a request. The pump holds the message until its last frame is posted, and
the surroundings go on at every pause. What holds through all of this is shown once for each thing that the
pump does. -/

set_option autoImplicit false

namespace PacketPath

variable {rules : Rules} {site : Site} {controller : Controller} {extra pages hands : List PageId} {recycled : Nat}

/-! ### Handles that the pump takes and gives back -/

theorem Sound.fetches {process : ProcessId} {message : Message} {bus : MessageBus}
    (sound : Sound controller extra recycled site) (taken : site.bus.take process = .ok (some message, bus)) :
    Sound controller (message.pages ++ extra) recycled { site with bus := bus } := by
  have lent := MessageBus.perm_pages_take sound.distinct taken
  refine sound.shift (sound.housed.congr fun id => ?_) (MessageBus.distinct_take sound.distinct taken) ?_
    (.refl (fun _ => False) _) (fun _ _ => id) rfl rfl
  · simp only [Site.owned, List.count_append, lent.count_eq]
    omega
  · intro id held
    simp only [Site.owned, List.mem_append, lent.mem_iff] at held ⊢
    rcases held with (fetched | kept) | other | waiting
    · exact .inl (.inr (.inr (.inl fetched)))
    · exact .inl (.inl kept)
    · exact .inl (.inr (.inl other))
    · exact .inl (.inr (.inr (.inr waiting)))

theorem Sound.grips (sound : Sound controller extra recycled site) (held : ∀ page ∈ pages, page ∈ extra) :
    Sound controller (pages ++ extra) recycled
      { site with machine.memory := site.machine.memory.retainAll pages } := by
  have known (page : PageId) (listed : page ∈ pages) := sound.knows_extra (held page listed)
  refine sound.shift ((sound.housed.retainAll known).congr fun id => ?_) sound.distinct ?_
    (Memory.changes_retainAll (fun _ => False) known) (fun _ _ => id) rfl rfl
  · simp only [Site.owned, List.count_append]
    omega
  · intro id held'
    rw [List.mem_append, or_assoc] at held'
    rcases held' with more | before
    · exact .inl (.inl (held id more))
    · exact .inl before

theorem Sound.drops (sound : Sound controller (pages ++ extra) recycled site) :
    Sound controller extra recycled { site with machine.memory := site.machine.memory.releaseAll pages } := by
  have housed : Housed (pages ++ (controller.pages ++ extra ++ site.owned)) site.others.board site.machine.memory := by
    refine sound.housed.congr fun id => ?_
    simp only [List.count_append]
    omega
  refine sound.shift housed.releaseAll sound.distinct ?_ (Memory.changes_releaseAll (fun _ => False) _ _)
    (fun _ _ => id) rfl rfl
  rintro id (kept | held)
  · exact .inl (.inl (List.mem_append_right _ kept))
  · exact .inl (.inr held)

/-! ### What a request asks for -/

/-- The frames that a request asks for, as it says. The length of a single one stands in front of it. -/
def Request.frames (memory : Memory) : Request → List Fragment
  | .input _ => []
  | .output packet =>
    [⟨packet.grant.page, Limits.headerSize, Word.ofBytes (memory.slice packet.grant.page 0 Limits.headerSize)⟩]
  | .outputBatch batch => batch.pieces.map fun piece => ⟨piece.grant.page, piece.offset, piece.length⟩

def Message.frames (memory : Memory) (message : Message) : List Fragment :=
  match message.request with
  | .ok request => request.frames memory
  | .error _ => []

def Endpoint.oldest (endpoint : Endpoint) (bus : MessageBus) : Option Message :=
  match endpoint with
  | .closed => none
  | .process reader => (bus.waiting reader).head?

def Endpoint.frames (endpoint : Endpoint) (site : Site) : List Fragment :=
  ((endpoint.oldest site.bus).map (Message.frames site.machine.memory)).getD []

theorem Machine.ends_readWord_still {δ ε : Type} {machine : Machine δ} (width : Nat) (id : PageId) (offset : Nat) :
    (Machine.readWord width id offset : Step ε _ _).Ends machine
      (fun value after => after = machine ∧ value = Word.ofBytes (machine.memory.slice id offset width))
      (fun _ after => after = machine) := by
  rcases Nat.lt_or_ge (machine.memory.page id).size (offset + width) with outside | covered
  · unfold Machine.readWord Machine.readBytes
    rw [Step.ends_bind, Step.ends_bind, Machine.ends_access_of_outside outside]
  · rw [Machine.ends_readWord covered]
    exact ⟨rfl, rfl⟩

theorem Word.signed_of_pos {bytes : List UInt8} (few : bytes.length ≤ 4) (positive : 0 < Word.signed 4 (ofBytes bytes)) :
    (Word.signed 4 (ofBytes bytes)).toNat = ofBytes bytes := by
  have short := ofBytes_lt bytes
  have few : 256 ^ bytes.length ≤ 256 ^ 4 := Nat.pow_le_pow_right (by decide) few
  have width : Nat.pow 256 4 = 256 ^ 4 := rfl
  unfold Word.signed at positive ⊢
  rw [width, Int.bmod_def] at positive ⊢
  generalize ofBytes bytes = word at *
  omega

theorem Packet.fragment_ends {δ : Type} (packet : Packet) (machine : Machine δ) :
    packet.fragment.Ends machine
      (fun fragment after => after = machine ∧ fragment.Inside machine.memory ∧
        (Request.output packet).frames machine.memory = [fragment])
      (fun _ after => after = machine) := by
  unfold Packet.fragment Packet.frameLength
  simp only [Step.ends_bind]
  refine (Machine.ends_readWord_still ..).mono ?_ (fun _ _ => id)
  intro header after ended
  rw [ended.1]
  simp only [Machine.ends_sizeOf, Step.ends_ite, Step.ends_pure, Step.ends_refuse, Step.ends_get]
  refine ⟨fun fits => ?_, fun _ => trivial⟩
  split
  case h_1 fragment valid =>
    obtain ⟨rfl, inside⟩ := Memory.fragment_eq_ok valid
    have few : (machine.memory.slice packet.grant.page 0 4).length ≤ 4 := by
      rw [Memory.slice, Page.slice, Array.length_toList, Array.size_extract]
      omega
    rw [ended.2] at fits
    refine ⟨rfl, inside, ?_⟩
    rw [Request.frames, ended.2, Word.signed_of_pos few fits.1]
    rfl
  case h_2 => rfl

theorem OutboundPump.fragments_ends {δ : Type} (pieces : List Piece) (machine : Machine δ) :
    (fragments pieces).Ends machine
      (fun frames after => after = machine ∧
        (∀ fragment ∈ frames, machine.memory.fragment fragment.page fragment.offset fragment.length = .ok fragment) ∧
        frames = pieces.map fun piece => ⟨piece.grant.page, piece.offset, piece.length⟩)
      (fun stop after => after = machine ∧ (∃ error, stop = .refused error) ∧
        ∃ piece ∈ pieces, ∃ fault,
          machine.memory.fragment piece.grant.page piece.offset piece.length = .error fault) := by
  induction pieces with
  | nil =>
    refine ⟨rfl, ?_, rfl⟩
    nofun
  | cons piece rest ih =>
    unfold fragments Piece.fragment
    simp only [Step.ends_bind, Step.ends_get, Step.ends_pure]
    split
    case h_1 fragment valid =>
      obtain ⟨rfl, -⟩ := Memory.fragment_eq_ok valid
      refine ih.mono ?_ ?_
      · rintro frames _ ⟨rfl, others, rfl⟩
        exact ⟨rfl, List.forall_mem_cons.mpr ⟨valid, others⟩, rfl⟩
      · rintro stop _ ⟨rfl, refused, faulty, listed, invalid⟩
        exact ⟨rfl, refused, faulty, List.mem_cons_of_mem _ listed, invalid⟩
    case h_2 fault invalid => exact ⟨rfl, ⟨_, rfl⟩, piece, List.mem_cons_self, fault, invalid⟩

theorem Request.attachment_of_decode {code : UInt32} {attachment : Attachment} {request : Request}
    (decoded : Request.decode code attachment = .ok request) : request.attachment = attachment := by
  unfold Request.decode at decoded
  split at decoded
  · cases attachment with
    | nothing | pieces => cases decoded
    | page grant =>
      dsimp only at decoded
      by_cases present : grant.isPresent = true
      · rw [Packet.ofGrant, dif_pos present, Except.map, Except.ok.injEq] at decoded
        rw [← decoded]
        split
        · rfl
        · rfl
      · rw [Packet.ofGrant, dif_neg present] at decoded
        cases decoded
  · split at decoded
    · cases attachment with
      | nothing | page => cases decoded
      | pieces batch =>
        dsimp only at decoded
        split at decoded
        · cases decoded
        · cases decoded
          rfl
    · cases decoded

theorem Request.mem_pages_of_frames {request : Request} {memory : Memory} {fragment : Fragment}
    (asked : fragment ∈ request.frames memory) : fragment.page ∈ request.attachment.pages := by
  cases request with
  | input packet => cases asked
  | output packet =>
    obtain rfl := List.mem_singleton.mp asked
    exact List.mem_singleton_self _
  | outputBatch batch =>
    obtain ⟨piece, listed, rfl⟩ := List.mem_map.mp asked
    exact List.mem_map_of_mem listed

theorem Endpoint.oldest_of_take {reader : ProcessId} {bus after : MessageBus} {found : Option Message}
    (taken : bus.take reader = .ok (found, after)) : Endpoint.oldest (.process reader) bus = found := by
  cases found with
  | some message =>
    rw [Endpoint.oldest, MessageBus.waiting_take taken, if_pos rfl]
    rfl
  | none =>
    unfold MessageBus.take at taken
    change (bus.waiting reader).head? = none
    unfold MessageBus.waiting
    cases here : bus.mailbox? reader with
    | none => rfl
    | some mailbox =>
      rw [here] at taken
      dsimp only at taken
      cases waits : mailbox.waiting with
      | nil =>
        rw [Option.elim_some, waits]
        rfl
      | cons message rest =>
        rw [waits] at taken
        cases taken

theorem Endpoint.oldest_of_closed {reader : ProcessId} {bus : MessageBus} {error : DeliveryError}
    (closed : bus.take reader = .error error) : Endpoint.oldest (.process reader) bus = none := by
  unfold MessageBus.take at closed
  change (bus.waiting reader).head? = none
  unfold MessageBus.waiting
  cases here : bus.mailbox? reader with
  | none => rfl
  | some mailbox =>
    rw [here] at closed
    dsimp only at closed
    cases waits : mailbox.waiting with
    | nil | cons =>
      rw [waits] at closed
      cases closed

/-! ### Serving -/

namespace OutboundPump

/-- An invariant of serving is kept by each thing that happens: by what the others do in a pause, by a line
in the log, and by what the pump itself does. It is told which frames were posted and which handles the
pump has. -/
structure Keeps (rules : Rules) (pause : Pause Emulator Others) (extra : List PageId)
    (invariant : List Fragment → List PageId → Controller → Site → Prop) : Prop where
  pauses : ∀ {posted hands controller site},
    Sound controller (hands ++ extra) controller.receiveRing.recycled site →
    invariant posted hands controller site → Moves rules site.seen (pause site) →
    invariant posted hands controller (pause site)
  notes : ∀ {posted hands controller site} log, invariant posted hands controller site →
    invariant posted hands controller { site with machine.log := log }
  posts : ∀ {posted hands controller site fragment after},
    Sound controller (hands ++ extra) controller.receiveRing.recycled site →
    invariant posted hands controller site → fragment.page ∈ hands → fragment.Inside site.machine.memory →
    Controller.Adds fragment (controller, site.machine) after →
    invariant (posted ++ [fragment]) hands after.1 { site with machine := after.2 }
  upkeep : ∀ {posted hands controller site after},
    Sound controller (hands ++ extra) controller.receiveRing.recycled site →
    invariant posted hands controller site → Controller.TransmitUpkeep (controller, site.machine) after →
    invariant posted hands after.1 { site with machine := after.2 }
  grips : ∀ {posted hands pages controller site},
    Sound controller (hands ++ extra) controller.receiveRing.recycled site →
    invariant posted hands controller site → (∀ page ∈ pages, page ∈ hands) →
    invariant posted (pages ++ hands) controller
      { site with machine.memory := site.machine.memory.retainAll pages }
  drops : ∀ {posted hands pages controller site},
    Sound controller (pages ++ hands ++ extra) controller.receiveRing.recycled site →
    invariant posted (pages ++ hands) controller site →
    invariant posted hands controller { site with machine.memory := site.machine.memory.releaseAll pages }

/-- What holds while a request is served: some frames were posted, others are still to be posted, and the
pump holds the pages of all of them. -/
structure At (packets : Nat) (extra : List PageId)
    (invariant : List Fragment → List PageId → Controller → Site → Prop) (posted left : List Fragment)
    (hands : List PageId) (running : Running OutboundPump Emulator Others) : Prop where
  sound : Sound running.controller (hands ++ extra) running.controller.receiveRing.recycled running.around
  holds : invariant posted hands running.controller running.around
  packets : running.pump.counters.packets = packets
  left : ∀ fragment ∈ left, fragment.page ∈ hands ∧ fragment.Inside running.around.machine.memory

variable {packets : Nat} {invariant : List Fragment → List PageId → Controller → Site → Prop}
  {posted left : List Fragment} {fragment : Fragment} {running : Running OutboundPump Emulator Others}
  {pause : Pause Emulator Others} {endpoint : Endpoint} {request : Request}

namespace At

theorem knows (here : At packets extra invariant posted left hands running) {page : PageId} (held : page ∈ hands) :
    running.around.machine.memory.Knows page :=
  here.sound.knows_extra (List.mem_append_left _ held)

theorem left_of_changes (here : At packets extra invariant posted left hands running) {after : Memory}
    {scope : PageId → Prop} (changes : running.around.machine.memory.ChangesWithin scope after) :
    ∀ fragment ∈ left, fragment.page ∈ hands ∧ fragment.Inside after := by
  intro fragment listed
  obtain ⟨held, inside⟩ := here.left fragment listed
  exact ⟨held, inside.of_changes changes (here.knows held)⟩

theorem paused (here : At packets extra invariant posted left hands running)
    (keeps : Keeps rules pause extra invariant) (lawful : Lawful rules pause) :
    At packets extra invariant posted left hands { running with around := pause running.around } := by
  obtain ⟨sound, keepsReserved⟩ := (lawful running.around).keepsReserved here.sound.seen
  exact
    { sound := sound
      holds := keeps.pauses here.sound here.holds (lawful running.around)
      packets := here.packets
      left := here.left_of_changes keepsReserved.changes }

theorem noted (here : At packets extra invariant posted left hands running)
    (keeps : Keeps rules pause extra invariant) (log : Array LogLine) :
    At packets extra invariant posted left hands { running with around.machine.log := log } :=
  { here with
    sound := { here.sound with }
    holds := keeps.notes log here.holds }

theorem counted (here : At packets extra invariant posted left hands running) {later : OutboundPump} {count : Nat}
    (same : later.counters.packets = count) :
    At count extra invariant posted left hands ⟨later, running.controller, running.around⟩ :=
  { here with packets := same }

theorem gripped (here : At packets extra invariant posted left hands running)
    (keeps : Keeps rules pause extra invariant) (held : ∀ page ∈ pages, page ∈ hands) :
    At packets extra invariant posted left (pages ++ hands)
      { running with around.machine.memory := running.around.machine.memory.retainAll pages } where
  sound := by
    rw [List.append_assoc]
    exact here.sound.grips fun page listed => List.mem_append_left _ (held page listed)
  holds := keeps.grips here.sound here.holds held
  packets := here.packets
  left := by
    intro fragment listed
    have changes := Memory.changes_retainAll (fun _ => False) fun page listed => here.knows (held page listed)
    obtain ⟨among, inside⟩ := here.left_of_changes changes fragment listed
    exact ⟨List.mem_append_right _ among, inside⟩

theorem readied {frames : List Fragment} (start : At packets extra invariant posted [] hands running)
    (keeps : Keeps rules pause extra invariant)
    (held : ∀ fragment ∈ frames, fragment.page ∈ hands ∧ fragment.Inside running.around.machine.memory) :
    At packets extra invariant posted frames (frames.map Fragment.page ++ hands)
      { running with around.machine.memory := running.around.machine.memory.retainAll (frames.map Fragment.page) } := by
  have ready : At packets extra invariant posted frames hands running := { start with left := held }
  apply ready.gripped keeps
  intro page listed
  obtain ⟨fragment, source, rfl⟩ := List.mem_map.mp listed
  exact (held fragment source).1

theorem dropped (here : At packets extra invariant posted left (pages ++ hands) running)
    (keeps : Keeps rules pause extra invariant) :
    At packets extra invariant posted [] hands (running.releaseAll pages) where
  sound := by
    have sound := here.sound
    rw [List.append_assoc] at sound
    exact sound.drops
  holds := keeps.drops here.sound here.holds
  packets := here.packets
  left := nofun

end At

theorem tryPost_ends (keeps : Keeps rules pause extra invariant)
    (here : At packets extra invariant posted (fragment :: left) hands running) :
    (tryPost fragment : Step PumpFault _ _).Ends running
      (Retry.found (At packets extra invariant posted (fragment :: left) hands) fun outcome after =>
        match outcome with
        | .ok _ => At packets extra invariant (posted ++ [fragment]) left hands after
        | .error _ => At packets extra invariant posted (fragment :: left) hands after)
      (fun _ => At packets extra invariant posted (fragment :: left) hands) := by
  obtain ⟨held, inside⟩ := here.left fragment (List.mem_cons_self ..)
  -- An attempt that fails may still have given back pages of slots that were done.
  have minded {after : Controller × Machine Emulator}
      (upkeep : Controller.TransmitUpkeep (running.controller, running.around.machine) after) :
      At packets extra invariant posted (fragment :: left) hands
        { running with controller := after.1, around.machine := after.2 } :=
    { sound := upkeep.transmitOnly.receiveRing ▸ upkeep.transmitOnly.sound here.sound
      holds := keeps.upkeep here.sound here.holds upkeep
      packets := here.packets
      left := here.left_of_changes upkeep.transmitOnly.leads.changes }
  unfold tryPost
  rw [Step.ends_bind, Step.ends_attempt, Running.ends_onController]
  refine (Controller.transmit_adds here.sound.wired.seated (here.knows held) inside.short).mono ?_ ?_
  · rintro _ after adds
    exact
      { sound := adds.transmitOnly.receiveRing ▸ adds.transmitOnly.sound here.sound
        holds := keeps.posts here.sound here.holds held inside adds
        packets := here.packets
        left := fun other listed =>
          here.left_of_changes adds.transmitOnly.leads.changes other (List.mem_cons_of_mem _ listed) }
  · rintro (error | violation | _) after upkeep
    · cases error with
      | busy => exact minded upkeep
      | invalid => exact minded upkeep
    · exact minded upkeep
    · exact minded upkeep

def Stops (packets : Nat) (extra : List PageId) (invariant : List Fragment → List PageId → Controller → Site → Prop)
    (posted left : List Fragment) (hands : List PageId) (running : Running OutboundPump Emulator Others) : Prop :=
  ∃ more rest, left = more ++ rest ∧ At (packets + more.length) extra invariant (posted ++ more) rest hands running

theorem At.stops (here : At packets extra invariant posted left hands running) :
    Stops packets extra invariant posted left hands running :=
  ⟨[], left, rfl, by rwa [List.append_nil]⟩

theorem Stops.later (stops : Stops (packets + 1) extra invariant (posted ++ [fragment]) left hands running) :
    Stops packets extra invariant posted (fragment :: left) hands running := by
  obtain ⟨more, rest, split, there⟩ := stops
  refine ⟨fragment :: more, rest, congrArg (List.cons fragment) split, ?_⟩
  rw [List.append_assoc] at there
  rw [List.length_cons, Nat.add_comm more.length, ← Nat.add_assoc]
  exact there

theorem post_ends (keeps : Keeps rules pause extra invariant) (lawful : Lawful rules pause)
    (start : At packets extra invariant posted (fragment :: left) hands running) (fuel : Nat) :
    (post pause fuel fragment).Ends running
      (fun _ => At (packets + 1) extra invariant (posted ++ [fragment]) left hands)
      (fun _ => Stops packets extra invariant posted (fragment :: left) hands) := by
  unfold post
  rw [Step.ends_bind, Step.ends_get, Step.ends_bind]
  refine Running.await_ends
    (fun _ here => (tryPost_ends keeps here).mono (fun _ _ => id) (fun _ _ stopped => stopped.stops))
    (fun _ here => here.paused keeps lawful) ?_ ?_ ?_ _ _ start
  · rintro (error | ⟨⟩) waits after here
    · rw [Step.ends_bind, Step.ends_orRefuse]
      refine ⟨nofun, ?_⟩
      rintro _ ⟨⟩
      exact At.stops { here with }
    · rw [Step.ends_bind, Step.ends_orRefuse]
      refine ⟨?_, nofun⟩
      rintro _ ⟨⟩
      have packets := congrArg (· + 1) here.packets
      simp only [count, Step.ends_bind, Running.ends_changePump, Running.ends_onMachine, Fragment.address,
        Step.ends_inspect, Machine.ends_note]
      constructor
      · intro address _
        exact At.noted (here.counted packets) keeps _
      · intro violation _
        -- The frame is posted by then; only the line about it has no address to name.
        exact ⟨[fragment], left, rfl, here.counted packets⟩
  · rintro spent waits after here
    exact At.stops { here with }
  · rintro after here
    exact here.stops

theorem posts_ends (keeps : Keeps rules pause extra invariant) (lawful : Lawful rules pause)
    (start : At packets extra invariant posted left hands running) (fuel : Nat) :
    (left.forM (post pause fuel)).Ends running
      (fun _ => At (packets + left.length) extra invariant (posted ++ left) [] hands)
      (fun _ => Stops packets extra invariant posted left hands) := by
  rw [List.forM_eq_forM]
  induction left generalizing packets posted running with
  | nil =>
    rw [List.append_nil]
    exact start
  | cons fragment rest ih =>
    rw [List.forM_cons, Step.ends_bind]
    refine (post_ends keeps lawful start fuel).mono ?_ (fun _ _ => id)
    intro _ after here
    refine (ih here).mono ?_ ?_
    · intro _ last all
      rw [List.append_assoc] at all
      rw [List.length_cons, Nat.add_comm rest.length, ← Nat.add_assoc]
      exact all
    · exact fun _ _ stops => stops.later

/-- Some of the frames that come first were posted, and the pump has gone back to the handles that it had. -/
def Breaks (packets : Nat) (extra : List PageId)
    (invariant : List Fragment → List PageId → Controller → Site → Prop) (frames : List Fragment)
    (hands : List PageId) (running : Running OutboundPump Emulator Others) : Prop :=
  ∃ more, more <+: frames ∧ At (packets + more.length) extra invariant more [] hands running

theorem At.breaks (here : At packets extra invariant [] left hands running) (frames : List Fragment) :
    Breaks packets extra invariant frames hands running :=
  ⟨[], List.nil_prefix, { here with left := nofun }⟩

theorem Stops.dropped (stops : Stops packets extra invariant [] left (pages ++ hands) running)
    (keeps : Keeps rules pause extra invariant) :
    Breaks packets extra invariant left hands (running.releaseAll pages) := by
  obtain ⟨more, rest, split, there⟩ := stops
  exact ⟨more, ⟨rest, split.symm⟩, there.dropped keeps⟩

/-- A request that is served has all of its frames posted. If serving stops, the frames before that stay posted. -/
theorem serve_ends (keeps : Keeps rules pause extra invariant) (lawful : Lawful rules pause)
    (start : At packets extra invariant [] [] hands running)
    (among : ∀ page ∈ request.attachment.pages, page ∈ hands) (fuel : Nat) :
    (serve pause fuel request).Ends running
      (fun count after => count = (request.frames running.around.machine.memory).length ∧
        At (packets + count) extra invariant (request.frames running.around.machine.memory) [] hands after)
      (fun _ => Breaks packets extra invariant (request.frames running.around.machine.memory) hands) := by
  have held (fragment : Fragment) (asked : fragment ∈ request.frames running.around.machine.memory) :
      fragment.page ∈ hands := among _ (Request.mem_pages_of_frames asked)
  cases request with
  | input packet => exact start.breaks _
  | output packet =>
    unfold serve
    rw [Step.ends_bind, Step.ends_mapRefusal, Running.ends_onMachine]
    refine (packet.fragment_ends _).mono ?_ ?_
    · rintro fragment _ ⟨rfl, inside, frames⟩
      rw [frames] at held ⊢
      have gripped : At packets extra invariant [] [fragment] ([fragment.page] ++ hands) _ :=
        start.readied keeps fun other listed => ⟨held other listed, List.mem_singleton.mp listed ▸ inside⟩
      rw [Step.ends_bind, Running.ends_holding]
      refine (post_ends keeps lawful gripped fuel).mono ?_ ?_
      · rintro _ after here
        exact ⟨rfl, here.dropped keeps⟩
      · rintro stop after stops
        exact stops.dropped keeps
    · rintro stop _ rfl
      exact start.breaks _
  | outputBatch batch =>
    unfold serve
    rw [Step.ends_bind, Step.ends_mapRefusal, Running.ends_onMachine]
    -- Every piece is looked at before the first frame is posted.
    refine (fragments_ends batch.pieces _).mono ?_ ?_
    · rintro frames _ ⟨rfl, valid, asked⟩
      have same : (Request.outputBatch batch).frames running.around.machine.memory = frames := asked.symm
      rw [same] at held ⊢
      have gripped := start.readied keeps fun fragment listed =>
        ⟨held fragment listed, (Memory.fragment_eq_ok (valid fragment listed)).2⟩
      rw [Step.ends_bind, Running.ends_holding]
      refine (posts_ends keeps lawful gripped fuel).mono ?_ ?_
      · rintro _ after here
        have dropped := here.dropped keeps
        exact ⟨rfl, dropped.counted dropped.packets⟩
      · rintro stop after stops
        exact stops.dropped keeps
    · rintro stop _ ⟨rfl, -⟩
      exact start.breaks _

/-- A step serves the oldest message and says how many frames it asked for. Either way the pump has given back
every handle in the end. -/
theorem serveOne_ends (keeps : Keeps rules pause extra invariant) (lawful : Lawful rules pause)
    (sound : Sound running.controller extra running.controller.receiveRing.recycled running.around)
    (idle : endpoint.oldest running.around.bus = none → invariant [] [] running.controller running.around)
    (fetches : ∀ reader message bus, running.around.bus.take reader = .ok (some message, bus) →
      endpoint = .process reader →
      invariant [] message.pages running.controller { running.around with bus := bus }) (fuel : Nat) :
    (serveOne endpoint pause fuel).Ends running
      (fun count after =>
        count = (endpoint.oldest running.around.bus).map (fun message =>
          (message.frames running.around.machine.memory).length) ∧
        At (running.pump.counters.packets + (endpoint.frames running.around).length) extra invariant
          (endpoint.frames running.around) [] [] after)
      (fun _ => Breaks running.pump.counters.packets extra invariant (endpoint.frames running.around) []) := by
  have start (none : endpoint.oldest running.around.bus = none) :
      At running.pump.counters.packets extra invariant [] [] [] running := ⟨sound, idle none, rfl, nofun⟩
  cases endpoint with
  | closed => exact ends_serveOne_of_closed.mpr ((start rfl).breaks _)
  | process reader =>
    cases taken : running.around.bus.take reader with
    | error error =>
      rw [ends_serveOne_of_error taken]
      exact (start (Endpoint.oldest_of_closed taken)).breaks _
    | ok found =>
      obtain ⟨found, bus⟩ := found
      have oldest := Endpoint.oldest_of_take taken
      have frames : Endpoint.frames (.process reader) running.around =
          (found.map (Message.frames running.around.machine.memory)).getD [] := by rw [Endpoint.frames, oldest]
      rw [frames, oldest]
      cases found with
      | none =>
        obtain rfl := MessageBus.take_eq_ok_none taken
        rw [ends_serveOne_of_none taken]
        exact ⟨rfl, start oldest⟩
      | some message =>
        -- The handles that came with the message are the pump's until serving ends, however it ends.
        have fetched : At running.pump.counters.packets extra invariant [] [] (message.pages ++ [])
            { running with around.bus := bus } :=
          { sound := by
              rw [List.append_nil]
              exact sound.fetches taken
            holds := by
              rw [List.append_nil]
              exact fetches reader message bus taken rfl
            packets := rfl
            left := nofun }
        simp only [Option.map_some, Option.getD_some, Message.frames]
        cases decoded : message.request with
        | error error =>
          rw [ends_serveOne_of_undecoded taken decoded]
          exact (fetched.dropped keeps).breaks _
        | ok request =>
          rw [ends_serveOne_of_request taken decoded]
          have attachment : request.attachment = message.attachment := Request.attachment_of_decode decoded
          have among : ∀ page ∈ request.attachment.pages, page ∈ message.pages ++ [] := by
            intro page listed
            rw [attachment] at listed
            exact List.mem_append_left _ listed
          refine (serve_ends keeps lawful fetched among fuel).mono ?_ ?_
          · rintro posted after ⟨rfl, here⟩
            have dropped := here.dropped keeps
            refine ⟨rfl, At.noted (At.counted dropped ?_) keeps _⟩
            exact dropped.packets
          · rintro stop after ⟨more, first, here⟩
            exact ⟨more, first, here.dropped keeps⟩

end OutboundPump

end PacketPath
