import PacketPath.Proofs.Message.Packets
import PacketPath.Proofs.System.Delivery

/-! Reading: what the stack finds in the letters of the input pump. The receiver of a packet takes only
lengths that may also be sent, while the receive ring takes in every frame that its buffers hold; so some
frames arrive that their receiver cannot read. -/

set_option autoImplicit false

namespace PacketPath

variable {rules : Rules} {sender receiver : ProcessId} {rotation : List PageId} {page : PageId} {frame : List UInt8}
  {endpoint : Endpoint} {settings : Settings} {pumpSettings : PumpSettings} {controller : Controller}
  {pump : InboundPump} {site next : Site} {state later : InboundState} {earlier : List Arrival} {recycled : Nat}

/-! ### Packets -/

def Packet.Admits (length : Nat) : Prop :=
  0 < length ∧ length ≤ Limits.maxFrame

/-- Reading a packet yields its frame if the length is admitted. Otherwise the length is refused. -/
structure Packet.Yields (packet : Packet) (frame : List UInt8) (machine : Machine Emulator) : Prop where
  length : packet.frameLength.Ends machine
    (fun length after => Admits frame.length ∧ length = frame.length ∧ after = machine)
    (fun stop after => ¬ Admits frame.length ∧ stop = .refused (.badLength frame.length) ∧ after = machine)
  bytes : ∀ destination, frame.length ≤ destination.length → (packet.readInto destination).Ends machine
    (fun found after => Admits frame.length ∧
      found = (frame.length, frame ++ destination.drop frame.length) ∧ after = machine)
    (fun stop after => ¬ Admits frame.length ∧ stop = .refused (.badLength frame.length) ∧ after = machine)

theorem Memory.Packs.fits {memory : Memory} (packs : memory.Packs page frame)
    (size : (memory.page page).size = Limits.pageSize) : Limits.headerSize + frame.length ≤ Limits.pageSize := by
  have count := congrArg List.length packs.bytes
  have bytes : (memory.page page).bytes.size = Limits.pageSize := size
  simp only [Memory.slice, Page.slice, Array.length_toList, Array.size_extract, bytes] at count
  have header : Limits.headerSize ≤ Limits.pageSize := by decide
  omega

theorem Memory.Packs.yields {packet : Packet} {machine : Machine Emulator}
    (packs : machine.memory.Packs packet.grant.page frame)
    (size : (machine.memory.page packet.grant.page).size = Limits.pageSize) : packet.Yields frame machine := by
  have fits := packs.fits size
  have short : frame.length < 2 ^ 31 := by
    have bound : Limits.pageSize < 2 ^ 31 := by decide
    omega
  have header : packet.header machine.memory = frame.length :=
    (congrArg (Word.signed 4) packs.length).trans (Word.signed_of_small short)
  -- That the frame fits the page holds already, so what is possible comes down to what is admitted.
  have admitted : Packet.Possible (machine.memory.page packet.grant.page).size frame.length ↔
      Packet.Admits frame.length := by
    unfold Packet.Possible Packet.Admits
    omega
  have found : packet.frameLength.Ends machine
      (fun length after => Packet.Admits frame.length ∧ length = frame.length ∧ after = machine)
      (fun stop after => ¬ Packet.Admits frame.length ∧ stop = .refused (.badLength frame.length) ∧
        after = machine) := by
    rw [Packet.ends_frameLength (by rw [size]; decide), header, admitted, Int.toNat_natCast]
    exact ⟨fun admits => ⟨admits, rfl, rfl⟩, fun other => ⟨other, rfl, rfl⟩⟩
  refine ⟨found, fun destination room => ?_⟩
  unfold Packet.readInto
  rw [Step.ends_bind]
  refine found.mono ?_ (fun _ _ refused => refused)
  rintro _ after ⟨admits, rfl, same⟩
  subst same
  -- There is room in the destination and in the page, so nothing else can go wrong.
  have covered : Limits.headerSize + frame.length ≤ (after.memory.page packet.grant.page).size := by rwa [size]
  simp only [Step.ends_bind, Step.ends_ite, Step.ends_pure, Machine.ends_readBytes covered, packs.bytes]
  exact ⟨fun less => absurd room (Nat.not_le_of_lt less), fun _ => ⟨admits, trivial, trivial⟩⟩

/-! ### Letters -/

def Reads (frame : List UInt8) (letter : Message × Memory) : Prop :=
  ∃ packet, letter.1.request = .ok (.input packet) ∧
    ∀ machine : Machine Emulator, machine.memory = letter.2 → packet.Yields frame machine

theorem HoldsFrame.reads {letter : Message × Memory} (holdsFrame : HoldsFrame rotation frame letter)
    (sized : ∀ page ∈ rotation, (letter.2.page page).size = Limits.pageSize) : Reads frame letter := by
  obtain ⟨page, turns, attached, packs⟩ := holdsFrame.page
  have present : (Grant.mk page .readable).isPresent = true := (by decide : Permission.readable.isPresent = true)
  refine ⟨⟨⟨page, .readable⟩, present⟩, ?_, ?_⟩
  · rw [Message.request, holdsFrame.code, attached, Request.decode, if_pos (.inl rfl),
      Packet.ofGrant, dif_pos present, Except.map, if_pos rfl]
  · intro machine same
    rw [← same] at packs
    apply packs.yields
    rw [same]
    exact sized page turns

def Site.Fetches (site next : Site) : Prop :=
  next.others.receipts = site.others.receipts ∨ ∃ process message,
    next.others.receipts = site.others.receipts ++ [⟨process, message, site.machine.memory⟩]

theorem Move.fetches (move : Move rules site next) : site.Fetches next := by
  cases move with
  | transmit | inject | lose | raise => exact .inl rfl
  | action action =>
    cases action with
    | allocate | make | retain | release | write | register | setReceiving | wait => exact .inl rfl
    | fetch process taken => exact .inr ⟨_, _, rfl⟩
    | send process reader code attachment holds allowed =>
      apply Step.Ends.after
      apply Surroundings.send_ends
      · intro error _
        exact .inl rfl
      · intro writer bus log _ _
        exact .inl rfl

/-- What goes on beside the frames themselves: the pages stay pages of the board, every letter that was
fetched was fetched while they were, and no frame that came in is forgotten. -/
structure Watched (rotation : List PageId) (sender receiver : ProcessId) (earlier : List Arrival) (site : Site) :
    Prop where
  reached : ∀ page ∈ rotation, site.machine.memory.Reaches page
  fetched : ∀ receipt ∈ site.others.receipts, receipt.receiver = receiver → receipt.message.sender = sender →
    ∀ page ∈ rotation, (receipt.memory.page page).size = Limits.pageSize
  arrivals : earlier <+: site.others.arrivals

namespace Watched

theorem of_changes (watched : Watched rotation sender receiver earlier site)
    (sound : Sound controller rotation recycled site) {scope : PageId → Prop}
    (changes : site.machine.memory.ChangesWithin scope next.machine.memory)
    (receipts : next.others.receipts = site.others.receipts) (arrivals : next.others.arrivals = site.others.arrivals) :
    Watched rotation sender receiver earlier next where
  reached id turns := changes.reaches (sound.knows_extra turns) (watched.reached id turns)
  fetched := receipts ▸ watched.fetched
  arrivals := arrivals ▸ watched.arrivals

theorem move (watched : Watched rotation sender receiver earlier site)
    (sound : Sound controller rotation recycled site) (move : Move rules site next) :
    Watched rotation sender receiver earlier next := by
  have keepsReserved := (move.keepsReserved sound).2
  obtain ⟨more, arrivals⟩ := keepsReserved.arrivals
  have reached (id : PageId) (turns : id ∈ rotation) : next.machine.memory.Reaches id :=
    keepsReserved.changes.reaches (sound.knows_extra turns) (watched.reached id turns)
  have kept : earlier <+: next.others.arrivals := arrivals ▸ watched.arrivals.trans (List.prefix_append ..)
  refine ⟨reached, ?_, kept⟩
  rcases move.fetches with same | ⟨process, message, more⟩
  · rw [same]
    exact watched.fetched
  · rw [more]
    intro receipt listed toReceiver own id turns
    rcases List.mem_append.mp listed with before | new
    · exact watched.fetched receipt before toReceiver own id turns
    · rw [List.mem_singleton.mp new]
      exact sound.housed.charted.size_of_reaches (watched.reached id turns)

theorem moves (watched : Watched rotation sender receiver earlier site)
    (sound : Sound controller rotation recycled site) (moves : Moves rules site next) :
    Watched rotation sender receiver earlier next := by
  induction moves with
  | none => exact watched
  | more before move ih =>
    have moved := ih.move (before.keepsReserved sound).1 move
    exact { moved with }

theorem keeps (rules : Rules) (rotation : List PageId) (turns : page ∈ rotation) (sender receiver : ProcessId)
    (earlier : List Arrival) (endpoint : Endpoint) (stack : ProcessId) :
    InboundPump.Keeps rules rotation page endpoint stack fun _ _ => Watched rotation sender receiver earlier where
  moves := by
    intro phase controller site next sound watched moves
    have start : Watched rotation sender receiver earlier site.seen := { watched with }
    exact start.moves sound.seen moves
  notes log watched := { watched with }
  misses sound watched _ draws := watched.of_changes sound draws.receiveOnly.leads.changes rfl rfl
  draws sound watched _ draws _ := watched.of_changes sound draws.receiveOnly.leads.changes rfl rfl
  lends sound watched _ sent :=
    watched.of_changes sound (Memory.changes_retain (fun _ => False) (sound.knows_extra turns)) rfl rfl
  takesBack sound watched := by
    have retained := Memory.changes_retain (fun _ => False) (sound.knows_extra turns)
    exact watched.of_changes sound (retained.trans (Memory.changes_release _ _ page)) rfl rfl

theorem sized (watched : Watched rotation sender receiver earlier site)
    (sound : Sound controller rotation recycled site) {letter : Message × Memory}
    (listed : letter ∈ site.letters sender receiver) {id : PageId} (turns : id ∈ rotation) :
    (letter.2.page id).size = Limits.pageSize := by
  unfold Site.letters at listed
  -- A letter was fetched, with the memory as it was then, or it waits and reads the memory of now.
  rcases List.mem_append.mp listed with fetched | waits
  · obtain ⟨receipt, among, rfl⟩ := List.mem_map.mp fetched
    obtain ⟨taken, own⟩ := List.mem_filter.mp among
    simp only [Bool.decide_and, Bool.and_eq_true, decide_eq_true_eq] at own
    exact watched.fetched receipt taken own.1 own.2 id turns
  · obtain ⟨message, -, rfl⟩ := List.mem_map.mp waits
    exact sound.housed.charted.size_of_reaches (watched.reached id turns)

end Watched

/-! ### Across steps -/

theorem Round.watched {first : InboundPump} (inv : InboundInvariant first sender state)
    (watched : Watched state.pump.pages.toList sender receiver earlier state.site)
    (round : Round rules sender state later) :
    Watched later.pump.pages.toList sender receiver earlier later.site := by
  have start : InboundPump.At state.pump state.pump.pages.toList
      (fun _ _ => Watched state.pump.pages.toList sender receiver earlier) .idle state.running :=
    ⟨inv.sound, inv.reached, watched, rfl, rfl, rfl, rfl⟩
  have ends (endpoint : Endpoint) {pause : Pause Emulator Others} (lawful : Lawful rules pause) (fuel : Nat) :=
    InboundPump.step_ends (Watched.keeps rules _ inv.turns sender receiver earlier endpoint _) lawful rfl
      inv.turns rfl start rfl fuel
  cases round with
  | move move => exact watched.move inv.sound move
  | @yielded delivered after endpoint pause fuel serves lawful ended =>
    obtain ⟨phase, -, reached⟩ := (Step.ends_of_ok ended).mp (ends endpoint lawful fuel)
    have pages : after.pump.pages = state.pump.pages := by
      rw [reached.pages]
      cases delivered with
      | true | false => rfl
    rw [InboundState.advanced, pages]
    exact reached.holds
  | @failed fault after endpoint pause fuel serves lawful ended =>
    obtain ⟨phase, -, reached⟩ := (Step.ends_of_error ended).mp (ends endpoint lawful fuel)
    rw [InboundState.advanced, reached.pages]
    exact reached.holds

/-- What is on record of an input pump, and what goes on beside it, make every letter one that holds its frame. -/
theorem InboundInvariant.reads {first : InboundPump} (inv : InboundInvariant first sender state)
    (watched : Watched state.pump.pages.toList sender state.pump.settings.stack earlier state.site) :
    List.Forall₂ Reads (chosen (clean state.taken) state.outcomes) (state.letters sender) := by
  -- Each letter is paired with the fact that it is one of the pump's letters.
  have brought := (List.forall₂_and_left _ _).mpr ⟨fun _ => id, inv.letters.flip⟩
  refine (brought.imp ?_).flip
  rintro letter frame ⟨listed, holdsFrame⟩
  apply holdsFrame.reads
  intro page turns
  exact watched.sized inv.sound listed turns

theorem PumpCreated.watched (pumpCreated : PumpCreated settings pumpSettings controller pump site)
    (silent : site.letters sender pump.settings.stack = []) :
    Watched pump.pages.toList sender pump.settings.stack [] site where
  reached := pumpCreated.ready.reached
  fetched := by
    intro receipt listed toStack own
    have none := (List.append_eq_nil_iff.mp silent).1
    have kept := List.filter_eq_nil_iff.mp (List.map_eq_nil_iff.mp none) receipt listed
    simp [toStack, own] at kept
  arrivals := List.nil_prefix

/-- Every letter that reaches the stack decodes to an input request. Its packet yields the frame that came in if
the frame is neither empty nor longer than one that may be sent; otherwise its length is refused. -/
theorem letters_read (pumpCreated : PumpCreated settings pumpSettings controller pump site)
    (silent : site.letters sender pump.settings.stack = []) (reserved : ∀ page ∈ pump.pages.toList, rules.reserved page)
    (barred : rules.barred sender pump.settings.stack)
    (run : Relation.ReflTransGen (Round rules sender) ⟨pump, controller, site, []⟩ state) :
    List.Forall₂ Reads (chosen (clean state.taken) state.outcomes) (state.letters sender) := by
  suffices kept : InboundInvariant pump sender state ∧
      Watched state.pump.pages.toList sender pump.settings.stack [] state.site by
    obtain ⟨inv, watched⟩ := kept
    exact inv.reads (inv.settings ▸ watched)
  induction run with
  | refl => exact ⟨pumpCreated.invariant silent, pumpCreated.watched silent⟩
  | tail _ round ih => exact ⟨round.invariant ih.1 reserved barred, round.watched ih.1 ih.2⟩

/-- The frame that comes in is delivered, and the letter is read. -/
theorem letters_read_once : ∃ controller pump site state rules,
    PumpCreated {} { inputPages := 1 } controller pump site ∧ site.letters ⟨0x1000⟩ pump.settings.stack = [] ∧
    (∀ page ∈ pump.pages.toList, rules.reserved page) ∧ rules.barred ⟨0x1000⟩ pump.settings.stack ∧
    Relation.ReflTransGen (Round rules ⟨0x1000⟩) ⟨pump, controller, site, []⟩ state ∧ state.outcomes = [true] ∧
    List.Forall₂ Reads (chosen (clean state.taken) state.outcomes) (state.letters ⟨0x1000⟩) := by
  obtain ⟨controller, pump, site, middle, state, rules, pumpCreated, silent, reserved, barred, injected, -, stepped,
    outcomes⟩ := exists_delivery (show [1, 2, 3].length ≤ Limits.receiveBuffer by decide)
  have run : Relation.ReflTransGen (Round rules ⟨0x1000⟩) ⟨pump, controller, site, []⟩ state :=
    .tail (.single injected) stepped
  exact ⟨controller, pump, site, state, rules, pumpCreated, silent, reserved, barred, run, outcomes,
    letters_read pumpCreated silent reserved barred run⟩

/-- An empty frame is delivered like any other. Its letter decodes to an input request, but the length of the
packet is refused. -/
theorem empty_frame_not_read : ∃ controller pump site state rules letter packet,
    PumpCreated {} { inputPages := 1 } controller pump site ∧ site.letters ⟨0x1000⟩ pump.settings.stack = [] ∧
    (∀ page ∈ pump.pages.toList, rules.reserved page) ∧ rules.barred ⟨0x1000⟩ pump.settings.stack ∧
    Relation.ReflTransGen (Round rules ⟨0x1000⟩) ⟨pump, controller, site, []⟩ state ∧
    state.outcomes = [true] ∧ clean state.taken = [[]] ∧ state.letters ⟨0x1000⟩ = [letter] ∧
    letter.1.request = .ok (.input packet) ∧
    ∀ machine : Machine Emulator, machine.memory = letter.2 →
      packet.frameLength machine = .error (.refused (.badLength 0)) machine := by
  obtain ⟨controller, pump, site, middle, state, rules, pumpCreated, silent, reserved, barred, injected, arrivals,
    stepped, outcomes⟩ := exists_delivery (show ([] : List UInt8).length ≤ Limits.receiveBuffer by decide)
  have run : Relation.ReflTransGen (Round rules ⟨0x1000⟩) ⟨pump, controller, site, []⟩ state :=
    .tail (.single injected) stepped
  have before := injected.invariant (pumpCreated.invariant silent) reserved barred
  have inv := stepped.invariant before reserved barred
  have watched : Watched middle.pump.pages.toList ⟨0x1000⟩ state.pump.settings.stack [⟨[], .none⟩] middle.site := by
    have first := injected.watched (pumpCreated.invariant silent) (pumpCreated.watched silent)
    rw [inv.settings]
    exact { first with arrivals := arrivals ▸ List.prefix_rfl }
  have later := stepped.watched before watched
  have reads := inv.reads later
  -- The one frame that was drawn is the first that came in.
  have drawn : clean state.taken = [[]] := by
    have useful : Arrival.spoiled ⟨[], .none⟩ = false := (by decide : ReceiveErrors.spoilFrame .none = false)
    have one := inv.decided
    obtain ⟨more, whole⟩ := later.arrivals
    rw [outcomes, InboundState.taken, ← whole] at one
    rw [InboundState.taken, ← whole]
    exact clean_take_of_length_one useful one
  rw [drawn, outcomes] at reads
  cases letters : state.letters ⟨0x1000⟩ with
  | nil =>
    rw [letters] at reads
    cases reads
  | cons letter rest =>
    rw [letters] at reads
    cases reads with
    | cons first others =>
      cases others
      obtain ⟨packet, decoded, yields⟩ := first
      refine ⟨controller, pump, site, state, rules, letter, packet, pumpCreated, silent, reserved, barred,
        run, outcomes,
        drawn, letters, decoded, fun machine same => ?_⟩
      apply Step.Ends.eq_error
      refine (yields machine same).length.mono ?_ (fun _ _ refused => refused.2)
      rintro _ _ ⟨admits, -⟩
      exact Nat.lt_irrefl 0 admits.1

end PacketPath
