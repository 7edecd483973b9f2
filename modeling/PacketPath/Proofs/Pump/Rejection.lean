import PacketPath.Proofs.Memory.Alike
import PacketPath.Proofs.Pump.Accounting
import PacketPath.Proofs.System.Start

/-! Requests that the output pump rejects. Everything that can be wrong with a message is found before its first
frame is posted and before the first pause. After that only a ring that stays full can stop the pump. -/

set_option autoImplicit false

namespace PacketPath

variable {δ ω α β : Type}

def PumpFault.Rejects : PumpFault → Prop
  | .protocol _ | .delivery _ => True
  | .receive _ | .transmit _ | .stalled .. => False

def PumpFault.Stalls (fault : PumpFault) : Prop :=
  ∃ spent, fault = .stalled .transmitRing spent

def Piece.Unfit (memory : Memory) (piece : Piece) : Prop :=
  ∃ fault, memory.fragment piece.grant.page piece.offset piece.length = .error fault

namespace OutboundPump

variable {running : Running OutboundPump δ ω}

/-- Nothing was posted, counted, noted or stored in a register, and no byte of any page was written. Handles may
have been given back, and a message may be gone from its mailbox. -/
structure Unmoved (before after : Running OutboundPump δ ω) : Prop where
  pump : after.pump = before.pump
  controller : after.controller = before.controller
  device : after.around.machine.device = before.around.machine.device
  log : after.around.machine.log = before.around.machine.log
  memory : before.around.machine.memory.Alike after.around.machine.memory
  others : after.around.others = before.around.others

theorem Unmoved.refl (running : Running OutboundPump δ ω) : Unmoved running running :=
  ⟨rfl, rfl, rfl, rfl, .refl _, rfl⟩

/-- The step is turned away at once, and the same way however it would pause; or it passes, and from then on no
fault can stop it but a ring that stays full. -/
def Turns (passes : Prop) (turned : Stop PumpFault → Running OutboundPump δ ω → Prop)
    (step : Pause δ ω → Step PumpFault (Running OutboundPump δ ω) α) (running : Running OutboundPump δ ω) : Prop :=
  (∃ stop after, turned stop after ∧ ∀ pause, step pause running = .error stop after) ∨
    passes ∧
      ∀ pause, (step pause).Ends running (fun _ _ => True) fun stop _ => ∀ fault, stop = .refused fault → fault.Stalls

theorem turns_bind {first : Step PumpFault (Running OutboundPump δ ω) β}
    {rest : Pause δ ω → β → Step PumpFault (Running OutboundPump δ ω) α} {passes : Prop}
    {turned : Stop PumpFault → Running OutboundPump δ ω → Prop} (looks : first.Ends running (fun _ _ => passes) turned)
    (later : ∀ pause value, Step.RefusesOnly PumpFault.Stalls (rest pause value)) :
    Turns passes turned (fun pause => first >>= rest pause) running := by
  cases looked : first running with
  | error stop after =>
    rw [Step.ends_of_error looked] at looks
    exact .inl ⟨stop, after, looks, fun pause => Step.bind_of_error looked _⟩
  | ok value after =>
    rw [Step.ends_of_ok looked] at looks
    refine .inr ⟨looks, fun pause => ?_⟩
    rw [Step.ends_bind, Step.ends_of_ok looked]
    exact later pause value after

theorem holding_stalls (pages : List PageId) {step : Step PumpFault (Running OutboundPump δ ω) α}
    (stalls : Step.RefusesOnly PumpFault.Stalls step) :
    Step.RefusesOnly PumpFault.Stalls (Running.holding pages step) := by
  intro running
  rw [Running.ends_holding]
  exact stalls _

variable [RegisterBus δ]

/-! ### Posting -/

theorem post_stalls (pause : Pause δ ω) (fuel : Nat) (fragment : Fragment) :
    Step.RefusesOnly PumpFault.Stalls (post pause fuel fragment) := by
  intro running
  refine (post_accounts pause fuel fragment running).mono (fun _ _ _ => trivial) ?_
  intro stop after stalls fault refused
  obtain ⟨waits, stalled, -, -⟩ := stalls fault refused
  exact ⟨_, stalled⟩

/-! ### Serving -/

theorem serve_batch_turns (batch : Batch) (fuel : Nat) (running : Running OutboundPump δ ω) :
    Turns (∀ piece ∈ batch.pieces, ¬ piece.Unfit running.around.machine.memory)
      (fun stop after => after = running ∧ (∃ error, stop = .refused (.protocol error)) ∧
        ∃ piece ∈ batch.pieces, piece.Unfit running.around.machine.memory)
      (fun pause => serve pause fuel (.outputBatch batch)) running := by
  refine turns_bind ?_ fun pause frames =>
    .bind (holding_stalls _ (.forM (post_stalls pause fuel))) fun _ => .bind (.modify _) fun _ => .pure _
  rw [Step.ends_mapRefusal, Running.ends_onMachine]
  refine (fragments_ends batch.pieces _).mono ?_ ?_
  · rintro frames _ ⟨-, valid, rfl⟩ piece listed ⟨fault, unfit⟩
    have fits := valid _ (List.mem_map_of_mem listed)
    rw [unfit] at fits
    cases fits
  · rintro _ _ ⟨rfl, ⟨error, rfl⟩, unfit⟩
    exact ⟨rfl, ⟨error, rfl⟩, unfit⟩

/-- Whatever the request is, it is turned away for its own fault and nothing has happened then, or it passes. -/
theorem serve_turns (request : Request) (fuel : Nat) (running : Running OutboundPump δ ω) :
    Turns True (fun stop after => after = running ∧ ∀ fault, stop = .refused fault → fault.Rejects)
      (fun pause => serve pause fuel request) running := by
  cases request with
  | input packet =>
    refine .inl ⟨_, running, ⟨rfl, ?_⟩, fun _ => rfl⟩
    rintro _ ⟨⟩
    trivial
  | output packet =>
    refine turns_bind ?_ fun pause fragment =>
      .bind (holding_stalls _ (post_stalls pause fuel fragment)) fun _ => .pure _
    rw [Step.ends_mapRefusal, Running.ends_onMachine]
    refine (packet.fragment_ends _).mono (fun _ _ _ => trivial) ?_
    rintro stop _ rfl
    refine ⟨rfl, ?_⟩
    intro fault refused
    cases stop with
    | refused error =>
      cases refused
      trivial
    | violated | unfinished => cases refused
  | outputBatch batch =>
    -- A batch is checked piece by piece before the first of them is posted.
    rcases serve_batch_turns batch fuel running with ⟨_, _, ⟨rfl, ⟨error, rfl⟩, -⟩, ended⟩ | ⟨-, stalls⟩
    · refine .inl ⟨_, _, ⟨rfl, ?_⟩, ended⟩
      rintro _ ⟨⟩
      trivial
    · exact .inr ⟨trivial, stalls⟩

/-- A message is served as its request is, and its handles are given back in the end. -/
theorem serveOne_turns_of_take {reader : ProcessId} {message : Message} {bus : MessageBus} {request : Request}
    {passes : Prop} {turned : Stop PumpFault → Running OutboundPump δ ω → Prop} {fuel : Nat}
    (taken : running.around.bus.take reader = .ok (some message, bus)) (decoded : message.request = .ok request)
    (turns : Turns passes turned (fun pause => serve pause fuel request) { running with around.bus := bus }) :
    Turns passes (fun stop after => ∃ last, turned stop last ∧ after = last.releaseAll message.pages)
      (fun pause => serveOne (.process reader) pause fuel) running := by
  rcases turns with ⟨stop, last, away, ended⟩ | ⟨passed, stalls⟩
  · refine .inl ⟨stop, _, ⟨last, away, rfl⟩, fun pause => Step.Ends.eq_error ?_⟩
    rw [ends_serveOne_of_request taken decoded, Step.ends_of_error (ended pause)]
    exact ⟨rfl, rfl⟩
  · refine .inr ⟨passed, fun pause => ?_⟩
    rw [ends_serveOne_of_request taken decoded]
    exact stalls pause

theorem serveOne_of_not_request {reader : ProcessId} {message : Message} {bus : MessageBus} {error : ProtocolError}
    (taken : running.around.bus.take reader = .ok (some message, bus)) (undecoded : message.request = .error error)
    (pause : Pause δ ω) (fuel : Nat) :
    serveOne (.process reader) pause fuel running =
      .error (.refused (.protocol error))
        (Running.releaseAll message.pages { running with around.bus := bus }) := by
  refine Step.Ends.eq_error ?_
  rw [ends_serveOne_of_undecoded taken undecoded]
  exact ⟨rfl, rfl⟩

theorem serveOne_turns (endpoint : Endpoint) (fuel : Nat) (running : Running OutboundPump δ ω) :
    Turns True (fun stop after => Unmoved running after ∧ ∀ fault, stop = .refused fault → fault.Rejects)
      (fun pause => serveOne endpoint pause fuel) running := by
  cases endpoint with
  | closed =>
    refine .inl ⟨_, running, ⟨.refl running, ?_⟩, fun _ => rfl⟩
    rintro _ ⟨⟩
    trivial
  | process reader =>
    rcases taken : running.around.bus.take reader with error | ⟨_ | message, bus⟩
    · refine .inl ⟨.refused (.delivery error), running, ⟨.refl running, ?_⟩, fun pause => Step.Ends.eq_error ?_⟩
      · rintro _ ⟨⟩
        trivial
      · rw [ends_serveOne_of_error taken]
        exact ⟨rfl, rfl⟩
    · refine .inr ⟨trivial, fun pause => ?_⟩
      rw [ends_serveOne_of_none taken]
      trivial
    · -- Whatever is turned away, the message is gone from the mailbox and its handles are given back.
      have unmoved : Unmoved running (Running.releaseAll message.pages { running with around.bus := bus }) :=
        ⟨rfl, rfl, rfl, rfl, .releaseAll _ _, rfl⟩
      cases decoded : message.request with
      | error error =>
        refine .inl ⟨_, _, ⟨unmoved, ?_⟩, fun pause => serveOne_of_not_request taken decoded pause fuel⟩
        rintro _ ⟨⟩
        trivial
      | ok request =>
        rcases serveOne_turns_of_take taken decoded (serve_turns request fuel _) with
          ⟨stop, _, ⟨_, ⟨rfl, rejects⟩, rfl⟩, ended⟩ | passed
        · exact .inl ⟨stop, _, ⟨unmoved, rejects⟩, ended⟩
        · exact .inr passed

theorem request_of_batch {message : Message} {batch : Batch} (coded : message.code = Request.outputBatchCode)
    (carried : message.attachment = .pieces batch) :
    message.request = if batch.pieces = [] ∨ ∃ piece ∈ batch.pieces, piece.grant.isPresent = false then
      .error .missingBuffer else .ok (.outputBatch batch) := by
  have other : ¬ (Request.outputBatchCode = Request.inputCode ∨ Request.outputBatchCode = Request.outputCode) := by
    decide
  rw [Message.request, coded, carried, Request.decode, if_neg other, if_pos rfl]
  simp

/-- A batch is turned away exactly if there is nothing in it, if a page is not present, or if some bytes are no
fragment of their page. -/
theorem serveOne_batch_iff {reader : ProcessId} {message : Message} {bus : MessageBus} {batch : Batch}
    (taken : running.around.bus.take reader = .ok (some message, bus)) (coded : message.code = Request.outputBatchCode)
    (carried : message.attachment = .pieces batch) (pause : Pause δ ω) (fuel : Nat) :
    (∃ error after, serveOne (.process reader) pause fuel running = .error (.refused (.protocol error)) after) ↔
      batch.pieces = [] ∨ ∃ piece ∈ batch.pieces,
        piece.grant.isPresent = false ∨ piece.Unfit running.around.machine.memory := by
  have decoded := request_of_batch coded carried
  by_cases missing : batch.pieces = [] ∨ ∃ piece ∈ batch.pieces, piece.grant.isPresent = false
  · rw [if_pos missing] at decoded
    refine iff_of_true ⟨_, _, serveOne_of_not_request taken decoded pause fuel⟩ ?_
    rcases missing with empty | ⟨piece, listed, absent⟩
    · exact .inl empty
    · exact .inr ⟨piece, listed, .inl absent⟩
  · rw [if_neg missing] at decoded
    rcases serveOne_turns_of_take taken decoded (serve_batch_turns batch fuel { running with around.bus := bus }) with
      ⟨_, _, ⟨_, ⟨rfl, ⟨error, rfl⟩, piece, listed, unfit⟩, rfl⟩, ended⟩ | ⟨fit, stalls⟩
    · exact iff_of_true ⟨error, _, ended pause⟩ (.inr ⟨piece, listed, .inr unfit⟩)
    · refine iff_of_false ?_ ?_
      · rintro ⟨error, after, ended⟩
        obtain ⟨spent, same⟩ := (Step.ends_of_error ended).mp (stalls pause) _ rfl
        cases same
      · rintro (empty | ⟨piece, listed, absent | unfit⟩)
        · exact missing (.inl empty)
        · exact missing (.inr ⟨piece, listed, absent⟩)
        · exact fit piece listed unfit

end OutboundPump

open OutboundPump

/-- If the pump rejects a message, or finds that it cannot fetch one, then nothing was posted, stored or counted,
and it never paused: any other pause would have left the same state. A batch is rejected exactly if it is empty or a
piece of it, wherever it stands, is on a page that is not present or is no fragment of it. And the transmit ring
itself never stops the pump. -/
theorem rejection_posts_nothing [RegisterBus δ] (endpoint : Endpoint) (pause : Pause δ ω) (fuel : Nat)
    (running : Running OutboundPump δ ω) :
    (∀ fault after, serveOne endpoint pause fuel running = .error (.refused fault) after → fault.Rejects →
      Unmoved running after ∧ ∀ other, serveOne endpoint other fuel running = .error (.refused fault) after) ∧
    (∀ reader message bus batch, endpoint = .process reader →
      running.around.bus.take reader = .ok (some message, bus) → message.code = Request.outputBatchCode →
      message.attachment = .pieces batch →
      ((∃ error after, serveOne endpoint pause fuel running = .error (.refused (.protocol error)) after) ↔
        batch.pieces = [] ∨ ∃ piece ∈ batch.pieces,
          piece.grant.isPresent = false ∨ piece.Unfit running.around.machine.memory)) ∧
    ∀ error after, serveOne endpoint pause fuel running ≠ .error (.refused (.transmit error)) after := by
  have turns := serveOne_turns endpoint fuel running
  refine ⟨?_, ?_, ?_⟩
  · intro fault after ended rejects
    rcases turns with ⟨stop, last, ⟨unmoved, -⟩, same⟩ | ⟨-, stalls⟩
    · cases (same pause).symm.trans ended
      exact ⟨unmoved, same⟩
    · obtain ⟨spent, rfl⟩ := (Step.ends_of_error ended).mp (stalls pause) fault rfl
      exact rejects.elim
  · rintro reader message bus batch rfl taken coded carried
    exact serveOne_batch_iff taken coded carried pause fuel
  · intro error after ended
    rcases turns with ⟨stop, last, ⟨-, rejects⟩, same⟩ | ⟨-, stalls⟩
    · cases (same pause).symm.trans ended
      exact rejects _ rfl
    · obtain ⟨spent, same⟩ := (Step.ends_of_error ended).mp (stalls pause) _ rfl
      cases same

/-- The first piece of a batch could be sent, the second has no bytes, and neither is. -/
theorem rejection_posts_nothing_once : ∃ controller site page, ∃ batch : Batch, ∃ message bus,
    Attached {} controller site ∧ site.machine.memory.Reaches page ∧
    batch.pieces = [⟨⟨page, .readable⟩, 0, 60⟩, ⟨⟨page, .readable⟩, 60, 0⟩] ∧
    message.attachment = .pieces batch ∧ bus.take ⟨0x2000⟩ = .ok (some message, ⟨[(⟨0x2000⟩, {})]⟩) ∧
    ∃ error after, serveOne (.process ⟨0x2000⟩) Site.seen 0 ⟨⟨{}, {}⟩, controller, { site with bus := bus }⟩ =
        .error (.refused (.protocol error)) after ∧
      Unmoved ⟨⟨{}, {}⟩, controller, { site with bus := bus }⟩ after := by
  obtain ⟨controller, site, page, attached, -, -, -, reached⟩ := exists_attached_beside
  let batch : Batch := ⟨[⟨⟨page, .readable⟩, 0, 60⟩, ⟨⟨page, .readable⟩, 60, 0⟩], Nat.le_of_ble_eq_true rfl⟩
  let message : Message := ⟨⟨0x1000⟩, Request.outputBatchCode, .pieces batch⟩
  let bus : MessageBus := ⟨[(⟨0x2000⟩, { waiting := [message] })]⟩
  have unfit : Piece.Unfit site.machine.memory ⟨⟨page, .readable⟩, 60, 0⟩ := ⟨.empty, rfl⟩
  obtain ⟨nothing, rejected, -⟩ := rejection_posts_nothing (.process ⟨0x2000⟩) Site.seen 0
    ⟨⟨{}, {}⟩, controller, { site with bus := bus }⟩
  obtain ⟨error, after, ended⟩ := (rejected ⟨0x2000⟩ message ⟨[(⟨0x2000⟩, {})]⟩ batch rfl rfl rfl rfl).mpr
    (.inr ⟨_, List.mem_cons_of_mem _ (List.mem_singleton_self _), .inr unfit⟩)
  exact ⟨controller, site, page, batch, message, bus, attached, reached, rfl, rfl, rfl, error, after, ended,
    (nothing _ _ ended trivial).1⟩

end PacketPath
