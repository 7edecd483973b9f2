import PacketPath.Proofs.Pump.Outbound
import PacketPath.Proofs.Ring.Accounting

/-! What the output pump counts, beside what the transmit ring counts. The ring counts each post and each refusal as
it happens; the pump counts them later, and a fault may come in between. Yet the two agree whenever a call returns. -/

set_option autoImplicit false

namespace PacketPath

variable {δ ω : Type}

def Request.isBatch : Request → Bool
  | .outputBatch _ => true
  | .input _ | .output _ => false

def Endpoint.asksBatch (endpoint : Endpoint) (bus : MessageBus) : Bool :=
  (endpoint.oldest bus).any fun message =>
    match message.request with
    | .ok request => request.isBatch
    | .error _ => false

theorem Endpoint.asksBatch_of_take {reader : ProcessId} {message : Message} {bus after : MessageBus}
    {request : Request} (taken : bus.take reader = .ok (some message, after)) (decoded : message.request = .ok request) :
    Endpoint.asksBatch (.process reader) bus = request.isBatch := by
  rw [asksBatch, Endpoint.oldest_of_take taken, Option.any_some, decoded]

attribute [ext] OutboundCounters

namespace OutboundCounters

instance : Add OutboundCounters :=
  ⟨fun one other => ⟨one.requests + other.requests, one.packets + other.packets, one.batches + other.batches,
    one.busy + other.busy⟩⟩

theorem add_assoc (one other third : OutboundCounters) : one + other + third = one + (other + third) := by
  ext <;> exact Nat.add_assoc ..

end OutboundCounters

namespace OutboundPump

variable {before middle after running ready : Running OutboundPump δ ω} {one other more : OutboundCounters}
  {fragment : Fragment} {pause : Pause δ ω} {waits : Nat}

structure Counts (more : OutboundCounters) (before after : Running OutboundPump δ ω) : Prop where
  pump : after.pump.counters = before.pump.counters + more
  ring : after.controller.transmitRing.account =
    before.controller.transmitRing.account + ⟨more.packets, more.packets, more.busy⟩

namespace Counts

theorem refl (running : Running OutboundPump δ ω) : Counts {} running running :=
  ⟨rfl, rfl⟩

theorem trans (first : Counts one before middle) (second : Counts other middle after) :
    Counts (one + other) before after where
  pump := by rw [second.pump, first.pump, OutboundCounters.add_assoc]
  ring := by
    rw [second.ring, first.ring, TransmitRing.Account.add_assoc]
    rfl

theorem posted (counts : Counts more before after) :
    after.controller.transmitRing.counters.posted - before.controller.transmitRing.counters.posted = more.packets := by
  have posted := congrArg TransmitRing.Account.posted counts.ring
  exact Nat.sub_eq_of_eq_add' posted

end Counts

variable [RegisterBus δ]

/-! ### One frame -/

theorem tryPost_accounts (fragment : Fragment) (running : Running OutboundPump δ ω) :
    (tryPost fragment : Step PumpFault _ _).Ends running
      (fun found after => after.pump = running.pump ∧
        match found with
        | none => after.controller.transmitRing.account = running.controller.transmitRing.account + .refused
        | some outcome => outcome = .ok () ∧
          after.controller.transmitRing.account = running.controller.transmitRing.account + .done true)
      (fun stop _ => ∀ fault, stop ≠ .refused fault) := by
  unfold tryPost Controller.transmit Controller.onTransmit
  rw [Step.ends_bind, Step.ends_attempt, Running.ends_onController, Step.ends_within]
  refine (TransmitRing.post_accounts fragment true _ _).mono (fun _ _ counted => ⟨rfl, rfl, counted⟩) ?_
  rintro (error | violation | _) last refused
  · obtain ⟨rfl, counted⟩ := refused error rfl
    exact ⟨rfl, counted⟩
  · rintro _ ⟨⟩
  · rintro _ ⟨⟩

theorem waits_account (waited : Retry.Waits (tryPost fragment : Step PumpFault _ _) (Running.yield pause) waits
    running ready) : ready.pump = running.pump ∧
      ready.controller.transmitRing.account = running.controller.transmitRing.account + ⟨0, 0, waits⟩ := by
  induction waited with
  | none => exact ⟨rfl, rfl⟩
  | @more waits state middle next last missed paused later ih =>
    have refused := (Step.ends_of_ok missed).mp (tryPost_accounts fragment state)
    cases paused
    refine ⟨ih.1.trans refused.1, ?_⟩
    rw [ih.2, refused.2, TransmitRing.Account.add_assoc, Nat.add_comm waits]
    rfl

/-- The attempt that ends the wait is counted on top of those refusals. -/
theorem attempts_account {last : Running OutboundPump δ ω} {found : Option (Except TransmitError Unit)}
    (waited : Retry.Waits (tryPost fragment : Step PumpFault _ _) (Running.yield pause) waits running ready)
    (attempted : (tryPost fragment : Step PumpFault _ _) ready = .ok found last) :
    last.pump = running.pump ∧
      match found with
      | none => last.controller.transmitRing.account = running.controller.transmitRing.account + ⟨0, 0, waits + 1⟩
      | some outcome => outcome = .ok () ∧
        last.controller.transmitRing.account = running.controller.transmitRing.account + ⟨1, 1, waits⟩ := by
  obtain ⟨same, refused⟩ := waits_account waited
  obtain ⟨kept, counted⟩ := (Step.ends_of_ok attempted).mp (tryPost_accounts fragment ready)
  refine ⟨kept.trans same, ?_⟩
  cases found with
  | none =>
    dsimp only at counted ⊢
    rw [counted, refused, TransmitRing.Account.add_assoc]
    rfl
  | some outcome =>
    refine ⟨counted.1, ?_⟩
    rw [counted.2, refused, TransmitRing.Account.add_assoc]
    rfl

/-- A frame is posted after so many refusals, with a pause after each of them. The rest is bookkeeping of the pump. -/
def PostsAfter (fragment : Fragment) (pause : Pause δ ω) (waits : Nat) (before after : Running OutboundPump δ ω) :
    Prop :=
  ∃ ready posted pump log,
    Retry.Waits (tryPost fragment : Step PumpFault _ _) (Running.yield pause) waits before ready ∧
    (tryPost fragment : Step PumpFault _ _) ready = .ok (some (.ok ())) posted ∧
    after = { posted with pump := pump, around.machine.log := log }

def GivesUpAfter (fragment : Fragment) (pause : Pause δ ω) (waits : Nat) (before after : Running OutboundPump δ ω) :
    Prop :=
  ∃ ready refused pump,
    Retry.Waits (tryPost fragment : Step PumpFault _ _) (Running.yield pause) waits before ready ∧
    (tryPost fragment : Step PumpFault _ _) ready = .ok none refused ∧ after = { refused with pump := pump }

/-- If a frame is posted, the pump has paused once for each refusal. If the budget is used up, there was one refusal
more than pauses. Either way all refusals are counted on both sides. -/
theorem post_accounts (pause : Pause δ ω) (fuel : Nat) (fragment : Fragment) (running : Running OutboundPump δ ω) :
    (post pause fuel fragment).Ends running
      (fun _ after => ∃ waits, PostsAfter fragment pause waits running after ∧
        Counts { packets := 1, busy := waits } running after)
      (fun stop after => ∀ fault, stop = .refused fault → ∃ waits, fault = .stalled .transmitRing ⟨waits + 1⟩ ∧
        GivesUpAfter fragment pause waits running after ∧ Counts { busy := waits + 1 } running after) := by
  unfold post
  rw [Step.ends_bind, Step.ends_get, Step.ends_bind]
  apply Running.await_waits
  · intro waits ready outcome last waited found
    obtain ⟨same, rfl, counted⟩ := attempts_account waited found
    simp only [Step.orRefuse, count, Step.ends_bind, Step.ends_pure, Running.ends_changePump, Running.ends_onMachine,
      Fragment.address, Step.ends_inspect, Machine.ends_note]
    constructor
    · intro address _
      refine ⟨waits, ⟨ready, last, _, _, waited, found, rfl⟩, ?_, counted⟩
      rw [← same]
      rfl
    · rintro _ _ _ ⟨⟩
  · rintro waits ready last waited missed _ ⟨⟩
    obtain ⟨same, counted⟩ := attempts_account waited missed
    refine ⟨waits, rfl, ⟨ready, last, _, waited, missed, rfl⟩, ?_, counted⟩
    rw [← same]
    rfl
  · rintro waits ready last waited missed _ ⟨⟩
  · intro waits ready stop last waited stopped fault refused
    exact absurd refused ((Step.ends_of_error stopped).mp (tryPost_accounts fragment ready) fault)

/-! ### A request -/

theorem posts_account (pause : Pause δ ω) (fuel : Nat) (frames : List Fragment) (running : Running OutboundPump δ ω) :
    (frames.forM (post pause fuel)).Ends running
      (fun _ after => ∃ waits, Counts { packets := frames.length, busy := waits } running after)
      (fun stop after => ∀ fault, stop = .refused fault → ∃ posts waits spent, fault = .stalled .transmitRing spent ∧
        Counts { packets := posts, busy := waits } running after) := by
  rw [List.forM_eq_forM]
  induction frames generalizing running with
  | nil => exact ⟨0, .refl running⟩
  | cons fragment rest ih =>
    rw [List.forM_cons, Step.ends_bind]
    refine (post_accounts pause fuel fragment running).mono ?_ ?_
    · rintro _ middle ⟨waits, -, first⟩
      refine (ih middle).mono ?_ ?_
      · rintro _ last ⟨more, later⟩
        refine ⟨waits + more, ?_⟩
        rw [List.length_cons, Nat.add_comm]
        exact first.trans later
      · intro stop last stalls fault refused
        obtain ⟨posts, more, spent, rfl, later⟩ := stalls fault refused
        exact ⟨1 + posts, waits + more, spent, rfl, first.trans later⟩
    · intro stop last stalls fault refused
      obtain ⟨waits, rfl, -, counts⟩ := stalls fault refused
      exact ⟨0, _, _, rfl, counts⟩

/-- A request that is served has all of its frames counted, and a batch is counted as one. Unless a frame was waited
for in vain, a request that is not served counts for nothing. -/
theorem serve_accounts (pause : Pause δ ω) (fuel : Nat) (request : Request) (running : Running OutboundPump δ ω) :
    (serve pause fuel request).Ends running
      (fun count after => ∃ waits,
        Counts { packets := count, batches := request.isBatch.toNat, busy := waits } running after)
      (fun stop after => ∀ fault, stop = .refused fault → ∃ posts waits,
        ((∀ awaited spent, fault ≠ .stalled awaited spent) → posts = 0) ∧
          Counts { packets := posts, busy := waits } running after) := by
  cases request with
  | input packet =>
    rintro _ ⟨⟩
    exact ⟨0, 0, fun _ => rfl, .refl running⟩
  | output packet =>
    unfold serve
    rw [Step.ends_bind, Step.ends_mapRefusal, Running.ends_onMachine]
    -- Whatever is looked up first, and whatever is held meanwhile, only what is around the pump is concerned.
    refine (Step.ends_self _ _).mono ?_ ?_
    · intro fragment machine _
      rw [Step.ends_bind, Running.ends_holding]
      refine (post_accounts pause fuel fragment _).mono ?_ ?_
      · rintro _ last ⟨waits, -, counts⟩
        exact ⟨waits, counts.pump, counts.ring⟩
      · intro stop last stalls fault refused
        obtain ⟨waits, rfl, -, counts⟩ := stalls fault refused
        exact ⟨0, waits + 1, fun _ => rfl, counts.pump, counts.ring⟩
    · intro stop machine _ fault _
      exact ⟨0, 0, fun _ => rfl, rfl, rfl⟩
  | outputBatch batch =>
    unfold serve
    rw [Step.ends_bind, Step.ends_mapRefusal, Running.ends_onMachine]
    refine (Step.ends_self _ _).mono ?_ ?_
    · intro frames machine _
      rw [Step.ends_bind, Running.ends_holding]
      refine (posts_account pause fuel frames _).mono ?_ ?_
      · rintro _ last ⟨waits, counts⟩
        simp only [count, Step.ends_bind, Running.ends_changePump, Step.ends_pure]
        refine ⟨waits, ?_, counts.ring⟩
        change last.pump.counters + { batches := 1 } = _
        rw [counts.pump]
        rfl
      · intro stop last stalls fault refused
        obtain ⟨posts, waits, spent, rfl, counts⟩ := stalls fault refused
        exact ⟨posts, waits, fun other => (other _ _ rfl).elim, counts.pump, counts.ring⟩
    · intro stop machine _ fault _
      exact ⟨0, 0, fun _ => rfl, rfl, rfl⟩

/-! ### A call -/

structure Return where
  answer : Except PumpFault (Option Nat)
  /-- The message that was the oldest asked for a batch. -/
  batch : Bool
  /-- How many descriptors the ring has counted as posted meanwhile. -/
  posted : Nat

namespace Return

def served (answered : Return) : Bool :=
  match answered.answer with
  | .ok (some _) => true
  | _ => false

def frames (answered : Return) : Nat :=
  match answered.answer with
  | .ok (some frames) => frames
  | _ => 0

def stranded (answered : Return) : Nat :=
  match answered.answer with
  | .error (.stalled ..) => answered.posted
  | _ => 0

def counted (answered : Return) (waits : Nat) : OutboundCounters where
  requests := answered.served.toNat
  packets := answered.frames + answered.stranded
  batches := (answered.served && answered.batch).toNat
  busy := waits

end Return

def returned (endpoint : Endpoint) (answer : Except PumpFault (Option Nat)) (before after : Running OutboundPump δ ω) :
    Return where
  answer := answer
  batch := endpoint.asksBatch before.around.bus
  posted := after.controller.transmitRing.counters.posted - before.controller.transmitRing.counters.posted

/-- But for the refusals, what the pump counts of a call can be told from what the call returns. The ring counts the
same. -/
theorem serveOne_accounts (endpoint : Endpoint) (pause : Pause δ ω) (fuel : Nat) (running : Running OutboundPump δ ω) :
    ((serveOne endpoint pause fuel).attempt : Step Empty _ _).Ends running
      (fun answer after => ∃ waits, Counts ((returned endpoint answer running after).counted waits) running after)
      (fun _ _ => True) := by
  rw [Step.ends_attempt]
  -- Nothing is counted on either side before there is a request.
  cases endpoint with
  | closed => exact ends_serveOne_of_closed.mpr ⟨0, rfl, rfl⟩
  | process reader =>
    rcases taken : running.around.bus.take reader with error | ⟨_ | message, bus⟩
    · exact (ends_serveOne_of_error taken).mpr ⟨0, rfl, rfl⟩
    · exact (ends_serveOne_of_none taken).mpr ⟨0, rfl, rfl⟩
    · cases decoded : message.request with
      | error error => exact (ends_serveOne_of_undecoded taken decoded).mpr ⟨0, rfl, rfl⟩
      | ok request =>
        rw [ends_serveOne_of_request taken decoded]
        refine (serve_accounts pause fuel request _).mono ?_ ?_
        · rintro frames last ⟨waits, counts⟩
          refine ⟨waits, ?_, counts.ring⟩
          change last.pump.counters + { requests := 1 } = _
          rw [counts.pump, OutboundCounters.add_assoc, Return.counted, returned,
            Endpoint.asksBatch_of_take taken decoded]
          rfl
        · rintro (fault | violation | _) last stopped
          · obtain ⟨posts, waits, none, counts⟩ := stopped fault rfl
            refine ⟨waits, ?_⟩
            cases fault with
            | stalled awaited spent =>
              obtain rfl : _ = posts := counts.posted
              rw [← Nat.zero_add (_ - _)] at counts
              exact ⟨counts.pump, counts.ring⟩
            | protocol | delivery | receive | transmit =>
              obtain rfl : posts = 0 := by
                apply none
                rintro _ _ ⟨⟩
              exact ⟨counts.pump, counts.ring⟩
          · trivial
          · trivial

end OutboundPump

end PacketPath
