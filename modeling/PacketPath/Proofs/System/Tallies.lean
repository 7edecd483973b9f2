import PacketPath.Proofs.Controller.Accounting
import PacketPath.Proofs.Pump.Accounting
import PacketPath.Proofs.System.Sending

/-! Counters over a whole run. A pump that alone transmits serves messages one after the other, whatever becomes of
them; its counters and those of the transmit ring never come apart for longer than a call. -/

set_option autoImplicit false

namespace PacketPath

variable {δ ω : Type} [RegisterBus δ]

namespace OutboundPump

/-- A new pump over a controller that has just been attached, and what came of the calls to it so far. Nobody else
transmits. Whoever has the controller between two calls may ask anything else of it, and everything around the two
may change in any way. -/
inductive Run (settings : PumpSettings) : List Return → Running OutboundPump δ ω → Prop where
  | start {π : Type} {platform : Platform π δ} {pci : PciFunction} {chosen : Settings} {state after : π × Machine δ}
      {controller : Controller} (attached : Controller.attach platform pci chosen state = .ok controller after)
      (around : Surroundings δ ω) : Run settings [] ⟨⟨settings, {}⟩, controller, around⟩
  | serve {returns : List Return} {running after : Running OutboundPump δ ω}
      {answer : Except PumpFault (Option Nat)} (run : Run settings returns running) (endpoint : Endpoint)
      (pause : Pause δ ω) (fuel : Nat)
      (answered : ((serveOne endpoint pause fuel).attempt : Step Empty _ _) running = .ok answer after) :
      Run settings (returns ++ [returned endpoint answer running after]) after
  | aside {returns : List Return} {running : Running OutboundPump δ ω} {after : Controller × Machine δ}
      (run : Run settings returns running) (aside : Controller.Aside)
      (ended : aside.perform.after (running.controller, running.around.machine) = after) :
      Run settings returns { running with controller := after.1, around.machine := after.2 }
  | beforeService {returns : List Return} {running : Running OutboundPump δ ω} (run : Run settings returns running)
      (around : Surroundings δ ω) : Run settings returns { running with around := around }

def total (returns : List Return) (waits : Nat) : OutboundCounters where
  requests := returns.countP Return.served
  packets := (returns.map Return.frames).sum + (returns.map Return.stranded).sum
  batches := returns.countP fun answered => answered.served && answered.batch
  busy := waits

theorem total_concat (returns : List Return) (answered : Return) (waits more : Nat) :
    total (returns ++ [answered]) (waits + more) = total returns waits + answered.counted more := by
  have one (holds : Bool) : (if holds = true then 1 else 0) = holds.toNat := by
    cases holds <;> rfl
  ext
  · change List.countP _ _ = List.countP _ _ + _
    rw [List.countP_append, List.countP_singleton, one]
    rfl
  · change List.sum _ + List.sum _ = List.sum _ + List.sum _ + (answered.frames + answered.stranded)
    simp only [List.map_append, List.sum_append, List.map_singleton, List.sum_singleton]
    omega
  · change List.countP _ _ = List.countP _ _ + _
    rw [List.countP_append, List.countP_singleton, one]
    rfl
  · rfl

/-- The pump and the ring have counted what the returns tell, and the same refusals. -/
theorem Run.counts {settings : PumpSettings} {returns : List Return} {running : Running OutboundPump δ ω}
    (run : Run settings returns running) : ∃ waits, running.pump.counters = total returns waits ∧
      running.controller.transmitRing.account =
        ⟨(total returns waits).packets, (total returns waits).packets, waits⟩ := by
  induction run with
  | @start π platform pci chosen state after controller attached around =>
    exact ⟨0, rfl, (Step.ends_of_ok attached).mp (Controller.attach_accounts platform pci chosen state)⟩
  | @serve returns running after answer run endpoint pause fuel answered ih =>
    obtain ⟨waits, pump, ring⟩ := ih
    obtain ⟨more, counts⟩ := (Step.ends_of_ok answered).mp (serveOne_accounts endpoint pause fuel running)
    refine ⟨waits + more, ?_, ?_⟩
    · rw [counts.pump, pump, total_concat]
    · rw [counts.ring, ring, total_concat]
      rfl
  | @aside returns running after run aside ended ih =>
    have kept := aside.perform_leaves (running.controller, running.around.machine)
    rw [ended] at kept
    obtain ⟨waits, pump, ring⟩ := ih
    exact ⟨waits, pump, kept.trans ring⟩
  | beforeService run around ih => exact ih

/-- Whenever a call returns, and for as long as no other call is under way, the pump has counted the same frames and
the same refusals as the ring, and every descriptor that the ring posted ended a frame. What was counted can be told
from the returns. While it posts one frame, the pump pauses once for each refusal, but for the last one of a budget that
is used up. -/
theorem counters_agree {settings : PumpSettings} {returns : List Return} {running : Running OutboundPump δ ω}
    (run : Run settings returns running) :
    (running.pump.counters.packets = running.controller.transmitRing.counters.packets ∧
      running.controller.transmitRing.counters.packets = running.controller.transmitRing.counters.posted ∧
      running.pump.counters.busy = running.controller.transmitRing.counters.busy) ∧
    (running.pump.counters.requests = returns.countP Return.served ∧
      running.pump.counters.batches = (returns.countP fun answered => answered.served && answered.batch) ∧
      running.pump.counters.packets = (returns.map Return.frames).sum + (returns.map Return.stranded).sum) ∧
    ∀ (pause : Pause δ ω) (fuel : Nat) (fragment : Fragment) (before : Running OutboundPump δ ω),
      (post pause fuel fragment).Ends before
        (fun _ after => ∃ pauses, PostsAfter fragment pause pauses before after ∧
          after.controller.transmitRing.counters.busy = before.controller.transmitRing.counters.busy + pauses)
        (fun stop after => ∀ fault, stop = .refused fault → ∃ pauses spent, fault = .stalled .transmitRing spent ∧
          GivesUpAfter fragment pause pauses before after ∧
          after.controller.transmitRing.counters.busy = before.controller.transmitRing.counters.busy + (pauses + 1)) := by
  refine ⟨?_, ?_, fun pause fuel fragment before => ?_⟩
  · obtain ⟨waits, pump, ring⟩ := run.counts
    have posted := congrArg TransmitRing.Account.posted ring
    have packets := congrArg TransmitRing.Account.packets ring
    have busy := congrArg TransmitRing.Account.busy ring
    rw [pump]
    exact ⟨packets.symm, packets.trans posted.symm, busy.symm⟩
  · obtain ⟨waits, pump, -⟩ := run.counts
    rw [pump]
    exact ⟨rfl, rfl, rfl⟩
  · refine (post_accounts pause fuel fragment before).mono ?_ ?_
    · rintro _ after ⟨waits, posts, counts⟩
      exact ⟨waits, posts, congrArg TransmitRing.Account.busy counts.ring⟩
    · intro stop after stalls fault refused
      obtain ⟨waits, rfl, gives, counts⟩ := stalls fault refused
      exact ⟨waits, _, rfl, gives, congrArg TransmitRing.Account.busy counts.ring⟩

theorem serveOne_of_request {reader : ProcessId} {message : Message} {bus : MessageBus} {request : Request}
    {running : Running OutboundPump δ ω} (taken : running.around.bus.take reader = .ok (some message, bus))
    (decoded : message.request = .ok request) (pause : Pause δ ω) (fuel : Nat) :
    (serveOne (.process reader) pause fuel).Ends running (fun answer _ => answer.isSome = true) (fun _ _ => True) := by
  rw [ends_serveOne_of_request taken decoded]
  exact (Step.ends_self _ _).mono (fun _ _ _ => rfl) (fun _ _ _ => trivial)

/-- A batch is asked for and served. -/
theorem counters_agree_once : ∃ (running : Running OutboundPump Emulator Others) (answered : Return),
    Run {} [answered] running ∧ answered.served = true ∧ answered.batch = true ∧
    running.pump.counters.requests = 1 ∧ running.pump.counters.batches = 1 ∧
    running.pump.counters.packets = running.controller.transmitRing.counters.packets := by
  obtain ⟨controller, site, next, message, bus, batch, page, attached, -, memory, device, reached, waits, request,
    pieces⟩ := exists_asked
  have answers := (attached.answers memory device reached waits request pieces ⟨{}, {}⟩ Site.seen 0).and
    (serveOne_of_request waits request Site.seen 0)
  obtain ⟨answer, after, ended, -, something⟩ :=
    (answers.mono (fun _ _ both => both) fun _ _ both => both.1).exists_ok
  obtain ⟨frames, rfl⟩ := Option.isSome_iff_exists.mp something
  have run : Run {} [returned (.process ⟨0x2000⟩) (.ok (some frames)) ⟨⟨{}, {}⟩, controller, next⟩ after] after := by
    cases attached with
    | intro earlier brought =>
      refine .serve (.start brought next) (.process ⟨0x2000⟩) Site.seen 0 ?_
      simp only [Step.attempt, ended]
  have batched : Endpoint.asksBatch (.process ⟨0x2000⟩) next.bus = true := Endpoint.asksBatch_of_take waits request
  obtain ⟨⟨packets, -, -⟩, ⟨requests, batches, -⟩, -⟩ := counters_agree run
  refine ⟨after, _, run, rfl, batched, requests, ?_, packets⟩
  rw [batches]
  simp [Return.served, returned, batched]

end OutboundPump

end PacketPath
