import PacketPath.Pump.Outbound
import PacketPath.Proofs.Pump.Waiting

/-! How a call to the output pump ends. It depends on what waits at the pump's end of the bus: nothing that can be
fetched, nothing at all, a message that asks for nothing, or a request. There is one rule for each of these. -/

set_option autoImplicit false

namespace PacketPath.OutboundPump

variable {δ ω : Type} [RegisterBus δ] {pause : Pause δ ω} {fuel : Nat} {running : Running OutboundPump δ ω}
  {reader : ProcessId} {message : Message} {bus : MessageBus}
  {good : Option Nat → Running OutboundPump δ ω → Prop} {bad : Stop PumpFault → Running OutboundPump δ ω → Prop}

theorem ends_serveOne_of_closed :
    (serveOne .closed pause fuel).Ends running good bad ↔ bad (.refused (.delivery .closed)) running :=
  Iff.rfl

theorem ends_serveOne_of_error {error : DeliveryError} (failed : running.around.bus.take reader = .error error) :
    (serveOne (.process reader) pause fuel).Ends running good bad ↔ bad (.refused (.delivery error)) running := by
  unfold serveOne Surroundings.fetchMessage
  simp only [Step.ends_bind, Step.ends_mapRefusal, Running.ends_onAround, Step.ends_get, failed, Step.ends_refuse,
    Stop.map]

theorem ends_serveOne_of_none (taken : running.around.bus.take reader = .ok (none, bus)) :
    (serveOne (.process reader) pause fuel).Ends running good bad ↔
      good none { running with around.bus := bus } := by
  unfold serveOne Surroundings.fetchMessage
  simp only [Step.ends_bind, Step.ends_mapRefusal, Running.ends_onAround, Step.ends_get, taken, Step.ends_modify,
    Step.ends_pure]

theorem ends_serveOne_of_undecoded {error : ProtocolError}
    (taken : running.around.bus.take reader = .ok (some message, bus)) (undecoded : message.request = .error error) :
    (serveOne (.process reader) pause fuel).Ends running good bad ↔
      bad (.refused (.protocol error)) (Running.releaseAll message.pages { running with around.bus := bus }) := by
  unfold serveOne Surroundings.fetchMessage
  simp only [Step.ends_bind, Step.ends_mapRefusal, Running.ends_onAround, Step.ends_get, taken, Step.ends_modify,
    Step.ends_pure, Running.ends_consuming, undecoded, Step.ends_refuse]

/-- What is left to do when a request was served: its handles are given back, and it is counted and noted. -/
def concluded (message : Message) (posted : Nat) (running : Running OutboundPump δ ω) : Running OutboundPump δ ω :=
  let sender := message.sender.text
  { running.releaseAll message.pages with
    pump.counters.requests := running.pump.counters.requests + 1
    around.machine.log :=
      running.around.machine.log.push ⟨.debug, s!"[output] served {sender}: {posted} frame(s)"⟩ }

/-- A request is served, and however that ends, the handles that came with it are given back. -/
theorem ends_serveOne_of_request {request : Request}
    (taken : running.around.bus.take reader = .ok (some message, bus)) (decoded : message.request = .ok request) :
    (serveOne (.process reader) pause fuel).Ends running good bad ↔
      (serve pause fuel request).Ends { running with around.bus := bus }
        (fun posted after => good (some posted) (concluded message posted after))
        (fun stop after => bad stop (after.releaseAll message.pages)) := by
  unfold serveOne Surroundings.fetchMessage
  simp only [Step.ends_bind, Step.ends_mapRefusal, Running.ends_onAround, Step.ends_get, taken, Step.ends_modify,
    Step.ends_pure, Running.ends_consuming, decoded, count, Running.ends_changePump, Running.ends_onMachine,
    Machine.ends_note]
  rfl

end PacketPath.OutboundPump
