import PacketPath.Settings
import PacketPath.Message.Request
import PacketPath.Pump.Fault
import PacketPath.Pump.Running

/-! The output pump: requests to send come in as messages, and their frames are posted straight from
the pages that the messages lend. The message is held until its last frame is posted; from then on
the transmit ring alone keeps the pages. -/

set_option autoImplicit false

namespace PacketPath

structure OutboundCounters where
  /-- Requests served. -/
  requests : Nat := 0
  /-- Frames posted. -/
  packets : Nat := 0
  /-- Batched requests served. -/
  batches : Nat := 0
  /-- Posts that found the ring full. -/
  busy : Nat := 0
  deriving DecidableEq, Repr

structure OutboundPump where
  settings : PumpSettings
  counters : OutboundCounters := {}
  deriving Repr

namespace OutboundPump

variable {δ ω ε : Type}

def count (change : OutboundCounters → OutboundCounters) : Step ε (Running OutboundPump δ ω) Unit :=
  Running.changePump fun pump => { pump with counters := change pump.counters }

variable [RegisterBus δ]

def tallyBusy (waits : Nat) (pump : OutboundPump) : OutboundPump :=
  { pump with counters.busy := pump.counters.busy + waits }

def tryPost (fragment : Fragment) :
    Step ε (Running OutboundPump δ ω) (Option (Except TransmitError Unit)) := do
  match ← (Running.onController (Controller.transmit fragment)).attempt with
  | .error .busy => return none
  | outcome => return some outcome

def post (pause : Pause δ ω) (fuel : Nat) (fragment : Fragment) :
    Step PumpFault (Running OutboundPump δ ω) Unit := do
  let budget := (← get).pump.settings.budget
  Step.orRefuse .transmit
    (← Running.await .transmitRing budget fuel pause tallyBusy (tryPost fragment))
  count fun counters => { counters with packets := counters.packets + 1 }
  let address := Text.hex (← Running.onMachine fragment.address).toNat
  Running.onMachine (Machine.note .trace s!"[output] posted {fragment.length} bytes at {address}")

/-- The fragments of a batch; one that is not valid refuses all of them. -/
def fragments : List Piece → Step ProtocolError (Machine δ) (List Fragment)
  | [] => pure []
  | piece :: rest => do
    let fragment ← piece.fragment
    return fragment :: (← fragments rest)

/-- Post the frames of a request and say how many they are. No frame is posted before all of them
are known to be valid. -/
def serve (pause : Pause δ ω) (fuel : Nat) :
    Request → Step PumpFault (Running OutboundPump δ ω) Nat
  | .input _ => Step.refuse (.protocol (.unexpectedRequest Request.inputCode))
  | .output packet => do
    let fragment ← (Running.onMachine packet.fragment).mapRefusal .protocol
    Running.holding [fragment.page] (post pause fuel fragment)
    return 1
  | .outputBatch batch => do
    let frames ← (Running.onMachine (fragments batch.pieces)).mapRefusal .protocol
    Running.holding (frames.map Fragment.page) (frames.forM (post pause fuel))
    count fun counters => { counters with batches := counters.batches + 1 }
    return frames.length

/-- Serve the oldest waiting request; the number of frames posted, or nothing if none waits. -/
def serveOne (endpoint : Endpoint) (pause : Pause δ ω) (fuel : Nat) :
    Step PumpFault (Running OutboundPump δ ω) (Option Nat) := do
  match ← (Running.onAround (Surroundings.fetchMessage endpoint)).mapRefusal .delivery with
  | none => return none
  | some message =>
    let posted ← Running.consuming message.pages do
      match message.request with
      | .error error => Step.refuse (.protocol error)
      | .ok request => serve pause fuel request
    count fun counters => { counters with requests := counters.requests + 1 }
    let sender := message.sender.text
    Running.onMachine (Machine.note .debug s!"[output] served {sender}: {posted} frame(s)")
    return some posted

def run (endpoint : Endpoint) (pause : Pause δ ω) (fuel : Nat) :
    (rounds : Nat) → Step PumpFault (Running OutboundPump δ ω) Unit
  | 0 => Step.cutOff
  | rounds + 1 => do
    match ← serveOne endpoint pause fuel with
    | some _ => pure ()
    | none =>
      let _ ← Running.onController Controller.reclaim
      Running.yield pause
    run endpoint pause fuel rounds

end OutboundPump

end PacketPath
