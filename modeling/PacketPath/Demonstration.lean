import PacketPath.Host.Board
import PacketPath.Pump.Outbound
import PacketPath.Pump.Inbound

/-! A demonstration on the emulated platform: three frames go from the stack through the output pump
to the wire, and one comes from the wire through the input pump to the stack. All that it shows is
in its log. -/

set_option autoImplicit false

namespace PacketPath.Demonstration

def stack : ProcessId := ⟨0x1001⟩

def output : ProcessId := ⟨0x1002⟩

def input : ProcessId := ⟨0x1003⟩

def settings : PumpSettings :=
  { stack := stack, budget := .attempts 64 }

def pause : Pause Emulator Board := id

variable {ε α ρ : Type}

def onBoard (step : Step ε (Board × Machine Emulator) α) : Step ε (Surroundings Emulator Board) α :=
  Step.within (fun around => (around.others, around.machine))
    (fun around (board, machine) => { around with machine := machine, others := board }) step

def note (body : String) : Step ε (Surroundings Emulator Board) Unit :=
  Surroundings.onMachine (Machine.note .info body)

def record (name : String) (fields : List (String × Nat)) : String :=
  let body := ", ".intercalate (fields.map fun field => field.1 ++ ": " ++ toString field.2)
  name ++ " \x7b " ++ body ++ " \x7d"

def outboundText (counters : OutboundCounters) : String :=
  record "OutputStats" [("requests", counters.requests), ("packets", counters.packets),
    ("batches", counters.batches), ("busy", counters.busy)]

def inboundText (counters : InboundCounters) : String :=
  record "InputStats" [("delivered", counters.delivered), ("bytes", counters.bytes),
    ("empty_polls", counters.emptyPolls), ("page_waits", counters.pageWaits),
    ("send_waits", counters.sendWaits)]

def transmitText (counters : TransmitCounters) : String :=
  record "TxStats" [("posted", counters.posted), ("packets", counters.packets),
    ("busy", counters.busy), ("released", counters.released), ("collisions", counters.collisions),
    ("underruns", counters.underruns)]

def receiveText (counters : ReceiveCounters) : String :=
  record "RxStats" [("packets", counters.packets), ("bytes", counters.bytes),
    ("dropped_errors", counters.dropped)]

def frame (sequence : UInt8) : List UInt8 :=
  [0xFF, 0xFF, 0xFF, 0xFF, 0xFF, 0xFF, sequence, 0x08, 0x06]

def bytesText (bytes : List UInt8) : String :=
  "[" ++ ", ".intercalate (bytes.map fun byte => Text.hexPadded 2 byte.toNat) ++ "]"

def sendOne (sequence : UInt8) : Step String (Running OutboundPump Emulator Board) Unit := do
  Running.onAround do
    let page ← (onBoard Board.allocate).mapRefusal HostError.message
    let frame := frame sequence
    Surroundings.onMachine do
      Machine.writeBytes page Limits.headerSize frame
      Machine.writeWord 4 page 0 frame.length
    (Surroundings.send (.process stack) output Request.outputCode
      (.page ⟨page, .readable⟩)).mapRefusal DeliveryError.message
  let _ ← (OutboundPump.serveOne (.process output) pause 0).mapRefusal PumpFault.message

def outward : Step String (Running OutboundPump Emulator Board) Unit := do
  [0, 1, 2].forM sendOne
  Running.onAround do
    Surroundings.onMachine do
      let _ ← (Emulator.transmit 0xFFFFFFFFFFFFFFFF).mapRefusal HostError.message
    let (frames, device) := (← get).machine.device.takeSent
    modify fun around => { around with machine.device := device }
    frames.forM fun frame =>
      let bytes := bytesText frame
      note s!"[demo] wire <- {frame.length} bytes {bytes}"
  let _ ← Running.onController Controller.serviceInterrupts

def deliverAll : (limit : Nat) → Step PumpFault (Running InboundPump Emulator Board) Unit
  | 0 => pure ()
  | limit + 1 => do
    if ← InboundPump.step (.process input) pause 0 then
      deliverAll limit

def collect (message : Message) : Step ε (Surroundings Emulator Board) Unit := do
  if let .page grant := message.attachment then
    let length ← Surroundings.onMachine (Machine.readWord 4 grant.page 0)
    let sender := message.sender.text
    note s!"[demo] stack <- {length} bytes from {sender}"
  Surroundings.discard message

def inward : Step String (Running InboundPump Emulator Board) Unit := do
  let frame := [0x52, 0x54, 0x00, 0x12, 0x34, 0x56] ++ " inbound".toUTF8.toList
  Running.onMachine ((Emulator.receive frame .none).mapRefusal HostError.message)
  (deliverAll 64).mapRefusal PumpFault.message
  Running.onAround do
    let (messages, bus) := (← get).bus.drain stack
    modify fun around => { around with bus := bus }
    messages.forM collect

def allocatePages : (count : Nat) → Step HostError (Board × Machine Emulator) (List PageId)
  | 0 => pure []
  | count + 1 => do
    let page ← Board.allocate
    return page :: (← allocatePages count)

/-- The demonstration. It refuses with the words of whatever failed. -/
def run : Step String (Surroundings Emulator Board) Unit := do
  let controller ← (onBoard (Controller.attach Board.platform Board.pciFunction {})).mapRefusal
    AttachError.message
  let function := Board.pciFunction.text
  let address := controller.mac.text
  note s!"[demo] attached {function} mac={address}"
  modify fun around => { around with bus := ((around.bus.register stack).register output).register input }
  let (_, out, controller) ← Running.start { settings := settings } controller outward
  let pages ← (onBoard (allocatePages settings.inputPages)).mapRefusal HostError.message
  match InboundPump.create settings pages with
  | .error error => Step.refuse error.message
  | .ok pump =>
    let (_, arrived, controller) ← Running.start pump controller inward
    let outbound := outboundText out.counters
    let inbound := inboundText arrived.counters
    let transmit := transmitText controller.transmitRing.counters
    let receive := receiveText controller.receiveRing.counters
    note s!"[demo] output={outbound} input={inbound} tx={transmit} rx={receive}"

def start : Surroundings Emulator Board where
  machine := { memory := .empty, device := .create .emulated }
  bus := .empty
  others := .create none

def outcome : Array LogLine × Option String :=
  match run start with
  | .ok _ around => (around.machine.log, none)
  | .error (.refused error) around => (around.machine.log, some error)
  | .error (.violated violation) around => (around.machine.log, some (violation.message.getD ""))
  | .error .unfinished around => (around.machine.log, some "")

end PacketPath.Demonstration
