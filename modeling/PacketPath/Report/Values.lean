import PacketPath.Report.Refusal
import PacketPath.Register.Recorder
import PacketPath.Register.Window
import PacketPath.Host.Board
import PacketPath.Message.Request
import PacketPath.Pump.Outbound
import PacketPath.Pump.Inbound

/-! Reports of the library's values. -/

set_option autoImplicit false

namespace PacketPath

namespace Report

/-- A word by its text, its named bits, and every named bit of its type. -/
def flags {α : Type} [Flags α] (value : α) : Report :=
  .fields [("text", .text (Flags.text value)), ("known", .number (Flags.known value)),
    ("all", .number (Flags.all α))]

def address (memory : Memory) (page : PageId) : Report :=
  hex (memory.page page).base.toNat

def log (lines : Array LogLine) : Report :=
  .list (lines.toList.map fun line => .text line.text)

end Report

def MacAddress.report (mac : MacAddress) : Report :=
  .fields [("text", .text mac.text), ("ral", .number mac.lowWord.toNat),
    ("rah", .number mac.highWord.toNat)]

def TransmitDescriptor.report (descriptor : TransmitDescriptor) : Report :=
  .fields [("addr", .hex descriptor.address.toNat), ("length", .number descriptor.length.toNat),
    ("cso", .number descriptor.checksumOffset.toNat), ("cmd", .number descriptor.command.bits.toNat),
    ("status", .number descriptor.status.bits.toNat),
    ("css", .number descriptor.checksumStart.toNat), ("special", .number descriptor.special.toNat)]

def ReceiveDescriptor.report (descriptor : ReceiveDescriptor) : Report :=
  .fields [("addr", .hex descriptor.address.toNat), ("length", .number descriptor.length.toNat),
    ("checksum", .number descriptor.checksum.toNat), ("status", .number descriptor.status.bits.toNat),
    ("errors", .number descriptor.errors.bits.toNat), ("special", .number descriptor.special.toNat)]

def TransmitDescriptor.fullReport (descriptor : TransmitDescriptor) : Report :=
  .fields [("desc", descriptor.report), ("raw", .text (Text.hexBytes descriptor.encode)),
    ("cmd_text", .text (Flags.text descriptor.command)),
    ("status_text", .text (Flags.text descriptor.status))]

def ReceiveDescriptor.fullReport (descriptor : ReceiveDescriptor) : Report :=
  .fields [("desc", descriptor.report), ("raw", .text (Text.hexBytes descriptor.encode)),
    ("fatal", .flag descriptor.errors.spoilFrame),
    ("status_text", .text (Flags.text descriptor.status)),
    ("errors_text", .text (Flags.text descriptor.errors))]

def Page.report (page : Page) : Report :=
  .fields [("paddr", .hex page.base.toNat), ("len", .number page.size),
    ("empty", .flag (page.size == 0))]

def Memory.handleReport (memory : Memory) (page : PageId) : Report :=
  .fields [("refs", .number (memory.handles page)), ("exclusive", .flag (memory.isExclusive page))]

def DescriptorTable.entries (table : DescriptorTable) (memory : Memory) : List (String × Report) :=
  [("paddr", .address memory table.page), ("len", .number table.length),
    ("empty", .flag (table.length == 0)), ("byte_len", .number (UInt32.ofNat table.byteLength).toNat)]

def Window.entries (window : Window) : List (String × Report) :=
  [("paddr", .hex window.base.toNat), ("len", .number window.size), ("empty", .flag (window.size == 0))]

def Interrupts.entries (interrupts : Interrupts) : List (String × Report) :=
  [("mask", .number interrupts.unmasked.bits.toNat), ("serviced", .number interrupts.serviced)]

def Work.report (work : Work) : Report :=
  .fields [("tx_reclaimable", .flag work.transmitDone), ("rx_ready", .flag work.receiveReady),
    ("link_changed", .flag work.linkChanged), ("idle", .flag work.isIdle)]

def RegisterEvent.report : RegisterEvent → Report
  | .read offset word => .list [.text "r", .number offset, .number word.toNat]
  | .write offset word => .list [.text "w", .number offset, .number word.toNat]

def Fragment.report {δ : Type} (fragment : Fragment) : Telling (Machine δ) Report := do
  let address ← fragment.address
  return .fields [("paddr", .hex address.toNat), ("len", .number fragment.length),
    ("offset", .number fragment.offset), ("empty", .flag (fragment.length == 0))]

def TransmitCounters.report (counters : TransmitCounters) : Report :=
  .fields [("posted", .number counters.posted), ("packets", .number counters.packets),
    ("busy", .number counters.busy), ("released", .number counters.released),
    ("collisions", .number counters.collisions), ("underruns", .number counters.underruns)]

def ReceiveCounters.report (counters : ReceiveCounters) : Report :=
  .fields [("packets", .number counters.packets), ("bytes", .number counters.bytes),
    ("dropped_errors", .number counters.dropped)]

def TransmitRing.entries {δ : Type} (ring : TransmitRing) (machine : Machine δ) :
    List (String × Report) :=
  let free : Telling (Machine δ) Report := do return .number (← ring.freeSlots)
  [("tail", .number ring.tail), ("free", Telling.preview free machine), ("bound", .number ring.boundCount),
    ("stats", ring.counters.report)]

def ReceiveRing.entries {δ : Type} (ring : ReceiveRing) (machine : Machine δ) :
    List (String × Report) :=
  let ready : Telling (Machine δ) Report := do return .flag (← ring.isReady)
  [("cursor", .number ring.cursor), ("ready", Telling.preview ready machine), ("stats", ring.counters.report)]

def OutboundPump.report (pump : OutboundPump) : Report :=
  .fields [("requests", .number pump.counters.requests), ("packets", .number pump.counters.packets),
    ("batches", .number pump.counters.batches), ("busy", .number pump.counters.busy)]

def InboundPump.report (pump : InboundPump) (memory : Memory) : Report :=
  .fields [("delivered", .number pump.counters.delivered), ("bytes", .number pump.counters.bytes),
    ("empty_polls", .number pump.counters.emptyPolls),
    ("page_waits", .number pump.counters.pageWaits), ("send_waits", .number pump.counters.sendWaits),
    ("next", .address memory pump.nextPage), ("next_refs", .number (memory.handles pump.nextPage))]

def Emulator.report (device : Emulator) : Report :=
  .fields [("tx_pending", .number device.transmitPending), ("tx_head", .number device.transmitHead),
    ("rx_head", .number device.receiveHead), ("rx_missed", .number device.missed),
    ("mac", .optional (fun mac => .text mac.text) device.mac),
    ("icr", .number device.causes.toNat), ("ims", .number device.mask.toNat)]

def Controller.report (controller : Controller) (linkUp : Bool) : Report :=
  .fields [("mac", .text controller.mac.text), ("pci", .text controller.pci.text),
    ("link_up", .flag linkUp), ("irq_mask", .number controller.interrupts.unmasked.bits.toNat),
    ("tx", .number controller.transmitRing.capacity), ("rx", .number controller.receiveRing.capacity)]

def Board.report (board : Board) (memory : Memory) : Report :=
  .fields [("enabled", .list (board.enabled.map fun pci => .text pci.text)),
    ("routed", .list (board.routed.map fun line => .number line.toNat)),
    ("allocated", .number board.allocated), ("live", .number memory.liveCount)]

def Grant.report (memory : Memory) (grant : Grant) : Report :=
  .fields [("paddr", .address memory grant.page), ("perm", .number grant.permission.bits.toNat),
    ("present", .flag grant.isPresent)]

def Attachment.report (memory : Memory) : Attachment → Report
  | .nothing => .nothing
  | .page grant => grant.report memory
  | .pieces batch => .list (batch.pieces.map fun piece =>
    .fields [("grant", piece.grant.report memory), ("offset", .number piece.offset),
      ("len", .number piece.length)])

/-- The frame in a packet page, as a receiver with a large enough buffer reads it. -/
def Packet.frameReport {δ : Type} (packet : Packet) : Telling (Machine δ) Report :=
  (packet.readInto (List.replicate Limits.receiveBuffer 0)).shown fun (length, bytes) =>
    .bytes (bytes.take length)

def Piece.fragmentReport {δ : Type} (piece : Piece) : Telling (Machine δ) Report :=
  let find : Step ProtocolError (Machine δ) (UInt64 × Nat) := do
    let fragment ← piece.fragment
    return (← fragment.address, fragment.length)
  find.shown fun (address, length) =>
    .fields [("paddr", .hex address.toNat), ("len", .number length)]

def Request.report {δ : Type} (request : Request) : Telling (Machine δ) Report := do
  let (code, attachment) := request.encode
  let body ← match request with
    | .input packet => pure [("kind", .text "Input"), ("packet", ← packet.frameReport)]
    | .output packet => pure [("kind", .text "Output"), ("packet", ← packet.frameReport)]
    | .outputBatch batch =>
      pure [("kind", .text "OutputBatch"), ("buffers", .list (← batch.pieces.mapM Piece.fragmentReport))]
  let written := attachment.report (← get).memory
  return .fields (body ++ [("code", .number code.toNat), ("encoded", .list [.number code.toNat, written])])

/-- A message, and the request in it or why there is none. -/
def Message.report {δ : Type} (message : Message) : Telling (Machine δ) Report := do
  let request ← match message.request with
    | .ok request => request.report
    | .error error => pure (.ofRefusal (Refuses.refusal error))
  return .fields [("from", .text message.sender.text), ("value", .number message.code.toNat),
    ("transfer", message.attachment.report (← get).memory), ("request", request)]

end PacketPath
