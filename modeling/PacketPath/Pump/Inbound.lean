import PacketPath.Settings
import PacketPath.Message.Request
import PacketPath.Pump.Fault
import PacketPath.Pump.Running

/-! The input pump: received frames are copied into pages that the pump owns and lent to the network
stack. The pages take turns, and one is written again only when the pump is its last holder. -/

set_option autoImplicit false

namespace PacketPath

structure InboundCounters where
  /-- Frames delivered. -/
  delivered : Nat := 0
  /-- Bytes delivered. -/
  bytes : Nat := 0
  /-- Polls that found no frame. -/
  emptyPolls : Nat := 0
  /-- Pauses while a page was still held. -/
  pageWaits : Nat := 0
  /-- Pauses while the stack was not receiving. -/
  sendWaits : Nat := 0
  deriving DecidableEq, Repr

structure InboundPump where
  settings : PumpSettings
  /-- The pages that take turns. -/
  pages : Array PageId
  /-- The turn of the next frame. -/
  turn : Nat := 0
  counters : InboundCounters := {}
  deriving Repr

namespace InboundPump

variable {δ ω ε : Type}

def create (settings : PumpSettings) (pages : List PageId) : Except SettingsError InboundPump :=
  match settings.validate with
  | .error error => .error error
  | .ok _ =>
    if pages.length = settings.inputPages then .ok { settings := settings, pages := pages.toArray }
    else .error (.inputPages pages.length)

def nextPage (pump : InboundPump) : PageId :=
  pump.pages[pump.turn]?.getD default

def count (change : InboundCounters → InboundCounters) : Step ε (Running InboundPump δ ω) Unit :=
  Running.changePump fun pump => { pump with counters := change pump.counters }

def tallyPageWaits (waits : Nat) (pump : InboundPump) : InboundPump :=
  { pump with counters.pageWaits := pump.counters.pageWaits + waits }

def tallySendWaits (waits : Nat) (pump : InboundPump) : InboundPump :=
  { pump with counters.sendWaits := pump.counters.sendWaits + waits }

/-- The page is free when the pump is the only one that holds it. -/
def tryClaim (page : PageId) : Step ε (Running InboundPump δ ω) (Option Unit) := do
  return if (← get).around.machine.memory.isExclusive page then some () else none

/-- Lend a page to the stack unless the stack is not receiving now. -/
def tryLend (endpoint : Endpoint) (page : PageId) :
    Step ε (Running InboundPump δ ω) (Option (Except DeliveryError Unit)) := do
  let stack := (← get).pump.settings.stack
  Running.onMachine (Machine.retain page)
  let attachment := Attachment.page ⟨page, .readable⟩
  match ← (Running.onAround (Surroundings.send endpoint stack Request.inputCode attachment)).attempt with
  | .error (.notReceiving _) => return none
  | outcome => return some outcome

variable [RegisterBus δ]

/-- Deliver at most one frame and pause once after it; whether there was one. -/
def step (endpoint : Endpoint) (pause : Pause δ ω) (fuel : Nat) :
    Step PumpFault (Running InboundPump δ ω) Bool := do
  let running ← get
  let budget := running.pump.settings.budget
  let page := running.pump.nextPage
  if ¬ (← Running.onMachine running.controller.receiveReady) then
    count fun counters => { counters with emptyPolls := counters.emptyPolls + 1 }
    return false
  Running.await .inputPage budget fuel pause tallyPageWaits (tryClaim page)
  match ← (Running.onController (Controller.receiveIntoPage page Limits.headerSize)).mapRefusal .receive with
  | none =>
    count fun counters => { counters with emptyPolls := counters.emptyPolls + 1 }
    return false
  | some length =>
    Running.onMachine (Machine.writeWord 4 page 0 length)
    Step.orRefuse .delivery
      (← Running.await .stack budget fuel pause tallySendWaits (tryLend endpoint page))
    let base := Text.hex (← Running.onMachine (Machine.baseOf page)).toNat
    Running.onMachine (Machine.note .trace s!"[input] delivered {length} bytes via page {base}")
    count fun counters =>
      { counters with delivered := counters.delivered + 1, bytes := counters.bytes + length }
    Running.changePump fun pump => { pump with turn := (pump.turn + 1) % pump.pages.size }
    Running.yield pause
    return true

def deliver (endpoint : Endpoint) (pause : Pause δ ω) (fuel : Nat) :
    (rounds : Nat) → Step PumpFault (Running InboundPump δ ω) Unit
  | 0 => Step.cutOff
  | rounds + 1 => do
    if ¬ (← step endpoint pause fuel) then
      Running.yield pause
    deliver endpoint pause fuel rounds

/-- Deliver frames until a fault ends the pump. Cut off after `rounds` rounds. -/
def run (endpoint : Endpoint) (pause : Pause δ ω) (fuel rounds : Nat) :
    Step PumpFault (Running InboundPump δ ω) Unit := do
  let pump := (← get).pump
  let stack := pump.settings.stack.text
  Running.onMachine (Machine.note .debug s!"[input] serving {stack} with {pump.pages.size} pages")
  deliver endpoint pause fuel rounds

end InboundPump

end PacketPath
