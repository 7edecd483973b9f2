import PacketPath.Host.Board
import PacketPath.Message.Exchange
import PacketPath.Pump.Running
import PacketPath.Proofs.Message.Mailboxes
import PacketPath.Proofs.Ring.Queue

/-! The site of a driver: the board with its device, the mailboxes, and what everybody else does
there. Others take and give back pages, write those that nobody has reserved, and exchange messages;
the device moves frames whenever it is told to. All of it may happen in any order. -/

set_option autoImplicit false

namespace PacketPath

/-- A message that was fetched, with the memory as it was then. -/
structure Receipt where
  receiver : ProcessId
  message : Message
  memory : Memory

/-- Everybody but the driver and its pumps, and what has happened so far. -/
structure Others where
  board : Board
  /-- The handles that are held outside the driver, the pumps and the mailboxes. -/
  held : List PageId := []
  /-- The frames that the device has put into the receive ring, oldest first. -/
  arrivals : List Arrival := []
  /-- The messages that were fetched, oldest first. -/
  receipts : List Receipt := []
  /-- The machine at every point between two moves, oldest first. -/
  points : List (Machine Emulator) := []
  /-- Tells the moments of a plan apart. -/
  clock : Nat := 0

abbrev Site : Type :=
  Surroundings Emulator Others

namespace Site

def fresh (mac : MacAddress) (limit : Option Nat) : Site where
  machine := { memory := .empty, device := .create mac }
  bus := .empty
  others := { board := .create limit }

def owned (site : Site) : List PageId :=
  site.others.held ++ site.bus.pages

def seen (site : Site) : Site :=
  { site with others.points := site.others.points ++ [site.machine] }

/-- What one process has sent to another, oldest first: each message with the memory as it was when
the message was fetched, or as it is now if the message still waits. -/
def letters (site : Site) (sender receiver : ProcessId) : List (Message × Memory) :=
  ((site.others.receipts.filter fun receipt =>
      receipt.receiver = receiver ∧ receipt.message.sender = sender).map
        fun receipt => (receipt.message, receipt.memory)) ++
    ((site.bus.waiting receiver).filter fun message => message.sender = sender).map
      fun message => (message, site.machine.memory)

end Site

/-- What the others keep their hands off. -/
structure Rules where
  /-- Pages that they do not write. -/
  reserved : PageId → Prop
  /-- Mail that they do not send, by sender and receiver. -/
  barred : ProcessId → ProcessId → Prop

def Rules.free : Rules :=
  ⟨fun _ => False, fun _ _ => False⟩

inductive PageAction (rules : Rules) : Site → Site → Prop where
  /-- A new page of the board. -/
  | allocate {site : Site} {page : PageId} {board : Board} {machine : Machine Emulator}
      (allocated : Board.allocate (site.others.board, site.machine) = .ok page (board, machine)) :
      PageAction rules site { site with
        machine := machine, others.board := board, others.held := page :: site.others.held }
  /-- A new page that the device is not told of, at any address. -/
  | make {site : Site} {page : PageId} {memory : Memory} (base : UInt64) (size : Nat)
      (made : site.machine.memory.allocate base size = some (page, memory)) :
      PageAction rules site { site with machine.memory := memory, others.held := page :: site.others.held }
  /-- One more handle to a page that is held already. -/
  | retain {site : Site} (page : PageId) (holds : page ∈ site.others.held) :
      PageAction rules site { site with
        machine.memory := site.machine.memory.retain page, others.held := page :: site.others.held }
  | release {site : Site} (page : PageId) (holds : page ∈ site.others.held) :
      PageAction rules site { site with
        machine.memory := site.machine.memory.release page, others.held := site.others.held.erase page }
  | write {site : Site} (page : PageId) (offset : Nat) (data : List UInt8) (holds : page ∈ site.others.held)
      (free : ¬ rules.reserved page)
      (inside : site.machine.memory.access page offset data.length = .ok ()) :
      PageAction rules site { site with machine.memory := site.machine.memory.overwrite page offset data }
  | register {site : Site} (process : ProcessId) :
      PageAction rules site { site with bus := site.bus.register process }
  | setReceiving {site : Site} (process : ProcessId) (receiving : Bool) :
      PageAction rules site { site with bus := site.bus.setReceiving process receiving }
  /-- A message takes the handles that it carries along, or they are given back. -/
  | send {site : Site} {rest : List PageId} (sender receiver : ProcessId) (code : UInt32)
      (attachment : Attachment) (holds : site.others.held.Perm (attachment.pages ++ rest))
      (allowed : ¬ rules.barred sender receiver) :
      PageAction rules site
        ((Surroundings.send (.process sender) receiver code attachment).after
          { site with others.held := rest })
  | fetch {site : Site} {message : Message} {bus : MessageBus} (process : ProcessId)
      (taken : site.bus.take process = .ok (some message, bus)) :
      PageAction rules site { site with
        bus := bus
        others.held := message.pages ++ site.others.held
        others.receipts := site.others.receipts ++ [⟨process, message, site.machine.memory⟩] }
  | wait {site : Site} (clock : Nat) : PageAction rules site { site with others.clock := clock }

inductive Move (rules : Rules) : Site → Site → Prop where
  | action {site next : Site} (action : PageAction rules site next) : Move rules site next
  /-- The transmit engine runs. -/
  | transmit {site : Site} (limit : Nat) :
      Move rules site { site with machine := (Emulator.transmit limit).after site.machine }
  /-- A frame comes in and is put into the ring. -/
  | inject {site : Site} {machine : Machine Emulator} (frame : List UInt8) (errors : ReceiveErrors)
      (taken : Emulator.receive frame errors site.machine = .ok () machine) :
      Move rules site { site with
        machine := machine, others.arrivals := site.others.arrivals ++ [⟨frame, errors⟩] }
  /-- A frame comes in and is lost. -/
  | lose {site : Site} {machine : Machine Emulator} {stop : Stop HostError} (frame : List UInt8)
      (errors : ReceiveErrors) (refused : Emulator.receive frame errors site.machine = .error stop machine) :
      Move rules site { site with machine := machine }
  | raise {site : Site} (cause : Cause) :
      Move rules site { site with machine.device := site.machine.device.raise cause }

inductive PageActions (rules : Rules) : Site → Site → Prop where
  | none (site : Site) : PageActions rules site site
  | more {first site next : Site} (before : PageActions rules first site) (action : PageAction rules site next) :
      PageActions rules first next

inductive Moves (rules : Rules) : Site → Site → Prop where
  | none (site : Site) : Moves rules site site
  | more {first site next : Site} (before : Moves rules first site) (move : Move rules site next) :
      Moves rules first next.seen

/-- A pause in which the others keep to the rules, whatever they do. The machine is on record from when
the pause begins. -/
def Lawful (rules : Rules) (pause : Pause Emulator Others) : Prop :=
  ∀ site, Moves rules (Site.seen site) (pause site)

end PacketPath
