import PacketPath.Message.Basic

/-! The message bus: one mailbox for each process that has registered, first in first out. -/

set_option autoImplicit false

namespace PacketPath

inductive DeliveryError where
  /-- The receiver does not take messages now, but may later. -/
  | notReceiving (process : ProcessId)
  /-- There is no such mailbox. -/
  | closed
  deriving DecidableEq, Repr

def DeliveryError.message : DeliveryError → String
  | .notReceiving process => process.text ++ " is not receiving"
  | .closed => "ipc endpoint closed"

structure Mailbox where
  /-- The messages that wait, oldest first. -/
  waiting : List Message := []
  receiving : Bool := true
  deriving Repr

structure MessageBus where
  mailboxes : List (ProcessId × Mailbox) := []
  deriving Repr

namespace MessageBus

def empty : MessageBus := {}

def mailbox? (bus : MessageBus) (process : ProcessId) : Option Mailbox :=
  bus.mailboxes.lookup process

/-- Replace the mailbox of a registered process. -/
def put (bus : MessageBus) (process : ProcessId) (mailbox : Mailbox) : MessageBus :=
  ⟨bus.mailboxes.map fun entry => if entry.1 = process then (process, mailbox) else entry⟩

/-- Give a process a mailbox. A process that has one keeps it as it is. -/
def register (bus : MessageBus) (process : ProcessId) : MessageBus :=
  match bus.mailbox? process with
  | some _ => bus
  | none => ⟨bus.mailboxes ++ [(process, {})]⟩

def waiting (bus : MessageBus) (process : ProcessId) : List Message :=
  (bus.mailbox? process).elim [] Mailbox.waiting

def setReceiving (bus : MessageBus) (process : ProcessId) (receiving : Bool) : MessageBus :=
  match bus.mailbox? process with
  | none => bus
  | some mailbox => bus.put process { mailbox with receiving := receiving }

def deliver (bus : MessageBus) (receiver : ProcessId) (message : Message) :
    Except DeliveryError MessageBus :=
  match bus.mailbox? receiver with
  | none => .error .closed
  | some mailbox =>
    if mailbox.receiving then
      .ok (bus.put receiver { mailbox with waiting := mailbox.waiting ++ [message] })
    else .error (.notReceiving receiver)

def take (bus : MessageBus) (process : ProcessId) : Except DeliveryError (Option Message × MessageBus) :=
  match bus.mailbox? process with
  | none => .error .closed
  | some mailbox =>
    match mailbox.waiting with
    | [] => .ok (none, bus)
    | message :: rest => .ok (some message, bus.put process { mailbox with waiting := rest })

/-- Take every message of a process, oldest first. -/
def drain (bus : MessageBus) (process : ProcessId) : List Message × MessageBus :=
  match bus.mailbox? process with
  | none => ([], bus)
  | some mailbox => (mailbox.waiting, bus.put process { mailbox with waiting := [] })

end MessageBus

end PacketPath
