import PacketPath.Machine
import PacketPath.Message.Bus

/-! Sending and receiving on a machine. A message takes its handles along: a delivered message keeps
them in the mailbox, and a message that is not delivered gives them back. -/

set_option autoImplicit false

namespace PacketPath

/-- Everything that goes on around a driver while it waits: the machine, the mailboxes, and
whatever else there is. -/
structure Surroundings (δ ω : Type) where
  machine : Machine δ
  bus : MessageBus
  others : ω

/-- One process's end of the bus. -/
inductive Endpoint where
  | process (process : ProcessId)
  /-- An end whose bus is gone. -/
  | closed
  deriving DecidableEq, Repr

namespace Surroundings

variable {δ ω ε α : Type}

def onMachine (step : Step ε (Machine δ) α) : Step ε (Surroundings δ ω) α :=
  Step.within machine (fun around machine => { around with machine := machine }) step

/-- Send a message whose handles the sender has taken. They go with it or are given back. -/
def send (endpoint : Endpoint) (receiver : ProcessId) (code : UInt32) (attachment : Attachment) :
    Step DeliveryError (Surroundings δ ω) Unit := do
  match endpoint with
  | .closed =>
    onMachine (Machine.changeMemory (·.releaseAll attachment.pages))
    Step.refuse .closed
  | .process sender =>
    match (← get).bus.deliver receiver ⟨sender, code, attachment⟩ with
    | .error error =>
      onMachine (Machine.changeMemory (·.releaseAll attachment.pages))
      Step.refuse error
    | .ok bus =>
      let source := sender.text
      let target := receiver.text
      let value := code.toNat
      onMachine (Machine.note .trace s!"[ipc] {source} -> {target} value={value}")
      modify fun around => { around with bus := bus }

def fetchMessage (endpoint : Endpoint) : Step DeliveryError (Surroundings δ ω) (Option Message) := do
  match endpoint with
  | .closed => Step.refuse .closed
  | .process process =>
    match (← get).bus.take process with
    | .error error => Step.refuse error
    | .ok (message, bus) =>
      modify fun around => { around with bus := bus }
      return message

def discard (message : Message) : Step ε (Surroundings δ ω) Unit :=
  onMachine (Machine.changeMemory (·.releaseAll message.pages))

end Surroundings

end PacketPath
