import PacketPath.Retry
import PacketPath.Message.Packet
import PacketPath.Message.Bus
import PacketPath.Ring.Transmit
import PacketPath.Ring.Receive

/-! What ends a pump. Conditions that pass are waited out inside the pumps; everything here is final,
and the pump's process ends with it. -/

set_option autoImplicit false

namespace PacketPath

inductive Awaited where
  /-- A free slot in the transmit ring. -/
  | transmitRing
  /-- The last other holder of an input page. -/
  | inputPage
  /-- The network stack, to receive. -/
  | stack
  deriving DecidableEq, Repr

def Awaited.text : Awaited → String
  | .transmitRing => "transmit ring"
  | .inputPage => "input page"
  | .stack => "network server"

inductive PumpFault where
  /-- A message that does not follow the protocol. -/
  | protocol (error : ProtocolError)
  /-- Messages cannot be exchanged any more. -/
  | delivery (error : DeliveryError)
  | receive (error : ReceiveError)
  | transmit (error : TransmitError)
  /-- A wait that used up its budget. -/
  | stalled (awaited : Awaited) (spent : Exhausted)
  deriving DecidableEq, Repr

namespace PumpFault

def message : PumpFault → String
  | .protocol error => "protocol violation: " ++ error.message
  | .delivery error => "ipc failure: " ++ error.message
  | .receive error => "receive fault: " ++ error.message
  | .transmit error => "transmit fault: " ++ error.message
  | .stalled awaited spent =>
    let what := awaited.text
    let account := spent.message
    s!"{what} stalled: {account}"

end PumpFault

/-- The end of a pump's process: which pump it was, and what ended it. -/
structure Death where
  pump : String
  fault : PumpFault
  deriving DecidableEq, Repr

namespace Death

def message (death : Death) : String :=
  death.pump ++ ": " ++ death.fault.message

def closingLine (death : Death) : LogLine :=
  let pump := death.pump
  let account := death.fault.message
  ⟨.error, s!"[{pump}] fatal: {account}"⟩

end Death

end PacketPath
