import PacketPath.Controller.Attach
import PacketPath.Host.Error
import PacketPath.Pump.Fault
import PacketPath.Report.Basic

/-! Reports of errors: the kind of an error, as the name of its group and its own, and its wording. -/

set_option autoImplicit false

namespace PacketPath

structure Refusal where
  kind : String
  message : String
  deriving DecidableEq, Repr

class Refuses (ε : Type) where
  refusal : ε → Refusal

namespace Refuses

instance : Refuses SettingsError where
  refusal error :=
    let kind := match error with
      | .ringLength .. => "Config.RingLength"
      | .smallPacketThreshold _ => "Config.SmallPacketThreshold"
      | .inputPages _ => "Config.InputPages"
    ⟨kind, error.message⟩

instance : Refuses AttachError where
  refusal error :=
    let kind := match error with
      | .unsupported _ => "Attach.Unsupported"
      | .settings _ => "Attach.Config"
      | .platform .. => "Attach.Platform"
      | .windowTooSmall _ => "Attach.MmioTooSmall"
      | .noMacAddress => "Attach.NoMacAddress"
    ⟨kind, error.message⟩

instance : Refuses TransmitError where
  refusal error :=
    let kind := match error with
      | .busy => "Tx.Busy"
      | .invalid _ => "Tx.InvalidBuffer"
    ⟨kind, error.message⟩

instance : Refuses ReceiveError where
  refusal error :=
    let kind := match error with
      | .fragmented _ => "Rx.FragmentedFrame"
      | .lengthOverflow .. => "Rx.LengthOverflow"
      | .bufferTooSmall .. => "Rx.BufferTooSmall"
    ⟨kind, error.message⟩

instance : Refuses HostError where
  refusal error :=
    let kind := match error with
      | .outOfPages _ => "Host.OutOfPages"
      | .outOfMemory => "Host.OutOfMemory"
      | .noDevice .. => "Host.NoDevice"
      | .address (.unmapped _) => "Host.Unmapped"
      | .address (.crossesPage ..) => "Host.CrossesPage"
      | .frameTooLong _ => "Host.FrameTooLong"
      | .receiverDisabled => "Host.ReceiverDisabled"
      | .ringFull => "Host.RxRingFull"
    ⟨kind, error.message⟩

instance : Refuses DeliveryError where
  refusal error :=
    let kind := match error with
      | .notReceiving _ => "Ipc.NotReceiving"
      | .closed => "Ipc.Closed"
    ⟨kind, error.message⟩

instance : Refuses ProtocolError where
  refusal error :=
    let kind := match error with
      | .missingBuffer => "Protocol.MissingBuffer"
      | .unknownRequest _ => "Protocol.UnknownRequest"
      | .unexpectedRequest _ => "Protocol.UnexpectedRequest"
      | .wrongTransfer _ => "Protocol.WrongTransfer"
      | .badLength _ => "Protocol.BadLength"
    ⟨kind, error.message⟩

instance : Refuses PumpFault where
  refusal error :=
    let kind := match error with
      | .protocol _ => "Fault.Protocol"
      | .delivery _ => "Fault.Ipc"
      | .receive _ => "Fault.Rx"
      | .transmit _ => "Fault.Tx"
      | .stalled .. => "Fault.Stalled"
    ⟨kind, error.message⟩

instance : Refuses Death where
  refusal death := ⟨"Panic", death.message⟩

instance : Refuses Exhausted where
  refusal error := ⟨"RetryExhausted", error.message⟩

end Refuses

namespace Report

variable {ε α : Type}

def ofRefusal (refusal : Refusal) : Report :=
  .fields [("error", .text refusal.kind), ("message", .text refusal.message)]

def ofExcept [Refuses ε] (report : α → Report) : Except ε α → Report
  | .ok value => report value
  | .error error => ofRefusal (Refuses.refusal error)

/-- What stopped a step. A broken precondition is a panic, with a wording if it has one. -/
def ofStop : Stop Refusal → Report
  | .refused refusal => ofRefusal refusal
  | .violated violation =>
    match violation.message with
    | some message => ofRefusal ⟨"Panic", message⟩
    | none => .fields [("error", .text "Panic")]
  | .unfinished => .fields [("error", .text "Unfinished")]

end Report

abbrev Telling (σ : Type) : Type → Type :=
  Step Refusal σ

/-- What a step yields or refuses with, as a part of a report; whatever else stops the step stops
the report. -/
def Step.shown {ε σ α : Type} [Refuses ε] (report : α → Report) (step : Step ε σ α) :
    Telling σ Report := do
  return .ofExcept report (← step.attempt)

def Step.tell {ε σ α : Type} [Refuses ε] (step : Step ε σ α) : Telling σ α :=
  step.mapRefusal Refuses.refusal

namespace Telling

variable {σ : Type}

def outcome (step : Telling σ Report) (state : σ) : Report × σ :=
  match step state with
  | .ok report state => (report, state)
  | .error stop state => (Report.ofStop stop, state)

def preview (step : Telling σ Report) (state : σ) : Report :=
  (outcome step state).1

end Telling

end PacketPath
