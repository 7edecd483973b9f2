import PacketPath.Limits
import PacketPath.Identity
import PacketPath.Interrupt
import PacketPath.Retry

/-! Settings of the controller and of the pumps, and what makes them unusable. -/

set_option autoImplicit false

namespace PacketPath

inductive Direction where
  | transmit
  | receive
  deriving DecidableEq, Repr

def Direction.text : Direction → String
  | .transmit => "transmit"
  | .receive => "receive"

inductive SettingsError where
  /-- The ring is empty, not aligned, or larger than a page. -/
  | ringLength (ring : Direction) (length : Nat)
  /-- The small packet threshold does not fit its register. -/
  | smallPacketThreshold (threshold : UInt16)
  /-- The input pump has no page or too many. -/
  | inputPages (count : Nat)
  deriving DecidableEq, Repr

namespace Settings

def maxInputPages : Nat := 64

end Settings

def SettingsError.message : SettingsError → String
  | .ringLength ring length =>
    let name := ring.text
    s!"{name} ring of {length} descriptors is not a valid ring size"
  | .smallPacketThreshold threshold =>
    let bytes := threshold.toNat
    s!"small packet threshold {bytes} exceeds RSRPD range"
  | .inputPages count => s!"input pump page count {count} outside 1..={Settings.maxInputPages}"

structure Settings where
  /-- Transmit descriptors. -/
  transmitLength : Nat := 16
  /-- Receive descriptors; each has one page of the pool. -/
  receiveLength : Nat := 128
  /-- Value of the transmit delay register. -/
  transmitDelay : UInt16 := 0
  /-- Value of the small packet register in bytes; zero switches detection off. -/
  smallPacketThreshold : UInt16 := 0
  /-- The address to give the controller; without one it keeps its own. -/
  mac : Option MacAddress := none
  /-- The causes let through once the controller is up. -/
  causes : Cause := .standard
  deriving DecidableEq, Repr

namespace Settings

/-- A ring is usable when its bytes are a positive multiple of the alignment and fit one page. -/
def ringFits (length : Nat) : Bool :=
  let bytes := length * Limits.descriptorSize
  0 < length && bytes % Limits.ringAlignment == 0 && bytes ≤ Limits.pageSize

/-- The first fault in the settings: transmit ring, receive ring, threshold. -/
def validate (settings : Settings) : Except SettingsError Unit :=
  if ¬ ringFits settings.transmitLength then .error (.ringLength .transmit settings.transmitLength)
  else if ¬ ringFits settings.receiveLength then .error (.ringLength .receive settings.receiveLength)
  else if Register.smallPacketMask < settings.smallPacketThreshold.toUInt32 then
    .error (.smallPacketThreshold settings.smallPacketThreshold)
  else .ok ()

end Settings

structure PumpSettings where
  /-- The process that received frames go to. -/
  stack : ProcessId := ⟨0x1001⟩
  /-- How often a full ring, a page in use or a peer that is not receiving is tried again. -/
  budget : Budget := .unbounded
  /-- Pages that the input pump takes turns with. -/
  inputPages : Nat := 4
  deriving DecidableEq, Repr

def PumpSettings.validate (settings : PumpSettings) : Except SettingsError Unit :=
  if settings.inputPages = 0 ∨ Settings.maxInputPages < settings.inputPages then
    .error (.inputPages settings.inputPages)
  else .ok ()

end PacketPath
