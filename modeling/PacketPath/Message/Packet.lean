import PacketPath.Machine
import PacketPath.Message.Basic
import PacketPath.Ring.Fragment

/-! Packet pages: a length in the first four bytes, little-endian and signed, and the frame behind
it. The length counts only if it is that of a frame that may be sent and that the page holds. -/

set_option autoImplicit false

namespace PacketPath

/-- A message that its receiver does not act on. -/
inductive ProtocolError where
  /-- A page that is not there, or not present. -/
  | missingBuffer
  | unknownRequest (code : UInt32)
  /-- A request that another process serves. -/
  | unexpectedRequest (code : UInt32)
  /-- The wrong kind of attachment for the request. -/
  | wrongTransfer (code : UInt32)
  /-- A length that no frame in that place can have. -/
  | badLength (length : Int)
  deriving DecidableEq, Repr

def ProtocolError.message : ProtocolError → String
  | .missingBuffer => "request carries no present page"
  | .unknownRequest code => s!"unknown request code {code.toNat}"
  | .unexpectedRequest code => s!"unexpected request code {code.toNat}"
  | .wrongTransfer code => s!"request code {code.toNat} carries the wrong transfer kind"
  | .badLength length => s!"invalid packet length {length}"

def Word.signed (width value : Nat) : Int :=
  Int.bmod value (Nat.pow 256 width)

structure Packet where
  grant : Grant
  present : grant.isPresent = true
  deriving DecidableEq, Repr

namespace Packet

variable {δ ε : Type}

def ofGrant (grant : Grant) : Except ProtocolError Packet :=
  if present : grant.isPresent = true then .ok ⟨grant, present⟩ else .error .missingBuffer

/-- The length of the frame, if the header gives one that is possible in the page. -/
def frameLength (packet : Packet) : Step ProtocolError (Machine δ) Nat := do
  let header := Word.signed 4 (← Machine.readWord 4 packet.grant.page 0)
  let size ← Machine.sizeOf packet.grant.page
  let length := header.toNat
  if 0 < header ∧ length ≤ Limits.maxFrame ∧ Limits.headerSize + length ≤ size then
    return length
  else
    Step.refuse (.badLength header)

/-- Write the header. Only the low four bytes of the length are kept. -/
def setFrameLength (packet : Packet) (length : Nat) : Step ε (Machine δ) Unit :=
  Machine.writeWord 4 packet.grant.page 0 length

def fragment (packet : Packet) : Step ProtocolError (Machine δ) Fragment := do
  let length ← packet.frameLength
  match (← get).memory.fragment packet.grant.page Limits.headerSize length with
  | .ok fragment => return fragment
  | .error _ => Step.refuse (.badLength length)

/-- Put the frame at the front of a destination; its length, and the destination afterwards. -/
def readInto (packet : Packet) (destination : List UInt8) :
    Step ProtocolError (Machine δ) (Nat × List UInt8) := do
  let length ← packet.frameLength
  if destination.length < length then
    Step.refuse (.badLength length)
  let frame ← Machine.readBytes packet.grant.page Limits.headerSize length
  return (length, frame ++ destination.drop length)

end Packet

/-- The bytes of a piece as a fragment. The length is reported as a signed word if it is no length. -/
def Piece.fragment {δ : Type} (piece : Piece) : Step ProtocolError (Machine δ) Fragment := do
  match (← get).memory.fragment piece.grant.page piece.offset piece.length with
  | .ok fragment => return fragment
  | .error _ => Step.refuse (.badLength (Word.signed 8 piece.length))

end PacketPath
