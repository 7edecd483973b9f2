import PacketPath.Message.Packet

/-! Requests: what the codes of messages mean, and the one way of writing each request as a
message. -/

set_option autoImplicit false

namespace PacketPath

inductive Request where
  /-- A received frame for the network stack. -/
  | input (packet : Packet)
  /-- A frame to be sent. -/
  | output (packet : Packet)
  /-- Several frames to be sent one after the other. -/
  | outputBatch (batch : Batch)
  deriving DecidableEq, Repr

namespace Request

def inputCode : UInt32 := 10

def outputCode : UInt32 := 11

def outputBatchCode : UInt32 := 12

def code : Request → UInt32
  | .input _ => inputCode
  | .output _ => outputCode
  | .outputBatch _ => outputBatchCode

def attachment : Request → Attachment
  | .input packet => .page packet.grant
  | .output packet => .page packet.grant
  | .outputBatch batch => .pieces batch

def encode (request : Request) : UInt32 × Attachment :=
  (request.code, request.attachment)

/-- The request that a code and an attachment carry. Among the faults an unknown code comes first,
then a missing attachment, then one of the wrong kind, and last a page that is not present. -/
def decode (code : UInt32) (attachment : Attachment) : Except ProtocolError Request :=
  if code = inputCode ∨ code = outputCode then
    match attachment with
    | .nothing => .error .missingBuffer
    | .pieces _ => .error (.wrongTransfer code)
    | .page grant =>
      (Packet.ofGrant grant).map fun packet =>
        if code = inputCode then .input packet else .output packet
  else if code = outputBatchCode then
    match attachment with
    | .nothing => .error .missingBuffer
    | .page _ => .error (.wrongTransfer code)
    | .pieces batch =>
      if batch.pieces.isEmpty || batch.pieces.any fun piece => !piece.grant.isPresent then
        .error .missingBuffer
      else .ok (.outputBatch batch)
  else .error (.unknownRequest code)

end Request

def Message.request (message : Message) : Except ProtocolError Request :=
  Request.decode message.code message.attachment

end PacketPath
