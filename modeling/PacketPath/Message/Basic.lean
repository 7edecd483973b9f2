import PacketPath.Identity
import PacketPath.Limits
import PacketPath.Memory.Basic
import PacketPath.Text.Flags

/-! Messages between processes: a request code and pages that are lent with it. Whoever holds a
message holds a handle to every page in it. -/

set_option autoImplicit false

namespace PacketPath

/-- What the receiver of a page may do with it. -/
structure Permission where
  bits : UInt32
  deriving DecidableEq, Repr, Inhabited

namespace Permission

instance : Flags Permission where
  title := "PagePerm"
  named := [(0x01, "PRESENT"), (0x02, "WRITE"), (0x04, "USER")]
  bits permission := permission.bits.toNat

def readable : Permission := ⟨0x05⟩

def isPresent (permission : Permission) : Bool :=
  permission.bits &&& 0x01 != 0

end Permission

structure Grant where
  page : PageId
  permission : Permission
  deriving DecidableEq, Repr

def Grant.isPresent (grant : Grant) : Bool :=
  grant.permission.isPresent

/-- One frame of a batch: a run of bytes in a lent page. -/
structure Piece where
  grant : Grant
  offset : Nat
  length : Nat
  deriving DecidableEq, Repr

structure Batch where
  pieces : List Piece
  bounded : pieces.length ≤ Limits.maxBatch
  deriving DecidableEq, Repr

def Batch.ofList? (pieces : List Piece) : Option Batch :=
  if bounded : pieces.length ≤ Limits.maxBatch then some ⟨pieces, bounded⟩ else none

inductive Attachment where
  | nothing
  | page (grant : Grant)
  | pieces (batch : Batch)
  deriving DecidableEq, Repr

def Attachment.pages : Attachment → List PageId
  | .nothing => []
  | .page grant => [grant.page]
  | .pieces batch => batch.pieces.map fun piece => piece.grant.page

structure Message where
  sender : ProcessId
  code : UInt32
  attachment : Attachment
  deriving DecidableEq, Repr

def Message.pages (message : Message) : List PageId :=
  message.attachment.pages

end PacketPath
