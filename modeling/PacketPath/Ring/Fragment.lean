import PacketPath.Address
import PacketPath.Limits
import PacketPath.Machine

/-! Fragments: runs of bytes inside a page that may be posted for sending as they lie. -/

set_option autoImplicit false

namespace PacketPath

/-- Why a fragment, or several of them as one frame, can never be sent. -/
inductive FragmentFault where
  | empty
  | tooLong
  | crossesPage
  /-- More fragments than the ring has slots. -/
  | tooMany
  /-- Fragments that make up too long a frame. -/
  | frameTooLong
  deriving DecidableEq, Repr

def FragmentFault.text : FragmentFault → String
  | .empty => "zero-length buffer"
  | .tooLong => "buffer exceeds maximum frame length"
  | .crossesPage => "buffer crosses the end of its page"
  | .tooMany => "more fragments than ring slots"
  | .frameTooLong => "fragments exceed maximum frame length"

structure Fragment where
  page : PageId
  offset : Nat
  length : Nat
  deriving DecidableEq, Repr

/-- A fragment has at least one byte, is no longer than a frame and ends inside its page. -/
def Memory.fragment (memory : Memory) (id : PageId) (offset length : Nat) :
    Except FragmentFault Fragment :=
  let page := memory.page id
  if length = 0 then .error .empty
  else if Limits.maxFrame < length then .error .tooLong
  else if page.size < offset + length then .error .crossesPage
  else .ok ⟨id, offset, length⟩

/-- Where the device finds the first byte. A page may begin so high that an offset inside it is past
the last address. -/
def Fragment.address {δ ε : Type} (fragment : Fragment) : Step ε (Machine δ) UInt64 :=
  Step.inspect fun machine => Address.advance (machine.memory.page fragment.page).base fragment.offset

end PacketPath
