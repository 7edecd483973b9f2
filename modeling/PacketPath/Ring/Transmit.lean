import PacketPath.Register.Access
import PacketPath.Descriptor.Table
import PacketPath.Ring.Fragment

/-! The transmit ring. Frames are never copied: a posted slot keeps a handle to the page of its
fragment until the device has reported the slot done and the slot is reused or reclaimed. Whether
a slot is free is read from the done bit in its descriptor and from nothing else. -/

set_option autoImplicit false

namespace PacketPath

inductive TransmitError where
  /-- The device still owns a slot that is needed. -/
  | busy
  /-- The frame can never be sent as it is described. -/
  | invalid (fault : FragmentFault)
  deriving DecidableEq, Repr

def TransmitError.message : TransmitError → String
  | .busy => "transmit ring full"
  | .invalid fault => "invalid transmit buffer: " ++ fault.text

structure TransmitCounters where
  /-- Descriptors posted. -/
  posted : Nat := 0
  /-- Descriptors posted that end a frame. -/
  packets : Nat := 0
  /-- Posts refused because the ring was full. -/
  busy : Nat := 0
  /-- Pages given back. -/
  released : Nat := 0
  /-- Slots reported with collisions. -/
  collisions : Nat := 0
  /-- Slots reported with an underrun. -/
  underruns : Nat := 0
  deriving DecidableEq, Repr

structure TransmitRing where
  table : DescriptorTable
  /-- The page that each slot keeps a handle to. -/
  bindings : Array (Option PageId)
  /-- The slot that is posted next. -/
  tail : Nat
  counters : TransmitCounters
  deriving Repr

namespace TransmitRing

variable {δ ε : Type}

def capacity (ring : TransmitRing) : Nat :=
  ring.table.length

def binding (ring : TransmitRing) (slot : Nat) : Option PageId :=
  (ring.bindings[slot]?).join

def boundCount (ring : TransmitRing) : Nat :=
  ring.bindings.countP Option.isSome

def pages (ring : TransmitRing) : List PageId :=
  ring.table.page :: ring.bindings.toList.filterMap id

def next (ring : TransmitRing) (slot : Nat) : Nat :=
  (slot + 1) % ring.capacity

/-- The descriptor of a slot that has never been used. -/
def idle : TransmitDescriptor :=
  { status := .done }

def markIdle (table : DescriptorTable) (slot : Nat) : (count : Nat) → Step ε (Machine δ) Unit
  | 0 => pure ()
  | count + 1 => do
    table.writeTransmit slot idle
    markIdle table (slot + 1) count

def create (table : DescriptorTable) : Step ε (Machine δ) TransmitRing := do
  markIdle table 0 table.length
  return ⟨table, Array.replicate table.length none, 0, {}⟩

/-- How many of the next `limit` slots from `slot` on are done, up to the first that is not. -/
def doneRun (ring : TransmitRing) (slot : Nat) : (limit : Nat) → Step ε (Machine δ) Nat
  | 0 => pure 0
  | limit + 1 => do
    if (← ring.table.transmitStatus slot).isDone then
      return (← doneRun ring (ring.next slot) limit) + 1
    else
      return 0

def freeSlots (ring : TransmitRing) : Step ε (Machine δ) Nat :=
  ring.doneRun ring.tail ring.capacity

def program [RegisterBus δ] (ring : TransmitRing) : Step ε (Machine δ) Unit := do
  let base := (← Machine.baseOf ring.table.page).toNat
  Register.transmitBaseLow.write (UInt32.ofNat base)
  Register.transmitBaseHigh.write (UInt32.ofNat (base / 0x100000000))
  Register.transmitLength.write (UInt32.ofNat ring.table.byteLength)
  Register.transmitHead.write 0
  Register.transmitTail.write 0

/-! ### Steps that change the ring -/

def setBinding (slot : Nat) (page : Option PageId) : Step ε (TransmitRing × Machine δ) Unit :=
  Step.first (modify fun ring => { ring with bindings := ring.bindings.setIfInBounds slot page })

def count (change : TransmitCounters → TransmitCounters) : Step ε (TransmitRing × Machine δ) Unit :=
  Step.first (modify fun ring => { ring with counters := change ring.counters })

/-- Give back the page of a slot, if it keeps one, and count what the device reported about it. -/
def release (slot : Nat) : Step ε (TransmitRing × Machine δ) Unit := do
  let ring := (← get).1
  match ring.binding slot with
  | none => pure ()
  | some page =>
    setBinding slot none
    let status ← Step.second (ring.table.transmitStatus slot)
    if status.hasCollision then
      count fun counters => { counters with collisions := counters.collisions + 1 }
      let report := Flags.text status
      Step.second (Machine.note .warn s!"[tx] slot {slot} reported collisions status={report}")
    if status.hasUnderrun then
      count fun counters => { counters with underruns := counters.underruns + 1 }
      Step.second (Machine.note .warn s!"[tx] slot {slot} reported underrun")
    count fun counters => { counters with released := counters.released + 1 }
    let base := Text.hex (← Step.second (Machine.baseOf page)).toNat
    Step.second (Machine.note .trace s!"[tx] released slot={slot} page={base}")
    Step.second (Machine.release page)

def request (address : UInt64) (length : Nat) (endsFrame : Bool) : TransmitDescriptor :=
  { address := address
    length := UInt16.ofNat length
    command := .posting endsFrame }

/-- Post a fragment at the tail and hand the slot to the device. A slot that the device still owns
refuses the post, and then only the refusal is counted. The page that the slot kept before is given
back even if the fragment turns out to have no address. -/
def post [RegisterBus δ] (fragment : Fragment) (endsFrame : Bool) :
    Step TransmitError (TransmitRing × Machine δ) Unit := do
  let ring := (← get).1
  let slot := ring.tail
  if ¬ (← Step.second (ring.table.transmitStatus slot)).isDone then
    count fun counters => { counters with busy := counters.busy + 1 }
    Step.second (Machine.note .trace s!"[tx] slot {slot} still owned by hardware")
    Step.refuse .busy
  release slot
  let address ← Step.second fragment.address
  Step.second (ring.table.writeTransmit slot (request address fragment.length endsFrame))
  setBinding slot (some fragment.page)
  Step.second (Machine.retain fragment.page)
  Step.first (modify fun ring => { ring with tail := ring.next slot })
  Step.second (Register.transmitTail.write (UInt32.ofNat (ring.next slot)))
  count fun counters => { counters with
    posted := counters.posted + 1
    packets := if endsFrame then counters.packets + 1 else counters.packets }
  let place := Text.hex address.toNat
  Step.second (Machine.note .trace
    s!"[tx] posted slot={slot} paddr={place} len={fragment.length} eop={endsFrame}")

def postAll [RegisterBus δ] : List Fragment → Step TransmitError (TransmitRing × Machine δ) Unit
  | [] => pure ()
  | [last] => post last true
  | fragment :: rest => do
    post fragment false
    postAll rest

/-- Post one frame in several fragments, all of them or none. -/
def postFrame [RegisterBus δ] (fragments : List Fragment) :
    Step TransmitError (TransmitRing × Machine δ) Unit := do
  if fragments.isEmpty then
    return
  let ring := (← get).1
  if ring.capacity < fragments.length then
    Step.refuse (.invalid .tooMany)
  if Limits.maxFrame < (fragments.map Fragment.length).foldr (· + ·) 0 then
    Step.refuse (.invalid .frameTooLong)
  if (← Step.second ring.freeSlots) < fragments.length then
    count fun counters => { counters with busy := counters.busy + 1 }
    Step.refuse .busy
  postAll fragments

def reclaimFrom (slot : Nat) : (count : Nat) → Step ε (TransmitRing × Machine δ) Nat
  | 0 => pure 0
  | count + 1 => do
    let ring := (← get).1
    let finished ←
      if (ring.binding slot).isSome then
        pure (← Step.second (ring.table.transmitStatus slot)).isDone
      else pure false
    if finished then
      release slot
      return (← reclaimFrom (slot + 1) count) + 1
    else
      reclaimFrom (slot + 1) count

/-- Give back the pages of all slots that the device has finished with. -/
def reclaim : Step ε (TransmitRing × Machine δ) Nat := do
  let released ← reclaimFrom 0 (← get).1.capacity
  if released ≠ 0 then
    Step.second (Machine.note .debug s!"[tx] reclaimed {released} completed slots")
  return released

end TransmitRing

end PacketPath
