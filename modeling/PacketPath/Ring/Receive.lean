import PacketPath.Register.Access
import PacketPath.Descriptor.Table

/-! The receive ring. Every slot owns one page of a pool for as long as the ring exists; handing a
slot back to the device only clears what the device wrote into its descriptor. The device never
gets the slot before the cursor, so that a full ring differs from an empty one. -/

set_option autoImplicit false

namespace PacketPath

inductive ReceiveError where
  /-- A buffer that does not hold the end of its frame. -/
  | fragmented (slot : Nat)
  /-- A reported length beyond the end of the buffer. -/
  | lengthOverflow (slot length : Nat)
  /-- A destination that cannot hold the frame. -/
  | bufferTooSmall (needed provided : Nat)
  deriving DecidableEq, Repr

def ReceiveError.message : ReceiveError → String
  | .fragmented slot => s!"slot {slot}: frame spans more than one receive buffer"
  | .lengthOverflow slot length =>
    s!"slot {slot}: reported length {length} exceeds {Limits.receiveBuffer}-byte buffer"
  | .bufferTooSmall needed provided =>
    s!"destination holds {provided} bytes, frame needs {needed}"

structure ReceiveCounters where
  /-- Frames delivered. -/
  packets : Nat := 0
  /-- Bytes delivered. -/
  bytes : Nat := 0
  /-- Frames dropped because the device reported an error. -/
  dropped : Nat := 0
  deriving DecidableEq, Repr

structure ReceiveRing where
  table : DescriptorTable
  /-- The pool page of each slot. -/
  buffers : Array PageId
  /-- The slot that is looked at next. -/
  cursor : Nat
  counters : ReceiveCounters
  deriving Repr

namespace ReceiveRing

variable {δ ε α : Type}

def capacity (ring : ReceiveRing) : Nat :=
  ring.table.length

def pages (ring : ReceiveRing) : List PageId :=
  ring.table.page :: ring.buffers.toList

def buffer (ring : ReceiveRing) (slot : Nat) : Except Violation PageId :=
  match ring.buffers[slot]? with
  | some page => .ok page
  | none => .error (.bufferIndex slot)

/-- Clear the pool pages and hand each to its descriptor, from `slot` on. -/
def bindPool (table : DescriptorTable) (slot : Nat) : List PageId → Step ε (Machine δ) Unit
  | [] => pure ()
  | page :: rest => do
    let size ← Machine.sizeOf page
    if size < Limits.receiveBuffer then
      Step.violate (.bufferSize slot Limits.receiveBuffer)
    Machine.fill page 0 size 0
    table.writeReceive slot (.empty (← Machine.baseOf page))
    bindPool table (slot + 1) rest

def create (table : DescriptorTable) (pool : List PageId) : Step ε (Machine δ) ReceiveRing := do
  if pool.length ≠ table.length then
    Step.violate .poolSize
  bindPool table 0 pool
  return ⟨table, pool.toArray, 0, {}⟩

/-- Tell the device where the ring is. It gets every slot but the last, so a ring without slots is
not handed over. -/
def program [RegisterBus δ] (ring : ReceiveRing) : Step ε (Machine δ) Unit := do
  let base := (← Machine.baseOf ring.table.page).toNat
  Register.receiveBaseLow.write (UInt32.ofNat base)
  Register.receiveBaseHigh.write (UInt32.ofNat (base / 0x100000000))
  Register.receiveLength.write (UInt32.ofNat ring.table.byteLength)
  Register.receiveHead.write 0
  if ring.capacity = 0 then
    Step.violate .emptyRing
  Register.receiveTail.write (UInt32.ofNat (ring.capacity - 1))

/-- The device has finished with the slot at the cursor. Only the status byte is read. -/
def isReady (ring : ReceiveRing) : Step ε (Machine δ) Bool := do
  return (← ring.table.receiveStatus ring.cursor).isDone

/-! ### Steps that change the ring -/

def count (change : ReceiveCounters → ReceiveCounters) : Step ε (ReceiveRing × Machine δ) Unit :=
  Step.first (modify fun ring => { ring with counters := change ring.counters })

def recycle [RegisterBus δ] (slot : Nat) : Step ε (ReceiveRing × Machine δ) Unit := do
  let ring := (← get).1
  let page ← Step.inspect fun _ => ring.buffer slot
  let base ← Step.second (Machine.baseOf page)
  Step.second (ring.table.writeReceive slot (.empty base))
  Step.second (Register.receiveTail.write (UInt32.ofNat slot))
  let cursor := (slot + 1) % ring.capacity
  Step.first (modify fun ring => { ring with cursor := cursor })
  if cursor = 0 then
    let frames := ring.counters.packets + 1
    Step.second (Machine.note .debug s!"[rx] cursor wrapped after {frames} frames")

/-- The slot of the next good frame and its length, if the device has finished one. Slots with
errors before it are dropped, but no more than `limit` of them. -/
def seek [RegisterBus δ] : (limit : Nat) → Step ReceiveError (ReceiveRing × Machine δ) (Option (Nat × Nat))
  | 0 => pure none
  | limit + 1 => do
    let ring := (← get).1
    let slot := ring.cursor
    if ¬ (← Step.second ring.isReady) then
      return none
    let descriptor ← Step.second (ring.table.readReceive slot)
    let length := descriptor.length.toNat
    if ¬ descriptor.status.endsFrame then
      Step.refuse (.fragmented slot)
    if descriptor.errors.spoilFrame then
      count fun counters => { counters with dropped := counters.dropped + 1 }
      let errors := Flags.text descriptor.errors
      Step.second (Machine.note .warn s!"[rx] dropping frame slot={slot} len={length} errors={errors}")
      recycle slot
      seek limit
    else if Limits.receiveBuffer < length then
      Step.refuse (.lengthOverflow slot length)
    else
      return some (slot, length)

/-- Take the next frame by `deliver`, which is given its page and length. The slot goes back to the
device only if the delivery succeeds. A ring without slots is asked for one all the same. -/
def take [RegisterBus δ] (deliver : PageId → Nat → Step ReceiveError (Machine δ) α) :
    Step ReceiveError (ReceiveRing × Machine δ) (Option α) := do
  match ← seek (max 1 (← get).1.capacity) with
  | none => return none
  | some (slot, length) =>
    let ring := (← get).1
    let page ← Step.inspect fun _ => ring.buffer slot
    let delivered ← Step.second (deliver page length)
    recycle slot
    count fun counters =>
      { counters with packets := counters.packets + 1, bytes := counters.bytes + length }
    Step.second (Machine.note .trace s!"[rx] delivered slot={slot} len={length}")
    return some delivered

/-- The bytes of the next frame, which has room for no more of them than a receive buffer. -/
def receive [RegisterBus δ] : Step ReceiveError (ReceiveRing × Machine δ) (Option (List UInt8)) :=
  take fun page length => do
    if Limits.receiveBuffer < length then
      Step.refuse (.bufferTooSmall length Limits.receiveBuffer)
    Machine.readBytes page 0 length

/-- Put the next frame at the front of a destination; its length, and the destination afterwards. -/
def receiveInto [RegisterBus δ] (destination : List UInt8) :
    Step ReceiveError (ReceiveRing × Machine δ) (Option (Nat × List UInt8)) :=
  take fun page length => do
    if destination.length < length then
      Step.refuse (.bufferTooSmall length destination.length)
    return (length, (← Machine.readBytes page 0 length) ++ destination.drop length)

def receiveIntoPage [RegisterBus δ] (target : PageId) (offset : Nat) :
    Step ReceiveError (ReceiveRing × Machine δ) (Option Nat) :=
  take fun page length => do
    let provided := (← Machine.sizeOf target) - offset
    if provided < length then
      Step.refuse (.bufferTooSmall length provided)
    Machine.copy target offset page 0 length
    return length

end ReceiveRing

end PacketPath
