import PacketPath.Proofs.Host.EnginesAlike
import PacketPath.Proofs.Ring.PostingPaired

/-! The two sides of a machine. The transmit side and the receive side have no page in common, and of the device
nothing but registers that neither of them writes, the record of what was written and the pending causes. So
whatever is done on one side can be done in the same way after anything was done on the other. -/

set_option autoImplicit false

namespace PacketPath

namespace Emulator

variable {one other first first' : Emulator}

structure SameTransmit (one other : Emulator) : Prop where
  registers : ∀ offset, offset ≠ Register.receiveTail.offset → offset ≠ Register.receiveHead.offset →
    other.registers offset = one.registers offset
  mask : other.mask = one.mask
  head : other.transmitHead = one.transmitHead
  pending : other.transmitPending = one.transmitPending
  gathered : other.gathered = one.gathered
  sent : other.sent = one.sent

structure SameReceive (one other : Emulator) : Prop where
  registers : ∀ offset, offset ≠ Register.transmitTail.offset → offset ≠ Register.transmitHead.offset →
    other.registers offset = one.registers offset
  mask : other.mask = one.mask
  head : other.receiveHead = one.receiveHead
  missed : other.missed = one.missed

structure InStep (first first' one other : Emulator) : Prop where
  causes : ∃ more, one.causes = first.causes ||| more ∧ other.causes = first'.causes ||| more
  writes : ∃ more, one.writes = first.writes ++ more ∧ other.writes = first'.writes ++ more

namespace SameTransmit

theorem refl (device : Emulator) : device.SameTransmit device :=
  ⟨fun _ _ _ => rfl, rfl, rfl, rfl, rfl, rfl⟩

variable (same : one.SameTransmit other)
include same

theorem word {register : Register} (tail : register ≠ .receiveTail) (head : register ≠ .receiveHead) :
    other.word register = one.word register :=
  same.registers _ (fun equal => tail (Register.offset_injective equal))
    fun equal => head (Register.offset_injective equal)

theorem transmitSide : other.transmitSide = one.transmitSide := by
  unfold Emulator.transmitSide ring
  rw [same.word (by decide) (by decide), same.word (by decide) (by decide), same.word (by decide) (by decide),
    same.word (by decide) (by decide), same.word (by decide) (by decide), same.head, same.pending, same.gathered,
    same.sent]

theorem store_tail (word : UInt32) :
    (one.store Register.transmitTail.offset word).SameTransmit (other.store Register.transmitTail.offset word) where
  registers offset tail head := by
    change (if _ then _ else other.registers offset) = if _ then _ else one.registers offset
    rw [same.registers offset tail head]
  mask := same.mask
  head := same.head
  pending := by
    have side := congrArg (fun side => (TransmitSide.moveTail side word).pending) same.transmitSide
    exact side
  gathered := same.gathered
  sent := same.sent

theorem store_receiveTail (word : UInt32) : one.SameTransmit (other.store Register.receiveTail.offset word) where
  registers offset tail head := by
    change (if _ then _ else other.registers offset) = _
    rw [if_neg tail, same.registers offset tail head]
  mask := same.mask
  head := same.head
  pending := same.pending
  gathered := same.gathered
  sent := same.sent

theorem fetched (bytes : List UInt8) (endsFrame : Bool) (length : Nat) :
    ((one.gather bytes endsFrame).onward length).SameTransmit ((other.gather bytes endsFrame).onward length) := by
  have words (offset : Nat) (tail : offset ≠ Register.receiveTail.offset) (head : offset ≠ Register.receiveHead.offset)
      (word word' : UInt32) (told : word' = word) :
      (if offset = Register.transmitHead.offset then word' else other.registers offset) =
        if offset = Register.transmitHead.offset then word else one.registers offset := by
    rw [same.registers offset tail head, told]
  have slot : (other.transmitHead + 1) % length = (one.transmitHead + 1) % length := by rw [same.head]
  have left : other.transmitPending - 1 = one.transmitPending - 1 := by rw [same.pending]
  unfold gather
  split
  · refine ⟨fun _ tail head => words _ tail head _ _ (congrArg UInt32.ofNat slot), same.mask, slot, left, rfl, ?_⟩
    change other.sent ++ [other.gathered ++ bytes] = one.sent ++ [one.gathered ++ bytes]
    rw [same.sent, same.gathered]
  · exact ⟨fun _ tail head => words _ tail head _ _ (congrArg UInt32.ofNat slot), same.mask, slot, left,
      congrArg (· ++ bytes) same.gathered, same.sent⟩

theorem of_filled (length : Nat) : one.SameTransmit (other.filled length) where
  registers offset tail head := by
    change (if _ then _ else other.registers offset) = _
    rw [if_neg head, same.registers offset tail head]
  mask := same.mask
  head := same.head
  pending := same.pending
  gathered := same.gathered
  sent := same.sent

theorem of_missing : one.SameTransmit other.missing :=
  { same with }

theorem latched : one.latch.SameTransmit other.latch := by
  rw [latch_eq, latch_eq, same.pending]
  split <;> exact { same with }

end SameTransmit

namespace SameReceive

theorem refl (device : Emulator) : device.SameReceive device :=
  ⟨fun _ _ _ => rfl, rfl, rfl, rfl⟩

variable (same : one.SameReceive other)
include same

theorem store_tail (word : UInt32) :
    (one.store Register.receiveTail.offset word).SameReceive (other.store Register.receiveTail.offset word) where
  registers offset tail head := by
    change (if _ then _ else other.registers offset) = if _ then _ else one.registers offset
    rw [same.registers offset tail head]
  mask := same.mask
  head := same.head
  missed := same.missed

theorem store_transmitTail (word : UInt32) : one.SameReceive (other.store Register.transmitTail.offset word) where
  registers offset tail head := by
    change (if _ then _ else other.registers offset) = _
    rw [if_neg tail, same.registers offset tail head]
  mask := same.mask
  head := same.head
  missed := same.missed

theorem filled (length : Nat) : (one.filled length).SameReceive (other.filled length) where
  registers offset tail head := by
    change (if _ then UInt32.ofNat ((other.receiveHead + 1) % length) else other.registers offset) =
      if _ then UInt32.ofNat ((one.receiveHead + 1) % length) else one.registers offset
    rw [same.registers offset tail head, same.head]
  mask := same.mask
  head := congrArg (fun head => (head + 1) % length) same.head
  missed := same.missed

theorem missing : one.missing.SameReceive other.missing :=
  { same with missed := congrArg (· + 1) same.missed }

theorem of_fetched (bytes : List UInt8) (endsFrame : Bool) (length : Nat) :
    one.SameReceive ((other.gather bytes endsFrame).onward length) := by
  have words (offset : Nat) (tail : offset ≠ Register.transmitTail.offset)
      (head : offset ≠ Register.transmitHead.offset) (word : UInt32) :
      (if offset = Register.transmitHead.offset then word else other.registers offset) = one.registers offset := by
    rw [if_neg head, same.registers offset tail head]
  unfold gather
  split <;> exact ⟨fun _ tail head => words _ tail head _, same.mask, same.head, same.missed⟩

theorem of_latched : one.SameReceive other.latch := by
  rw [latch_eq]
  split <;> exact { same with }

end SameReceive

namespace InStep

theorem refl (one other : Emulator) : InStep one other one other :=
  ⟨⟨0, UInt32.or_zero.symm, UInt32.or_zero.symm⟩, ⟨#[], Array.append_empty.symm, Array.append_empty.symm⟩⟩

variable (inStep : InStep first first' one other)
include inStep

theorem of_same {after after' : Emulator} (causes : after.causes = one.causes) (causes' : after'.causes = other.causes)
    (writes : after.writes = one.writes) (writes' : after'.writes = other.writes) :
    InStep first first' after after' := by
  obtain ⟨⟨cause, before, before'⟩, words, written, written'⟩ := inStep
  exact ⟨⟨cause, causes.trans before, causes'.trans before'⟩, words, writes.trans written, writes'.trans written'⟩

theorem raise (cause : Cause) : InStep first first' (one.raise cause) (other.raise cause) := by
  obtain ⟨⟨more, before, before'⟩, writes⟩ := inStep
  refine ⟨⟨more ||| cause.bits, ?_, ?_⟩, writes⟩
  · exact (congrArg (· ||| cause.bits) before).trans (UInt32.or_assoc ..)
  · exact (congrArg (· ||| cause.bits) before').trans (UInt32.or_assoc ..)

theorem store {register : Register} (silent : register ≠ .causeRead) (word : UInt32) :
    InStep first first' (one.store register.offset word) (other.store register.offset word) := by
  obtain ⟨⟨more, before, before'⟩, words, written, written'⟩ := inStep
  refine ⟨⟨more, (causes_store one silent word).trans before, (causes_store other silent word).trans before'⟩,
    words.push (register.offset, word), ?_, ?_⟩
  · rw [writes_store, written, Array.append_push]
  · rw [writes_store, written', Array.append_push]

theorem latch (same : other.transmitPending = one.transmitPending) : InStep first first' one.latch other.latch := by
  rw [latch_eq, latch_eq, same]
  split
  · exact (inStep.raise .transmitWritten).raise .transmitEmpty
  · exact inStep.raise .transmitWritten

end InStep

theorem eq_of_sides {sent received : Emulator} (transmit : sent.SameTransmit one) (transmit' : sent.SameTransmit other)
    (receive : received.SameReceive one) (receive' : received.SameReceive other) (causes : other.causes = one.causes) :
    other = { one with writes := other.writes } := by
  have registers : other.registers = one.registers := by
    funext offset
    by_cases mine : offset = Register.receiveTail.offset ∨ offset = Register.receiveHead.offset
    · have tail : offset ≠ Register.transmitTail.offset := by
        rcases mine with rfl | rfl <;> decide
      have head : offset ≠ Register.transmitHead.offset := by
        rcases mine with rfl | rfl <;> decide
      rw [receive.registers offset tail head, receive'.registers offset tail head]
    · rw [not_or] at mine
      rw [transmit.registers offset mine.1 mine.2, transmit'.registers offset mine.1 mine.2]
  have mask := transmit'.mask.trans transmit.mask.symm
  have transmitHead := transmit'.head.trans transmit.head.symm
  have pending := transmit'.pending.trans transmit.pending.symm
  have gathered := transmit'.gathered.trans transmit.gathered.symm
  have sent := transmit'.sent.trans transmit.sent.symm
  have receiveHead := receive'.head.trans receive.head.symm
  have missed := receive'.missed.trans receive.missed.symm
  cases one
  cases other
  dsimp only at *
  rw [registers, mask, transmitHead, pending, gathered, sent, receiveHead, missed, causes]

end Emulator

namespace Machine

variable {pool : PageId → Prop} {one other first first' : Machine Emulator}

structure SameSending (pool : PageId → Prop) (one other : Machine Emulator) : Prop where
  memory : Memory.AlikeIn (¬ pool ·) one.memory other.memory
  handles : ∀ id, other.memory.handles id = one.memory.handles id
  device : one.device.SameTransmit other.device

structure SameReceiving (pool : PageId → Prop) (one other : Machine Emulator) : Prop where
  memory : Memory.AlikeIn pool one.memory other.memory
  device : one.device.SameReceive other.device

/-- Two machines on the same way. On one side they are where each other is, and on the other side the second one
stands where it stood before. -/
structure Displaced (mine theirs : Machine Emulator → Machine Emulator → Prop)
    (first first' one other : Machine Emulator) : Prop where
  mine : mine one other
  theirs : theirs first' other
  inStep : Emulator.InStep first.device first'.device one.device other.device

theorem SameSending.refl (machine : Machine Emulator) : SameSending pool machine machine :=
  ⟨.refl _, fun _ => rfl, .refl _⟩

theorem SameReceiving.refl (machine : Machine Emulator) : SameReceiving pool machine machine :=
  ⟨.refl _, .refl _⟩

/-! ### On the transmit side -/

abbrev Sending (pool : PageId → Prop) (first first' : Machine Emulator) : Machine Emulator → Machine Emulator → Prop :=
  Displaced (SameSending pool) (SameReceiving pool) first first'

theorem handles_modified {memory memory' : Memory} (alike : Memory.AlikeIn (¬ pool ·) memory memory')
    (handles : ∀ id, memory'.handles id = memory.handles id) (change : Nat → Nat) (id place : PageId) :
    (memory'.modify id fun page => { page with handles := change page.handles }).handles place =
      (memory.modify id fun page => { page with handles := change page.handles }).handles place := by
  have known : memory'.Knows id ↔ memory.Knows id := by
    unfold Memory.Knows
    rw [alike.count]
  have here : (memory'.page id).handles = (memory.page id).handles := handles id
  have there : (memory'.page place).handles = (memory.page place).handles := handles place
  unfold Memory.handles
  rw [Memory.page_modify, Memory.page_modify]
  by_cases both : place = id ∧ memory.Knows id
  · rw [if_pos both, if_pos ⟨both.1, known.mpr both.2⟩]
    exact congrArg change here
  · rw [if_neg both, if_neg fun other => both ⟨other.1, known.mp other.2⟩]
    exact there

theorem sending_view (pool : PageId → Prop) (first first' : Machine Emulator) :
    View (¬ pool ·) (· = .transmitTail) (Sending pool first first') where
  base alike := alike.mine.memory.base
  bytes alike := alike.mine.memory.bytes
  noted alike _ _ := ⟨{ alike.mine with }, { alike.theirs with }, alike.inStep⟩
  overwritten alike id offset data outside :=
    { mine :=
        { alike.mine with
          memory := alike.mine.memory.overwrite outside offset data
          handles := fun place => by rw [Memory.handles_overwrite, Memory.handles_overwrite, alike.mine.handles] }
      theirs := { alike.theirs with memory := alike.theirs.memory.overwrite_outside outside offset data }
      inStep := alike.inStep }
  stored alike register word told := by
    subst told
    exact
      { mine := { alike.mine with device := alike.mine.device.store_tail word }
        theirs := { alike.theirs with device := alike.theirs.device.store_transmitTail word }
        inStep := alike.inStep.store (show Register.transmitTail ≠ .causeRead from nofun) word }

theorem sending_grips (pool : PageId → Prop) (first first' : Machine Emulator) : Grips (Sending pool first first') where
  retained alike id :=
    { mine :=
        { alike.mine with
          memory := alike.mine.memory.retain id
          handles := handles_modified alike.mine.memory alike.mine.handles (· + 1) id }
      theirs := { alike.theirs with memory := alike.theirs.memory.trans (.retain ..) }
      inStep := alike.inStep }
  released alike id :=
    { mine :=
        { alike.mine with
          memory := alike.mine.memory.release id
          handles := handles_modified alike.mine.memory alike.mine.handles (· - 1) id }
      theirs := { alike.theirs with memory := alike.theirs.memory.trans (.release ..) }
      inStep := alike.inStep }

theorem sending_sends (pool : PageId → Prop) (first first' : Machine Emulator) : Sends (Sending pool first first') where
  transmitSide alike := alike.mine.device.transmitSide
  onward alike bytes endsFrame length :=
    { mine := { alike.mine with device := alike.mine.device.fetched bytes endsFrame length }
      theirs := { alike.theirs with device := alike.theirs.device.of_fetched bytes endsFrame length }
      inStep := alike.inStep.of_same (Emulator.causes_gather ..) (Emulator.causes_gather ..)
        (Emulator.writes_gather ..) (Emulator.writes_gather ..) }
  latched alike :=
    { mine := { alike.mine with device := alike.mine.device.latched }
      theirs := { alike.theirs with device := alike.theirs.device.of_latched }
      inStep := alike.inStep.latch alike.mine.device.pending }

/-! ### On the receive side -/

abbrev Receiving (pool : PageId → Prop) (first first' : Machine Emulator) :
    Machine Emulator → Machine Emulator → Prop :=
  Displaced (SameReceiving pool) (SameSending pool) first first'

theorem receiving_view (pool : PageId → Prop) (first first' : Machine Emulator) :
    View pool (· = .receiveTail) (Receiving pool first first') where
  base alike := alike.mine.memory.base
  bytes alike := alike.mine.memory.bytes
  noted alike _ _ := ⟨{ alike.mine with }, { alike.theirs with }, alike.inStep⟩
  overwritten alike id offset data inside :=
    { mine := { alike.mine with memory := alike.mine.memory.overwrite inside offset data }
      theirs :=
        { alike.theirs with
          memory := alike.theirs.memory.overwrite_outside (not_not_intro inside) offset data
          handles := fun place => by rw [Memory.handles_overwrite, alike.theirs.handles] }
      inStep := alike.inStep }
  stored alike register word told := by
    subst told
    exact
      { mine := { alike.mine with device := alike.mine.device.store_tail word }
        theirs := { alike.theirs with device := alike.theirs.device.store_receiveTail word }
        inStep := alike.inStep.store (show Register.receiveTail ≠ .causeRead from nofun) word }

theorem receiving_lands (pool : PageId → Prop) (first first' : Machine Emulator) :
    Lands (Receiving pool first first') where
  head alike := alike.mine.device.head
  filled alike length :=
    { mine := { alike.mine with device := alike.mine.device.filled length }
      theirs := { alike.theirs with device := alike.theirs.device.of_filled length }
      inStep := (alike.inStep.raise .received).of_same rfl rfl rfl rfl }
  missing alike :=
    { mine := { alike.mine with device := alike.mine.device.missing }
      theirs := { alike.theirs with device := alike.theirs.device.of_missing }
      inStep := (alike.inStep.raise .receiverOverrun).of_same rfl rfl rfl rfl }

/-! ### Both sides -/

/-- The same machine, but for what was noted and the order in which registers were written. -/
structure SameButOrder (one other : Machine Emulator) : Prop where
  memory : other.memory = one.memory
  device : other.device = { one.device with writes := other.device.writes }
  writes : other.device.writes.toList.Perm one.device.writes.toList

/-- Whether the transmit side went on before the receive side or after it, the machine is the same. -/
theorem Displaced.meet {start sent received last last' : Machine Emulator}
    (later : Sending pool start received sent last) (later' : Receiving pool start sent received last') :
    SameButOrder last last' := by
  obtain ⟨⟨raised, causes, causes'⟩, told, writes, writes'⟩ := later.inStep
  obtain ⟨⟨more, before, before'⟩, words, written, written'⟩ := later'.inStep
  refine ⟨?_, ?_, ?_⟩
  · refine Memory.eq_of_alikeIn (later.theirs.memory.euclidean later'.mine.memory)
      (later.mine.memory.euclidean later'.theirs.memory) fun id => ?_
    exact (later'.theirs.handles id).trans (later.mine.handles id).symm
  · refine Emulator.eq_of_sides later.mine.device later'.theirs.device later.theirs.device later'.mine.device ?_
    calc last'.device.causes
      _ = start.device.causes ||| raised ||| more := by rw [before', causes]
      _ = start.device.causes ||| more ||| raised := by rw [UInt32.or_assoc, UInt32.or_comm raised, ← UInt32.or_assoc]
      _ = last.device.causes := by rw [causes', before]
  · rw [written', writes, writes', written]
    simp only [Array.toList_append, List.append_assoc]
    exact List.perm_append_comm.append_left _

end Machine

end PacketPath
