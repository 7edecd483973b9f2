import PacketPath.Proofs.Descriptor.Cells

/-! Tables in use. Whatever is written to the slots of a table and read from them, in either format and in any order,
the table answers as an array of cells does, of which each holds the bytes that were put there last. -/

set_option autoImplicit false

namespace PacketPath.DescriptorTable

inductive Access where
  | writeTransmit (slot : Nat) (descriptor : TransmitDescriptor)
  | writeReceive (slot : Nat) (descriptor : ReceiveDescriptor)
  | readTransmit (slot : Nat)
  | readReceive (slot : Nat)
  | transmitStatus (slot : Nat)
  | receiveStatus (slot : Nat)
  deriving DecidableEq, Repr

inductive Answer where
  | written
  | transmit (descriptor : TransmitDescriptor)
  | receive (descriptor : ReceiveDescriptor)
  | transmitStatus (status : TransmitStatus)
  | receiveStatus (status : ReceiveStatus)
  deriving DecidableEq, Repr

variable {δ ε : Type}

namespace Access

def slot : Access → Nat
  | .writeTransmit slot _ | .writeReceive slot _ | .readTransmit slot | .readReceive slot
  | .transmitStatus slot | .receiveStatus slot => slot

def bytes : Access → Option (List UInt8)
  | .writeTransmit _ descriptor => some descriptor.encode
  | .writeReceive _ descriptor => some descriptor.encode
  | _ => none

def perform (table : DescriptorTable) : Access → Step ε (Machine δ) Answer
  | .writeTransmit slot descriptor => do
    table.writeTransmit slot descriptor
    return .written
  | .writeReceive slot descriptor => do
    table.writeReceive slot descriptor
    return .written
  | .readTransmit slot => return .transmit (← table.readTransmit slot)
  | .readReceive slot => return .receive (← table.readReceive slot)
  | .transmitStatus slot => return .transmitStatus (← table.transmitStatus slot)
  | .receiveStatus slot => return .receiveStatus (← table.receiveStatus slot)

/-- What an array of cells answers. A status is the one of the descriptor as a whole. -/
def answer (cells : Nat → List UInt8) : Access → Answer
  | .writeTransmit .. | .writeReceive .. => .written
  | .readTransmit slot => .transmit (.decode (cells slot))
  | .readReceive slot => .receive (.decode (cells slot))
  | .transmitStatus slot => .transmitStatus (TransmitDescriptor.decode (cells slot)).status
  | .receiveStatus slot => .receiveStatus (ReceiveDescriptor.decode (cells slot)).status

end Access

def performAll (table : DescriptorTable) : List Access → Step ε (Machine δ) (List Answer)
  | [] => pure []
  | access :: later => do
    let answer ← access.perform table
    return answer :: (← performAll table later)

def lastPut (slot : Nat) (accesses : List Access) : Option (List UInt8) :=
  accesses.reverse.findSome? fun access => if access.slot = slot then access.bytes else none

theorem lastPut_cons (slot : Nat) (access : Access) (later : List Access) :
    lastPut slot (access :: later) =
      (lastPut slot later).or (if access.slot = slot then access.bytes else none) := by
  unfold lastPut
  rw [List.reverse_cons, List.findSome?_append, List.findSome?_singleton]

def cellsAfter (cells : Nat → List UInt8) (accesses : List Access) (slot : Nat) : List UInt8 :=
  (lastPut slot accesses).getD (cells slot)

theorem cellsAfter_cons (cells : Nat → List UInt8) (access : Access) (later : List Access) :
    cellsAfter cells (access :: later) = cellsAfter (cellsAfter cells [access]) later := by
  funext slot
  unfold cellsAfter
  rw [lastPut_cons, lastPut_cons]
  cases lastPut slot later <;> rfl

theorem cellsAfter_of_reading (cells : Nat → List UInt8) {access : Access} (reads : access.bytes = none) :
    cellsAfter cells [access] = cells := by
  funext slot
  simp [cellsAfter, lastPut, reads]

def blankCell : List UInt8 :=
  List.replicate Limits.descriptorSize 0

/-- Nothing is changed but the bytes of the slots. -/
structure Confined (table : DescriptorTable) (before after : Machine δ) : Prop where
  beyond : ∀ place, table.byteLength ≤ place →
    (after.memory.page table.page).bytes[place]? = (before.memory.page table.page).bytes[place]?
  size : (after.memory.page table.page).size = (before.memory.page table.page).size
  others : ∀ id, id ≠ table.page → after.memory.page id = before.memory.page id
  device : after.device = before.device
  log : after.log = before.log

variable {table : DescriptorTable} {machine before middle after : Machine δ}

theorem Confined.refl (table : DescriptorTable) (machine : Machine δ) : table.Confined machine machine :=
  ⟨fun _ _ => rfl, rfl, fun _ _ => rfl, rfl, rfl⟩

theorem Confined.trans (first : table.Confined before middle) (second : table.Confined middle after) :
    table.Confined before after where
  beyond place past := (second.beyond place past).trans (first.beyond place past)
  size := second.size.trans first.size
  others id other := (second.others id other).trans (first.others id other)
  device := second.device.trans first.device
  log := second.log.trans first.log

theorem Confined.overwrite (machine : Machine δ) {offset : Nat} {data : List UInt8}
    (inside : offset + data.length ≤ table.byteLength) :
    table.Confined machine { machine with memory := machine.memory.overwrite table.page offset data } where
  beyond place past := by
    rw [Memory.page_overwrite, if_pos rfl, Page.overwrite, Page.getElem?_overwriteBytes, if_neg (by omega)]
  size := Memory.size_page_overwrite ..
  others id other := by rw [Memory.page_overwrite, if_neg other]
  device := rfl
  log := rfl

theorem Confined.fits (confined : table.Confined before after) (fits : table.Fits before.memory) :
    table.Fits after.memory :=
  fits.of_size confined.size

/-- A slot that is written holds what was put there, and the other slots what they held before. -/
theorem put_confined (fits : table.Fits machine.memory) (access : Access) (inside : access.slot < table.length)
    {data : List UInt8} (puts : access.bytes = some data) (whole : data.length = Limits.descriptorSize) :
    let memory := machine.memory.overwrite table.page (position access.slot) data
    table.cell memory = cellsAfter (table.cell machine.memory) [access] ∧
      table.Confined machine { machine with memory := memory } := by
  refine ⟨funext fun other => ?_, .overwrite machine ?_⟩
  · rw [cell_overwrite fits inside whole, cellsAfter, lastPut_cons, puts]
    by_cases same : other = access.slot
    · subst same
      simp [lastPut]
    · simp [lastPut, same, Ne.symm same]
  · rw [whole]
    unfold byteLength position Limits.descriptorSize
    omega

theorem Access.perform_ends (fits : table.Fits machine.memory) (access : Access) (inside : access.slot < table.length) :
    (access.perform table : Step ε _ _).Ends machine
      (fun answer after => answer = access.answer (table.cell machine.memory) ∧
        table.cell after.memory = cellsAfter (table.cell machine.memory) [access] ∧ table.Confined machine after)
      (fun _ _ => False) := by
  have still : table.Confined machine machine := .refl table machine
  cases access with
  | writeTransmit slot descriptor =>
    change slot < _ at inside
    unfold perform
    rw [Step.ends_bind, ends_writeTransmit fits inside]
    exact ⟨rfl, put_confined fits (.writeTransmit slot descriptor) inside rfl descriptor.length_encode⟩
  | writeReceive slot descriptor =>
    change slot < _ at inside
    unfold perform
    rw [Step.ends_bind, ends_writeReceive fits inside]
    exact ⟨rfl, put_confined fits (.writeReceive slot descriptor) inside rfl descriptor.length_encode⟩
  | readTransmit slot =>
    change slot < _ at inside
    unfold perform
    rw [Step.ends_bind, ends_readTransmit fits inside]
    exact ⟨rfl, (cellsAfter_of_reading _ rfl).symm, still⟩
  | readReceive slot =>
    change slot < _ at inside
    unfold perform
    rw [Step.ends_bind, ends_readReceive fits inside]
    exact ⟨rfl, (cellsAfter_of_reading _ rfl).symm, still⟩
  | transmitStatus slot =>
    change slot < _ at inside
    unfold perform
    rw [Step.ends_bind, ends_transmitStatus fits inside]
    exact ⟨rfl, (cellsAfter_of_reading _ rfl).symm, still⟩
  | receiveStatus slot =>
    change slot < _ at inside
    unfold perform
    rw [Step.ends_bind, ends_receiveStatus fits inside]
    exact ⟨rfl, (cellsAfter_of_reading _ rfl).symm, still⟩

/-- Some accesses were answered as by an array of cells, and left of the table what they left of the array. -/
structure Mirrors (table : DescriptorTable) (cells : Nat → List UInt8) (accesses : List Access)
    (answers : List Answer) (before after : Machine δ) : Prop where
  length : answers.length = accesses.length
  /-- Each answer tells of the cells as the accesses before it have left them. -/
  answer : ∀ (i : Nat) (access : Access), accesses[i]? = some access →
    answers[i]? = some (access.answer (cellsAfter cells (accesses.take i)))
  cells : ∀ slot < table.length, table.cell after.memory slot = cellsAfter cells accesses slot
  confined : table.Confined before after

theorem Mirrors.cons {cells : Nat → List UInt8} {access : Access} {later : List Access} {answers : List Answer}
    (rest : table.Mirrors (cellsAfter cells [access]) later answers middle after)
    (confined : table.Confined before middle) :
    table.Mirrors cells (access :: later) (access.answer cells :: answers) before after where
  length := congrArg (· + 1) rest.length
  answer i other listed := by
    cases i with
    | zero =>
      cases listed
      rfl
    | succ i =>
      rw [List.take_succ_cons, cellsAfter_cons]
      exact rest.answer i other listed
  cells slot inside := by rw [rest.cells slot inside, ← cellsAfter_cons]
  confined := confined.trans rest.confined

/-- Whatever is done with the slots of a table, it goes through, and it is what is done with an array of cells. -/
theorem performAll_ends (fits : table.Fits machine.memory) (accesses : List Access)
    (inside : ∀ access ∈ accesses, access.slot < table.length) :
    (table.performAll accesses : Step ε _ _).Ends machine
      (fun answers after => table.Mirrors (table.cell machine.memory) accesses answers machine after)
      (fun _ _ => False) := by
  -- Induction on the accesses: the first one leaves a table on which the others act as on the array it leaves.
  induction accesses generalizing machine with
  | nil => exact ⟨rfl, nofun, fun _ _ => rfl, .refl table machine⟩
  | cons access later ih =>
    obtain ⟨here, others⟩ := List.forall_mem_cons.mp inside
    unfold performAll
    rw [Step.ends_bind]
    refine (access.perform_ends fits here).mono ?_ (fun _ _ => id)
    rintro _ middle ⟨rfl, cells, confined⟩
    rw [Step.ends_bind]
    refine (ih (confined.fits fits) others).mono ?_ (fun _ _ => id)
    intro answers last mirrors
    rw [cells] at mirrors
    exact mirrors.cons confined

/-! ### From a new table on -/

def laidOut (table : DescriptorTable) (memory : Memory) : Memory :=
  memory.overwrite table.page 0 (List.replicate table.byteLength 0)

theorem cell_laidOut {memory : Memory} (fits : table.Fits memory) {slot : Nat} (inside : slot < table.length) :
    table.cell (table.laidOut memory) slot = blankCell := by
  have covered := fits.covers inside
  have within : position slot + Limits.descriptorSize ≤ table.byteLength := by
    unfold position byteLength Limits.descriptorSize
    omega
  unfold Page.size at covered
  rw [cell, Memory.slice, laidOut, Memory.page_overwrite, if_pos rfl, blankCell]
  apply List.ext_getElem?
  intro i
  rw [Page.getElem?_slice, Page.overwrite, Page.getElem?_overwriteBytes, List.length_replicate,
    List.getElem?_replicate, List.getElem?_replicate]
  by_cases early : i < Limits.descriptorSize
  · rw [if_pos early, if_pos early, if_pos (by omega), if_pos (by omega)]
  · rw [if_neg early, if_neg early]

theorem create_laidOut (fits : table.Fits machine.memory)
    (addressed : (machine.memory.page table.page).size < 2 ^ 64) :
    (create table.page table.length : Step ε _ _).Ends machine
      (fun made after => made = table ∧ after = { machine with memory := table.laidOut machine.memory })
      (fun _ _ => False) := by
  unfold Fits at fits
  unfold create
  simp only [Step.ends_bind, Step.ends_ite, Machine.ends_sizeOf, Step.ends_violate, Step.ends_pure]
  refine ⟨fun long => ?_, fun _ => ⟨fun short => Nat.not_lt.mpr fits short, fun _ => ?_⟩⟩
  · change 2 ^ 64 ≤ table.byteLength at long
    omega
  · rw [Machine.ends_fill 0 (by rwa [Nat.zero_add])]
    exact ⟨trivial, rfl⟩

/-- Both formats lose nothing, in either direction. A table that is laid out in a page long enough for it consists of
blank cells, and nothing beyond it is changed. Whatever is done with the slots of a table afterwards goes through: it is
answered as by an array of cells, each status as the whole descriptor has it, and of the page it changes what the
array does and nothing beyond the table. -/
theorem tables_are_arrays (fits : table.Fits machine.memory)
    (addressed : (machine.memory.page table.page).size < 2 ^ 64) :
    (∀ descriptor : TransmitDescriptor, .decode descriptor.encode = descriptor) ∧
    (∀ descriptor : ReceiveDescriptor, .decode descriptor.encode = descriptor) ∧
    (∀ raw : List UInt8, raw.length = Limits.descriptorSize →
      (TransmitDescriptor.decode raw).encode = raw ∧ (ReceiveDescriptor.decode raw).encode = raw) ∧
    (∃ laid, (create table.page table.length : Step ε _ _) machine = .ok table laid ∧ table.Confined machine laid ∧
      ∀ slot < table.length, table.cell laid.memory slot = blankCell) ∧
    ∀ accesses : List Access, (∀ access ∈ accesses, access.slot < table.length) →
      ∃ answers after, (table.performAll accesses : Step ε _ _) machine = .ok answers after ∧
        table.Mirrors (table.cell machine.memory) accesses answers machine after := by
  have long : 0 + (List.replicate table.byteLength (0 : UInt8)).length ≤ table.byteLength := by
    rw [List.length_replicate, Nat.zero_add]
  obtain ⟨_, _, made, rfl, rfl⟩ := (create_laidOut (ε := ε) fits addressed).exists_ok
  exact ⟨TransmitDescriptor.decode_encode, ReceiveDescriptor.decode_encode,
    fun raw whole => ⟨TransmitDescriptor.encode_decode whole, ReceiveDescriptor.encode_decode whole⟩,
    ⟨_, made, .overwrite machine long, fun slot inside => cell_laidOut fits inside⟩,
    fun accesses inside => (performAll_ends fits accesses inside).exists_ok⟩

/-- A table of two slots in a page of forty bytes: one slot is written in both formats and read in both, the other slot
stays as it was. -/
theorem tables_are_arrays_of_two :
    let table : DescriptorTable := ⟨⟨0⟩, 2⟩
    let machine : Machine Unit := ⟨(Memory.empty.adopt 0x1000 (Array.replicate 40 7)).2, (), #[]⟩
    let descriptor : ReceiveDescriptor := { address := 0x2000, length := 60, status := ⟨0xFF⟩ }
    let accesses := [.writeTransmit 1 { address := 0x3000 }, .writeReceive 1 descriptor, .readReceive 1,
      .receiveStatus 1, .readTransmit 0]
    table.Fits machine.memory ∧ (machine.memory.page table.page).size < 2 ^ 64 ∧
    ∃ answers after, (table.performAll accesses : Step Empty _ _) machine = .ok answers after ∧
      answers[2]? = some (.receive descriptor) ∧ answers[3]? = some (.receiveStatus ⟨0xFF⟩) ∧
      answers[4]? = some (.transmit (.decode (List.replicate 16 7))) := by
  intro table machine descriptor accesses
  have fits : table.Fits machine.memory := Nat.le_of_ble_eq_true rfl
  have addressed : (machine.memory.page table.page).size < 2 ^ 64 := Nat.lt_of_le_of_lt (Nat.le_refl 40) (by decide)
  have inside : ∀ access ∈ accesses, access.slot < table.length := by
    simp [accesses, table, Access.slot]
  obtain ⟨-, -, -, -, runs⟩ := tables_are_arrays (ε := Empty) fits addressed
  obtain ⟨answers, after, ran, mirrors⟩ := runs accesses inside
  refine ⟨fits, addressed, answers, after, ran, ?_, ?_, ?_⟩
  · rw [mirrors.answer 2 (.readReceive 1) rfl]
    change some (Answer.receive (.decode descriptor.encode)) = _
    rw [ReceiveDescriptor.decode_encode]
  · rw [mirrors.answer 3 (.receiveStatus 1) rfl]
    change some (Answer.receiveStatus (ReceiveDescriptor.decode descriptor.encode).status) = _
    rw [ReceiveDescriptor.decode_encode]
  · rw [mirrors.answer 4 (.readTransmit 0) rfl]
    change some (Answer.transmit (.decode ((Array.replicate 40 7).extract 0 16).toList)) = _
    rw [Array.extract_replicate, Array.toList_replicate]
    rfl

end PacketPath.DescriptorTable
