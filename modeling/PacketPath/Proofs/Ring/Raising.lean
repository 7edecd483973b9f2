import PacketPath.Proofs.Ring.Posting
import PacketPath.Proofs.Ring.Taking

/-! Raising rings: how a table is laid out and handed to the device. A new transmit ring has every slot
done and nothing in flight; a new receive ring waits in every slot but the one that is held back. -/

set_option autoImplicit false

namespace PacketPath

/-! ### Telling the device -/

namespace Emulator

theorem join_words (base : UInt64) :
    (UInt32.ofNat base.toNat).toUInt64 ||| ((UInt32.ofNat (base.toNat / 2 ^ 32)).toUInt64 <<< 32) = base := by
  have bound := base.toNat_lt
  have high : base.toNat / 2 ^ 32 < 2 ^ 32 := by omega
  have low : base.toNat % 2 ^ 32 < 2 ^ 32 := Nat.mod_lt _ (by decide)
  rw [← UInt64.toNat_inj, UInt64.toNat_or, UInt64.toNat_shiftLeft, UInt32.toNat_toUInt64, UInt32.toNat_toUInt64,
    UInt32.toNat_ofNat', UInt32.toNat_ofNat', Nat.mod_eq_of_lt high]
  change base.toNat % 2 ^ 32 ||| (base.toNat / 2 ^ 32) <<< 32 % 2 ^ 64 = base.toNat
  have product : base.toNat / 2 ^ 32 * 2 ^ 32 < 2 ^ 64 := by omega
  rw [Nat.shiftLeft_eq, Nat.mod_eq_of_lt product, Nat.or_comm, Nat.mul_comm,
    ← Nat.two_pow_add_eq_or_of_lt low]
  omega

def aimTransmit (device : Emulator) (base : UInt64) (bytes : Nat) : Emulator :=
  ((((device.store Register.transmitBaseLow.offset (UInt32.ofNat base.toNat)).store
    Register.transmitBaseHigh.offset (UInt32.ofNat (base.toNat / 2 ^ 32))).store
    Register.transmitLength.offset (UInt32.ofNat bytes)).store Register.transmitHead.offset 0).store
    Register.transmitTail.offset 0

theorem transmitSide_aimTransmit (device : Emulator) (base : UInt64) (bytes : Nat) :
    (device.aimTransmit base bytes).transmitSide =
      TransmitSide.moveTail { device.transmitSide with
        base := base, length := (UInt32.ofNat bytes).toNat / Limits.descriptorSize } 0 := by
  have words := join_words base
  unfold aimTransmit
  rw [transmitSide_store_tail]
  congr 1
  rw [TransmitSide.mk.injEq]
  exact ⟨words, rfl, rfl, rfl, rfl, rfl, rfl, rfl⟩

theorem transmitSide_switchOn (device : Emulator) (delay : UInt32) :
    (((device.store Register.transmitControl.offset Register.Transmit.operating).store
      Register.transmitGap.offset Register.standardGap).store Register.transmitDelay.offset delay).transmitSide =
        { device.transmitSide with enabled := true } := by
  have on : (Register.Transmit.operating &&& Register.Transmit.enable != 0) = true := by decide
  have switched (control : UInt32) : (((device.store Register.transmitControl.offset control).store
      Register.transmitGap.offset Register.standardGap).store Register.transmitDelay.offset delay).transmitSide =
        { device.transmitSide with enabled := control &&& Register.Transmit.enable != 0 } := rfl
  rw [switched, on]

theorem length_of_bytes {length : Nat} (small : length < 2 ^ 16) :
    (UInt32.ofNat (length * Limits.descriptorSize)).toNat / Limits.descriptorSize = length := by
  unfold Limits.descriptorSize
  rw [UInt32.toNat_ofNat']
  omega

def aimReceive (device : Emulator) (base : UInt64) (bytes tail : Nat) : Emulator :=
  ((((device.store Register.receiveBaseLow.offset (UInt32.ofNat base.toNat)).store
    Register.receiveBaseHigh.offset (UInt32.ofNat (base.toNat / 2 ^ 32))).store
    Register.receiveLength.offset (UInt32.ofNat bytes)).store Register.receiveHead.offset 0).store
    Register.receiveTail.offset (UInt32.ofNat tail)

theorem receiveSide_aimReceive (device : Emulator) (base : UInt64) (bytes tail : Nat) :
    (device.aimReceive base bytes tail).receiveSide =
      { device.receiveSide with
        base := base
        length := (UInt32.ofNat bytes).toNat / Limits.descriptorSize
        tail := UInt32.ofNat tail } := by
  rw [ReceiveSide.mk.injEq]
  exact ⟨join_words base, rfl, rfl, rfl, rfl⟩

theorem receiveSide_switchOn (device : Emulator) (threshold : UInt32) :
    ((device.store Register.smallPacketDetect.offset threshold).store Register.receiveControl.offset
      Register.Receive.operating).receiveSide = { device.receiveSide with enabled := true } := by
  have on : (Register.Receive.operating &&& Register.Receive.enable != 0) = true := by decide
  have switched (control : UInt32) : ((device.store Register.smallPacketDetect.offset threshold).store
      Register.receiveControl.offset control).receiveSide =
        { device.receiveSide with enabled := control &&& Register.Receive.enable != 0 } := rfl
  rw [switched, on]

end Emulator

namespace DescriptorTable

variable {δ ε : Type} {machine : Machine δ} {page : PageId} {length : Nat}

theorem create_ends {good : DescriptorTable → Machine δ → Prop} {bad : Stop ε → Machine δ → Prop}
    (fits : length * Limits.descriptorSize ≤ (machine.memory.page page).size) (small : length < 2 ^ 16)
    (yields : ∀ after, Machine.Writes (· = page) machine after → good ⟨page, length⟩ after) :
    (create page length).Ends machine good bad := by
  have short : ¬ 2 ^ 64 ≤ byteLength ⟨page, length⟩ := by
    unfold byteLength Limits.descriptorSize
    dsimp only
    omega
  have room : ¬ (machine.memory.page page).size < byteLength ⟨page, length⟩ := Nat.not_lt.mpr fits
  unfold create
  simp only [Step.ends_bind, Step.ends_ite, Machine.ends_sizeOf, Step.ends_violate, Step.ends_pure]
  refine ⟨fun long => absurd long short, fun _ => ⟨fun large => absurd large room, fun _ => ?_⟩⟩
  rw [Machine.ends_fill]
  · exact yields _ (.overwrite machine (by rfl) _ _)
  · rw [Nat.zero_add]
    exact Nat.not_lt.mp room

end DescriptorTable

/-! ### The transmit ring -/

namespace TransmitRing

variable {δ ε : Type} {machine : Machine δ} {table : DescriptorTable} {ring : TransmitRing}

theorem markIdle_ends (fits : table.Fits machine.memory) (known : machine.memory.Knows table.page)
    (slot : Nat) {count : Nat} (inside : slot + count ≤ table.length) :
    (markIdle table slot count : Step ε _ _).Ends machine
      (fun _ after => Machine.Writes (· = table.page) machine after ∧
        ∀ other, table.transmitCell after.memory other =
          if slot ≤ other ∧ other < slot + count then idle else table.transmitCell machine.memory other)
      (fun _ _ => False) := by
  induction count generalizing slot machine with
  | zero =>
    refine ⟨.refl _ _, fun other => ?_⟩
    rw [if_neg (by omega)]
  | succ count ih =>
    have here : slot < table.length := by omega
    have written : Machine.Writes (· = table.page) machine { machine with
        memory := machine.memory.overwrite table.page (DescriptorTable.position slot) idle.encode } :=
      .overwrite machine (by rfl) _ _
    unfold markIdle
    rw [Step.ends_bind, DescriptorTable.ends_writeTransmit fits here]
    refine (ih (fits.of_changes written.changes known) (written.changes.knows _ known) (slot + 1) (by omega)).mono
      ?_ (fun _ _ => id)
    rintro _ after ⟨later, cells⟩
    refine ⟨written.trans later, fun other => ?_⟩
    rw [cells, DescriptorTable.transmitCell_overwrite fits here]
    by_cases same : other = slot
    · rw [if_neg (by omega), if_pos same, if_pos (by omega)]
    · rw [if_neg same]
      congr 1
      rw [eq_iff_iff]
      omega

def blank (table : DescriptorTable) : TransmitRing :=
  ⟨table, Array.replicate table.length none, 0, {}⟩

theorem pages_blank (table : DescriptorTable) : (blank table).pages = [table.page] := by
  unfold pages blank
  dsimp only
  rw [Array.toList_replicate, List.filterMap_replicate_of_none rfl]

theorem binding_blank (table : DescriptorTable) (slot : Nat) : (blank table).binding slot = none := by
  unfold binding blank
  dsimp only
  rw [Array.getElem?_replicate]
  split <;> rfl

theorem create_ends (fits : table.Fits machine.memory) (known : machine.memory.Knows table.page) :
    (create table : Step ε _ _).Ends machine
      (fun ring after => ring = blank table ∧ Machine.Writes (· = table.page) machine after ∧
        ∀ slot < table.length, (table.transmitCell after.memory slot).status.isDone = true)
      (fun _ _ => False) := by
  unfold create
  rw [Step.ends_bind]
  refine (markIdle_ends fits known 0 (by omega)).mono ?_ (fun _ _ => id)
  rintro _ after ⟨writes, cells⟩
  refine ⟨rfl, writes, fun slot inside => ?_⟩
  rw [cells, if_pos (by omega)]
  decide

theorem ends_program {machine : Machine Emulator} {good : Unit → Machine Emulator → Prop}
    {bad : Stop ε → Machine Emulator → Prop} :
    ring.program.Ends machine good bad ↔
      good () { machine with
        device := machine.device.aimTransmit (machine.memory.page ring.table.page).base ring.table.byteLength } := by
  unfold program
  simp only [Step.ends_bind, Machine.ends_baseOf, Register.ends_write]
  rfl

/-- With every slot done and the device at the start of the table, nothing is in flight. -/
theorem carries_blank {memory : Memory} {side : Emulator.TransmitSide} (fits : table.Fits memory)
    (known : memory.Knows table.page) (several : 1 < table.length) (small : table.length < 2 ^ 16)
    (done : ∀ slot < table.length, (table.transmitCell memory slot).status.isDone = true)
    (base : side.base = (memory.page table.page).base) (length : side.length = table.length)
    (enabled : side.enabled = true) (tail : side.tail = 0) (head : side.head = 0) (pending : side.pending = 0) :
    (blank table).Carries memory side [] where
  wired :=
    { seated := ⟨fits, known, Array.size_replicate, by change 0 < table.length; omega⟩
      several := several
      small := small
      base := base
      length := length
      enabled := enabled
      head := by
        rw [head]
        change 0 < table.length
        omega }
  pending := pending
  bounded := Nat.zero_le _
  tail := by
    rw [head]
    exact (Nat.zero_mod _).symm
  word := tail
  asked _ _ none := by simp at none
  rest slot inside _ := done slot inside

end TransmitRing

/-! ### The receive ring -/

namespace ReceiveRing

variable {ε : Type} {machine : Machine Emulator} {table : DescriptorTable} {ring : ReceiveRing}
  {pool : List PageId}

theorem overwriteBytes_zeros (bytes : Array UInt8) :
    Page.overwriteBytes bytes 0 (List.replicate bytes.size 0) = Array.replicate bytes.size 0 := by
  apply Array.ext_getElem?
  intro i
  rw [Page.getElem?_overwriteBytes, List.length_replicate, Array.getElem?_replicate]
  by_cases inside : i < bytes.size
  · rw [if_pos ⟨Nat.zero_le _, by omega, inside⟩, if_pos inside, Nat.sub_zero, List.getElem?_replicate, if_pos inside]
  · rw [if_neg fun all => inside all.2.2, if_neg inside, Array.getElem?_eq_none (by omega)]

structure Binds (table : DescriptorTable) (slot : Nat) (page : PageId) (before after : Machine Emulator) : Prop where
  writes : Machine.Writes (fun id => id = table.page ∨ id = page) before after
  cells : ∀ other, table.receiveCell after.memory other =
    if other = slot then .empty (before.memory.page page).base else table.receiveCell before.memory other
  zeroed : (after.memory.page page).bytes = Array.replicate Limits.pageSize 0

theorem Binds.pooled {slot : Nat} {page : PageId} {after : Machine Emulator} (binds : Binds table slot page machine after)
    (pooled : ∀ other ∈ pool, machine.memory.Knows other ∧ other ≠ table.page ∧
      (machine.memory.page other).size = Limits.pageSize) :
    ∀ other ∈ pool, after.memory.Knows other ∧ other ≠ table.page ∧
      (after.memory.page other).size = Limits.pageSize := by
  intro other listed
  obtain ⟨known, apart, size⟩ := pooled other listed
  exact ⟨binds.writes.changes.knows _ known, apart, (binds.writes.changes.size _ known).trans size⟩

theorem ends_bindPool_cons {slot : Nat} {page : PageId} {good : Unit → Machine Emulator → Prop}
    {bad : Stop ε → Machine Emulator → Prop} (fits : table.Fits machine.memory)
    (known : machine.memory.Knows table.page) (there : machine.memory.Knows page) (apart : page ≠ table.page)
    (size : (machine.memory.page page).size = Limits.pageSize) (here : slot < table.length)
    (onward : ∀ bound, Binds table slot page machine bound → (bindPool table (slot + 1) pool).Ends bound good bad) :
    (bindPool table slot (page :: pool)).Ends machine good bad := by
  have cleared : Machine.Writes (· = page) machine { machine with
      memory := machine.memory.overwrite page 0 (List.replicate (machine.memory.page page).size 0) } :=
    .overwrite machine (by rfl) _ _
  have fits' := fits.of_changes cleared.changes known
  unfold bindPool
  simp only [Step.ends_bind, Machine.ends_sizeOf, Step.ends_ite, Step.ends_violate]
  refine ⟨fun short => absurd short (by rw [size]; decide), fun _ => ?_⟩
  rw [Machine.ends_fill 0 (Nat.le_of_eq (Nat.zero_add _)), Machine.ends_baseOf,
    DescriptorTable.ends_writeReceive fits' here]
  have base := cleared.changes.base page there
  dsimp only at base ⊢
  rw [base]
  apply onward
  -- The clearing is of the pool page, the cell is in the table's.
  constructor
  case writes =>
    exact (cleared.mono fun _ same => .inr same).trans (.overwrite _ (.inl rfl) _ _)
  case cells =>
    intro other
    dsimp only
    rw [DescriptorTable.receiveCell_overwrite fits' here]
    congr 1
    unfold DescriptorTable.receiveCell
    rw [DescriptorTable.cell_of_changes cleared.changes known (Ne.symm apart)]
  case zeroed =>
    dsimp only
    rw [Memory.page_overwrite, if_neg apart, Memory.page_overwrite, if_pos rfl, ← size]
    exact overwriteBytes_zeros _

theorem bindPool_ends (fits : table.Fits machine.memory) (known : machine.memory.Knows table.page)
    (pooled : ∀ page ∈ pool, machine.memory.Knows page ∧ page ≠ table.page ∧
      (machine.memory.page page).size = Limits.pageSize)
    (slot : Nat) (inside : slot + pool.length ≤ table.length) :
    (bindPool table slot pool : Step ε _ _).Ends machine
      (fun _ after => Machine.Writes (fun id => id = table.page ∨ id ∈ pool) machine after ∧
        (∀ other < slot, table.receiveCell after.memory other = table.receiveCell machine.memory other) ∧
        ∀ i page, pool[i]? = some page →
          table.receiveCell after.memory (slot + i) = .empty (machine.memory.page page).base)
      (fun _ _ => False) := by
  -- Induction on the pool: a slot is bound before those behind it, and none of them touches it.
  induction pool generalizing slot machine with
  | nil => exact ⟨.refl _ _, fun _ _ => rfl, fun _ _ none => by simp at none⟩
  | cons page rest ih =>
    obtain ⟨there, apart, size⟩ := pooled page (List.mem_cons_self ..)
    have others := fun other listed => pooled other (List.mem_cons_of_mem page listed)
    rw [List.length_cons] at inside
    apply ends_bindPool_cons fits known there apart size (by omega)
    intro bound binds
    have changes := binds.writes.changes
    refine (ih (fits.of_changes changes known) (changes.knows _ known) (binds.pooled others) (slot + 1)
      (by omega)).mono ?_ (fun _ _ => id)
    rintro _ after ⟨later, before, cells⟩
    refine ⟨?_, fun other earlier => ?_, fun i other listed => ?_⟩
    · refine (binds.writes.mono ?_).trans (later.mono ?_)
      · rintro id (same | rfl)
        · exact .inl same
        · exact .inr (List.mem_cons_self ..)
      · rintro id (same | listed)
        · exact .inl same
        · exact .inr (List.mem_cons_of_mem _ listed)
    · rw [before other (by omega), binds.cells, if_neg (by omega)]
    · cases i with
      | zero =>
        rw [List.getElem?_cons_zero, Option.some.injEq] at listed
        rw [Nat.add_zero, before slot (by omega), binds.cells, if_pos rfl, listed]
      | succ i =>
        rw [List.getElem?_cons_succ] at listed
        have last := cells i other listed
        rw [changes.base _ (others other (List.mem_of_getElem? listed)).1] at last
        rw [show slot + (i + 1) = slot + 1 + i by omega]
        exact last

theorem bindPool_zeros (fits : table.Fits machine.memory) (known : machine.memory.Knows table.page)
    (pooled : ∀ page ∈ pool, machine.memory.Knows page ∧ page ≠ table.page ∧
      (machine.memory.page page).size = Limits.pageSize)
    (apart : pool.Nodup) (slot : Nat) (inside : slot + pool.length ≤ table.length) :
    (bindPool table slot pool : Step ε _ _).Ends machine
      (fun _ after => ∀ page ∈ pool, (after.memory.page page).bytes = Array.replicate Limits.pageSize 0)
      (fun _ _ => False) := by
  induction pool generalizing slot machine with
  | nil => exact fun _ => nofun
  | cons page rest ih =>
    obtain ⟨there, other, size⟩ := pooled page (List.mem_cons_self ..)
    obtain ⟨once, apart⟩ := List.nodup_cons.mp apart
    rw [List.length_cons] at inside
    apply ends_bindPool_cons fits known there other size (by omega)
    intro bound binds
    have pooled := binds.pooled fun other listed => pooled other (List.mem_cons_of_mem page listed)
    have fits := fits.of_changes binds.writes.changes known
    have known := binds.writes.changes.knows _ known
    -- The other pages come later, and this one is not touched then.
    refine ((bindPool_ends fits known pooled (slot + 1) (by omega)).and
      (ih fits known pooled apart (slot + 1) (by omega))).mono ?_ (fun _ _ stopped => stopped.1)
    rintro _ after ⟨⟨later, -, -⟩, zeros⟩ id listed
    rcases List.mem_cons.mp listed with rfl | others
    · rw [later.changes.bytes _ (binds.writes.changes.knows _ there) (not_or.mpr ⟨other, once⟩)]
      exact binds.zeroed
    · exact zeros id others

def blank (table : DescriptorTable) (pool : List PageId) : ReceiveRing :=
  ⟨table, pool.toArray, 0, {}⟩

theorem create_ends (fits : table.Fits machine.memory) (known : machine.memory.Knows table.page)
    (pooled : ∀ page ∈ pool, machine.memory.Knows page ∧ page ≠ table.page ∧
      (machine.memory.page page).size = Limits.pageSize)
    (whole : pool.length = table.length) :
    (create table pool : Step ε _ _).Ends machine
      (fun ring after => ring = blank table pool ∧
        Machine.Writes (fun id => id = table.page ∨ id ∈ pool) machine after ∧
        ∀ slot < table.length, (blank table pool).Vacant after.memory slot)
      (fun _ _ => False) := by
  unfold create
  simp only [Step.ends_bind, Step.ends_ite, Step.ends_violate, Step.ends_pure]
  refine ⟨fun wrong => absurd whole wrong, fun _ => ?_⟩
  refine (bindPool_ends fits known pooled 0 (by omega)).mono ?_ (fun _ _ => id)
  rintro _ after ⟨writes, -, cells⟩
  refine ⟨rfl, writes, fun slot inside => ?_⟩
  obtain ⟨page, listed⟩ : ∃ page, pool[slot]? = some page :=
    ⟨_, List.getElem?_eq_getElem (whole.symm ▸ inside)⟩
  have there := (pooled page (List.mem_of_getElem? listed)).1
  refine ⟨page, by simpa only [blank, List.getElem?_toArray] using listed, ?_⟩
  have cell := cells slot page listed
  rw [Nat.zero_add] at cell
  rw [writes.changes.base _ there]
  exact cell

theorem ends_program {good : Unit → Machine Emulator → Prop} {bad : Stop ε → Machine Emulator → Prop}
    (several : 1 < ring.capacity) :
    ring.program.Ends machine good bad ↔
      good () { machine with
        device := machine.device.aimReceive (machine.memory.page ring.table.page).base ring.table.byteLength
          (ring.capacity - 1) } := by
  unfold program
  simp only [Step.ends_bind, Machine.ends_baseOf, Register.ends_write, Step.ends_ite, Step.ends_violate]
  exact ⟨fun ends => ends.2 (by omega), fun good => ⟨fun none => by omega, fun _ => good⟩⟩

/-- With every slot waiting and the device at the start of the table, no frame is in the ring. -/
theorem holds_blank {memory : Memory} {side : Emulator.ReceiveSide} (fits : table.Fits memory)
    (known : memory.Knows table.page) (several : 1 < table.length) (small : table.length < 2 ^ 16)
    (pooled : ∀ page ∈ pool, memory.Knows page) (whole : pool.length = table.length)
    (apart : (table.page :: pool).Nodup) (vacant : ∀ slot < table.length, (blank table pool).Vacant memory slot)
    (base : side.base = (memory.page table.page).base) (length : side.length = table.length)
    (enabled : side.enabled = true) (tail : side.tail = UInt32.ofNat (table.length - 1))
    (head : side.head = 0) : (blank table pool).Holds memory side [] where
  wired :=
    { fits := fits
      knows := known
      several := several
      small := small
      base := base
      length := length
      enabled := enabled
      cursor := by
        change 0 < table.length
        omega
      buffers := whole
      apart := apart
      pool := pooled }
  bounded := by
    change 0 < table.length
    omega
  head := by
    rw [head]
    exact (Nat.zero_mod _).symm
  tail := by
    rw [tail]
    change _ = UInt32.ofNat ((0 + table.length - 1) % table.length)
    rw [Nat.zero_add, Nat.mod_eq_of_lt (by omega)]
  filled _ _ none := by simp at none
  vacant slot inside _ := vacant slot inside

end ReceiveRing

end PacketPath
