import PacketPath.Controller.Attach
import PacketPath.Proofs.Ring.Raising

/-! Register files of any kind. Whatever stands behind the register window, as long as it answers, no step of
bringing up breaks a precondition: each page in use is as long as the platform says. -/

set_option autoImplicit false

namespace PacketPath

variable {δ ε : Type} {placed : δ → Prop} {high : δ → UInt32} {pages pool : List PageId} {page : PageId}
  {table : DescriptorTable} {machine before after : Machine δ}

structure Machine.Ready (placed : δ → Prop) (pages : List PageId) (machine : Machine δ) : Prop where
  placed : placed machine.device
  whole : ∀ page ∈ pages, Limits.pageSize ≤ (machine.memory.page page).size

namespace Machine.Ready

theorem of_placed (there : placed machine.device) : Ready placed [] machine :=
  ⟨there, List.forall_mem_nil _⟩

theorem of_subset {fewer : List PageId} (ready : Ready placed pages machine) (subset : ∀ page ∈ fewer, page ∈ pages) :
    Ready placed fewer machine :=
  ⟨ready.placed, fun page listed => ready.whole page (subset page listed)⟩

theorem knows (ready : Ready placed pages machine) (listed : page ∈ pages) : machine.memory.Knows page := by
  apply Memory.knows_of_size
  exact Nat.lt_of_lt_of_le (by decide) (ready.whole page listed)

theorem writes {scope : PageId → Prop} (ready : Ready placed pages before) (writes : Machine.Writes scope before after) :
    Ready placed pages after where
  placed := writes.device ▸ ready.placed
  whole page listed := by
    rw [writes.changes.size page (ready.knows listed)]
    exact ready.whole page listed

theorem overwrite (ready : Ready placed pages machine) (id : PageId) (offset : Nat) (data : List UInt8) :
    Ready placed pages { machine with memory := machine.memory.overwrite id offset data } := by
  have writes : Machine.Writes (· = id) machine
      { machine with memory := machine.memory.overwrite id offset data } := .overwrite machine (by rfl) _ _
  exact ready.writes writes

theorem fits (ready : Ready placed pages machine) (listed : table.page ∈ pages)
    (paged : table.byteLength ≤ Limits.pageSize) : table.Fits machine.memory :=
  Nat.le_trans paged (ready.whole _ listed)

/-! ### Laying out rings -/

theorem create_table (ready : Ready placed pages machine) (listed : page ∈ pages) {length : Nat}
    (paged : length * Limits.descriptorSize ≤ Limits.pageSize) :
    (DescriptorTable.create page length : Step ε _ _).Ends machine
      (fun table after => table = ⟨page, length⟩ ∧ after.Ready placed pages) (fun _ _ => False) := by
  apply DescriptorTable.create_ends (Nat.le_trans paged (ready.whole page listed))
    (DescriptorTable.length_lt_of_paged paged)
  intro after laid
  exact ⟨rfl, ready.writes laid⟩

theorem create_transmitRing (ready : Ready placed pages machine) (listed : table.page ∈ pages)
    (paged : table.byteLength ≤ Limits.pageSize) :
    (TransmitRing.create table : Step ε _ _).Ends machine
      (fun ring after => ring = .blank table ∧ after.Ready placed pages) (fun _ _ => False) := by
  refine (TransmitRing.create_ends (ready.fits listed paged) (ready.knows listed)).mono ?_ (fun _ _ => id)
  rintro ring after ⟨blank, marked, -⟩
  exact ⟨blank, ready.writes marked⟩

theorem bindPool (ready : Ready placed pages machine) (listed : table.page ∈ pages)
    (paged : table.byteLength ≤ Limits.pageSize) (pooled : ∀ page ∈ pool, page ∈ pages) (slot : Nat)
    (inside : slot + pool.length ≤ table.length) :
    (ReceiveRing.bindPool table slot pool : Step ε _ _).Ends machine (fun _ after => after.Ready placed pages)
      (fun _ _ => False) := by
  induction pool generalizing slot machine with
  | nil => exact ready
  | cons page rest ih =>
    rw [List.length_cons] at inside
    have whole := ready.whole page (pooled page (List.mem_cons_self ..))
    have long : ¬ (machine.memory.page page).size < Limits.receiveBuffer :=
      Nat.not_lt.mpr (Nat.le_trans (by decide) whole)
    have cleared := ready.overwrite page 0 (List.replicate (machine.memory.page page).size 0)
    unfold ReceiveRing.bindPool
    simp only [Step.ends_bind, Machine.ends_sizeOf, Step.ends_ite, Step.ends_violate]
    refine ⟨fun short => long short, fun _ => ?_⟩
    rw [Machine.ends_fill 0 (Nat.le_of_eq (Nat.zero_add _)), Machine.ends_baseOf,
      DescriptorTable.ends_writeReceive (cleared.fits listed paged) (by omega)]
    exact ih (cleared.overwrite ..) (fun other among => pooled other (List.mem_cons_of_mem _ among)) _ (by omega)

theorem create_receiveRing (ready : Ready placed pages machine) (listed : table.page ∈ pages)
    (paged : table.byteLength ≤ Limits.pageSize) (pooled : ∀ page ∈ pool, page ∈ pages)
    (whole : pool.length = table.length) :
    (ReceiveRing.create table pool : Step ε _ _).Ends machine
      (fun ring after => ring = .blank table pool ∧ after.Ready placed pages) (fun _ _ => False) := by
  unfold ReceiveRing.create
  simp only [Step.ends_bind, Step.ends_ite, Step.ends_violate, Step.ends_pure]
  refine ⟨fun wrong => wrong whole, fun _ => ?_⟩
  exact (ready.bindPool listed paged pooled 0 (by omega)).mono (fun _ _ ready => ⟨rfl, ready⟩) (fun _ _ => id)

end Machine.Ready

/-! ### Registers -/

variable [RegisterBus δ]

/-- A device that, once it is in place, answers every access inside the register window. What stands in its high
address register only changes when that register is written. -/
structure Register.File (placed : δ → Prop) (high : δ → UInt32) : Prop where
  load : ∀ device offset, placed device → offset % 4 = 0 → offset + 4 ≤ Register.windowSize →
    ∃ word next, RegisterBus.load device offset = .ok (word, next) ∧ placed next ∧ high next = high device ∧
      (offset = Register.addressHigh.offset → word = high device)
  store : ∀ device offset word, placed device → offset % 4 = 0 → offset + 4 ≤ Register.windowSize →
    ∃ next, RegisterBus.store device offset word = .ok next ∧ placed next ∧
      (offset ≠ Register.addressHigh.offset → high next = high device)

theorem Register.inside (register : Register) :
    register.offset % 4 = 0 ∧ register.offset + 4 ≤ Register.windowSize := by
  cases register <;> decide

namespace Register.File

variable (file : Register.File placed high)
include file

theorem read_ends (ready : machine.Ready placed pages) (register : Register) :
    (register.read : Step ε _ _).Ends machine
      (fun word after => after.Ready placed pages ∧ high after.device = high machine.device ∧
        (register = .addressHigh → word = high machine.device))
      (fun _ _ => False) := by
  obtain ⟨aligned, short⟩ := register.inside
  obtain ⟨word, next, answered, there, same, told⟩ := file.load machine.device register.offset ready.placed aligned short
  unfold Register.read Machine.load Step.Ends
  dsimp only
  rw [answered]
  exact ⟨⟨there, ready.whole⟩, same, fun here => told (here ▸ rfl)⟩

theorem store_ends (ready : machine.Ready placed pages) {offset : Nat} (word : UInt32) (aligned : offset % 4 = 0)
    (short : offset + 4 ≤ Register.windowSize) :
    (Machine.store offset word : Step ε _ _).Ends machine
      (fun _ after => after.Ready placed pages ∧
        (offset ≠ Register.addressHigh.offset → high after.device = high machine.device))
      (fun _ _ => False) := by
  obtain ⟨next, answered, there, same⟩ := file.store machine.device offset word ready.placed aligned short
  unfold Machine.store Step.Ends
  dsimp only
  rw [answered]
  exact ⟨⟨there, ready.whole⟩, same⟩

theorem write_ends (ready : machine.Ready placed pages) (register : Register) (word : UInt32) :
    (register.write word : Step ε _ _).Ends machine
      (fun _ after => after.Ready placed pages ∧
        (register ≠ .addressHigh → high after.device = high machine.device))
      (fun _ _ => False) := by
  obtain ⟨aligned, short⟩ := register.inside
  refine (file.store_ends ready word aligned short).mono ?_ (fun _ _ => id)
  rintro _ after ⟨still, same⟩
  exact ⟨still, fun other => same fun here => other (Register.offset_injective here)⟩

theorem write_ready {good : Unit → Machine δ → Prop} (ready : machine.Ready placed pages) (register : Register)
    (word : UInt32) (next : ∀ after, after.Ready placed pages → good () after) :
    (register.write word : Step ε _ _).Ends machine good (fun _ _ => False) :=
  (file.write_ends ready register word).mono (fun _ after written => next after written.1) (fun _ _ => id)

theorem setBits_ends (ready : machine.Ready placed pages) (register : Register) (mask : UInt32) :
    (register.setBits mask : Step ε _ _).Ends machine (fun _ after => after.Ready placed pages)
      (fun _ _ => False) := by
  unfold Register.setBits
  rw [Step.ends_bind]
  refine (file.read_ends ready register).mono ?_ (fun _ _ => id)
  rintro word after ⟨ready, -⟩
  exact file.write_ready ready _ _ fun _ => id

/-! ### Bringing up -/

theorem disable_ends (ready : machine.Ready placed pages) :
    (Step.carrying .masked Interrupts.disable : Step ε _ _).Ends machine
      (fun _ after => after.Ready placed pages ∧ high after.device = high machine.device) (fun _ _ => False) := by
  unfold Interrupts.disable
  simp only [Step.ends_carrying, Step.ends_bind, Step.ends_second, Step.ends_first, Step.ends_modify]
  refine (file.write_ends ready .maskClear _).mono ?_ (fun _ _ => id)
  rintro _ after ⟨still, same⟩
  exact ⟨still, same (by decide)⟩

theorem enable_ends (ready : machine.Ready placed pages) (interrupts : Interrupts) (cause : Cause) :
    (Step.carrying interrupts (Interrupts.enable cause) : Step ε _ _).Ends machine
      (fun _ after => after.Ready placed pages) (fun _ _ => False) := by
  unfold Interrupts.enable
  simp only [Step.ends_carrying, Step.ends_bind, Step.ends_second, Step.ends_first, Step.ends_modify, Step.ends_get,
    Machine.ends_note]
  apply file.write_ready ready
  intro after still
  exact { still with }

theorem settleMac_ends (ready : machine.Ready placed pages) (mac : Option MacAddress) :
    (Controller.settleMac mac).Ends machine
      (fun _ after => after.Ready placed pages ∧
        (mac ≠ none ∨ high machine.device &&& Register.addressValid ≠ 0))
      (fun stop _ => stop = .refused .noMacAddress ∧ mac = none ∧
        high machine.device &&& Register.addressValid = 0) := by
  unfold Controller.settleMac
  cases mac with
  | some mac =>
    simp only [Step.ends_bind, Machine.ends_note, Step.ends_pure]
    refine (file.write_ends ready .addressLow _).mono ?_ (fun _ _ => False.elim)
    rintro _ low ⟨ready, -⟩
    refine (file.write_ends ready .addressHigh _).mono ?_ (fun _ _ => False.elim)
    rintro _ written ⟨ready, -⟩
    exact ⟨{ ready with }, .inl (Option.some_ne_none mac)⟩
  | none =>
    simp only [Step.ends_bind]
    refine (file.read_ends ready .addressLow).mono ?_ (fun _ _ => False.elim)
    rintro low seen ⟨ready, same, -⟩
    refine (file.read_ends ready .addressHigh).mono ?_ (fun _ _ => False.elim)
    rintro _ last ⟨ready, -, told⟩
    obtain rfl := told rfl
    rw [same]
    by_cases valid : high machine.device &&& Register.addressValid = 0
    · simp only [MacAddress.ofWords?, if_pos valid]
      exact ⟨rfl, trivial, valid⟩
    · simp only [MacAddress.ofWords?, if_neg valid, Step.ends_bind, Machine.ends_note, Step.ends_pure]
      exact ⟨{ ready with }, .inr valid⟩

theorem clearMulticast_ends (ready : machine.Ready placed pages) (index : Nat) {count : Nat}
    (inside : index + count ≤ Register.multicastEntries) :
    (Controller.clearMulticast index count).Ends machine (fun _ after => after.Ready placed pages)
      (fun _ _ => False) := by
  induction count generalizing index machine with
  | zero => exact ready
  | succ count ih =>
    unfold Controller.clearMulticast Register.writeMulticast
    rw [Step.ends_bind, if_pos (by omega)]
    have begins : Register.multicastTable.offset = 0x5200 := rfl
    have window : Register.windowSize = 0x5408 := rfl
    unfold Register.multicastEntries at inside
    refine (file.store_ends ready 0 (by omega) (by omega)).mono ?_ (fun _ _ => id)
    rintro _ after ⟨ready, -⟩
    exact ih ready (index + 1) (by unfold Register.multicastEntries; omega)

theorem program_transmit (ready : machine.Ready placed pages) (ring : TransmitRing) :
    (ring.program : Step ε _ _).Ends machine (fun _ after => after.Ready placed pages) (fun _ _ => False) := by
  unfold TransmitRing.program
  simp only [Step.ends_bind, Machine.ends_baseOf]
  apply file.write_ready ready
  intro _ ready
  apply file.write_ready ready
  intro _ ready
  apply file.write_ready ready
  intro _ ready
  apply file.write_ready ready
  intro _ ready
  exact file.write_ready ready _ _ fun _ => id

theorem program_receive (ready : machine.Ready placed pages) (ring : ReceiveRing) (several : ring.capacity ≠ 0) :
    (ring.program : Step ε _ _).Ends machine (fun _ after => after.Ready placed pages) (fun _ _ => False) := by
  unfold ReceiveRing.program
  simp only [Step.ends_bind, Machine.ends_baseOf, Step.ends_ite, Step.ends_violate]
  apply file.write_ready ready
  intro _ ready
  apply file.write_ready ready
  intro _ ready
  apply file.write_ready ready
  intro _ ready
  apply file.write_ready ready
  intro _ ready
  exact ⟨several, fun _ => file.write_ready ready _ _ fun _ => id⟩

end Register.File

end PacketPath
