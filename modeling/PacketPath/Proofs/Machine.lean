import PacketPath.Host.Emulator
import PacketPath.Proofs.Step
import PacketPath.Proofs.Memory.Chart
import PacketPath.Proofs.Memory.Copies

/-! How the steps of a machine end. Accesses that a page covers go through, the log only grows, and
the emulated device answers every register access. -/

set_option autoImplicit false

namespace PacketPath.Machine

variable {δ ε : Type} {machine : Machine δ} {bad : Stop ε → Machine δ → Prop}

@[simp] theorem ends_note {good : Unit → Machine δ → Prop} (level : Level) (body : String) :
    (note level body).Ends machine good bad ↔
      good () { machine with log := machine.log.push ⟨level, body⟩ } :=
  Iff.rfl

@[simp] theorem ends_changeMemory {good : Unit → Machine δ → Prop} (change : Memory → Memory) :
    (changeMemory change).Ends machine good bad ↔
      good () { machine with memory := change machine.memory } :=
  Iff.rfl

@[simp] theorem ends_retain {good : Unit → Machine δ → Prop} (id : PageId) :
    (retain id).Ends machine good bad ↔ good () { machine with memory := machine.memory.retain id } :=
  Iff.rfl

@[simp] theorem ends_release {good : Unit → Machine δ → Prop} (id : PageId) :
    (release id).Ends machine good bad ↔ good () { machine with memory := machine.memory.release id } :=
  Iff.rfl

@[simp] theorem ends_baseOf {good : UInt64 → Machine δ → Prop} (id : PageId) :
    (baseOf id).Ends machine good bad ↔ good (machine.memory.page id).base machine :=
  Iff.rfl

@[simp] theorem ends_sizeOf {good : Nat → Machine δ → Prop} (id : PageId) :
    (sizeOf id).Ends machine good bad ↔ good (machine.memory.page id).size machine :=
  Iff.rfl

variable {id : PageId} {offset length : Nat}

theorem ends_access {good : Unit → Machine δ → Prop}
    (covered : offset + length ≤ (machine.memory.page id).size) :
    (access id offset length).Ends machine good bad ↔ good () machine := by
  have admitted : machine.memory.access id offset length = .ok () := by
    rw [Memory.access, if_pos (Page.covers_iff.mpr covered)]
  simp only [access, Step.Ends, Step.inspect, admitted]

theorem ends_access_of_outside {good : Unit → Machine δ → Prop}
    (outside : (machine.memory.page id).size < offset + length) :
    (access id offset length).Ends machine good bad ↔
      bad (.violated ((machine.memory.page id).outside offset length)) machine := by
  have missed : (machine.memory.page id).covers offset length = false := by
    rw [← Bool.not_eq_true, Page.covers_iff]
    omega
  unfold access
  rw [Step.ends_inspect]
  simp [Memory.access, missed]

theorem ends_readBytes {good : List UInt8 → Machine δ → Prop}
    (covered : offset + length ≤ (machine.memory.page id).size) :
    (readBytes id offset length).Ends machine good bad ↔
      good (machine.memory.slice id offset length) machine := by
  unfold readBytes
  rw [Step.ends_bind, ends_access covered]
  simp only [Step.ends_bind, Step.ends_get, Step.ends_pure]

theorem ends_writeBytes {good : Unit → Machine δ → Prop} {data : List UInt8}
    (covered : offset + data.length ≤ (machine.memory.page id).size) :
    (writeBytes id offset data).Ends machine good bad ↔
      good () { machine with memory := machine.memory.overwrite id offset data } := by
  unfold writeBytes
  rw [Step.ends_bind, ends_access covered, ends_changeMemory]

theorem writeBytes_cases (machine : Machine δ) (id : PageId) (offset : Nat) (data : List UInt8) :
    offset + data.length ≤ (machine.memory.page id).size ∧
        (writeBytes id offset data : Step ε _ _) machine =
          .ok () { machine with memory := machine.memory.overwrite id offset data } ∨
      (machine.memory.page id).size < offset + data.length ∧
        (writeBytes id offset data : Step ε _ _) machine =
          .error (.violated ((machine.memory.page id).outside offset data.length)) machine := by
  rcases Nat.lt_or_ge (machine.memory.page id).size (offset + data.length) with outside | covered
  · refine .inr ⟨outside, Step.Ends.eq_error ?_⟩
    unfold writeBytes
    rw [Step.ends_bind, ends_access_of_outside outside]
    exact ⟨rfl, rfl⟩
  · exact .inl ⟨covered, Step.Ends.eq_ok ((ends_writeBytes covered).mpr ⟨rfl, rfl⟩)⟩

theorem ends_fill {good : Unit → Machine δ → Prop} (value : UInt8)
    (covered : offset + length ≤ (machine.memory.page id).size) :
    (fill id offset length value).Ends machine good bad ↔
      good () { machine with
        memory := machine.memory.overwrite id offset (List.replicate length value) } := by
  unfold fill
  rw [Step.ends_bind, ends_access covered, ends_changeMemory]

theorem ends_copy_covered {good : Unit → Machine δ → Prop} {source : PageId} {sourceOffset : Nat}
    (room : offset + length ≤ (machine.memory.page id).size)
    (covered : sourceOffset + length ≤ (machine.memory.page source).size) :
    (copy id offset source sourceOffset length).Ends machine good bad ↔
      good () { machine with memory := machine.memory.copyBytes id offset source sourceOffset length } := by
  unfold copy
  rw [Step.ends_bind, ends_access room, Step.ends_bind, ends_access covered, ends_changeMemory]

theorem ends_copy {good : Unit → Machine δ → Prop} {source : PageId} {sourceOffset : Nat}
    (apart : source ≠ id) (room : offset + length ≤ (machine.memory.page id).size)
    (covered : sourceOffset + length ≤ (machine.memory.page source).size) :
    (copy id offset source sourceOffset length).Ends machine good bad ↔
      good () { machine with
        memory := machine.memory.overwrite id offset (machine.memory.slice source sourceOffset length) } := by
  rw [ends_copy_covered room covered, Memory.copyBytes_apart apart _ _ covered]

theorem ends_readWord {good : Nat → Machine δ → Prop} {width : Nat}
    (covered : offset + width ≤ (machine.memory.page id).size) :
    (readWord width id offset).Ends machine good bad ↔
      good (Word.ofBytes (machine.memory.slice id offset width)) machine := by
  unfold readWord
  rw [Step.ends_bind, ends_readBytes covered, Step.ends_pure]

theorem ends_writeWord {good : Unit → Machine δ → Prop} {width value : Nat}
    (covered : offset + width ≤ (machine.memory.page id).size) :
    (writeWord width id offset value).Ends machine good bad ↔
      good () { machine with memory := machine.memory.overwrite id offset (Word.bytes width value) } := by
  unfold writeWord
  exact ends_writeBytes (by rwa [Word.length_bytes])

theorem after_fetch (address : UInt64) (length : Nat) (machine : Machine δ) :
    (fetch address length).after machine = machine := by
  unfold Step.after fetch
  rcases machine.memory.locate address length with _ | ⟨_, _⟩ <;> rfl

/-! ### Writing -/

/-- From one machine to another: only pages in scope are written, no handle comes or goes, and the
device does not notice. -/
structure Writes (scope : PageId → Prop) (before after : Machine δ) : Prop where
  changes : before.memory.ChangesWithin scope after.memory
  reachable : after.memory.reachable = before.memory.reachable
  handles : ∀ id, after.memory.handles id = before.memory.handles id
  device : after.device = before.device

namespace Writes

variable {scope : PageId → Prop} {before middle after : Machine δ}

theorem refl (scope : PageId → Prop) (machine : Machine δ) : Writes scope machine machine :=
  ⟨.refl _ _, rfl, fun _ => rfl, rfl⟩

theorem trans (first : Writes scope before middle) (second : Writes scope middle after) :
    Writes scope before after where
  changes := first.changes.trans second.changes
  reachable := second.reachable.trans first.reachable
  handles id := (second.handles id).trans (first.handles id)
  device := second.device.trans first.device

theorem mono {wider : PageId → Prop} (writes : Writes scope before after)
    (covered : ∀ id, scope id → wider id) : Writes wider before after :=
  { writes with changes := writes.changes.mono covered }

theorem overwrite (machine : Machine δ) (inside : scope id) (offset : Nat) (data : List UInt8) :
    Writes scope machine { machine with memory := machine.memory.overwrite id offset data } :=
  ⟨Memory.changes_overwrite _ inside _ _, rfl, fun _ => Memory.handles_overwrite .., rfl⟩

end Writes

end PacketPath.Machine

namespace PacketPath.Register

variable {ε : Type} {machine : Machine Emulator} {bad : Stop ε → Machine Emulator → Prop}

@[simp] theorem ends_write {good : Unit → Machine Emulator → Prop} (register : Register) (word : UInt32) :
    (register.write word).Ends machine good bad ↔
      good () { machine with device := machine.device.store register.offset word } :=
  Iff.rfl

@[simp] theorem ends_read {good : UInt32 → Machine Emulator → Prop} (register : Register) :
    register.read.Ends machine good bad ↔
      good (machine.device.load register.offset).1
        { machine with device := (machine.device.load register.offset).2 } :=
  Iff.rfl

end PacketPath.Register
