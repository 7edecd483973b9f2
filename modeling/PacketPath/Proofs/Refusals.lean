import PacketPath.Ring.Receive
import PacketPath.Ring.Transmit
import PacketPath.Proofs.Machine

/-! What steps can refuse with. A broken precondition or a cut-off wait may end a step as well; only its
refusals are looked at here, and from every state, so that nothing has to be known of the machine. -/

set_option autoImplicit false

namespace PacketPath

namespace Step

variable {ε σ τ α β : Type} {allowed : ε → Prop}

def RefusesOnly (allowed : ε → Prop) (step : Step ε σ α) : Prop :=
  ∀ state, step.Ends state (fun _ _ => True) (fun stop _ => ∀ error, stop = .refused error → allowed error)

namespace RefusesOnly

theorem pure (value : α) : RefusesOnly allowed (Pure.pure value : Step ε σ α) :=
  fun _ => trivial

theorem get : RefusesOnly allowed (MonadState.get : Step ε σ σ) :=
  fun _ => trivial

theorem modify (change : σ → σ) : RefusesOnly allowed (modify change : Step ε σ PUnit) :=
  fun _ => trivial

theorem violate (violation : Violation) : RefusesOnly allowed (Step.violate violation : Step ε σ α) := by
  rintro state _ ⟨⟩

theorem bind {first : Step ε σ β} {rest : β → Step ε σ α} (start : RefusesOnly allowed first)
    (later : ∀ value, RefusesOnly allowed (rest value)) : RefusesOnly allowed (first >>= rest) := by
  intro state
  rw [ends_bind]
  exact (start state).mono (fun value after _ => later value after) (fun _ _ => id)

theorem ite {condition : Prop} [Decidable condition] {one other : Step ε σ α}
    (holds : RefusesOnly allowed one) (fails : RefusesOnly allowed other) :
    RefusesOnly allowed (if condition then one else other) := by
  intro state
  rw [ends_ite]
  exact ⟨fun _ => holds state, fun _ => fails state⟩

theorem inspect (query : σ → Except Violation α) : RefusesOnly allowed (Step.inspect query : Step ε σ α) := by
  intro state
  rw [ends_inspect]
  refine ⟨fun _ _ => trivial, ?_⟩
  rintro _ _ _ ⟨⟩

theorem within {part : σ → τ} {put : σ → τ → σ} {step : Step ε τ α} (inner : RefusesOnly allowed step) :
    RefusesOnly allowed (Step.within part put step) := by
  intro state
  rw [ends_within]
  exact inner (part state)

theorem first {step : Step ε σ α} (inner : RefusesOnly allowed step) :
    RefusesOnly allowed (Step.first step : Step ε (σ × τ) α) :=
  inner.within

theorem second {step : Step ε τ α} (inner : RefusesOnly allowed step) :
    RefusesOnly allowed (Step.second step : Step ε (σ × τ) α) :=
  inner.within

theorem forM {items : List β} {step : β → Step ε σ PUnit} (each : ∀ item, RefusesOnly allowed (step item)) :
    RefusesOnly allowed (items.forM step) := by
  rw [List.forM_eq_forM]
  induction items with
  | nil => exact .pure _
  | cons item rest ih =>
    rw [List.forM_cons]
    exact .bind (each item) fun _ => ih

theorem ends {step : Step ε σ α} {state : σ} {good : α → σ → Prop} {reason : ε → σ → Prop}
    (never : step.RefusesOnly fun _ => False) (yields : ∀ value after, step state = .ok value after → good value after) :
    step.Ends state good fun stop after => ∀ error, stop = .refused error → reason error after := by
  refine ((never state).and (ends_self step state)).mono ?_ ?_
  · intro value after ended
    exact yields value after ended.2
  · intro stop after stopped error refused
    exact (stopped.1 error refused).elim

end RefusesOnly

end Step

open Step

variable {δ ε : Type} {allowed : ε → Prop}

/-! ### Tables and registers

None of these refuses: whatever stands in their way is a broken precondition. -/

namespace Machine

theorem note_refuses (level : Level) (body : String) :
    RefusesOnly allowed (note level body : Step ε (Machine δ) Unit) :=
  fun _ => trivial

theorem changeMemory_refuses (change : Memory → Memory) :
    RefusesOnly allowed (changeMemory change : Step ε (Machine δ) Unit) :=
  fun _ => trivial

theorem readBytes_refuses (id : PageId) (offset length : Nat) :
    RefusesOnly allowed (readBytes id offset length : Step ε (Machine δ) (List UInt8)) :=
  .bind (.inspect _) fun _ => .bind .get fun _ => .pure _

theorem writeBytes_refuses (id : PageId) (offset : Nat) (data : List UInt8) :
    RefusesOnly allowed (writeBytes id offset data : Step ε (Machine δ) Unit) :=
  .bind (.inspect _) fun _ => changeMemory_refuses _

end Machine

theorem Register.write_refuses [RegisterBus δ] (register : Register) (word : UInt32) :
    RefusesOnly allowed (register.write word : Step ε (Machine δ) Unit) := by
  intro machine
  unfold Step.Ends Register.write Machine.store
  cases RegisterBus.store machine.device register.offset word with
  | ok device => trivial
  | error violation =>
    rintro _ ⟨⟩

namespace DescriptorTable

theorem check_refuses (table : DescriptorTable) (slot : Nat) :
    RefusesOnly allowed (table.check slot : Step ε (Machine δ) Unit) :=
  .ite (.pure _) (.violate _)

theorem transmitStatus_refuses (table : DescriptorTable) (slot : Nat) :
    RefusesOnly allowed (table.transmitStatus slot : Step ε (Machine δ) TransmitStatus) :=
  .bind
    (.bind (check_refuses table slot) fun _ =>
      .bind (.bind (Machine.readBytes_refuses _ _ _) fun _ => .pure _) fun _ => .pure _)
    fun _ => .pure _

theorem writeTransmit_refuses (table : DescriptorTable) (slot : Nat) (descriptor : TransmitDescriptor) :
    RefusesOnly allowed (table.writeTransmit slot descriptor : Step ε (Machine δ) Unit) :=
  .bind (check_refuses table slot) fun _ => Machine.writeBytes_refuses _ _ _

theorem receiveStatus_refuses (table : DescriptorTable) (slot : Nat) :
    RefusesOnly allowed (table.receiveStatus slot : Step ε (Machine δ) ReceiveStatus) :=
  .bind
    (.bind (check_refuses table slot) fun _ =>
      .bind (.bind (Machine.readBytes_refuses _ _ _) fun _ => .pure _) fun _ => .pure _)
    fun _ => .pure _

theorem readReceive_refuses (table : DescriptorTable) (slot : Nat) :
    RefusesOnly allowed (table.readReceive slot : Step ε (Machine δ) ReceiveDescriptor) :=
  .bind (.bind (check_refuses table slot) fun _ => Machine.readBytes_refuses _ _ _) fun _ => .pure _

theorem writeReceive_refuses (table : DescriptorTable) (slot : Nat) (descriptor : ReceiveDescriptor) :
    RefusesOnly allowed (table.writeReceive slot descriptor : Step ε (Machine δ) Unit) :=
  .bind (check_refuses table slot) fun _ => Machine.writeBytes_refuses _ _ _

end DescriptorTable

/-! ### Polling -/

namespace ReceiveRing

theorem recycle_refuses [RegisterBus δ] (slot : Nat) :
    RefusesOnly allowed (recycle slot : Step ε (ReceiveRing × Machine δ) Unit) := by
  refine .bind .get fun state => ?_
  exact .bind (.inspect _) fun _ =>
    .bind (.second fun _ => trivial) fun _ =>
    .bind (.second (DescriptorTable.writeReceive_refuses _ _ _)) fun _ =>
    .bind (.second (Register.write_refuses _ _)) fun _ =>
    .bind (.first (.modify _)) fun _ => .ite (.second (Machine.note_refuses _ _)) (.pure _)

end ReceiveRing

/-! ### Giving a page back -/

namespace TransmitRing

theorem release_refuses (slot : Nat) : RefusesOnly allowed (release slot : Step ε (TransmitRing × Machine δ) Unit) := by
  refine .bind .get fun state => ?_
  dsimp only
  cases state.1.binding slot with
  | none => exact .pure _
  | some page =>
    refine .bind (.first (.modify _)) fun _ => .bind (.second (DescriptorTable.transmitStatus_refuses _ _)) ?_
    intro status after
    simp [count]

end TransmitRing

end PacketPath
