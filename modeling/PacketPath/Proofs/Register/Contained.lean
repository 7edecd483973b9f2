import PacketPath.Proofs.Register.File

/-! Steps that stay inside the register window. Whatever such a step does, each of its accesses is to a register or to
an entry of the multicast table, so none is stopped at the window. There is one rule for each way of building a step,
and one for each step of a machine. -/

set_option autoImplicit false

namespace PacketPath

/-! ### Listed offsets -/

/-- A register is at the offset, or an entry of the multicast table. -/
def Register.Listed (offset : Nat) : Prop :=
  (∃ register ∈ all, offset = register.offset) ∨
    ∃ index < multicastEntries, offset = multicastTable.offset + index * 4

theorem Register.listed (register : Register) : Listed register.offset :=
  .inl ⟨register, mem_all register, rfl⟩

theorem Register.listed_multicast {index : Nat} (inside : index < multicastEntries) :
    Listed (multicastTable.offset + index * 4) :=
  .inr ⟨index, inside, rfl⟩

theorem Register.Listed.inside {offset : Nat} (listed : Listed offset) : offset % 4 = 0 ∧ offset + 4 ≤ windowSize := by
  rcases listed with ⟨register, -, rfl⟩ | ⟨index, few, rfl⟩
  · exact register.inside
  · unfold multicastEntries at few
    change (0x5200 + index * 4) % 4 = 0 ∧ 0x5200 + index * 4 + 4 ≤ 0x5408
    omega

def Stop.AtWindow {ε : Type} : Stop ε → Prop
  | .violated (.windowAccess ..) => True
  | _ => False

theorem Stop.atWindow_map {ε ε' : Type} (reword : ε → ε') (stop : Stop ε) :
    (stop.map reword).AtWindow ↔ stop.AtWindow := by
  cases stop with
  | refused error => rfl
  | violated violation => cases violation <;> rfl
  | unfinished => rfl

/-! ### Rules -/

namespace Step

variable {ε ε' σ τ α β : Type}

/-- From every state inside it ends inside, and it is not stopped at the window. -/
def Contained (inside : σ → Prop) (step : Step ε σ α) : Prop :=
  ∀ state, inside state → step.Ends state (fun _ => inside) (fun stop after => ¬ stop.AtWindow ∧ inside after)

namespace Contained

variable {inside : σ → Prop} {step : Step ε σ α}

theorem pure (value : α) : (Pure.pure value : Step ε σ α).Contained inside :=
  fun _ => id

theorem get : (MonadState.get : Step ε σ σ).Contained inside :=
  fun _ => id

theorem refuse (error : ε) : (Step.refuse error : Step ε σ α).Contained inside :=
  fun _ there => ⟨id, there⟩

theorem bind {first : Step ε σ β} {rest : β → Step ε σ α} (one : first.Contained inside)
    (other : ∀ value, (rest value).Contained inside) : (first >>= rest).Contained inside := by
  intro state there
  rw [Step.ends_bind]
  exact (one state there).mono (fun value after => other value after) (fun _ _ => id)

theorem ends_bind {first : Step ε σ β} {rest : β → Step ε σ α} {state : σ} {good : α → σ → Prop}
    (contained : first.Contained inside) (there : inside state)
    (later : ∀ value after, inside after →
      (rest value).Ends after good (fun stop after => ¬ stop.AtWindow ∧ inside after)) :
    (first >>= rest).Ends state good (fun stop after => ¬ stop.AtWindow ∧ inside after) := by
  rw [Step.ends_bind]
  exact (contained state there).mono later (fun _ _ => id)

theorem ite {condition : Prop} {_ : Decidable condition} {one other : Step ε σ α} (holds : one.Contained inside)
    (fails : other.Contained inside) : (if condition then one else other).Contained inside := by
  split
  · exact holds
  · exact fails

theorem guard {condition : Prop} {_ : Decidable condition} {halt : Step ε σ Unit} {rest : Unit → Step ε σ α}
    (halts : halt.Contained inside) (goes : ∀ value, (rest value).Contained inside) :
    (if condition then halt >>= rest else rest ()).Contained inside :=
  .ite (.bind halts goes) (goes ())

theorem guard_two {condition : Prop} {_ : Decidable condition} {one : Step ε σ β} {two : β → Step ε σ Unit}
    {rest : Unit → Step ε σ α} (begins : one.Contained inside) (halts : ∀ value, (two value).Contained inside)
    (goes : ∀ value, (rest value).Contained inside) :
    (if condition then one >>= fun value => two value >>= rest else rest ()).Contained inside :=
  .ite (.bind begins fun value => .bind (halts value) goes) (goes ())

theorem refuse_bind (error : ε) (rest : β → Step ε σ α) : (Step.refuse error >>= rest).Contained inside :=
  fun _ there => ⟨not_false, there⟩

theorem violate {violation : Violation} (elsewhere : ¬ (Stop.violated violation : Stop ε).AtWindow) :
    (Step.violate violation : Step ε σ α).Contained inside :=
  fun _ there => ⟨elsewhere, there⟩

theorem inspect {query : σ → Except Violation α}
    (elsewhere : ∀ state violation, query state = .error violation → ¬ (Stop.violated violation : Stop ε).AtWindow) :
    (Step.inspect query : Step ε σ α).Contained inside := by
  intro state there
  rw [ends_inspect]
  exact ⟨fun _ _ => there, fun violation found => ⟨elsewhere state violation found, there⟩⟩

theorem within {inner : τ → Prop} {part : σ → τ} {put : σ → τ → σ} {step : Step ε τ α}
    (contained : step.Contained inner) (enters : ∀ state, inside state → inner (part state))
    (leaves : ∀ state after, inside state → inner after → inside (put state after)) :
    (Step.within part put step).Contained inside := by
  intro state there
  rw [ends_within]
  exact (contained _ (enters state there)).mono (fun _ after => leaves state after there)
    (fun _ after stopped => ⟨stopped.1, leaves state after there stopped.2⟩)

theorem second {inside : τ → Prop} {step : Step ε τ α} (contained : step.Contained inside) :
    (Step.second step : Step ε (σ × τ) α).Contained fun pair => inside pair.2 :=
  contained.within (fun _ => id) (fun _ _ _ => id)

theorem first {inside : τ → Prop} {step : Step ε σ α} (contained : step.Contained fun _ => True) :
    (Step.first step : Step ε (σ × τ) α).Contained fun pair => inside pair.2 :=
  contained.within (fun _ _ => trivial) (fun _ _ there _ => there)

theorem modify (change : σ → σ) : (modify change : Step ε σ PUnit).Contained fun _ => True :=
  fun _ => id

theorem carrying {inside : τ → Prop} {step : Step ε (σ × τ) α} (part : σ)
    (contained : step.Contained fun pair => inside pair.2) : (Step.carrying part step).Contained inside := by
  intro state there
  rw [ends_carrying]
  exact contained (part, state) there

theorem thenIfStopped {change : σ → σ} (contained : step.Contained inside)
    (kept : ∀ state, inside state → inside (change state)) : (step.thenIfStopped change).Contained inside := by
  intro state there
  rw [ends_thenIfStopped]
  exact (contained state there).mono (fun _ _ => id) (fun _ after stopped => ⟨stopped.1, kept after stopped.2⟩)

theorem mapRefusal {reword : ε → ε'} (contained : step.Contained inside) :
    (step.mapRefusal reword).Contained inside := by
  intro state there
  rw [ends_mapRefusal]
  refine (contained state there).mono (fun _ _ => id) (fun stop after stopped => ⟨?_, stopped.2⟩)
  rw [Stop.atWindow_map]
  exact stopped.1

end Contained

end Step

/-! ### Steps of a machine -/

open Step (Contained)

variable {δ ε τ : Type} {placed : δ → Prop}

def Machine.Placed (placed : δ → Prop) (machine : Machine δ) : Prop :=
  placed machine.device

namespace Machine

theorem note_contained (level : Level) (body : String) :
    (note level body : Step ε _ _).Contained (Placed placed) :=
  fun _ => id

theorem changeMemory_contained (change : Memory → Memory) :
    (changeMemory change : Step ε _ _).Contained (Placed placed) :=
  fun _ => id

theorem baseOf_contained (id : PageId) : (baseOf id : Step ε _ _).Contained (Placed placed) :=
  fun _ there => there

theorem sizeOf_contained (id : PageId) : (sizeOf id : Step ε _ _).Contained (Placed placed) :=
  fun _ there => there

theorem access_contained (id : PageId) (offset length : Nat) :
    (access id offset length : Step ε _ _).Contained (Placed placed) := by
  refine .inspect fun machine violation found => ?_
  unfold Memory.access Page.outside at found
  dsimp only at found
  split at found <;> cases found
  exact not_false

theorem readBytes_contained (id : PageId) (offset length : Nat) :
    (readBytes id offset length : Step ε _ _).Contained (Placed placed) :=
  .bind (access_contained _ _ _) fun _ => .bind .get fun _ => .pure _

theorem writeBytes_contained (id : PageId) (offset : Nat) (data : List UInt8) :
    (writeBytes id offset data : Step ε _ _).Contained (Placed placed) :=
  .bind (access_contained _ _ _) fun _ => changeMemory_contained _

theorem fill_contained (id : PageId) (offset length : Nat) (value : UInt8) :
    (fill id offset length value : Step ε _ _).Contained (Placed placed) :=
  .bind (access_contained _ _ _) fun _ => changeMemory_contained _

theorem copy_contained (target : PageId) (targetOffset : Nat) (source : PageId) (sourceOffset length : Nat) :
    (copy target targetOffset source sourceOffset length : Step ε _ _).Contained (Placed placed) :=
  .bind (access_contained _ _ _) fun _ => .bind (access_contained _ _ _) fun _ => changeMemory_contained _

end Machine

theorem Fragment.address_contained (fragment : Fragment) :
    (fragment.address : Step ε _ _).Contained (Machine.Placed placed) := by
  refine .inspect fun machine violation found => ?_
  obtain ⟨-, rfl⟩ := Address.advance_eq_error_iff.mp found
  exact not_false

/-! ### Tables -/

namespace DescriptorTable

theorem check_contained (table : DescriptorTable) (slot : Nat) :
    (table.check slot : Step ε _ _).Contained (Machine.Placed placed) :=
  .ite (.pure _) (.violate not_false)

theorem readRaw_contained (table : DescriptorTable) (slot : Nat) :
    (table.readRaw slot : Step ε _ _).Contained (Machine.Placed placed) :=
  .bind (check_contained _ _) fun _ => Machine.readBytes_contained _ _ _

theorem writeRaw_contained (table : DescriptorTable) (slot : Nat) (raw : List UInt8) :
    (table.writeRaw slot raw : Step ε _ _).Contained (Machine.Placed placed) :=
  .bind (check_contained _ _) fun _ => Machine.writeBytes_contained _ _ _

theorem readByte_contained (table : DescriptorTable) (slot offset : Nat) :
    (table.readByte slot offset : Step ε _ _).Contained (Machine.Placed placed) :=
  .bind (check_contained _ _) fun _ =>
    .bind (.bind (Machine.readBytes_contained _ _ _) fun _ => .pure _) fun _ => .pure _

theorem transmitStatus_contained (table : DescriptorTable) (slot : Nat) :
    (table.transmitStatus slot : Step ε _ _).Contained (Machine.Placed placed) :=
  .bind (readByte_contained _ _ _) fun _ => .pure _

theorem receiveStatus_contained (table : DescriptorTable) (slot : Nat) :
    (table.receiveStatus slot : Step ε _ _).Contained (Machine.Placed placed) :=
  .bind (readByte_contained _ _ _) fun _ => .pure _

theorem readReceive_contained (table : DescriptorTable) (slot : Nat) :
    (table.readReceive slot : Step ε _ _).Contained (Machine.Placed placed) :=
  .bind (readRaw_contained _ _) fun _ => .pure _

theorem create_contained (page : PageId) (length : Nat) :
    (create page length : Step ε _ _).Contained (Machine.Placed placed) := by
  unfold create
  refine .guard (.violate not_false) fun _ => .bind (Machine.sizeOf_contained _) fun size => ?_
  exact .guard (.violate not_false) fun _ => .bind (Machine.fill_contained _ _ _ _) fun _ => .pure _

end DescriptorTable

/-! ### Registers -/

structure Register.Fence [RegisterBus δ] (placed : δ → Prop) : Prop where
  loads : ∀ device offset, placed device → Register.Listed offset →
    ∃ word next, RegisterBus.load device offset = .ok (word, next) ∧ placed next
  stores : ∀ device offset word, placed device → Register.Listed offset →
    ∃ next, RegisterBus.store device offset word = .ok next ∧ placed next

namespace Register.Fence

variable [RegisterBus δ] (fence : Register.Fence placed)
include fence

theorem read (register : Register) : (register.read : Step ε _ _).Contained (Machine.Placed placed) := by
  intro machine there
  obtain ⟨word, next, answered, stays⟩ := fence.loads machine.device register.offset there register.listed
  unfold Register.read Machine.load Step.Ends
  dsimp only
  rw [answered]
  exact stays

theorem store {offset : Nat} (listed : Listed offset) (word : UInt32) :
    (Machine.store offset word : Step ε _ _).Contained (Machine.Placed placed) := by
  intro machine there
  obtain ⟨next, answered, stays⟩ := fence.stores machine.device offset word there listed
  unfold Machine.store Step.Ends
  dsimp only
  rw [answered]
  exact stays

theorem write (register : Register) (word : UInt32) :
    (register.write word : Step ε _ _).Contained (Machine.Placed placed) :=
  fence.store register.listed word

theorem setBits (register : Register) (mask : UInt32) :
    (register.setBits mask : Step ε _ _).Contained (Machine.Placed placed) :=
  .bind (fence.read register) fun _ => fence.write register _

theorem writeMulticast (index : Nat) (word : UInt32) :
    (writeMulticast index word : Step ε _ _).Contained (Machine.Placed placed) := by
  unfold Register.writeMulticast
  split
  case isTrue few => exact fence.store (listed_multicast few) word
  case isFalse => exact .violate not_false

end Register.Fence

end PacketPath
