import PacketPath.Proofs.Machine
import PacketPath.Proofs.Memory.Alike

/-! Steps from two states that cannot be told apart. Two steps agree when they yield the same value or stop
for the same reason, and leave states that cannot be told apart either. There is one rule for each way of
building a step, and one for each step of a machine that looks through the pages on which the states agree. -/

set_option autoImplicit false

namespace PacketPath

namespace Step

variable {ε ε' σ τ α β : Type} {like : σ → σ → Prop} {one other : σ}

def Agree (like : σ → σ → Prop) (step step' : Step ε σ α) (one other : σ) : Prop :=
  step.Ends one
    (fun value after => step'.Ends other (fun value' after' => value' = value ∧ like after after') (fun _ _ => False))
    (fun stop after => step'.Ends other (fun _ _ => False) (fun stop' after' => stop' = stop ∧ like after after'))

namespace Agree

variable {step step' : Step ε σ α}

theorem cases (agree : Agree like step step' one other) :
    (∃ value after after', step one = .ok value after ∧ step' other = .ok value after' ∧ like after after') ∨
      ∃ stop after after', step one = .error stop after ∧ step' other = .error stop after' ∧ like after after' := by
  unfold Agree Ends at agree
  cases first : step one <;> cases second : step' other <;> rw [first] at agree <;> dsimp only at agree <;>
    rw [second] at agree
  · obtain ⟨rfl, alike⟩ := agree
    exact .inl ⟨_, _, _, rfl, rfl, alike⟩
  · exact agree.elim
  · exact agree.elim
  · obtain ⟨rfl, alike⟩ := agree
    exact .inr ⟨_, _, _, rfl, rfl, alike⟩

theorem of_ok {value : α} {after after' : σ} (first : step one = .ok value after)
    (second : step' other = .ok value after') (alike : like after after') : Agree like step step' one other := by
  unfold Agree
  rw [ends_of_ok first, ends_of_ok second]
  exact ⟨rfl, alike⟩

theorem of_error {stop : Stop ε} {after after' : σ} (first : step one = .error stop after)
    (second : step' other = .error stop after') (alike : like after after') : Agree like step step' one other := by
  unfold Agree
  rw [ends_of_error first, ends_of_error second]
  exact ⟨rfl, alike⟩

theorem pure (value : α) (alike : like one other) :
    Agree like (Pure.pure value : Step ε σ α) (Pure.pure value) one other :=
  of_ok rfl rfl alike

theorem refuse (error : ε) (alike : like one other) :
    Agree like (Step.refuse error : Step ε σ α) (Step.refuse error) one other :=
  of_error rfl rfl alike

theorem violate (violation : Violation) (alike : like one other) :
    Agree like (Step.violate violation : Step ε σ α) (Step.violate violation) one other :=
  of_error rfl rfl alike

theorem mono {looser : σ → σ → Prop} (agree : Agree like step step' one other)
    (covered : ∀ after after', like after after' → looser after after') : Agree looser step step' one other := by
  rcases agree.cases with ⟨value, after, after', ended, ended', alike⟩ | ⟨stop, after, after', ended, ended', alike⟩
  · exact of_ok ended ended' (covered _ _ alike)
  · exact of_error ended ended' (covered _ _ alike)

theorem ends {reached : σ → Prop} (agree : Agree like step step' one other)
    (known : ∀ after after', like after after' → reached after) :
    step.Ends one (fun _ => reached) (fun _ => reached) := by
  rcases agree.cases with ⟨value, after, after', ended, -, alike⟩ | ⟨stop, after, after', ended, -, alike⟩
  · exact (ends_of_ok ended).mpr (known _ _ alike)
  · exact (ends_of_error ended).mpr (known _ _ alike)

theorem bind_of_ok {first first' : Step ε σ β} {rest rest' : β → Step ε σ α} {value : β} {after after' : σ}
    (ended : first one = .ok value after) (ended' : first' other = .ok value after')
    (later : Agree like (rest value) (rest' value) after after') :
    Agree like (first >>= rest) (first' >>= rest') one other := by
  unfold Agree at later ⊢
  simpa only [ends_bind, ends_of_ok ended, ends_of_ok ended'] using later

/-- More may be known of the states on the way than of those at the end. -/
theorem bind_through {middle : σ → σ → Prop} {first first' : Step ε σ β} {rest rest' : β → Step ε σ α}
    (start : Agree middle first first' one other) (stops : ∀ after after', middle after after' → like after after')
    (later : ∀ value after after', middle after after' → Agree like (rest value) (rest' value) after after') :
    Agree like (first >>= rest) (first' >>= rest') one other := by
  rcases start.cases with ⟨value, after, after', ended, ended', alike⟩ | ⟨stop, after, after', ended, ended', alike⟩
  · exact bind_of_ok ended ended' (later value after after' alike)
  · exact of_error (bind_of_error ended _) (bind_of_error ended' _) (stops _ _ alike)

theorem bind {first first' : Step ε σ β} {rest rest' : β → Step ε σ α} (start : Agree like first first' one other)
    (later : ∀ value after after', like after after' → Agree like (rest value) (rest' value) after after') :
    Agree like (first >>= rest) (first' >>= rest') one other :=
  start.bind_through (fun _ _ => id) later

theorem and_ends {left right : σ → Prop} (agree : Agree like step step' one other)
    (ends : step.Ends one (fun _ => left) (fun _ => left))
    (ends' : step'.Ends other (fun _ => right) (fun _ => right)) :
    Agree (fun after after' => like after after' ∧ left after ∧ right after') step step' one other := by
  rcases agree.cases with ⟨value, after, after', ended, ended', alike⟩ | ⟨stop, after, after', ended, ended', alike⟩
  · rw [ends_of_ok ended] at ends
    rw [ends_of_ok ended'] at ends'
    exact of_ok ended ended' ⟨alike, ends, ends'⟩
  · rw [ends_of_error ended] at ends
    rw [ends_of_error ended'] at ends'
    exact of_error ended ended' ⟨alike, ends, ends'⟩

theorem get_bind {rest rest' : σ → Step ε σ α} (later : Agree like (rest one) (rest' other) one other) :
    Agree like (get >>= rest) (get >>= rest') one other :=
  later

theorem ite (condition : Prop) [Decidable condition] {less less' : Step ε σ α}
    (holds : condition → Agree like step step' one other) (fails : ¬ condition → Agree like less less' one other) :
    Agree like (if condition then step else less) (if condition then step' else less') one other := by
  split
  · exact holds ‹_›
  · exact fails ‹_›

theorem inspect {query query' : σ → Except Violation α} (same : query' other = query one) (alike : like one other) :
    Agree like (Step.inspect query : Step ε σ α) (Step.inspect query') one other := by
  cases found : query one with
  | ok value => exact of_ok (by rw [Step.inspect, found]) (by rw [Step.inspect, same, found]) alike
  | error violation => exact of_error (by rw [Step.inspect, found]) (by rw [Step.inspect, same, found]) alike

theorem inspect_bind {query query' : σ → Except Violation β} {rest rest' : β → Step ε σ α}
    (same : query' other = query one) (alike : like one other)
    (later : ∀ value, query one = .ok value → Agree like (rest value) (rest' value) one other) :
    Agree like (Step.inspect query >>= rest) (Step.inspect query' >>= rest') one other := by
  cases found : query one with
  | ok value =>
    have ended : (Step.inspect query : Step ε σ β) one = .ok value one := by rw [Step.inspect, found]
    have ended' : (Step.inspect query' : Step ε σ β) other = .ok value other := by rw [Step.inspect, same, found]
    exact bind_of_ok ended ended' (later value found)
  | error violation =>
    have ended : (Step.inspect query : Step ε σ β) one = .error (.violated violation) one := by rw [Step.inspect, found]
    have ended' : (Step.inspect query' : Step ε σ β) other = .error (.violated violation) other := by
      rw [Step.inspect, same, found]
    exact of_error (bind_of_error ended rest) (bind_of_error ended' rest') alike

theorem mapRefusal {reword : ε → ε'} (agree : Agree like step step' one other) :
    Agree like (step.mapRefusal reword) (step'.mapRefusal reword) one other := by
  rcases agree.cases with ⟨value, after, after', ended, ended', alike⟩ | ⟨stop, after, after', ended, ended', alike⟩
  · exact of_ok (by rw [Step.mapRefusal, ended]) (by rw [Step.mapRefusal, ended']) alike
  · cases stop <;>
      exact of_error (by rw [Step.mapRefusal, ended]) (by rw [Step.mapRefusal, ended']) alike

/-- Steps on a part agree if what becomes of the whole is alike wherever the parts are. -/
theorem within {inner : τ → τ → Prop} {part : σ → τ} {put : σ → τ → σ} {step step' : Step ε τ α}
    (agree : Agree inner step step' (part one) (part other))
    (outer : ∀ after after', inner after after' → like (put one after) (put other after')) :
    Agree like (Step.within part put step) (Step.within part put step') one other := by
  rcases agree.cases with ⟨value, after, after', ended, ended', alike⟩ | ⟨stop, after, after', ended, ended', alike⟩
  · exact of_ok (by rw [Step.within, ended]) (by rw [Step.within, ended']) (outer _ _ alike)
  · exact of_error (by rw [Step.within, ended]) (by rw [Step.within, ended']) (outer _ _ alike)

end Agree

end Step

/-! ### Machines -/

def Emulator.Alike (one other : Emulator) : Prop :=
  ∃ causes, other = { one with causes := causes }

structure Machine.Alike (one other : Machine Emulator) : Prop where
  memory : one.memory.Alike other.memory
  device : one.device.Alike other.device

namespace Emulator.Alike

variable {one other third : Emulator}

theorem refl (device : Emulator) : device.Alike device :=
  ⟨device.causes, rfl⟩

theorem symm (alike : one.Alike other) : other.Alike one := by
  obtain ⟨causes, rfl⟩ := alike
  exact ⟨one.causes, rfl⟩

theorem trans (first : one.Alike other) (second : other.Alike third) : one.Alike third := by
  obtain ⟨_, rfl⟩ := first
  obtain ⟨causes, rfl⟩ := second
  exact ⟨causes, rfl⟩

theorem store (alike : one.Alike other) (offset : Nat) (word : UInt32) :
    (one.store offset word).Alike (other.store offset word) := by
  obtain ⟨causes, rfl⟩ := alike
  unfold Emulator.store
  dsimp only
  split
  · exact ⟨_, rfl⟩
  split
  · exact ⟨_, rfl⟩
  split
  · exact ⟨_, rfl⟩
  split <;> exact ⟨_, rfl⟩

theorem load (device : Emulator) (offset : Nat) : device.Alike (device.load offset).2 := by
  unfold Emulator.load
  split
  · exact ⟨_, rfl⟩
  split <;> exact refl device

theorem raise (device : Emulator) (cause : Cause) : device.Alike (device.raise cause) :=
  ⟨_, rfl⟩

end Emulator.Alike

namespace Machine.Alike

variable {one other third : Machine Emulator}

theorem refl (machine : Machine Emulator) : machine.Alike machine :=
  ⟨.refl _, .refl _⟩

theorem symm (alike : one.Alike other) : other.Alike one :=
  ⟨alike.memory.symm, alike.device.symm⟩

theorem trans (first : one.Alike other) (second : other.Alike third) : one.Alike third :=
  ⟨first.memory.trans second.memory, first.device.trans second.device⟩

end Machine.Alike

/-! ### Views -/

/-- Machines that look the same through some pages and some registers. What is read from those pages is the same,
and what is done to those pages, or stored in those registers, on both sides leaves them looking the same. The bases
of all pages are the same, and what is noted does not matter. -/
structure Machine.View (pages : PageId → Prop) (registers : Register → Prop)
    (like : Machine Emulator → Machine Emulator → Prop) : Prop where
  base : ∀ {one other}, like one other → ∀ id, (other.memory.page id).base = (one.memory.page id).base
  bytes : ∀ {one other}, like one other → ∀ id, pages id →
    (other.memory.page id).bytes = (one.memory.page id).bytes
  noted : ∀ {one other}, like one other → ∀ log log', like { one with log := log } { other with log := log' }
  overwritten : ∀ {one other}, like one other → ∀ id offset data, pages id →
    like { one with memory := one.memory.overwrite id offset data }
      { other with memory := other.memory.overwrite id offset data }
  stored : ∀ {one other}, like one other → ∀ register word, registers register →
    like { one with device := one.device.store register.offset word }
      { other with device := other.device.store register.offset word }

theorem Machine.Alike.view : Machine.View (fun _ => True) (fun _ => True) Machine.Alike where
  base alike := alike.memory.base
  bytes alike id _ := alike.memory.bytes id
  noted alike _ _ := ⟨alike.memory, alike.device⟩
  overwritten alike id offset data _ := ⟨alike.memory.overwrite id offset data, alike.device⟩
  stored alike register word _ := ⟨alike.memory, alike.device.store register.offset word⟩

namespace Machine.View

open Step

variable {ε : Type} {pages : PageId → Prop} {registers : Register → Prop}
  {like : Machine Emulator → Machine Emulator → Prop} {one other : Machine Emulator} {id target source : PageId}
  {table : DescriptorTable}

theorem size (view : View pages registers like) (alike : like one other) (seen : pages id) :
    (other.memory.page id).size = (one.memory.page id).size :=
  congrArg Array.size (view.bytes alike id seen)

theorem slice (view : View pages registers like) (alike : like one other) (seen : pages id) (offset length : Nat) :
    other.memory.slice id offset length = one.memory.slice id offset length := by
  simp only [Memory.slice, Page.slice, view.bytes alike id seen]

theorem copied (view : View pages registers like) (alike : like one other) (written : pages target)
    (read : pages source) (targetOffset sourceOffset length : Nat) :
    like { one with memory := one.memory.copyBytes target targetOffset source sourceOffset length }
      { other with memory := other.memory.copyBytes target targetOffset source sourceOffset length } := by
  induction length generalizing one other targetOffset sourceOffset with
  | zero => exact alike
  | succ length ih =>
    have byte : (other.memory.page source).byte sourceOffset = (one.memory.page source).byte sourceOffset := by
      simp only [Page.byte, view.bytes alike source read]
    unfold Memory.copyBytes
    dsimp only
    rw [byte]
    exact ih (view.overwritten alike target targetOffset _ written) _ _

variable (view : View pages registers like) (alike : like one other)
include view alike

theorem note (level level' : Level) (body body' : String) :
    Agree like (Machine.note level body : Step ε _ _) (Machine.note level' body') one other :=
  .of_ok rfl rfl (view.noted alike _ _)

theorem baseOf (id : PageId) : Agree like (Machine.baseOf id : Step ε _ _) (Machine.baseOf id) one other :=
  .of_ok rfl (by rw [Machine.baseOf, view.base alike]) alike

theorem sizeOf (seen : pages id) : Agree like (Machine.sizeOf id : Step ε _ _) (Machine.sizeOf id) one other :=
  .of_ok rfl (by rw [Machine.sizeOf, view.size alike seen]) alike

theorem access (seen : pages id) (offset length : Nat) :
    Agree like (Machine.access id offset length : Step ε _ _) (Machine.access id offset length) one other := by
  refine .inspect ?_ alike
  unfold Memory.access Page.covers Page.outside
  dsimp only
  rw [view.size alike seen, view.base alike]

theorem readBytes (seen : pages id) (offset length : Nat) :
    Agree like (Machine.readBytes id offset length : Step ε _ _) (Machine.readBytes id offset length) one other := by
  refine .bind (view.access alike seen offset length) fun _ after after' kept => .get_bind ?_
  rw [view.slice kept seen]
  exact .pure _ kept

theorem writeBytes (seen : pages id) (offset : Nat) (data : List UInt8) :
    Agree like (Machine.writeBytes id offset data : Step ε _ _) (Machine.writeBytes id offset data) one other :=
  .bind (view.access alike seen offset data.length) fun _ _ _ kept =>
    .of_ok rfl rfl (view.overwritten kept id offset data seen)

theorem copy (written : pages target) (read : pages source) (targetOffset sourceOffset length : Nat) :
    Agree like (Machine.copy target targetOffset source sourceOffset length : Step ε _ _)
      (Machine.copy target targetOffset source sourceOffset length) one other :=
  .bind (view.access alike written targetOffset length) fun _ _ _ kept =>
    .bind (view.access kept read sourceOffset length) fun _ _ _ kept =>
      .of_ok rfl rfl (view.copied kept written read targetOffset sourceOffset length)

theorem write {register : Register} (told : registers register) (word : UInt32) :
    Agree like (register.write word : Step ε _ _) (register.write word) one other :=
  .of_ok rfl rfl (view.stored alike register word told)

/-! ### Tables -/

omit view in
theorem check (table : DescriptorTable) (slot : Nat) :
    Agree like (table.check slot : Step ε _ _) (table.check slot) one other :=
  .ite _ (fun _ => .pure _ alike) fun _ => .violate _ alike

theorem readReceive (seen : pages table.page) (slot : Nat) :
    Agree like (table.readReceive slot : Step ε _ _) (table.readReceive slot) one other :=
  .bind (.bind (check alike table slot) fun _ _ _ kept => view.readBytes kept seen _ _) fun _ _ _ kept => .pure _ kept

theorem writeReceive (seen : pages table.page) (slot : Nat) (descriptor : ReceiveDescriptor) :
    Agree like (table.writeReceive slot descriptor : Step ε _ _) (table.writeReceive slot descriptor) one other :=
  .bind (check alike table slot) fun _ _ _ kept => view.writeBytes kept seen _ _

theorem writeTransmit (seen : pages table.page) (slot : Nat) (descriptor : TransmitDescriptor) :
    Agree like (table.writeTransmit slot descriptor : Step ε _ _) (table.writeTransmit slot descriptor) one other :=
  .bind (check alike table slot) fun _ _ _ kept => view.writeBytes kept seen _ _

theorem readByte (seen : pages table.page) (slot offset : Nat) :
    Agree like (table.readByte slot offset : Step ε _ _) (table.readByte slot offset) one other :=
  .bind (check alike table slot) fun _ _ _ kept =>
    .bind (.bind (view.readBytes kept seen _ _) fun _ _ _ kept => .pure _ kept) fun _ _ _ kept => .pure _ kept

theorem receiveStatus (seen : pages table.page) (slot : Nat) :
    Agree like (table.receiveStatus slot : Step ε _ _) (table.receiveStatus slot) one other :=
  .bind (view.readByte alike seen slot _) fun _ _ _ kept => .pure _ kept

theorem transmitStatus (seen : pages table.page) (slot : Nat) :
    Agree like (table.transmitStatus slot : Step ε _ _) (table.transmitStatus slot) one other :=
  .bind (view.readByte alike seen slot _) fun _ _ _ kept => .pure _ kept

end Machine.View

/-! ### Rings -/

structure Machine.Paired {ρ : Type} (covered : ρ → Prop) (like : Machine Emulator → Machine Emulator → Prop)
    (one other : ρ × Machine Emulator) : Prop where
  ring : other.1 = one.1
  covered : covered one.1
  machine : like one.2 other.2

namespace Step.Agree

variable {ε α β ρ : Type} {covered : ρ → Prop} {like : Machine Emulator → Machine Emulator → Prop} {ring : ρ}
  {one other : Machine Emulator}

theorem second {step step' : Step ε (Machine Emulator) α} (agree : Agree like step step' one other)
    (inside : covered ring) :
    Agree (Machine.Paired covered like) (Step.second step) (Step.second step') (ring, one) (ring, other) :=
  .within agree fun _ _ kept => ⟨rfl, inside, kept⟩

theorem first {change : ρ → ρ} (alike : like one other) (inside : covered (change ring)) :
    Agree (Machine.Paired covered like) (Step.first (modify change) : Step ε _ PUnit) (Step.first (modify change))
      (ring, one) (ring, other) :=
  .of_ok rfl rfl ⟨rfl, inside, alike⟩

theorem paired_bind {first first' : Step ε (ρ × Machine Emulator) β} {rest rest' : β → Step ε (ρ × Machine Emulator) α}
    {state state' : ρ × Machine Emulator} (start : Agree (Machine.Paired covered like) first first' state state')
    (later : ∀ value ring one other, covered ring → like one other →
      Agree (Machine.Paired covered like) (rest value) (rest' value) (ring, one) (ring, other)) :
    Agree (Machine.Paired covered like) (first >>= rest) (first' >>= rest') state state' :=
  .bind start fun value after after' kept => by
    obtain ⟨ring, one⟩ := after
    obtain ⟨ring', other⟩ := after'
    obtain ⟨same, inside, kept⟩ := kept
    dsimp only at same inside kept
    subst same
    exact later value ring' one other inside kept

end Step.Agree

end PacketPath
