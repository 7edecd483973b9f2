import PacketPath.Proofs.Leaves
import PacketPath.Proofs.Register.Gate

/-! Runs that are cut short. Of two versions of a step one has a limit on the register writes: it ends like
the other if that one does not need more, and otherwise stops where the first write too many was due. So
what it stops in is what the whole run passes through. -/

set_option autoImplicit false

namespace PacketPath

variable {ε ε' σ τ α β : Type} {limit : Nat}

namespace Step

/-- One step does what the other does, but makes no more register writes than the limit allows. -/
structure Cuts (limit : Nat) (log : σ → List (Nat × UInt32)) (cut whole : Step ε σ α) : Prop where
  appends : ∀ state, log state <+: log (whole.after state)
  agrees : ∀ state, (log state).length ≤ limit →
    (cut state = whole state ∧ (log (whole.after state)).length ≤ limit) ∨
    ∃ offset word last, cut state = .error (.violated (.windowAccess offset word.toNat)) last ∧
      (log last).length = limit ∧ log last ++ [(offset, word)] <+: log (whole.after state)

namespace Cuts

variable {log : σ → List (Nat × UInt32)} {cut whole : Step ε σ α}

theorem of_leaves {step : Step ε σ α} (leaves : step.Leaves log) : Cuts limit log step step where
  appends state := (leaves state).symm ▸ List.prefix_rfl
  agrees state within := .inl ⟨rfl, (leaves state).symm ▸ within⟩

theorem bind {first first' : Step ε σ β} {rest rest' : β → Step ε σ α} (one : Cuts limit log first first')
    (other : ∀ value, Cuts limit log (rest value) (rest' value)) :
    Cuts limit log (first >>= rest) (first' >>= rest') where
  appends state := by
    have begun := one.appends state
    rw [after_bind]
    cases ended : first' state with
    | ok value middle =>
      rw [after_of_ok ended] at begun
      exact begun.trans ((other value).appends middle)
    | error stop last =>
      rw [after_of_error ended] at begun
      exact begun
  agrees state within := by
    rw [after_bind]
    rcases one.agrees state within with ⟨same, within⟩ | ⟨offset, word, last, stopped, spent, front⟩
    · -- The first step is as long as it should be, so the second decides.
      simp only [Bind.bind, EStateM.bind, same]
      cases ended : first' state with
      | ok value middle =>
        rw [after_of_ok ended] at within
        exact (other value).agrees middle within
      | error stop last =>
        rw [after_of_error ended] at within
        exact .inl ⟨rfl, within⟩
    · refine .inr ⟨offset, word, last, bind_of_error stopped rest, spent, ?_⟩
      cases ended : first' state with
      | ok value middle =>
        rw [after_of_ok ended] at front
        exact front.trans ((other value).appends middle)
      | error stop last =>
        rw [after_of_error ended] at front
        exact front

theorem second {log : τ → List (Nat × UInt32)} {cut whole : Step ε τ α} (cuts : Cuts limit log cut whole) :
    Cuts limit (fun pair : σ × τ => log pair.2) (Step.second cut) (Step.second whole) where
  appends pair := by
    have begun := cuts.appends pair.2
    unfold Step.after Step.second Step.within at *
    dsimp only
    cases ended : whole pair.2 <;> rw [ended] at begun <;> exact begun
  agrees pair within := by
    rcases cuts.agrees pair.2 within with ⟨same, short⟩ | ⟨offset, word, last, stopped, spent, front⟩
    · left
      unfold Step.after Step.second Step.within at *
      dsimp only
      rw [same]
      cases ended : whole pair.2 <;> rw [ended] at short <;> exact ⟨rfl, short⟩
    · refine .inr ⟨offset, word, (pair.1, last), ?_, spent, ?_⟩
      · unfold Step.second Step.within
        dsimp only
        rw [stopped]
      · unfold Step.after Step.second Step.within at *
        dsimp only
        cases ended : whole pair.2 <;> rw [ended] at front <;> exact front

theorem carrying {log : τ → List (Nat × UInt32)} {cut whole : Step ε (σ × τ) α} (part : σ)
    (cuts : Cuts limit (fun pair => log pair.2) cut whole) :
    Cuts limit log (Step.carrying part cut) (Step.carrying part whole) where
  appends state := by
    have begun := cuts.appends (part, state)
    unfold Step.after Step.carrying at *
    cases ended : whole (part, state) <;> rw [ended] at begun <;> exact begun
  agrees state within := by
    rcases cuts.agrees (part, state) within with ⟨same, short⟩ | ⟨offset, word, last, stopped, spent, front⟩
    · left
      unfold Step.after Step.carrying at *
      rw [same]
      cases ended : whole (part, state) <;> rw [ended] at short <;> exact ⟨rfl, short⟩
    · refine .inr ⟨offset, word, last.2, ?_, spent, ?_⟩
      · unfold Step.carrying
        rw [stopped]
      · unfold Step.after Step.carrying at *
        cases ended : whole (part, state) <;> rw [ended] at front <;> exact front

theorem thenIfStopped {change : σ → σ} (cuts : Cuts limit log cut whole) (kept : ∀ state, log (change state) = log state) :
    Cuts limit log (cut.thenIfStopped change) (whole.thenIfStopped change) := by
  have same (state : σ) : log ((whole.thenIfStopped change).after state) = log (whole.after state) := by
    unfold Step.after Step.thenIfStopped
    cases whole state with
    | ok => rfl
    | error => exact kept _
  refine ⟨fun state => (same state).symm ▸ cuts.appends state, fun state within => ?_⟩
  rw [same]
  rcases cuts.agrees state within with ⟨equal, short⟩ | ⟨offset, word, last, stopped, spent, front⟩
  · refine .inl ⟨?_, short⟩
    unfold Step.thenIfStopped
    rw [equal]
  · refine .inr ⟨offset, word, change last, ?_, (kept last).symm ▸ spent, (kept last).symm ▸ front⟩
    unfold Step.thenIfStopped
    rw [stopped]

end Cuts

end Step

/-! ### The emulated device -/

def Machine.trail (machine : Machine Emulator) : List (Nat × UInt32) :=
  machine.device.writes.toList

namespace Emulator

theorem store_cuts (offset : Nat) (word : UInt32) :
    Step.Cuts limit Machine.trail (@Machine.store Emulator ε (upTo limit) offset word)
      (Machine.store offset word) where
  appends machine := by
    change _ <+: (machine.device.store offset word).writes.toList
    rw [writes_store, Array.toList_push]
    exact List.prefix_append ..
  agrees machine within := by
    have after : Machine.trail ((Machine.store offset word : Step ε _ Unit).after machine) =
        machine.trail ++ [(offset, word)] := by
      change (machine.device.store offset word).writes.toList = _
      rw [writes_store, Array.toList_push]
      rfl
    have size : machine.trail.length = machine.device.writes.size := Array.length_toList
    rw [after, List.length_append]
    unfold Machine.store
    by_cases room : machine.device.writes.size < limit
    · have made : @RegisterBus.store Emulator (upTo limit) machine.device offset word =
          .ok (machine.device.store offset word) := if_pos room
      refine .inl ⟨?_, by rw [size]; exact room⟩
      rw [made]
      rfl
    · have refused : @RegisterBus.store Emulator (upTo limit) machine.device offset word =
          .error (.windowAccess offset word.toNat) := if_neg room
      refine .inr ⟨offset, word, machine, ?_, by omega, List.prefix_rfl⟩
      rw [refused]

theorem read_cuts (register : Register) :
    Step.Cuts limit Machine.trail (@Register.read Emulator ε (upTo limit) register) register.read := by
  refine Step.Cuts.of_leaves fun machine => ?_
  change (machine.device.load register.offset).2.writes.toList = _
  unfold load
  split
  · rfl
  split <;> rfl

end Emulator

end PacketPath
