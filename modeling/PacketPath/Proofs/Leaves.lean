import PacketPath.Proofs.Step

/-! Steps that leave a part of the state alone, however they end. What is composed of such steps leaves that part
alone as well. -/

set_option autoImplicit false

namespace PacketPath.Step

variable {ε ε' σ τ υ α β : Type}

theorem after_bind (first : Step ε σ β) (rest : β → Step ε σ α) (state : σ) :
    (first >>= rest).after state = match first state with
      | .ok value middle => (rest value).after middle
      | .error _ last => last := by
  unfold Step.after
  simp only [bind, EStateM.bind]
  cases first state <;> rfl

theorem after_of_ok {step : Step ε σ α} {state last : σ} {value : α} (ended : step state = .ok value last) :
    step.after state = last := by
  unfold Step.after
  rw [ended]

theorem after_of_error {step : Step ε σ α} {state last : σ} {stop : Stop ε} (ended : step state = .error stop last) :
    step.after state = last := by
  unfold Step.after
  rw [ended]

def Leaves (part : σ → τ) (step : Step ε σ α) : Prop :=
  ∀ state, part (step.after state) = part state

namespace Leaves

variable {part : σ → τ} {step : Step ε σ α}

theorem of_ends (ends : ∀ state, step.Ends state (fun _ after => part after = part state)
    (fun _ after => part after = part state)) : step.Leaves part := by
  intro state
  have ended := ends state
  unfold Ends at ended
  unfold Step.after
  cases outcome : step state <;> rw [outcome] at ended <;> exact ended

theorem ends (leaves : step.Leaves part) (state : σ) :
    step.Ends state (fun _ after => part after = part state) (fun _ after => part after = part state) := by
  have left := leaves state
  unfold Step.after at left
  unfold Step.Ends
  cases ended : step state <;> rw [ended] at left <;> exact left

theorem pure (value : α) : (Pure.pure value : Step ε σ α).Leaves part :=
  fun _ => rfl

theorem bind {first : Step ε σ β} {rest : β → Step ε σ α} (one : first.Leaves part)
    (other : ∀ value, (rest value).Leaves part) : (first >>= rest).Leaves part := by
  intro state
  have begun := one state
  rw [after_bind]
  unfold Step.after at begun
  cases ended : first state with
  | ok value middle =>
    rw [ended] at begun
    exact (other value middle).trans begun
  | error stop last =>
    rw [ended] at begun
    exact begun

theorem get : (MonadState.get : Step ε σ σ).Leaves part :=
  fun _ => rfl

theorem thenIfStopped {change : σ → σ} (leaves : step.Leaves part) (kept : ∀ state, part (change state) = part state) :
    (step.thenIfStopped change).Leaves part := by
  intro state
  have left := leaves state
  unfold Step.after Step.thenIfStopped at *
  cases ended : step state <;> rw [ended] at left
  · exact left
  · exact (kept _).trans left

theorem mapRefusal {reword : ε → ε'} (leaves : step.Leaves part) : (step.mapRefusal reword).Leaves part := by
  intro state
  have left := leaves state
  unfold Step.after Step.mapRefusal at *
  rcases ended : step state with _ | ⟨_ | _ | _, _⟩ <;> rw [ended] at left <;> exact left

theorem ite {condition : Prop} [Decidable condition] {one other : Step ε σ α} (holds : one.Leaves part)
    (fails : other.Leaves part) : (if condition then one else other).Leaves part := by
  split
  · exact holds
  · exact fails

theorem within {inner : σ → υ} {put : σ → υ → σ} (kept : ∀ state other, part (put state other) = part state)
    (step : Step ε υ α) : (Step.within inner put step).Leaves part := by
  intro state
  unfold Step.after Step.within
  cases step (inner state) <;> exact kept _ _

theorem second (part : σ → υ) (step : Step ε τ α) :
    (Step.second step).Leaves fun pair : σ × τ => part pair.1 := by
  apply within
  intro _ _
  rfl

end Leaves

end PacketPath.Step
