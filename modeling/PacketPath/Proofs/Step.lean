import PacketPath.Step

/-! How steps end. `Ends` says of a step and a state that the step yields a good value in a good
state, or stops in a bad way that is allowed for. There is one rule for each way of building a step. -/

set_option autoImplicit false

namespace PacketPath.Step

variable {ε ε' σ τ α β : Type}

/-- From `state` the step either yields a value or stops, and each end is as it is said to be. -/
def Ends (step : Step ε σ α) (state : σ) (good : α → σ → Prop) (bad : Stop ε → σ → Prop) : Prop :=
  match step state with
  | .ok value state => good value state
  | .error stop state => bad stop state

variable {state : σ} {good : α → σ → Prop} {bad : Stop ε → σ → Prop}

theorem Ends.mono {step : Step ε σ α} {better : α → σ → Prop} {worse : Stop ε → σ → Prop}
    (ends : step.Ends state good bad)
    (yields : ∀ value after, good value after → better value after)
    (stops : ∀ stop after, bad stop after → worse stop after) : step.Ends state better worse := by
  unfold Ends at ends ⊢
  split at ends
  · exact yields _ _ ends
  · exact stops _ _ ends

theorem Ends.and {step : Step ε σ α} {good' : α → σ → Prop} {bad' : Stop ε → σ → Prop}
    (one : step.Ends state good bad) (other : step.Ends state good' bad') :
    step.Ends state (fun value after => good value after ∧ good' value after)
      (fun stop after => bad stop after ∧ bad' stop after) := by
  unfold Ends at *
  cases ended : step state <;> rw [ended] at one other <;> exact ⟨one, other⟩

def after (step : Step ε σ α) (state : σ) : σ :=
  match step state with
  | .ok _ state => state
  | .error _ state => state

def ended (step : Step ε σ α) (state : σ) : Except (Stop ε) α :=
  match step state with
  | .ok value _ => .ok value
  | .error stop _ => .error stop

theorem Ends.after {step : Step ε σ α} {reached : σ → Prop}
    (ends : step.Ends state (fun _ => reached) (fun _ => reached)) : reached (step.after state) := by
  unfold Ends at ends
  unfold Step.after
  cases ended : step state <;> rw [ended] at ends <;> exact ends

theorem Ends.reached {step : Step ε σ α} {reached : σ → Prop} {last : σ} (ended : step.after state = last)
    (ends : step.Ends state (fun _ => reached) (fun _ => reached)) : reached last :=
  ended ▸ ends.after

/-- What holds of the end of a step and of the state after it, if it holds of each way to end. -/
theorem ends_iff_ended {step : Step ε σ α} (both : Except (Stop ε) α → σ → Prop) :
    step.Ends state (fun value => both (.ok value)) (fun stop => both (.error stop)) ↔
      both (step.ended state) (step.after state) := by
  unfold Ends ended Step.after
  cases step state <;> rfl

theorem ends_self (step : Step ε σ α) (state : σ) :
    step.Ends state (fun value after => step state = .ok value after)
      (fun stop after => step state = .error stop after) := by
  unfold Ends
  cases step state <;> rfl

theorem Ends.exists_ok {step : Step ε σ α} (ends : step.Ends state good (fun _ _ => False)) :
    ∃ value after, step state = .ok value after ∧ good value after := by
  unfold Ends at ends
  cases ended : step state with
  | ok value after =>
    rw [ended] at ends
    exact ⟨value, after, rfl, ends⟩
  | error stop after =>
    rw [ended] at ends
    exact ends.elim

theorem Ends.exists_error {step : Step ε σ α} (ends : step.Ends state (fun _ _ => False) bad) :
    ∃ stop after, step state = .error stop after ∧ bad stop after := by
  unfold Ends at ends
  cases ended : step state with
  | ok value after =>
    rw [ended] at ends
    exact ends.elim
  | error stop after =>
    rw [ended] at ends
    exact ⟨stop, after, rfl, ends⟩

theorem Ends.eq_ok {step : Step ε σ α} {value : α} {last : σ}
    (ends : step.Ends state (fun other after => other = value ∧ after = last) (fun _ _ => False)) :
    step state = .ok value last := by
  obtain ⟨other, after, ended, rfl, rfl⟩ := ends.exists_ok
  exact ended

theorem Ends.eq_error {step : Step ε σ α} {stop : Stop ε} {last : σ}
    (ends : step.Ends state (fun _ _ => False) (fun other after => other = stop ∧ after = last)) :
    step state = .error stop last := by
  unfold Ends at ends
  cases ended : step state with
  | ok value after =>
    rw [ended] at ends
    exact ends.elim
  | error other after =>
    rw [ended] at ends
    rw [ends.1, ends.2]

theorem ends_of_ok {step : Step ε σ α} {value : α} {after : σ} (ended : step state = .ok value after) :
    step.Ends state good bad ↔ good value after := by
  simp only [Ends, ended]

theorem ends_of_error {step : Step ε σ α} {stop : Stop ε} {after : σ}
    (ended : step state = .error stop after) : step.Ends state good bad ↔ bad stop after := by
  simp only [Ends, ended]

instance Ends.decidable {step : Step ε σ α} [∀ value after, Decidable (good value after)]
    [∀ stop after, Decidable (bad stop after)] : Decidable (step.Ends state good bad) :=
  match ended : step state with
  | .ok value after => decidable_of_iff (good value after) (ends_of_ok ended).symm
  | .error stop after => decidable_of_iff (bad stop after) (ends_of_error ended).symm

@[simp] theorem ends_pure (value : α) :
    Ends (pure value : Step ε σ α) state good bad ↔ good value state :=
  Iff.rfl

@[simp] theorem ends_bind (first : Step ε σ β) (rest : β → Step ε σ α) :
    Ends (first >>= rest) state good bad ↔
      first.Ends state (fun value after => (rest value).Ends after good bad) bad := by
  unfold Ends
  simp only [bind, EStateM.bind]
  cases first state <;> rfl

/-- Where every stop is allowed for and nothing is asked of the first step, the second decides. -/
theorem ends_bind_any {first : Step ε σ β} {rest : β → Step ε σ α}
    (later : ∀ value after, (rest value).Ends after good fun _ _ => True) :
    Ends (first >>= rest) state good fun _ _ => True := by
  rw [ends_bind]
  exact (ends_self first state).mono (fun value after _ => later value after) (fun _ _ _ => trivial)

theorem bind_of_ok {first : Step ε σ β} {value : β} {middle : σ} (ended : first state = .ok value middle)
    (rest : β → Step ε σ α) : (first >>= rest) state = rest value middle := by
  simp only [bind, EStateM.bind, ended]

theorem bind_of_error {first : Step ε σ β} {stop : Stop ε} {last : σ} (ended : first state = .error stop last)
    (rest : β → Step ε σ α) : (first >>= rest) state = .error stop last := by
  simp only [bind, EStateM.bind, ended]

@[simp] theorem ends_map (change : β → α) (step : Step ε σ β) :
    Ends (change <$> step) state good bad ↔ step.Ends state (fun value => good (change value)) bad := by
  unfold Ends
  simp only [Functor.map, EStateM.map]
  cases step state <;> rfl

@[simp] theorem ends_get {good : σ → σ → Prop} :
    Ends (get : Step ε σ σ) state good bad ↔ good state state :=
  Iff.rfl

@[simp] theorem ends_modify {good : PUnit → σ → Prop} (change : σ → σ) :
    Ends (modify change : Step ε σ PUnit) state good bad ↔ good ⟨⟩ (change state) :=
  Iff.rfl

@[simp] theorem ends_refuse (error : ε) :
    Ends (refuse error : Step ε σ α) state good bad ↔ bad (.refused error) state :=
  Iff.rfl

@[simp] theorem ends_violate (violation : Violation) :
    Ends (violate violation : Step ε σ α) state good bad ↔ bad (.violated violation) state :=
  Iff.rfl

@[simp] theorem ends_cutOff : Ends (cutOff : Step ε σ α) state good bad ↔ bad .unfinished state :=
  Iff.rfl

@[simp] theorem ends_ite (condition : Prop) [Decidable condition] (one other : Step ε σ α) :
    Ends (if condition then one else other) state good bad ↔
      (condition → one.Ends state good bad) ∧ (¬ condition → other.Ends state good bad) := by
  split <;> simp [*]

theorem ends_inspect (query : σ → Except Violation α) :
    Ends (inspect query : Step ε σ α) state good bad ↔
      (∀ value, query state = .ok value → good value state) ∧
      (∀ violation, query state = .error violation → bad (.violated violation) state) := by
  unfold Ends inspect
  cases query state <;> simp

@[simp] theorem ends_within (part : σ → τ) (put : σ → τ → σ) (step : Step ε τ α) :
    Ends (within part put step) state good bad ↔
      step.Ends (part state) (fun value inner => good value (put state inner))
        (fun stop inner => bad stop (put state inner)) := by
  unfold Ends within
  cases step (part state) <;> rfl

@[simp] theorem ends_first {pair : σ × τ} {good : α → σ × τ → Prop} {bad : Stop ε → σ × τ → Prop}
    (step : Step ε σ α) :
    Ends (first step) pair good bad ↔
      step.Ends pair.1 (fun value left => good value (left, pair.2))
        (fun stop left => bad stop (left, pair.2)) :=
  ends_within ..

@[simp] theorem ends_second {pair : σ × τ} {good : α → σ × τ → Prop} {bad : Stop ε → σ × τ → Prop}
    (step : Step ε τ α) :
    Ends (second step) pair good bad ↔
      step.Ends pair.2 (fun value right => good value (pair.1, right))
        (fun stop right => bad stop (pair.1, right)) :=
  ends_within ..

@[simp] theorem ends_carrying {good : α × σ → τ → Prop} {state : τ} {bad : Stop ε → τ → Prop} (part : σ)
    (step : Step ε (σ × τ) α) :
    Ends (carrying part step) state good bad ↔
      step.Ends (part, state) (fun value pair => good (value, pair.1) pair.2)
        (fun stop pair => bad stop pair.2) := by
  unfold Ends carrying
  cases step (part, state) <;> rfl

@[simp] theorem ends_thenAlways (step : Step ε σ α) (after : σ → σ) :
    Ends (step.thenAlways after) state good bad ↔
      step.Ends state (fun value last => good value (after last)) (fun stop last => bad stop (after last)) := by
  unfold Ends thenAlways
  cases step state <;> rfl

@[simp] theorem ends_thenIfStopped (step : Step ε σ α) (after : σ → σ) :
    Ends (step.thenIfStopped after) state good bad ↔
      step.Ends state good (fun stop last => bad stop (after last)) := by
  unfold Ends thenIfStopped
  cases step state <;> rfl

end PacketPath.Step

namespace PacketPath

def Stop.map {ε ε' : Type} (reword : ε → ε') : Stop ε → Stop ε'
  | .refused error => .refused (reword error)
  | .violated violation => .violated violation
  | .unfinished => .unfinished

namespace Step

variable {ε ε' σ α : Type} {state : σ}

@[simp] theorem ends_mapRefusal {good : α → σ → Prop} {bad : Stop ε' → σ → Prop} (reword : ε → ε')
    (step : Step ε σ α) :
    Ends (step.mapRefusal reword) state good bad ↔
      step.Ends state good (fun stop => bad (stop.map reword)) := by
  unfold Ends mapRefusal
  rcases step state with _ | ⟨_ | _ | _, _⟩ <;> rfl

def attempted (good : Except ε α → σ → Prop) (bad : Stop ε' → σ → Prop) : Stop ε → σ → Prop
  | .refused error => good (.error error)
  | .violated violation => bad (.violated violation)
  | .unfinished => bad .unfinished

@[simp] theorem ends_attempt {good : Except ε α → σ → Prop} {bad : Stop ε' → σ → Prop}
    (step : Step ε σ α) :
    Ends (step.attempt : Step ε' σ (Except ε α)) state good bad ↔
      step.Ends state (fun value => good (.ok value)) (attempted good bad) := by
  unfold Ends attempt
  rcases step state with _ | ⟨_ | _ | _, _⟩ <;> rfl

theorem ends_orRefuse {good : α → σ → Prop} {bad : Stop ε' → σ → Prop} (reword : ε → ε')
    (result : Except ε α) :
    Ends (orRefuse reword result : Step ε' σ α) state good bad ↔
      (∀ value, result = .ok value → good value state) ∧
      (∀ error, result = .error error → bad (.refused (reword error)) state) := by
  cases result <;> simp [orRefuse]

end Step

end PacketPath
