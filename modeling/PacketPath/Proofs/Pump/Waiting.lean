import PacketPath.Pump.Running
import PacketPath.Proofs.Message.Mailboxes
import PacketPath.Proofs.Pump.Attempts

/-! Waiting: how the steps of a pump end that look at what is around it, change that, or wait for it. -/

set_option autoImplicit false

namespace PacketPath

namespace Running

variable {ρ δ ω ε α : Type} {running : Running ρ δ ω} {good : α → Running ρ δ ω → Prop}

@[simp] theorem ends_onAround {bad : Stop ε → Running ρ δ ω → Prop} (step : Step ε (Surroundings δ ω) α) :
    (onAround step).Ends running good bad ↔
      step.Ends running.around (fun value around => good value { running with around := around })
        (fun stop around => bad stop { running with around := around }) :=
  Step.ends_within ..

@[simp] theorem ends_onMachine {bad : Stop ε → Running ρ δ ω → Prop} (step : Step ε (Machine δ) α) :
    (onMachine step).Ends running good bad ↔
      step.Ends running.around.machine
        (fun value machine => good value { running with around.machine := machine })
        (fun stop machine => bad stop { running with around.machine := machine }) := by
  unfold onMachine
  rw [ends_onAround, Surroundings.ends_onMachine]

@[simp] theorem ends_onController {bad : Stop ε → Running ρ δ ω → Prop} (step : Step ε (Controller × Machine δ) α) :
    (onController step).Ends running good bad ↔
      step.Ends (running.controller, running.around.machine)
        (fun value after => good value
          { running with controller := after.1, around.machine := after.2 })
        (fun stop after => bad stop
          { running with controller := after.1, around.machine := after.2 }) :=
  Step.ends_within ..

@[simp] theorem ends_changePump {good : Unit → Running ρ δ ω → Prop} {bad : Stop ε → Running ρ δ ω → Prop}
    (change : ρ → ρ) :
    (changePump change).Ends running good bad ↔ good () { running with pump := change running.pump } :=
  Iff.rfl

@[simp] theorem ends_yield {good : Unit → Running ρ δ ω → Prop} {bad : Stop ε → Running ρ δ ω → Prop}
    (pause : Pause δ ω) :
    (yield pause).Ends running good bad ↔ good () { running with around := pause running.around } :=
  Iff.rfl

@[simp] theorem ends_consuming {bad : Stop ε → Running ρ δ ω → Prop} (pages : List PageId)
    (step : Step ε (Running ρ δ ω) α) :
    (consuming pages step).Ends running good bad ↔
      step.Ends running (fun value after => good value (after.releaseAll pages))
        (fun stop after => bad stop (after.releaseAll pages)) :=
  Step.ends_thenAlways ..

@[simp] theorem ends_holding {bad : Stop ε → Running ρ δ ω → Prop} (pages : List PageId)
    (step : Step ε (Running ρ δ ω) α) :
    (holding pages step).Ends running good bad ↔
      step.Ends { running with around.machine.memory := running.around.machine.memory.retainAll pages }
        (fun value after => good value (after.releaseAll pages))
        (fun stop after => bad stop (after.releaseAll pages)) := by
  unfold holding
  rw [Step.ends_bind, ends_onMachine, Machine.ends_changeMemory, ends_consuming]

/-- A pump that waits tallies the attempts that were not ready: one for each of its pauses, and one more if it gives
up. -/
theorem await_waits {bad : Stop PumpFault → Running ρ δ ω → Prop}
    {attempt : Step PumpFault (Running ρ δ ω) (Option α)} {awaited : Awaited} {budget : Budget} {fuel : Nat}
    {pause : Pause δ ω} {tally : Nat → ρ → ρ}
    (finds : ∀ waits ready value last, Retry.Waits attempt (yield pause) waits running ready →
      attempt ready = .ok (some value) last → good value { last with pump := tally waits last.pump })
    (stalls : ∀ waits ready last, Retry.Waits attempt (yield pause) waits running ready →
      attempt ready = .ok none last →
      bad (.refused (.stalled awaited ⟨waits + 1⟩)) { last with pump := tally (waits + 1) last.pump })
    (cut : ∀ waits ready last, Retry.Waits attempt (yield pause) waits running ready → attempt ready = .ok none last →
      bad .unfinished last)
    (breaks : ∀ waits ready stop last, Retry.Waits attempt (yield pause) waits running ready →
      attempt ready = .error stop last → bad stop last) :
    (await awaited budget fuel pause tally attempt).Ends running good bad := by
  unfold await
  rw [Step.ends_bind]
  apply Retry.untilReady_waits
  · intro waits ready value last _ waited found
    rw [Step.ends_bind, ends_changePump]
    exact finds _ _ _ _ waited found
  · intro _ waits ready last _ _ waited missed
    rw [Step.ends_bind, ends_changePump]
    exact stalls _ _ _ waited missed
  · intro ready last _ waited missed
    exact cut _ _ _ waited missed
  · exact breaks
  · rintro _ _ _ ⟨⟩

theorem await_ends {bad : Stop PumpFault → Running ρ δ ω → Prop} {idle pending : Running ρ δ ω → Prop}
    {ready : α → Running ρ δ ω → Prop} {attempt : Step PumpFault (Running ρ δ ω) (Option α)} {pause : Pause δ ω}
    {awaited : Awaited} {tally : Nat → ρ → ρ}
    (attempts : ∀ running, idle running → attempt.Ends running (Retry.found pending ready) bad)
    (pauses : ∀ running, pending running → idle { running with around := pause running.around })
    (finds : ∀ value waits running, ready value running →
      good value { running with pump := tally waits running.pump })
    (stalls : ∀ spent waits running, pending running →
      bad (.refused (.stalled awaited spent)) { running with pump := tally waits running.pump })
    (cut : ∀ running, pending running → bad .unfinished running) (budget : Budget) (fuel : Nat)
    (start : idle running) : (await awaited budget fuel pause tally attempt).Ends running good bad := by
  have reached {waits : Nat} {ready : Running ρ δ ω}
      (waited : Retry.Waits attempt (yield pause) waits running ready) : idle ready :=
    waited.carries attempts (fun state pending => (ends_yield pause).mpr (pauses state pending)) start
  apply await_waits
  · intro waits ready value last waited found
    exact finds _ _ _ ((Step.ends_of_ok found).mp (attempts _ (reached waited)))
  · intro waits ready last waited missed
    exact stalls _ _ _ ((Step.ends_of_ok missed).mp (attempts _ (reached waited)))
  · intro waits ready last waited missed
    exact cut _ ((Step.ends_of_ok missed).mp (attempts _ (reached waited)))
  · intro waits ready stop last waited stopped
    exact (Step.ends_of_error stopped).mp (attempts _ (reached waited))

theorem await_ends_of_ready {bad : Stop PumpFault → Running ρ δ ω → Prop}
    {attempt : Step PumpFault (Running ρ δ ω) (Option α)} {pause : Pause δ ω} {awaited : Awaited} {budget : Budget}
    {fuel : Nat} {tally : Nat → ρ → ρ}
    (ready : attempt.Ends running
      (fun found after => ∃ value, found = some value ∧
        ∀ waits, good value { after with pump := tally waits after.pump }) bad) :
    (await awaited budget fuel pause tally attempt).Ends running good bad := by
  have attempts (state : Running ρ δ ω) (start : state = running) :
      attempt.Ends state (Retry.found (fun _ => False)
        fun value after => ∀ waits, good value { after with pump := tally waits after.pump }) bad := by
    rw [start]
    refine ready.mono ?_ (fun _ _ => id)
    rintro _ after ⟨value, rfl, holds⟩
    exact holds
  exact await_ends attempts nofun (fun _ waits _ holds => holds waits) nofun nofun budget fuel rfl

end Running

end PacketPath
