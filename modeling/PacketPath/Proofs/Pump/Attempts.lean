import PacketPath.Proofs.Step
import PacketPath.Retry

/-! Attempts: how many of them a wait makes. Every attempt but the last was not ready and was followed by one pause,
so it is enough to know the states that these attempts and pauses pass through. -/

set_option autoImplicit false

namespace PacketPath

variable {ε σ α : Type}

def Budget.further (budget : Budget) (fuel : Nat) : Nat :=
  match budget with
  | .unbounded => fuel
  | .attempts limit => limit.toNat - 1

namespace Retry

variable {attempt : Step ε σ (Option α)} {pause : Step ε σ Unit} {good : Wait α → σ → Prop}
  {bad : Stop ε → σ → Prop} {state : σ}

/-- So many attempts in a row were not ready, and a pause came after each. -/
inductive Waits (attempt : Step ε σ (Option α)) (pause : Step ε σ Unit) : Nat → σ → σ → Prop where
  | none {state : σ} : Waits attempt pause 0 state state
  | more {waits : Nat} {state middle next last : σ} (missed : attempt state = .ok none middle)
      (paused : pause middle = .ok () next) (later : Waits attempt pause waits next last) :
      Waits attempt pause (waits + 1) state last

def found (pending : σ → Prop) (ready : α → σ → Prop) : Option α → σ → Prop
  | none => pending
  | some value => ready value

/-- What is true before every attempt and what is true after every one that was not ready carry each other through the
pauses, however many there are. -/
theorem Waits.carries {idle pending : σ → Prop} {ready : α → σ → Prop} {waits : Nat} {last : σ}
    (waited : Waits attempt pause waits state last)
    (attempts : ∀ state, idle state → attempt.Ends state (found pending ready) bad)
    (pauses : ∀ state, pending state → pause.Ends state (fun _ => idle) bad) (start : idle state) : idle last := by
  induction waited with
  | none => exact start
  | more missed paused _ ih =>
    have unready := (Step.ends_of_ok missed).mp (attempts _ start)
    exact ih ((Step.ends_of_ok paused).mp (pauses _ unready))

theorem loop_waits {giveUp : Nat → Step ε σ (Wait α)} {further made : Nat}
    (finds : ∀ waits ready value last, waits ≤ further → Waits attempt pause waits state ready →
      attempt ready = .ok (some value) last → good ⟨.ok value, made + waits⟩ last)
    (gives : ∀ ready last, Waits attempt pause further state ready → attempt ready = .ok none last →
      (giveUp (made + further + 1)).Ends last good bad)
    (breaks : ∀ waits ready stop last, Waits attempt pause waits state ready → attempt ready = .error stop last →
      bad stop last)
    (calm : ∀ state stop last, pause state ≠ .error stop last) :
    (loop attempt pause giveUp further made).Ends state good bad := by
  induction further generalizing made state with
  | zero =>
    unfold loop
    rw [Step.ends_bind]
    cases attempted : attempt state with
    | error stop last => exact (Step.ends_of_error attempted).mpr (breaks 0 _ _ _ .none attempted)
    | ok found last =>
      rw [Step.ends_of_ok attempted]
      cases found with
      | some value => exact finds 0 _ _ _ (Nat.le_refl 0) .none attempted
      | none => exact gives _ _ .none attempted
  | succ further ih =>
    unfold loop
    rw [Step.ends_bind]
    cases attempted : attempt state with
    | error stop last => exact (Step.ends_of_error attempted).mpr (breaks 0 _ _ _ .none attempted)
    | ok found middle =>
      rw [Step.ends_of_ok attempted]
      cases found with
      | some value => exact finds 0 _ _ _ (Nat.zero_le _) .none attempted
      | none =>
        dsimp only
        rw [Step.ends_bind]
        cases paused : pause middle with
        | error stop last => exact (calm _ _ _ paused).elim
        | ok rested next =>
          rw [Step.ends_of_ok paused]
          -- One attempt and one pause more stand in front of what the rest of the loop passes through.
          apply ih
          · intro waits ready value last within later found
            rw [Nat.add_right_comm, Nat.add_assoc]
            exact finds _ _ _ _ (Nat.succ_le_succ within) (.more attempted paused later) found
          · intro ready last later missed
            rw [Nat.add_right_comm made, Nat.add_assoc made]
            exact gives _ _ (.more attempted paused later) missed
          · intro waits ready stop last later stopped
            exact breaks _ _ _ _ (.more attempted paused later) stopped

/-- A wait makes one attempt after another until one is ready or the budget is used up. Then it has made one attempt
more than pauses. -/
theorem untilReady_waits {budget : Budget} {fuel : Nat}
    (finds : ∀ waits ready value last, waits ≤ budget.further fuel → Waits attempt pause waits state ready →
      attempt ready = .ok (some value) last → good ⟨.ok value, waits⟩ last)
    (gives : ∀ limit waits ready last, budget = .attempts limit → waits = budget.further fuel →
      Waits attempt pause waits state ready → attempt ready = .ok none last →
      good ⟨.error ⟨waits + 1⟩, waits + 1⟩ last)
    (cut : ∀ ready last, budget = .unbounded → Waits attempt pause fuel state ready → attempt ready = .ok none last →
      bad .unfinished last)
    (breaks : ∀ waits ready stop last, Waits attempt pause waits state ready → attempt ready = .error stop last →
      bad stop last)
    (calm : ∀ state stop last, pause state ≠ .error stop last) :
    (untilReady budget fuel attempt pause).Ends state good bad := by
  unfold untilReady
  cases budget with
  | unbounded =>
    apply loop_waits ?_ ?_ breaks calm
    · intro waits ready value last within waited found
      rw [Nat.zero_add]
      exact finds _ _ _ _ within waited found
    · intro ready last waited missed
      exact Step.ends_cutOff.mpr (cut _ _ rfl waited missed)
  | attempts limit =>
    apply loop_waits ?_ ?_ breaks calm
    · intro waits ready value last within waited found
      rw [Nat.zero_add]
      exact finds _ _ _ _ within waited found
    · intro ready last waited missed
      rw [Nat.zero_add, Step.ends_pure]
      exact gives limit _ _ _ rfl rfl waited missed

end Retry

end PacketPath
