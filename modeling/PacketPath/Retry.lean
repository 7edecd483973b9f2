import PacketPath.Step

/-! Retrying with pauses. A step is asked again until it is ready, with one pause between two
attempts: none before the first and none after the last. -/

set_option autoImplicit false

namespace PacketPath

inductive Budget where
  /-- As long as it takes. -/
  | unbounded
  /-- This often; the first attempt is made in any case. -/
  | attempts (limit : UInt32)
  deriving DecidableEq, Repr

structure Exhausted where
  attempts : Nat
  deriving DecidableEq, Repr

def Exhausted.message (spent : Exhausted) : String :=
  s!"operation still pending after {spent.attempts} attempts"

/-- How a wait ended, and how many of its attempts were not ready. -/
structure Wait (α : Type) where
  result : Except Exhausted α
  waits : Nat

namespace Retry

variable {ε σ α : Type}

/-- Ask `attempt` once and then up to `further` times more, with `pause` in between. When no attempt
is left, `giveUp` ends the step and is told how many were made. -/
def loop (attempt : Step ε σ (Option α)) (pause : Step ε σ Unit) (giveUp : Nat → Step ε σ (Wait α)) :
    (further made : Nat) → Step ε σ (Wait α)
  | further, made => do
    match ← attempt with
    | some value => return ⟨.ok value, made⟩
    | none =>
      match further with
      | 0 => giveUp (made + 1)
      | further + 1 =>
        pause
        loop attempt pause giveUp further (made + 1)

/-- Ask `attempt` until it is ready or the budget is used up. An unbounded wait is cut off after
`fuel` further attempts; no bounded one is. -/
def untilReady (budget : Budget) (fuel : Nat) (attempt : Step ε σ (Option α)) (pause : Step ε σ Unit) :
    Step ε σ (Wait α) :=
  match budget with
  | .unbounded => loop attempt pause (fun _ => Step.cutOff) fuel 0
  | .attempts limit =>
    loop attempt pause (fun made => return ⟨.error ⟨made⟩, made⟩) (limit.toNat - 1) 0

end Retry

end PacketPath
