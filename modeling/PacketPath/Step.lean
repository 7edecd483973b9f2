import PacketPath.Violation

/-! Steps over a state. A step ends with a value or stops, and a stop keeps the state reached so
far: refusals and violations undo nothing by themselves. -/

set_option autoImplicit false

namespace PacketPath

/-- Why a step stopped without a value. -/
inductive Stop (ε : Type) where
  /-- The step refused with an error of its domain. -/
  | refused (error : ε)
  /-- A caller broke a precondition. -/
  | violated (violation : Violation)
  /-- An unbounded wait was cut off before it ended. -/
  | unfinished
  deriving DecidableEq, Repr

/-- A step over the state `σ` that yields an `α` or refuses with an `ε`. -/
abbrev Step (ε σ : Type) : Type → Type :=
  EStateM (Stop ε) σ

namespace Step

variable {ε ε' σ τ α : Type}

def refuse (error : ε) : Step ε σ α :=
  throw (.refused error)

def orRefuse (reword : ε → ε') : Except ε α → Step ε' σ α
  | .ok value => pure value
  | .error error => refuse (reword error)

def violate (violation : Violation) : Step ε σ α :=
  throw (.violated violation)

def cutOff : Step ε σ α :=
  throw .unfinished

def inspect (query : σ → Except Violation α) : Step ε σ α := fun state =>
  match query state with
  | .ok value => .ok value state
  | .error violation => .error (.violated violation) state

def within (part : σ → τ) (put : σ → τ → σ) (step : Step ε τ α) : Step ε σ α := fun state =>
  match step (part state) with
  | .ok value inner => .ok value (put state inner)
  | .error stop inner => .error stop (put state inner)

def first (step : Step ε σ α) : Step ε (σ × τ) α :=
  within Prod.fst (fun state left => (left, state.2)) step

def second (step : Step ε τ α) : Step ε (σ × τ) α :=
  within Prod.snd (fun state right => (state.1, right)) step

/-- Run a step beside a part that exists only for as long as the step; the part at the end is
yielded with the value and is lost if the step stops. -/
def carrying (part : σ) (step : Step ε (σ × τ) α) : Step ε τ (α × σ) := fun state =>
  match step (part, state) with
  | .ok value (part, state) => .ok (value, part) state
  | .error stop (_, state) => .error stop state

/-- Change the state once the step is over, however it ended. -/
def thenAlways (step : Step ε σ α) (after : σ → σ) : Step ε σ α := fun state =>
  match step state with
  | .ok value state => .ok value (after state)
  | .error stop state => .error stop (after state)

/-- Change the state once the step is over, unless it yielded a value. -/
def thenIfStopped (step : Step ε σ α) (after : σ → σ) : Step ε σ α := fun state =>
  match step state with
  | .ok value state => .ok value state
  | .error stop state => .error stop (after state)

def mapRefusal (reword : ε → ε') (step : Step ε σ α) : Step ε' σ α := fun state =>
  match step state with
  | .ok value state => .ok value state
  | .error (.refused error) state => .error (.refused (reword error)) state
  | .error (.violated violation) state => .error (.violated violation) state
  | .error .unfinished state => .error .unfinished state

/-- Turn refusals into values; violations and cut-off waits still stop. -/
def attempt (step : Step ε σ α) : Step ε' σ (Except ε α) := fun state =>
  match step state with
  | .ok value state => .ok (.ok value) state
  | .error (.refused error) state => .ok (.error error) state
  | .error (.violated violation) state => .error (.violated violation) state
  | .error .unfinished state => .error .unfinished state

end Step

end PacketPath
