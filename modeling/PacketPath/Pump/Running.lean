import PacketPath.Controller.Basic
import PacketPath.Message.Exchange
import PacketPath.Pump.Fault

/-! A pump at work: the pump itself and the controller, which nobody else touches meanwhile, and the
surroundings, which go on whenever the pump pauses. -/

set_option autoImplicit false

namespace PacketPath

structure Running (ρ δ ω : Type) where
  pump : ρ
  controller : Controller
  around : Surroundings δ ω

/-- What the rest of the system does while a pump pauses once. -/
abbrev Pause (δ ω : Type) : Type :=
  Surroundings δ ω → Surroundings δ ω

namespace Running

variable {ρ δ ω ε α : Type}

/-- Put a pump and a controller to work in their surroundings; both come back with the value. -/
def start (pump : ρ) (controller : Controller) (step : Step ε (Running ρ δ ω) α) :
    Step ε (Surroundings δ ω) (α × ρ × Controller) := fun around =>
  match step ⟨pump, controller, around⟩ with
  | .ok value running => .ok (value, running.pump, running.controller) running.around
  | .error stop running => .error stop running.around

def onAround (step : Step ε (Surroundings δ ω) α) : Step ε (Running ρ δ ω) α :=
  Step.within around (fun running around => { running with around := around }) step

def onMachine (step : Step ε (Machine δ) α) : Step ε (Running ρ δ ω) α :=
  onAround (Surroundings.onMachine step)

def onController (step : Step ε (Controller × Machine δ) α) : Step ε (Running ρ δ ω) α :=
  Step.within (fun running => (running.controller, running.around.machine))
    (fun running (controller, machine) =>
      { running with controller := controller, around.machine := machine }) step

def changePump (change : ρ → ρ) : Step ε (Running ρ δ ω) Unit :=
  modify fun running => { running with pump := change running.pump }

def yield (pause : Pause δ ω) : Step ε (Running ρ δ ω) Unit :=
  modify fun running => { running with around := pause running.around }

/-- Wait until `attempt` is ready, with pauses in between. Only when the wait is over does the pump
tally the attempts that were not ready; a wait that used up its budget then ends the pump. -/
def await (awaited : Awaited) (budget : Budget) (fuel : Nat) (pause : Pause δ ω) (tally : Nat → ρ → ρ)
    (attempt : Step PumpFault (Running ρ δ ω) (Option α)) : Step PumpFault (Running ρ δ ω) α := do
  let wait ← Retry.untilReady budget fuel attempt (yield pause)
  changePump (tally wait.waits)
  Step.orRefuse (.stalled awaited) wait.result

def releaseAll (pages : List PageId) (running : Running ρ δ ω) : Running ρ δ ω :=
  { running with around.machine.memory := running.around.machine.memory.releaseAll pages }

/-- Give back handles that are held already, once a step is over and however it ended. -/
def consuming (pages : List PageId) (step : Step ε (Running ρ δ ω) α) : Step ε (Running ρ δ ω) α :=
  step.thenAlways (releaseAll pages)

/-- Hold pages for as long as a step takes, however it ends. -/
def holding (pages : List PageId) (step : Step ε (Running ρ δ ω) α) : Step ε (Running ρ δ ω) α := do
  onMachine (Machine.changeMemory (·.retainAll pages))
  consuming pages step

def orDie (name : String) (step : Step PumpFault (Running ρ δ ω) α) : Step Death (Running ρ δ ω) α := do
  match ← step.attempt with
  | .ok value => return value
  | .error fault =>
    let line := (Death.mk name fault).closingLine
    onMachine (Machine.note line.level line.body)
    Step.refuse ⟨name, fault⟩

end Running

end PacketPath
