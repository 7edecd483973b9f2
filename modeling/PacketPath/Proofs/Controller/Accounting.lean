import PacketPath.Proofs.Controller.Outcome
import PacketPath.Proofs.Ring.Accounting

/-! What a controller counts of the frames that it is given. A new controller has counted nothing, and whatever else
its user asks of it leaves the counts of its transmit ring as they are. -/

set_option autoImplicit false

namespace PacketPath.Controller

variable {π δ ε α : Type}

/-! ### Bringing up -/

section

variable [RegisterBus δ]

theorem raiseTransmit_accounts (platform : Platform π δ) (settings : Settings) (state : π × Machine δ) :
    (raiseTransmit platform settings).Ends state (fun ring _ => ring.account = ⟨0, 0, 0⟩) (fun _ _ => True) := by
  unfold raiseTransmit keeping
  refine Step.ends_bind_any fun page allocated => ?_
  rw [Step.ends_thenIfStopped, Step.ends_second]
  refine Step.ends_bind_any fun table created => ?_
  rw [Step.ends_bind]
  have blank : (TransmitRing.create table).Ends created (fun ring _ => ring.account = ⟨0, 0, 0⟩)
      (fun (_ : Stop AttachError) _ => True) := Step.ends_bind_any fun _ _ => rfl
  refine blank.mono ?_ (fun _ _ => id)
  intro ring marked counted
  -- What is left tells the device of the ring and changes nothing about it.
  refine Step.ends_bind_any fun _ _ => Step.ends_bind_any fun _ _ => Step.ends_bind_any fun _ _ => ?_
  exact Step.ends_bind_any fun _ _ => counted

theorem attach_accounts (platform : Platform π δ) (pci : PciFunction) (settings : Settings) (state : π × Machine δ) :
    (attach platform pci settings).Ends state (fun controller _ => controller.transmitRing.account = ⟨0, 0, 0⟩)
      (fun _ _ => True) := by
  rw [attach_eq]
  refine Step.ends_bind_any fun _ opened => ?_
  unfold bringUp
  refine Step.ends_bind_any fun masked _ => Step.ends_bind_any fun mac _ => Step.ends_bind_any fun _ cleared => ?_
  rw [Step.ends_bind]
  refine (raiseTransmit_accounts platform settings cleared).mono ?_ (fun _ _ => id)
  intro ring raised counted
  unfold keeping
  rw [Step.ends_thenIfStopped]
  refine Step.ends_bind_any fun receiveRing _ => ?_
  rw [Step.ends_thenIfStopped]
  refine Step.ends_bind_any fun _ _ => Step.ends_bind_any fun _ _ => Step.ends_bind_any fun enabled _ => ?_
  exact Step.ends_bind_any fun _ _ => counted

end

/-! ### Calls that send nothing -/

/-- What a user may ask of a controller besides sending. -/
inductive Aside where
  | reclaim
  | serviceInterrupts
  | receive
  | receiveInto (destination : List UInt8)
  | receiveIntoPage (target : PageId) (offset : Nat)

def Aside.perform [RegisterBus δ] : Aside → Step ReceiveError (Controller × Machine δ) Unit
  | .reclaim => do
    let _ ← Controller.reclaim
  | .serviceInterrupts => do
    let _ ← Controller.serviceInterrupts
  | .receive => do
    let _ ← Controller.receive
  | .receiveInto destination => do
    let _ ← Controller.receiveInto destination
  | .receiveIntoPage target offset => do
    let _ ← Controller.receiveIntoPage target offset

theorem onReceive_leaves (step : Step ε (ReceiveRing × Machine δ) α) :
    (onReceive step).Leaves (fun state => state.1.transmitRing.account) := by
  apply Step.Leaves.within
  intro _ _
  rfl

theorem onInterrupts_leaves (step : Step ε (Interrupts × Machine δ) α) :
    (onInterrupts step).Leaves (fun state => state.1.transmitRing.account) := by
  apply Step.Leaves.within
  intro _ _
  rfl

theorem reclaim_leaves :
    (reclaim : Step ε (Controller × Machine δ) Nat).Leaves (fun state => state.1.transmitRing.account) := by
  refine .of_ends fun state => ?_
  unfold reclaim onTransmit
  rw [Step.ends_within]
  exact TransmitRing.reclaim_leaves.ends _

variable [RegisterBus δ]

theorem serviceInterrupts_leaves :
    (serviceInterrupts : Step ε (Controller × Machine δ) Work).Leaves (fun state => state.1.transmitRing.account) := by
  refine .bind (onInterrupts_leaves _) fun work => ?_
  let part (controller : Controller) := controller.transmitRing.account
  refine .ite (.bind reclaim_leaves fun _ => ?_) ?_ <;>
    exact .ite (.bind (.second part _) fun _ => .bind (.second part _) fun _ => .pure _) (.pure _)

theorem Aside.perform_leaves (aside : Aside) :
    (aside.perform : Step _ (Controller × Machine δ) _).Leaves (fun state => state.1.transmitRing.account) := by
  cases aside with
  | reclaim => exact .bind reclaim_leaves fun _ => .pure _
  | serviceInterrupts => exact .bind serviceInterrupts_leaves fun _ => .pure _
  | receive => exact .bind (onReceive_leaves _) fun _ => .pure _
  | receiveInto destination => exact .bind (onReceive_leaves _) fun _ => .pure _
  | receiveIntoPage target offset => exact .bind (onReceive_leaves _) fun _ => .pure _

end PacketPath.Controller
