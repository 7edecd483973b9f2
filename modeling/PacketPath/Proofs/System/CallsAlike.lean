import PacketPath.Proofs.Ring.PostingAlike
import PacketPath.Proofs.Ring.TakingAlike
import PacketPath.Proofs.System.Calls

/-! Calls of controllers that differ in what was reclaimed. A call for upkeep of the transmit ring leaves a controller
that no other call can tell from the one before, and every other call is answered alike. -/

set_option autoImplicit false

namespace PacketPath

open Step

variable {ε α : Type} {settles : Prop} {controller : Controller} {one other third : Controller × Machine Emulator}

namespace Controller

structure Alike (settles : Prop) (one other : Controller × Machine Emulator) : Prop where
  transmit : TransmitRing.Alike settles (one.1.transmitRing, one.2) (other.1.transmitRing, other.2)
  receiveRing : other.1.receiveRing = one.1.receiveRing

namespace Alike

theorem refl (state : Controller × Machine Emulator) : Alike settles state state :=
  ⟨.refl _, rfl⟩

theorem symm (alike : Alike settles one other) : Alike settles other one :=
  ⟨alike.transmit.symm, alike.receiveRing.symm⟩

theorem trans (first : Alike settles one other) (second : Alike settles other third) :
    Alike settles one third :=
  ⟨first.transmit.trans second.transmit, second.receiveRing.trans first.receiveRing⟩

theorem machine (alike : Alike settles one other) : one.2.Alike other.2 :=
  alike.transmit.machine

theorem own (alike : Alike settles one other) : other.1.own = one.1.own := by
  have table : other.1.transmitRing.table = one.1.transmitRing.table := alike.transmit.table
  unfold Controller.own
  rw [table, alike.receiveRing]

theorem of_machine {interrupts : Interrupts} {before after : Machine Emulator} (alike : before.Alike after) :
    Alike settles (controller, before) ({ controller with interrupts := interrupts }, after) :=
  ⟨.of_machine alike, rfl⟩

theorem of_cells {after after' : Controller × Machine Emulator} (alike : Alike settles one other)
    (kept : Alike False after after') (ring : after.1.transmitRing = one.1.transmitRing)
    (ring' : after'.1.transmitRing = other.1.transmitRing)
    (cells : one.1.transmitRing.table.transmitCell after.2.memory =
      one.1.transmitRing.table.transmitCell one.2.memory) : Alike settles after after' where
  transmit :=
    { kept.transmit with
      settled := by
        intro asked
        have table : other.1.transmitRing.table = one.1.transmitRing.table := alike.transmit.table
        have settled := alike.transmit.settled asked
        dsimp only at settled ⊢
        rw [ring, ring', TransmitRing.settled_congr cells, ← settled]
        refine TransmitRing.settled_congr ?_
        rw [table, kept.machine.memory.transmitCell, cells, alike.machine.memory.transmitCell] }
  receiveRing := kept.receiveRing

end Alike

/-! ### Upkeep -/

theorem reclaim_alike (seated : one.1.transmitRing.Seated one.2.memory) :
    (reclaim : Step ε _ _).Ends one (fun _ => Alike settles one) (fun _ _ => False) := by
  unfold reclaim
  rw [ends_onTransmit]
  exact (TransmitRing.reclaim_alike seated).mono (fun _ _ alike => ⟨alike, rfl⟩) (fun _ _ => id)

theorem serviceInterrupts_alike (seated : one.1.transmitRing.Seated one.2.memory) :
    (serviceInterrupts : Step ε _ _).Ends one (fun _ => Alike settles one) (fun _ _ => False) := by
  suffices kept : (serviceInterrupts : Step ε _ _).Ends one
      (fun _ after => Alike settles one after ∧ after.1.transmitRing.Seated after.2.memory) (fun _ _ => False) from
    kept.mono (fun _ _ kept => kept.1) (fun _ _ => id)
  apply serviceInterrupts_ends
  · rintro after offset ⟨alike, seated⟩
    exact ⟨alike.trans (.of_machine ⟨.refl _, .load after.2.device offset⟩), seated⟩
  · rintro after log ⟨alike, seated⟩
    exact ⟨alike.trans (.of_machine ⟨.refl _, .refl _⟩), seated⟩
  · rintro after interrupts ⟨alike, seated⟩
    exact ⟨alike.trans (.of_machine (.refl _)), seated⟩
  · rintro after ⟨alike, seated⟩
    have alike' : (reclaim : Step ε _ _).Ends after (fun _ => Alike settles after) (fun _ _ => False) :=
      reclaim_alike seated
    refine (alike'.and (reclaim_upkeep seated)).mono ?_ (fun _ _ => And.left)
    rintro _ later ⟨same, upkeep⟩
    exact ⟨alike.trans same, upkeep.transmitOnly.leads.seated seated⟩
  · exact ⟨.refl one, seated⟩

/-! ### Other calls -/

theorem onTransmit_agree {step : Step ε (TransmitRing × Machine Emulator) α} (alike : Alike settles one other)
    (agree : Agree (TransmitRing.Alike settles) step step (one.1.transmitRing, one.2)
      (other.1.transmitRing, other.2)) :
    Agree (Alike settles) (onTransmit step) (onTransmit step) one other :=
  .within agree fun _ _ kept => ⟨kept, alike.receiveRing⟩

theorem onReceive_agree {step : Step ε (ReceiveRing × Machine Emulator) α} (alike : Alike False one other)
    (agree : Agree (ReceiveRing.Paired (fun _ => True) Machine.Alike) step step (one.1.receiveRing, one.2)
      (one.1.receiveRing, other.2)) :
    Agree (Alike False) (onReceive step) (onReceive step) one other := by
  have both : Agree (ReceiveRing.Paired (fun _ => True) Machine.Alike) step step (one.1.receiveRing, one.2)
      (other.1.receiveRing, other.2) := by
    rw [alike.receiveRing]
    exact agree
  exact .within both fun _ _ kept =>
    ⟨{ alike.transmit with machine := kept.machine, settled := False.elim }, kept.ring⟩

end Controller

namespace Call

variable {controller' : Controller} {site site' : Site} {call : Call}

/-- A call for upkeep of the transmit ring delivers nothing and leaves a controller like the one before. -/
theorem perform_alike (isUpkeep : call.IsUpkeep) (seated : one.1.transmitRing.Seated one.2.memory) :
    call.perform.Ends one (fun frame after => frame = none ∧ Controller.Alike settles one after)
      (fun _ _ => False) := by
  cases call with
  | reclaim =>
    unfold perform
    simp only [Step.ends_bind, Step.ends_pure, true_and]
    exact Controller.reclaim_alike seated
  | serviceInterrupts =>
    unfold perform
    simp only [Step.ends_bind, Step.ends_pure, true_and]
    exact Controller.serviceInterrupts_alike seated
  | transmit | transmitFrame | receive | receiveInto | receiveIntoPage => exact isUpkeep.elim

theorem receives_agree (receives : call.Receives) (alike : Controller.Alike False one other) :
    Agree (Controller.Alike False) call.perform call.perform one other := by
  cases call with
  | transmit | transmitFrame | reclaim | serviceInterrupts => exact receives.elim
  | receive =>
    refine .mapRefusal (Controller.onReceive_agree alike ?_)
    exact ReceiveRing.receive_agree Machine.Alike.view trivial (fun _ _ => trivial) alike.machine
  | receiveInto destination =>
    refine .bind (.mapRefusal (Controller.onReceive_agree alike ?_)) fun _ _ _ alike => .pure _ alike
    exact ReceiveRing.receiveInto_agree Machine.Alike.view trivial (fun _ _ => trivial) alike.machine destination
  | receiveIntoPage target offset =>
    refine .bind (.mapRefusal (Controller.onReceive_agree alike ?_)) fun taken after after' alike => .get_bind ?_
    · exact ReceiveRing.receiveIntoPage_agree Machine.Alike.view trivial (fun _ _ => trivial) alike.machine trivial
        offset
    · dsimp only
      rw [show after'.2.memory.slice target offset = after.2.memory.slice target offset from
        funext fun length => alike.machine.memory.slice target offset length]
      exact .pure _ alike

/-- Every other call is answered alike. -/
theorem perform_agree (busy : ¬ call.IsUpkeep)
    (alike : Controller.Alike settles (controller, site.machine) (controller', site'.machine))
    (sound : Sound controller [] controller.receiveRing.recycled site)
    (sound' : Sound controller' [] controller'.receiveRing.recycled site')
    (pagesKnown : call.PagesKnown controller site.machine.memory)
    (pagesKnown' : call.PagesKnown controller' site'.machine.memory)
    (outside : call.target ≠ some controller.transmitRing.table.page) :
    Agree (Controller.Alike settles) call.perform call.perform (controller, site.machine)
      (controller', site'.machine) := by
  have seated := sound.wired.seated
  have seated' := sound'.wired.seated
  -- A call on the receive side writes neither transmit table, so nothing changes about what the rings settle to.
  have taken (receives : call.Receives) : Agree (Controller.Alike settles) call.perform call.perform
      (controller, site.machine) (controller', site'.machine) := by
    have weak : Controller.Alike False (controller, site.machine) (controller', site'.machine) :=
      ⟨{ alike.transmit with settled := False.elim }, alike.receiveRing⟩
    have agree := (receives_agree receives weak).and_ends (perform_receiveOnly sound pagesKnown receives)
      (perform_receiveOnly sound' pagesKnown' receives)
    refine agree.mono fun after after' ⟨kept, receiveOnly, receiveOnly'⟩ => ?_
    refine alike.of_cells kept receiveOnly.transmitRing receiveOnly'.transmitRing ?_
    funext slot
    unfold DescriptorTable.transmitCell
    rw [DescriptorTable.cell_of_changes receiveOnly.leads.changes seated.knows
      (not_or.mpr ⟨sound.tables_apart, outside⟩)]
  cases call with
  | transmit fragment =>
    refine .bind (.mapRefusal (Controller.onTransmit_agree alike ?_)) fun _ _ _ alike => .pure _ alike
    exact TransmitRing.post_agree alike.transmit seated seated' true
  | transmitFrame fragments =>
    refine .bind (.mapRefusal (Controller.onTransmit_agree alike ?_)) fun _ _ _ alike => .pure _ alike
    exact TransmitRing.postFrame_agree alike.transmit seated seated' pagesKnown.fragments
  | reclaim | serviceInterrupts => exact absurd trivial busy
  | receive | receiveInto | receiveIntoPage => exact taken trivial

end Call

end PacketPath
