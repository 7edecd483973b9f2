import PacketPath.Proofs.Ring.PostingPaired
import PacketPath.Proofs.System.Acts

/-! Pending causes. Only the one who reads the cause register takes pending causes away; whatever else is done
leaves them pending and may add some. -/

set_option autoImplicit false

namespace PacketPath

open Step

/-! ### Words of causes -/

namespace Cause

theorem meets_union (cause more mask : Cause) :
    (cause.union more).meets mask = (cause.meets mask || more.meets mask) := by
  have split : (cause.bits ||| more.bits) &&& mask.bits = (cause.bits &&& mask.bits) ||| (more.bits &&& mask.bits) := by
    apply UInt32.toBitVec_inj.mp
    simp only [UInt32.toBitVec_and, UInt32.toBitVec_or]
    ext i
    simp only [BitVec.getElem_and, BitVec.getElem_or, Bool.and_or_distrib_right]
  unfold meets union
  dsimp only
  rw [split, bne, bne, bne, ← Bool.not_and, Bool.not_inj_iff, Bool.eq_iff_iff]
  simp only [Bool.and_eq_true, beq_iff_eq, UInt32.or_eq_zero_iff]

theorem bits_named (cause : Cause) : cause.named.bits = cause.bits &&& 0xDF := by
  apply UInt32.toNat_inj.mp
  rw [UInt32.toNat_and]
  unfold named
  rw [show Flags.known cause = cause.bits.toNat &&& 0xDF from rfl]
  exact UInt32.toNat_ofNat_of_lt' (Nat.lt_of_le_of_lt Nat.and_le_right (by decide))

theorem meets_named {cause mask : Cause} (known : 0xDF &&& mask.bits = mask.bits) :
    cause.named.meets mask = cause.meets mask := by
  unfold meets
  rw [bits_named, UInt32.and_assoc, known]

end Cause

namespace Emulator

def pending (device : Emulator) : Cause :=
  ⟨device.causes⟩

def Holds (device : Emulator) (cause : Cause) : Prop :=
  ∃ more, device.pending = cause.union more

theorem Holds.refl (device : Emulator) : device.Holds device.pending :=
  ⟨.none, congrArg Cause.mk UInt32.or_zero.symm⟩

theorem Holds.more {device after : Emulator} {cause more : Cause} (holds : device.Holds cause)
    (pending : after.pending = device.pending.union more) : after.Holds cause := by
  obtain ⟨some, before⟩ := holds
  refine ⟨some.union more, ?_⟩
  rw [pending, before]
  exact congrArg Cause.mk (UInt32.or_assoc ..)

theorem Holds.of_same {device after : Emulator} {cause : Cause} (holds : device.Holds cause)
    (pending : after.pending = device.pending) : after.Holds cause := by
  obtain ⟨some, before⟩ := holds
  exact ⟨some, pending.trans before⟩

theorem Holds.meets {device : Emulator} {cause mask : Cause} (holds : device.Holds cause)
    (meets : cause.meets mask = true) : device.pending.meets mask = true := by
  obtain ⟨more, pending⟩ := holds
  rw [pending, Cause.meets_union, meets, Bool.true_or]

theorem pending_raise (device : Emulator) (cause : Cause) : (device.raise cause).pending = device.pending.union cause :=
  rfl

theorem pending_store (device : Emulator) {register : Register} (other : register ≠ .causeRead) (word : UInt32) :
    (device.store register.offset word).pending = device.pending :=
  congrArg Cause.mk (device.causes_store other word)

theorem pending_gather (device : Emulator) (bytes : List UInt8) (endsFrame : Bool) :
    (device.gather bytes endsFrame).pending = device.pending :=
  congrArg Cause.mk (device.causes_gather bytes endsFrame)

theorem exists_pending_latch (device : Emulator) :
    ∃ more, device.latch.pending = (device.pending.union .transmitWritten).union more := by
  rw [latch_eq]
  split
  · exact ⟨.transmitEmpty, rfl⟩
  · exact ⟨.none, congrArg Cause.mk UInt32.or_zero.symm⟩

end Emulator

/-! ### One machine, twice -/

structure Machine.WithPending (cause : Cause) (one other : Machine Emulator) : Prop where
  memory : other.memory = one.memory
  device : other.device = one.device
  holds : one.device.Holds cause

namespace Machine.WithPending

variable {cause : Cause}

theorem refl (machine : Machine Emulator) : WithPending machine.device.pending machine machine :=
  ⟨rfl, rfl, .refl _⟩

theorem view (cause : Cause) : Machine.View (fun _ => True) (· ≠ .causeRead) (WithPending cause) where
  base withPending _ := by rw [withPending.memory]
  bytes withPending _ _ := by rw [withPending.memory]
  noted withPending _ _ := ⟨withPending.memory, withPending.device, withPending.holds⟩
  overwritten withPending _ _ _ _ := ⟨by rw [withPending.memory], withPending.device, withPending.holds⟩
  stored withPending _ word other :=
    ⟨withPending.memory, by rw [withPending.device], withPending.holds.of_same (Emulator.pending_store _ other word)⟩

theorem grips (cause : Cause) : Machine.Grips (WithPending cause) where
  retained withPending _ := ⟨by rw [withPending.memory], withPending.device, withPending.holds⟩
  released withPending _ := ⟨by rw [withPending.memory], withPending.device, withPending.holds⟩

theorem sends (cause : Cause) : Machine.Sends (WithPending cause) where
  transmitSide withPending := by rw [withPending.device]
  onward withPending bytes endsFrame length :=
    ⟨withPending.memory, by rw [withPending.device],
      withPending.holds.of_same (Emulator.pending_gather _ bytes endsFrame)⟩
  latched {one other} withPending := by
    obtain ⟨more, pending⟩ := one.device.exists_pending_latch
    have written : (one.device.raise .transmitWritten).Holds cause := withPending.holds.more (Emulator.pending_raise ..)
    exact ⟨withPending.memory, by rw [withPending.device], written.more pending⟩

end Machine.WithPending

/-! ### Calls -/

/-- Every call but one leaves pending what was pending. -/
theorem Call.perform_holds {call : Call} (other : call ≠ .serviceInterrupts) (controller : Controller)
    (machine : Machine Emulator) :
    call.perform.Ends (controller, machine) (fun _ after => after.2.device.Holds machine.device.pending)
      (fun _ after => after.2.device.Holds machine.device.pending) := by
  have view := Machine.WithPending.view machine.device.pending
  have grips := Machine.WithPending.grips machine.device.pending
  have start := Machine.WithPending.refl machine
  -- A machine is run beside itself: what both runs keep in common, the one run keeps.
  have kept {ε α ρ : Type} {covered : ρ → Prop} {ring : ρ} {step : Step ε (ρ × Machine Emulator) α}
      (agree : Agree (Machine.Paired covered (Machine.WithPending machine.device.pending)) step step (ring, machine)
        (ring, machine)) :
      step.Ends (ring, machine) (fun _ after => after.2.device.Holds machine.device.pending)
        (fun _ after => after.2.device.Holds machine.device.pending) :=
    agree.ends fun _ _ same => same.machine.holds
  have tells : Register.transmitTail ≠ .causeRead := by decide
  have tells' : Register.receiveTail ≠ .causeRead := by decide
  cases call with
  | serviceInterrupts => exact absurd rfl other
  | transmit fragment =>
    unfold perform Controller.transmit
    simp only [Step.ends_bind, Step.ends_mapRefusal, Controller.ends_onTransmit, Step.ends_pure]
    exact kept (TransmitRing.post_agree_paired view grips tells trivial start fragment true)
  | transmitFrame fragments =>
    unfold perform Controller.transmitFrame
    simp only [Step.ends_bind, Step.ends_mapRefusal, Controller.ends_onTransmit, Step.ends_pure]
    exact kept (TransmitRing.postFrame_agree_paired view grips tells trivial start fragments)
  | reclaim =>
    unfold perform Controller.reclaim
    simp only [Step.ends_bind, Controller.ends_onTransmit, Step.ends_pure]
    exact kept (TransmitRing.reclaim_agree view grips trivial start)
  | receive =>
    unfold perform Controller.receive
    simp only [Step.ends_mapRefusal, Controller.ends_onReceive]
    exact kept (ReceiveRing.receive_agree view tells' (fun _ _ => trivial) start)
  | receiveInto destination =>
    unfold perform Controller.receiveInto
    simp only [Step.ends_bind, Step.ends_mapRefusal, Controller.ends_onReceive, Step.ends_pure]
    exact kept (ReceiveRing.receiveInto_agree view tells' (fun _ _ => trivial) start destination)
  | receiveIntoPage target offset =>
    unfold perform Controller.receiveIntoPage
    simp only [Step.ends_bind, Step.ends_mapRefusal, Controller.ends_onReceive, Step.ends_pure, Step.ends_get]
    exact kept (ReceiveRing.receiveIntoPage_agree view tells' (fun _ _ => trivial) start trivial offset)

/-! ### The engines -/

variable {rules : Rules} {controller : Controller} {extra : List PageId} {recycled : Nat} {site next : Site}
  {flights : List Flight}

/-- The transmit engine leaves pending what was pending. If it finishes a slot, it says so. -/
theorem InFlight.transmit_signals (inFlight : InFlight (fun _ => True) controller site.machine flights)
    (sound : Sound controller extra recycled site) (most : Nat) :
    (Emulator.transmit most).Ends site.machine
      (fun _ after => after.device.Holds site.machine.device.pending ∧
        (after = site.machine ∨ after.device.pending.meets ⟨0x03⟩ = true)) (fun _ _ => False) := by
  have ready := sound.transmitReady inFlight.flies
  have visible (flight : Flight) (listed : flight ∈ flights) :
      flight.Visible controller.transmitRing site.machine.memory := (inFlight.accessible flight listed trivial).visible
  have agree : Agree (Machine.WithPending site.machine.device.pending) _ _ site.machine site.machine :=
    Emulator.transmit_agree_of_visible (Machine.WithPending.view _) (Machine.WithPending.sends _)
      (.refl site.machine) rfl trivial ready ready visible visible (fun _ _ => trivial) most
  have holds := agree.ends fun _ _ same => same.holds
  -- The engine latches its causes after the last slot, so a run that did anything ends with them.
  have signals : (Emulator.transmit most).Ends site.machine
      (fun _ after => after = site.machine ∨ after.device.pending.meets ⟨0x03⟩ = true) (fun _ _ => False) := by
    apply Emulator.transmit_ends ready.wired
    by_cases none : min site.machine.device.transmitSide.pending most = 0
    · rw [none]
      exact .inl rfl
    · rw [ready.flies.carries.pending] at none ⊢
      refine (Emulator.fetchSlots_flies ready (Nat.min_le_left ..)).mono ?_ ?_
      · intro _ after _
        rw [if_neg none]
        obtain ⟨more, pending⟩ := after.device.exists_pending_latch
        refine .inr ?_
        rw [pending, Cause.meets_union, Cause.meets_union, show Cause.transmitWritten.meets ⟨0x03⟩ = true by decide,
          Bool.or_true, Bool.true_or]
      · rintro _ _ ⟨stuck, -, -, flight, here, hidden⟩
        exact hidden (visible flight (List.mem_of_getElem? here))
  refine (holds.and signals).mono (fun _ _ => id) (fun _ _ => And.right)

/-- A frame that comes in is said to have come in, and one that finds the ring full is said to be lost. -/
theorem Sound.receive_signals (sound : Sound controller extra recycled site) (frame : List UInt8)
    (errors : ReceiveErrors) : (Emulator.receive frame errors).Ends site.machine
      (fun _ after => after.device.pending = site.machine.device.pending.union .received)
      (fun stop after => after.device.Holds site.machine.device.pending ∧
        (stop = .refused .ringFull → after.device.pending = site.machine.device.pending.union .receiverOverrun)) := by
  apply Emulator.receive_ends sound.receiveReady
  · exact fun _ => ⟨.refl _, nofun⟩
  · exact fun _ _ => ⟨⟨_, rfl⟩, fun _ => rfl⟩
  · exact fun _ _ _ _ _ _ => rfl

/-- Whatever the others and the device do, what is pending stays pending. -/
theorem Move.holds (sound : Sound controller extra recycled site)
    (inFlight : InFlight (fun _ => True) controller site.machine flights) (move : Move rules site next) :
    next.machine.device.Holds site.machine.device.pending := by
  cases move with
  | action action =>
    rw [(action.effect sound.housed sound.distinct).device]
    exact .refl _
  | transmit limit =>
    exact ((inFlight.transmit_signals sound limit).mono (fun _ _ => And.left) (fun _ _ => False.elim)).after
  | inject frame errors taken => exact ⟨_, (Step.ends_of_ok taken).mp (sound.receive_signals frame errors)⟩
  | lose frame errors refused => exact ((Step.ends_of_error refused).mp (sound.receive_signals frame errors)).1
  | raise cause => exact ⟨cause, rfl⟩

end PacketPath
