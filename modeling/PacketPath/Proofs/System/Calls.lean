import PacketPath.Proofs.Ring.Rebinding
import PacketPath.Proofs.Ring.Recycling
import PacketPath.Proofs.System.Start

/-! Calls: what a user asks of a controller, and how each call ends at a sound site. A call works on
one of the two rings, or on neither, and keeps the site sound however it ends. -/

set_option autoImplicit false

namespace PacketPath

inductive Call where
  | transmit (fragment : Fragment)
  | transmitFrame (fragments : List Fragment)
  | reclaim
  | serviceInterrupts
  | receive
  | receiveInto (destination : List UInt8)
  | receiveIntoPage (target : PageId) (offset : Nat)

inductive CallError where
  | transmit (error : TransmitError)
  | receive (error : ReceiveError)
  deriving DecidableEq, Repr

namespace Call

/-- Make a call. It yields the bytes of the frame that it delivers, if it delivers one. -/
def perform : Call → Step CallError (Controller × Machine Emulator) (Option (List UInt8))
  | .transmit fragment => do
    (Controller.transmit fragment).mapRefusal .transmit
    return none
  | .transmitFrame fragments => do
    (Controller.transmitFrame fragments).mapRefusal .transmit
    return none
  | .reclaim => do
    let _ ← Controller.reclaim
    return none
  | .serviceInterrupts => do
    let _ ← Controller.serviceInterrupts
    return none
  | .receive => Controller.receive.mapRefusal .receive
  | .receiveInto destination => do
    let taken ← (Controller.receiveInto destination).mapRefusal .receive
    return taken.map fun (length, filled) => filled.take length
  | .receiveIntoPage target offset => do
    let taken ← (Controller.receiveIntoPage target offset).mapRefusal .receive
    let memory := (← get).2.memory
    return taken.map fun length => memory.slice target offset length

def fragments : Call → List Fragment
  | .transmit fragment => [fragment]
  | .transmitFrame fragments => fragments
  | _ => []

def target : Call → Option PageId
  | .receiveIntoPage target _ => some target
  | _ => none

end Call

variable {controller : Controller} {site : Site} {machine : Machine Emulator} {extra : List PageId} {recycled : Nat}
  {scope : PageId → Prop} {ε α : Type}

namespace Controller

@[simp] theorem ends_onTransmit {state : Controller × Machine Emulator}
    {good : α → Controller × Machine Emulator → Prop} {bad : Stop ε → Controller × Machine Emulator → Prop}
    (step : Step ε (TransmitRing × Machine Emulator) α) :
    (onTransmit step).Ends state good bad ↔
      step.Ends (state.1.transmitRing, state.2)
        (fun value after => good value ({ state.1 with transmitRing := after.1 }, after.2))
        (fun stop after => bad stop ({ state.1 with transmitRing := after.1 }, after.2)) :=
  Step.ends_within ..

@[simp] theorem ends_onReceive {state : Controller × Machine Emulator}
    {good : α → Controller × Machine Emulator → Prop} {bad : Stop ε → Controller × Machine Emulator → Prop}
    (step : Step ε (ReceiveRing × Machine Emulator) α) :
    (onReceive step).Ends state good bad ↔
      step.Ends (state.1.receiveRing, state.2)
        (fun value after => good value ({ state.1 with receiveRing := after.1 }, after.2))
        (fun stop after => bad stop ({ state.1 with receiveRing := after.1 }, after.2)) :=
  Step.ends_within ..

@[simp] theorem ends_onInterrupts {state : Controller × Machine Emulator}
    {good : α → Controller × Machine Emulator → Prop} {bad : Stop ε → Controller × Machine Emulator → Prop}
    (step : Step ε (Interrupts × Machine Emulator) α) :
    (onInterrupts step).Ends state good bad ↔
      step.Ends (state.1.interrupts, state.2)
        (fun value after => good value ({ state.1 with interrupts := after.1 }, after.2))
        (fun stop after => bad stop ({ state.1 with interrupts := after.1 }, after.2)) :=
  Step.ends_within ..

/-! ### Steps on the transmit side -/

structure TransmitOnly (before after : Controller × Machine Emulator) : Prop where
  receiveRing : after.1.receiveRing = before.1.receiveRing
  leads : TransmitRing.Leads (before.1.transmitRing, before.2) (after.1.transmitRing, after.2)

theorem TransmitOnly.of_quiet {before after : Controller × Machine Emulator}
    (transmitRing : after.1.transmitRing = before.1.transmitRing)
    (receiveRing : after.1.receiveRing = before.1.receiveRing) (quiet : Quiet before.2 after.2) :
    TransmitOnly before after where
  receiveRing := receiveRing
  leads :=
    { table := by rw [transmitRing]
      bindings := by rw [transmitRing]
      tail := by rw [transmitRing]; exact id
      changes := quiet.memory ▸ .refl _ _
      reachable := by rw [quiet.memory]
      transmitSide := ⟨_, _, quiet.transmitSide⟩
      receiveSide := quiet.receiveSide
      accounts := fun others accounts => by
        dsimp only at accounts ⊢
        rwa [quiet.memory, transmitRing]
      spent := fun slot => by
        dsimp only
        rw [quiet.memory, transmitRing]
        exact id }

theorem TransmitOnly.trans {before middle after : Controller × Machine Emulator} (first : TransmitOnly before middle)
    (second : TransmitOnly middle after) : TransmitOnly before after where
  receiveRing := second.receiveRing.trans first.receiveRing
  leads := first.leads.trans second.leads

theorem TransmitOnly.wire {before after : Controller × Machine Emulator} (transmitOnly : TransmitOnly before after) :
    after.2.device.wire = before.2.device.wire := by
  obtain ⟨tail, pending, side⟩ := transmitOnly.leads.transmitSide
  have gathered : after.2.device.gathered = before.2.device.gathered := congrArg Emulator.TransmitSide.gathered side
  have sent : after.2.device.sent = before.2.device.sent := congrArg Emulator.TransmitSide.sent side
  unfold Emulator.wire
  rw [gathered, sent]

theorem TransmitOnly.sound {after : Controller × Machine Emulator}
    (transmitOnly : TransmitOnly (controller, site.machine) after)
    (sound : Sound controller extra recycled site) : Sound after.1 extra recycled { site with machine := after.2 } := by
  obtain ⟨⟨transmitRing, receiveRing, interrupts, mac, pci⟩, machine⟩ := after
  have same : receiveRing = controller.receiveRing := transmitOnly.receiveRing
  subst same
  exact { sound.transmitStep transmitOnly.leads with }

structure TransmitUpkeep (before after : Controller × Machine Emulator) : Prop where
  transmitOnly : TransmitOnly before after
  flies : ∀ flights, TransmitRing.Flies (before.1.transmitRing, before.2) flights →
    TransmitRing.Flies (after.1.transmitRing, after.2) flights
  rebinds : TransmitRing.Rebinds [] before.1.transmitRing after.1.transmitRing

theorem TransmitUpkeep.of_quiet {before after : Controller × Machine Emulator}
    (transmitRing : after.1.transmitRing = before.1.transmitRing)
    (receiveRing : after.1.receiveRing = before.1.receiveRing) (quiet : Quiet before.2 after.2) :
    TransmitUpkeep before after where
  transmitOnly := .of_quiet transmitRing receiveRing quiet
  flies flights flies := by
    unfold TransmitRing.Flies at flies ⊢
    dsimp only at flies ⊢
    rwa [quiet.memory, quiet.transmitSide, transmitRing]
  rebinds := by
    rw [transmitRing]
    exact .refl _

theorem TransmitUpkeep.trans {before middle after : Controller × Machine Emulator}
    (first : TransmitUpkeep before middle)
    (second : TransmitUpkeep middle after) : TransmitUpkeep before after where
  transmitOnly := first.transmitOnly.trans second.transmitOnly
  flies flights flies := second.flies flights (first.flies flights flies)
  rebinds := first.rebinds.trans second.rebinds

theorem reclaim_upkeep (seated : controller.transmitRing.Seated machine.memory) :
    (reclaim : Step ε _ _).Ends (controller, machine) (fun _ => TransmitUpkeep (controller, machine))
      (fun _ _ => False) := by
  unfold reclaim
  rw [ends_onTransmit]
  have known := (TransmitRing.reclaim_leads (ε := ε) seated).and (TransmitRing.reclaim_rebinds seated)
  unfold Step.Ends at known ⊢
  cases ended : TransmitRing.reclaim (ε := ε) (controller.transmitRing, machine) with
  | ok value after =>
    rw [ended] at known
    refine ⟨⟨rfl, known.1⟩, fun flights flies => ?_, known.2⟩
    exact (Step.ends_of_ok ended).mp (TransmitRing.reclaim_flies flies)
  | error stop after =>
    rw [ended] at known
    exact known.1

structure Adds (fragment : Fragment) (before after : Controller × Machine Emulator) : Prop where
  transmitOnly : TransmitOnly before after
  flies : ∀ flights, TransmitRing.Flies (before.1.transmitRing, before.2) flights →
    TransmitRing.Flies (after.1.transmitRing, after.2) (flights ++ [⟨fragment, true⟩])
  rebinds : TransmitRing.Rebinds [fragment.page] before.1.transmitRing after.1.transmitRing

theorem transmit_adds {fragment : Fragment} (seated : controller.transmitRing.Seated machine.memory)
    (known : machine.memory.Knows fragment.page) (short : fragment.length ≤ Limits.maxFrame) :
    (transmit fragment).Ends (controller, machine) (fun _ => Adds fragment (controller, machine))
      (fun _ => TransmitUpkeep (controller, machine)) := by
  unfold transmit
  rw [ends_onTransmit]
  have leads : (TransmitRing.post fragment true).Ends (controller.transmitRing, machine)
      (fun _ => TransmitRing.Leads (controller.transmitRing, machine))
      (fun _ => TransmitRing.Leads (controller.transmitRing, machine)) := TransmitRing.post_leads seated known
  have changed := leads.and (TransmitRing.post_rebinds seated)
  unfold Step.Ends at changed ⊢
  cases ended : TransmitRing.post fragment true (controller.transmitRing, machine) with
  | ok value after =>
    rw [ended] at changed
    refine ⟨⟨rfl, changed.1⟩, fun flights flies => ?_, changed.2⟩
    exact ((Step.ends_of_ok ended).mp (TransmitRing.post_flies flies known short)).2
  | error stop after =>
    rw [ended] at changed
    refine ⟨⟨rfl, changed.1⟩, fun flights flies => ?_, changed.2⟩
    exact ((Step.ends_of_error ended).mp (TransmitRing.post_flies flies known short)).1

theorem serviceInterrupts_ends {reached : Controller × Machine Emulator → Prop} {state : Controller × Machine Emulator}
    (looked : ∀ after offset, reached after →
      reached (after.1, { after.2 with device := (after.2.device.load offset).2 }))
    (noted : ∀ after log, reached after → reached (after.1, { after.2 with log := log }))
    (counted : ∀ after interrupts, reached after → reached ({ after.1 with interrupts := interrupts }, after.2))
    (reclaimed : ∀ after, reached after → (reclaim : Step ε _ _).Ends after (fun _ => reached) (fun _ _ => False))
    (start : reached state) :
    (serviceInterrupts : Step ε _ _).Ends state (fun _ => reached) (fun _ _ => False) := by
  have read := looked state Register.causeRead.offset start
  have served : (Interrupts.service : Step ε _ _).Ends (state.1.interrupts, state.2)
      (fun _ after => reached ({ state.1 with interrupts := after.1 }, after.2)) (fun _ _ => False) := by
    unfold Interrupts.service
    simp only [Step.ends_bind, Step.ends_second, Register.ends_read, Step.ends_ite, Step.ends_first,
      Step.ends_modify, Machine.ends_note, Step.ends_pure]
    refine ⟨fun _ => ⟨fun _ => ⟨fun _ => ?_, fun _ => ?_⟩, fun _ => ⟨fun _ => ?_, fun _ => ?_⟩⟩,
      fun _ => ⟨fun _ => ⟨fun _ => ?_, fun _ => ?_⟩, fun _ => ⟨fun _ => ?_, fun _ => ?_⟩⟩⟩
    all_goals first | exact counted _ _ read | exact noted _ _ (counted _ _ read)
  unfold serviceInterrupts
  rw [Step.ends_bind, ends_onInterrupts]
  refine served.mono (fun work after kept => ?_) (fun _ _ => False.elim)
  -- Whatever came before, the link is only read and noted.
  have linked (middle : Controller × Machine Emulator) (before : reached middle) :
      (do
        if work.linkChanged then
          let state := if ← Step.second linkUp then "up" else "down"
          Step.second (Machine.note .info s!"[e1000] link {state}")
        return work : Step ε _ _).Ends middle (fun _ => reached) (fun _ _ => False) := by
    unfold linkUp
    simp only [Step.ends_bind, Step.ends_ite, Step.ends_second, Register.ends_read, Machine.ends_note,
      Step.ends_pure]
    have asked := looked middle Register.status.offset before
    have told := fun log => noted _ log asked
    exact ⟨fun _ => told _, fun _ => before⟩
  rw [Step.ends_ite]
  refine ⟨fun _ => ?_, fun _ => linked _ kept⟩
  rw [Step.ends_bind]
  exact (reclaimed _ kept).mono (fun _ => linked) (fun _ _ => id)

theorem serviceInterrupts_upkeep (seated : controller.transmitRing.Seated machine.memory) :
    (serviceInterrupts : Step ε _ _).Ends (controller, machine) (fun _ => TransmitUpkeep (controller, machine))
      (fun _ _ => False) := by
  have start : TransmitUpkeep (controller, machine) (controller, machine) := .of_quiet rfl rfl (.of_device rfl rfl)
  apply serviceInterrupts_ends
  · exact fun after offset before => before.trans (.of_quiet rfl rfl (.load after.2 offset))
  · exact fun _ _ before => before.trans (.of_quiet rfl rfl (.of_device rfl rfl))
  · exact fun _ _ before => before.trans (.of_quiet rfl rfl (.of_device rfl rfl))
  · exact fun _ before => (reclaim_upkeep (before.transmitOnly.leads.seated seated)).mono
      (fun _ _ later => before.trans later)
      (fun _ _ => id)
  · exact start

/-! ### Steps on the receive side -/

structure ReceiveOnly (scope : PageId → Prop) (before after : Controller × Machine Emulator) : Prop where
  transmitRing : after.1.transmitRing = before.1.transmitRing
  leads : ReceiveRing.Leads scope (before.1.receiveRing, before.2) (after.1.receiveRing, after.2)

theorem ReceiveOnly.mono {wider : PageId → Prop} {before after : Controller × Machine Emulator}
    (receiveOnly : ReceiveOnly scope before after) (covered : ∀ id, scope id → wider id) :
    ReceiveOnly wider before after where
  transmitRing := receiveOnly.transmitRing
  leads := { receiveOnly.leads with changes := receiveOnly.leads.changes.mono fun id => Or.imp_right (covered id) }

theorem ReceiveOnly.sound {after : Controller × Machine Emulator} {later : Nat}
    (receiveOnly : ReceiveOnly scope (controller, site.machine) after) (sound : Sound controller extra recycled site)
    (consumed : later ≤ site.others.arrivals.length)
    (stands : ReceiveRing.Stands (after.1.receiveRing, after.2) (site.others.arrivals.drop later)) :
    Sound after.1 extra later { site with machine := after.2 } := by
  obtain ⟨⟨transmitRing, receiveRing, interrupts, mac, pci⟩, machine⟩ := after
  have same : transmitRing = controller.transmitRing := receiveOnly.transmitRing
  subst same
  exact { sound.receiveStep receiveOnly.leads consumed stands with }

theorem ReceiveOnly.handsBack {after : Controller × Machine Emulator} {frame : Option (List UInt8)}
    {left : List Arrival}
    (receiveOnly : ReceiveOnly scope (controller, site.machine) after)
    (sound : Sound controller extra controller.receiveRing.recycled site)
    (stands : ReceiveRing.Stands (after.1.receiveRing, after.2) left)
    (recycles : Recycles (site.others.arrivals.drop controller.receiveRing.recycled) controller.receiveRing
      after.1.receiveRing frame left) :
    Sound after.1 extra after.1.receiveRing.recycled { site with machine := after.2 } ∧
      left = site.others.arrivals.drop after.1.receiveRing.recycled := by
  obtain ⟨rest, consumed⟩ := recycles.left_eq sound.consumed
  subst rest
  exact ⟨receiveOnly.sound sound consumed stands, rfl⟩

theorem ReceiveOnly.flies {after : Controller × Machine Emulator} {flights : List Flight}
    (receiveOnly : ReceiveOnly scope (controller, machine) after)
    (apart : controller.transmitRing.table.page ≠ controller.receiveRing.table.page)
    (outside : ¬ scope controller.transmitRing.table.page)
    (flies : TransmitRing.Flies (controller.transmitRing, machine) flights) :
    TransmitRing.Flies (after.1.transmitRing, after.2) flights := by
  have carries : controller.transmitRing.Carries machine.memory machine.device.transmitSide flights := flies
  have same : after.2.device.transmitSide = machine.device.transmitSide := receiveOnly.leads.transmitSide
  unfold TransmitRing.Flies
  dsimp only
  rw [receiveOnly.transmitRing, same]
  exact carries.of_changes receiveOnly.leads.changes (not_or.mpr ⟨apart, outside⟩)

end Controller

/-! ### How calls end -/

namespace Call

structure PagesKnown (call : Call) (controller : Controller) (memory : Memory) : Prop where
  fragments : ∀ fragment ∈ call.fragments, memory.Knows fragment.page
  target : ∀ target, call.target = some target → memory.Knows target ∧ target ∉ controller.receiveRing.pages

structure Leaves (target : Option PageId) (controller : Controller) (site : Site) (frame : Option (List UInt8))
    (after : Controller × Machine Emulator) : Prop where
  sound : Sound after.1 [] after.1.receiveRing.recycled { site with machine := after.2 }
  recycles : Recycles (site.others.arrivals.drop controller.receiveRing.recycled) controller.receiveRing
    after.1.receiveRing frame (site.others.arrivals.drop after.1.receiveRing.recycled)
  transmitCapacity : after.1.transmitRing.capacity = controller.transmitRing.capacity
  receiveCapacity : after.1.receiveRing.capacity = controller.receiveRing.capacity
  wire : after.2.device.wire = site.machine.device.wire
  own : after.1.own = controller.own
  changes : site.machine.memory.ChangesWithin (fun id => id ∈ controller.own ∨ target = some id) after.2.memory

theorem leaves_of_transmitOnly {target : Option PageId} {after : Controller × Machine Emulator}
    (sound : Sound controller [] controller.receiveRing.recycled site)
    (transmitOnly : Controller.TransmitOnly (controller, site.machine) after) :
    Leaves target controller site none after where
  sound := by
    rw [transmitOnly.receiveRing]
    exact transmitOnly.sound sound
  recycles := by
    rw [transmitOnly.receiveRing]
    exact .refl _ _
  transmitCapacity := transmitOnly.leads.capacity
  receiveCapacity := by rw [transmitOnly.receiveRing]
  wire := transmitOnly.wire
  own := by
    unfold Controller.own
    rw [show after.1.transmitRing.table = controller.transmitRing.table from transmitOnly.leads.table,
      transmitOnly.receiveRing]
  changes := by
    refine transmitOnly.leads.changes.mono ?_
    rintro id rfl
    exact .inl (Sound.table_mem_own controller)

/-- A call that takes frames from the receive ring works on that ring and on its target alone, and the frames that it
does not hand back still stand there. -/
structure Dequeues (call : Call) (controller : Controller) (site : Site) (frame : Option (List UInt8))
    (after : Controller × Machine Emulator) : Prop where
  receiveOnly : Controller.ReceiveOnly (fun id => call.target = some id) (controller, site.machine) after
  exists_left : ∃ left, ReceiveRing.Stands (after.1.receiveRing, after.2) left ∧
    Recycles (site.others.arrivals.drop controller.receiveRing.recycled) controller.receiveRing after.1.receiveRing
      frame left

theorem dequeues_of_taken {call : Call} {frame : Option (List UInt8)} {left : List Arrival}
    {delivered : ReceiveCounters → ReceiveCounters} {after : ReceiveRing × Machine Emulator}
    (taken : ReceiveRing.Taken scope (site.others.arrivals.drop controller.receiveRing.recycled)
      (controller.receiveRing, site.machine) after left delivered)
    (covered : ∀ id, scope id → call.target = some id)
    (recycles : Recycles (site.others.arrivals.drop controller.receiveRing.recycled) controller.receiveRing after.1
      frame left) :
    call.Dequeues controller site frame ({ controller with receiveRing := after.1 }, after.2) := by
  have receiveOnly : Controller.ReceiveOnly scope (controller, site.machine)
      ({ controller with receiveRing := after.1 }, after.2) :=
    ⟨rfl, taken.leads⟩
  exact ⟨receiveOnly.mono covered, left, taken.stands, recycles⟩

theorem Dequeues.leaves {call : Call} {frame : Option (List UInt8)} {after : Controller × Machine Emulator}
    (dequeues : call.Dequeues controller site frame after)
    (sound : Sound controller [] controller.receiveRing.recycled site) :
    Leaves call.target controller site frame after := by
  have receiveOnly := dequeues.receiveOnly
  obtain ⟨left, stands, recycles⟩ := dequeues.exists_left
  obtain ⟨kept, rest⟩ := receiveOnly.handsBack sound stands recycles
  subst rest
  exact
    { sound := kept
      recycles := recycles
      transmitCapacity := by rw [receiveOnly.transmitRing]
      receiveCapacity := receiveOnly.leads.capacity
      wire := Emulator.wire_of_transmitSide receiveOnly.leads.transmitSide
      own := by
        unfold Controller.own
        rw [receiveOnly.transmitRing, receiveOnly.leads.pages]
      changes := by
        refine receiveOnly.leads.changes.mono ?_
        rintro id (rfl | inside)
        · exact .inl (List.mem_cons_of_mem _ (List.mem_cons_self ..))
        · exact .inr inside }

/-- If a call is told to receive at some place in a page, the place is not past the end of the page. -/
def Within (call : Call) (memory : Memory) : Prop :=
  ∀ target offset, call = .receiveIntoPage target offset → offset ≤ (memory.page target).size

/-- Only a destination that is too short stops a call on the receive side, and a call on the transmit
side stops for no reason of the receive side. -/
def MayStop : Call → Stop CallError → Prop
  | .transmit _, stop | .transmitFrame _, stop => ∀ error, stop ≠ .refused (.receive error)
  | .receiveInto _, stop | .receiveIntoPage _ _, stop =>
    ∃ needed provided, stop = .refused (.receive (.bufferTooSmall needed provided))
  | _, _ => False

def Receives : Call → Prop
  | .receive | .receiveInto _ | .receiveIntoPage _ _ => True
  | _ => False

def Sends : Call → Prop
  | .transmit _ | .transmitFrame _ => True
  | _ => False

def IsUpkeep : Call → Prop
  | .reclaim | .serviceInterrupts => True
  | _ => False

theorem IsUpkeep.bare {call : Call} (isUpkeep : call.IsUpkeep) : call.fragments = [] ∧ call.target = none := by
  cases call with
  | reclaim | serviceInterrupts => exact ⟨rfl, rfl⟩
  | transmit | transmitFrame | receive | receiveInto | receiveIntoPage => exact isUpkeep.elim

theorem perform_upkeep {call : Call} (isUpkeep : call.IsUpkeep)
    (seated : controller.transmitRing.Seated machine.memory) :
    call.perform.Ends (controller, machine) (fun _ => Controller.TransmitUpkeep (controller, machine))
      (fun _ _ => False) := by
  cases call with
  | reclaim =>
    unfold perform
    simp only [Step.ends_bind, Step.ends_pure]
    exact Controller.reclaim_upkeep seated
  | serviceInterrupts =>
    unfold perform
    simp only [Step.ends_bind, Step.ends_pure]
    exact Controller.serviceInterrupts_upkeep seated
  | transmit | transmitFrame | receive | receiveInto | receiveIntoPage => exact isUpkeep.elim

theorem perform_transmitOnly (seated : controller.transmitRing.Seated machine.memory) {call : Call}
    (known : ∀ fragment ∈ call.fragments, machine.memory.Knows fragment.page) (sends : ¬ call.Receives) :
    call.perform.Ends (controller, machine)
      (fun frame after => frame = none ∧ Controller.TransmitOnly (controller, machine) after)
      (fun stop after => Controller.TransmitOnly (controller, machine) after ∧ call.MayStop stop) := by
  cases call with
  | transmit fragment =>
    unfold perform Controller.transmit
    simp only [Step.ends_bind, Step.ends_mapRefusal, Controller.ends_onTransmit, Step.ends_pure]
    refine (TransmitRing.post_leads seated (known fragment (List.mem_singleton_self _))).mono
      (fun _ after leads => ⟨trivial, rfl, leads⟩) (fun stop after leads => ⟨⟨rfl, leads⟩, fun error => ?_⟩)
    cases stop <;> simp [Stop.map]
  | transmitFrame fragments =>
    unfold perform Controller.transmitFrame
    simp only [Step.ends_bind, Step.ends_mapRefusal, Controller.ends_onTransmit, Step.ends_pure]
    refine (TransmitRing.postFrame_leads seated known).mono
      (fun _ after leads => ⟨trivial, rfl, leads⟩) (fun stop after leads => ⟨⟨rfl, leads⟩, fun error => ?_⟩)
    cases stop <;> simp [Stop.map]
  | reclaim =>
    unfold perform
    simp only [Step.ends_bind, Step.ends_pure]
    exact (Controller.reclaim_upkeep seated).mono (fun _ _ upkeep => ⟨trivial, upkeep.transmitOnly⟩)
      (fun _ _ => False.elim)
  | serviceInterrupts =>
    unfold perform
    simp only [Step.ends_bind, Step.ends_pure]
    exact (Controller.serviceInterrupts_upkeep seated).mono (fun _ _ upkeep => ⟨trivial, upkeep.transmitOnly⟩)
      (fun _ _ => False.elim)
  | receive | receiveInto | receiveIntoPage => exact absurd trivial sends

/-- A call on the receive side yields the first frame of use, or it stops as its destination has no room for it. -/
theorem perform_dequeues (sound : Sound controller [] controller.receiveRing.recycled site) {call : Call}
    (pagesKnown : call.PagesKnown controller site.machine.memory) (receives : call.Receives) :
    call.perform.Ends (controller, site.machine)
      (fun frame after => call.Dequeues controller site frame after ∧
        frame = (clean (site.others.arrivals.drop controller.receiveRing.recycled)).head?)
      (fun stop after => call.Dequeues controller site none after ∧
        (call.Within site.machine.memory → call.MayStop stop)) := by
  rw [head?_clean]
  cases call with
  | transmit | transmitFrame | reclaim | serviceInterrupts => exact receives.elim
  | receive =>
    unfold perform Controller.receive
    simp only [Step.ends_mapRefusal, Controller.ends_onReceive]
    refine (ReceiveRing.receive_stands sound.stands sound.roomy).mono ?_ (fun _ _ => False.elim)
    rintro _ after ⟨rfl, taken⟩
    exact ⟨dequeues_of_taken taken (fun _ => False.elim) taken.recycles, rfl⟩
  | receiveInto destination =>
    unfold perform Controller.receiveInto
    simp only [Step.ends_bind, Step.ends_mapRefusal, Controller.ends_onReceive, Step.ends_pure]
    refine (ReceiveRing.receiveInto_stands sound.stands sound.roomy destination).mono ?_ ?_
    · rintro _ after ⟨_, rfl, taken⟩
      -- The destination starts with the frame, and only so much of it is handed out.
      have front : Option.map (fun (length, filled) => List.take length filled)
          ((ReceiveRing.upcoming (site.others.arrivals.drop controller.receiveRing.recycled)).head?.map fun arrival =>
            (arrival.frame.length, arrival.frame ++ destination.drop arrival.frame.length)) =
          (ReceiveRing.upcoming (site.others.arrivals.drop controller.receiveRing.recycled)).head?.map
            Arrival.frame := by
        simp [Option.map_map, Function.comp_def]
      rw [front]
      exact ⟨dequeues_of_taken taken (fun _ => False.elim) taken.recycles, rfl⟩
    · rintro stop after ⟨⟨arrival, _, _, rfl⟩, taken⟩
      exact ⟨dequeues_of_taken taken (fun _ => False.elim) taken.recycles_none, fun _ => ⟨_, _, rfl⟩⟩
  | receiveIntoPage target offset =>
    obtain ⟨known, foreign⟩ := pagesKnown.target target rfl
    have covered : ∀ id, id = target → (receiveIntoPage target offset).target = some id := by
      rintro id rfl
      rfl
    unfold perform Controller.receiveIntoPage
    simp only [Step.ends_bind, Step.ends_mapRefusal, Controller.ends_onReceive, Step.ends_pure, Step.ends_get]
    refine (ReceiveRing.receiveIntoPage_stands sound.stands sound.roomy foreign known offset).mono ?_ ?_
    · rintro _ after ⟨copied, rfl, taken⟩
      have recycles := taken.recycles
      cases front : (ReceiveRing.upcoming
          (site.others.arrivals.drop controller.receiveRing.recycled)).head? with
      | none =>
        rw [front] at recycles
        exact ⟨dequeues_of_taken taken covered recycles, rfl⟩
      | some arrival =>
        have bytes := (copied arrival front).2
        rw [front] at recycles
        dsimp only [Option.map_some] at recycles ⊢
        rw [bytes]
        exact ⟨dequeues_of_taken taken covered recycles, rfl⟩
    · rintro stop after ⟨refused, taken⟩
      refine ⟨dequeues_of_taken taken covered taken.recycles_none, fun within => ?_⟩
      rcases refused with ⟨arrival, _, _, rfl⟩ | ⟨outside, -⟩
      · exact ⟨_, _, rfl⟩
      · exact absurd (within target offset rfl) (Nat.not_le_of_lt outside)

theorem perform_leaves (sound : Sound controller [] controller.receiveRing.recycled site) {call : Call}
    (pagesKnown : call.PagesKnown controller site.machine.memory) :
    call.perform.Ends (controller, site.machine)
      (fun frame after => Leaves call.target controller site frame after ∧
        (call.Receives → frame = (clean (site.others.arrivals.drop controller.receiveRing.recycled)).head?))
      (fun stop after => Leaves call.target controller site none after ∧
        (call.Within site.machine.memory → call.MayStop stop)) := by
  by_cases receives : call.Receives
  · exact (perform_dequeues sound pagesKnown receives).mono
      (fun _ _ ⟨dequeues, front⟩ => ⟨dequeues.leaves sound, fun _ => front⟩)
      (fun _ _ ⟨dequeues, mayStop⟩ => ⟨dequeues.leaves sound, mayStop⟩)
  · refine (perform_transmitOnly sound.wired.seated pagesKnown.fragments receives).mono ?_ ?_
    · rintro _ after ⟨rfl, transmitOnly⟩
      exact ⟨leaves_of_transmitOnly sound transmitOnly, fun here => absurd here receives⟩
    · rintro stop after ⟨transmitOnly, mayStop⟩
      exact ⟨leaves_of_transmitOnly sound transmitOnly, fun _ => mayStop⟩

theorem perform_receiveOnly (sound : Sound controller [] controller.receiveRing.recycled site) {call : Call}
    (pagesKnown : call.PagesKnown controller site.machine.memory) (receives : call.Receives) :
    call.perform.Ends (controller, site.machine)
      (fun _ => Controller.ReceiveOnly (fun id => call.target = some id) (controller, site.machine))
      (fun _ => Controller.ReceiveOnly (fun id => call.target = some id) (controller, site.machine)) :=
  (perform_dequeues sound pagesKnown receives).mono (fun _ _ ended => ended.1.receiveOnly)
    (fun _ _ ended => ended.1.receiveOnly)

theorem perform_flies_of_not_sends {flights : List Flight}
    (sound : Sound controller [] controller.receiveRing.recycled site)
    (flies : TransmitRing.Flies (controller.transmitRing, site.machine) flights) {call : Call}
    (pagesKnown : call.PagesKnown controller site.machine.memory)
    (outside : call.target ≠ some controller.transmitRing.table.page) (silent : ¬ call.Sends) :
    call.fragments = [] ∧ call.perform.Ends (controller, site.machine)
      (fun _ after => TransmitRing.Flies (after.1.transmitRing, after.2) flights)
      (fun _ after => TransmitRing.Flies (after.1.transmitRing, after.2) flights) := by
  have apart := sound.tables_apart
  cases call with
  | transmit | transmitFrame => exact absurd trivial silent
  | reclaim | serviceInterrupts =>
    exact ⟨rfl, (perform_upkeep (by trivial) sound.wired.seated).mono (fun _ _ upkeep => upkeep.flies flights flies)
      (fun _ _ => False.elim)⟩
  | receive | receiveInto | receiveIntoPage =>
    exact ⟨rfl, (perform_receiveOnly sound pagesKnown trivial).mono
      (fun _ _ receiveOnly => receiveOnly.flies apart outside flies)
      (fun _ _ receiveOnly => receiveOnly.flies apart outside flies)⟩

/-- A call puts into flight what it hands over, all of it if it succeeds. Of a frame that it cannot post to the end
the first fragments stay in flight. -/
theorem perform_adds {flights : List Flight} (sound : Sound controller [] controller.receiveRing.recycled site)
    (flies : TransmitRing.Flies (controller.transmitRing, site.machine) flights) {call : Call}
    (pagesKnown : call.PagesKnown controller site.machine.memory)
    (short : ∀ fragment ∈ call.fragments, fragment.length ≤ Limits.maxFrame)
    (outside : call.target ≠ some controller.transmitRing.table.page) :
    call.perform.Ends (controller, site.machine)
      (fun _ after => TransmitRing.Flies (after.1.transmitRing, after.2) (flights ++ Flight.ofFrame call.fragments))
      (fun _ after => ∃ first, first <+: Flight.ofFrame call.fragments ∧
        TransmitRing.Flies (after.1.transmitRing, after.2) (flights ++ first)) := by
  by_cases sends : call.Sends
  case neg =>
    obtain ⟨none, kept⟩ := perform_flies_of_not_sends sound flies pagesKnown outside sends
    rw [none]
    refine kept.mono (fun _ _ flies => ?_) (fun _ _ flies => flies.adds_none)
    rwa [Flight.ofFrame, List.append_nil]
  cases call with
  | transmit fragment =>
    unfold perform Controller.transmit
    simp only [Step.ends_bind, Step.ends_mapRefusal, Controller.ends_onTransmit, Step.ends_pure]
    have listed := List.mem_singleton_self fragment
    exact (TransmitRing.post_flies flies (pagesKnown.fragments fragment listed) (short fragment listed)).mono
      (fun _ _ posted => posted.2) (fun _ _ stopped => stopped.1.adds_none)
  | transmitFrame fragments =>
    unfold perform Controller.transmitFrame
    simp only [Step.ends_bind, Step.ends_mapRefusal, Controller.ends_onTransmit, Step.ends_pure]
    exact TransmitRing.postFrame_adds flies pagesKnown.fragments short
  | reclaim | serviceInterrupts | receive | receiveInto | receiveIntoPage => exact sends.elim

theorem perform_flies {flights : List Flight} (sound : Sound controller [] controller.receiveRing.recycled site)
    (flies : TransmitRing.Flies (controller.transmitRing, site.machine) flights) {call : Call}
    (pagesKnown : call.PagesKnown controller site.machine.memory)
    (sendable : ∀ fragment ∈ call.fragments, fragment.Sendable site.machine.memory)
    (outside : call.target ≠ some controller.transmitRing.table.page) :
    call.perform.Ends (controller, site.machine)
      (fun _ after => TransmitRing.Flies (after.1.transmitRing, after.2) (flights ++ Flight.ofFrame call.fragments))
      (fun _ after => TransmitRing.Flies (after.1.transmitRing, after.2) flights) := by
  by_cases sends : call.Sends
  case neg =>
    obtain ⟨none, kept⟩ := perform_flies_of_not_sends sound flies pagesKnown outside sends
    rw [none, Flight.ofFrame, List.append_nil]
    exact kept
  cases call with
  | transmit fragment =>
    unfold perform Controller.transmit
    simp only [Step.ends_bind, Step.ends_mapRefusal, Controller.ends_onTransmit, Step.ends_pure]
    exact (TransmitRing.post_flies_of_sendable flies (sendable fragment (List.mem_singleton_self _))).mono
      (fun _ _ posted => posted.2) (fun _ _ refused => refused.1)
  | transmitFrame fragments =>
    unfold perform Controller.transmitFrame
    simp only [Step.ends_bind, Step.ends_mapRefusal, Controller.ends_onTransmit, Step.ends_pure]
    exact (TransmitRing.postFrame_flies flies sendable).mono (fun _ _ posted => posted.1)
      (fun _ _ refused => refused.1)
  | reclaim | serviceInterrupts | receive | receiveInto | receiveIntoPage => exact sends.elim

end Call

end PacketPath
