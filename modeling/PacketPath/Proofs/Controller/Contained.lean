import PacketPath.Proofs.Controller.Outcome
import PacketPath.Proofs.Register.Watched
import PacketPath.Proofs.Ring.Contained

/-! A controller stays inside its register window, from the mapping on and in everything that is done with it later. -/

set_option autoImplicit false

namespace PacketPath

open Step (Contained)

variable {π δ ε : Type} {placed : δ → Prop}

/-! ### Interrupts -/

namespace Interrupts

variable [RegisterBus δ] (fence : Register.Fence placed)
include fence

theorem enable_contained (cause : Cause) : (enable cause : Step ε _ _).Contained (Machine.PlacedBeside placed) :=
  .bind (.second (fence.write _ _)) fun _ => .bind (.first (.modify _)) fun _ => .bind .get fun _ =>
    .second (Machine.note_contained _ _)

theorem disable_contained : (disable : Step ε _ _).Contained (Machine.PlacedBeside placed) :=
  .bind (.second (fence.write _ _)) fun _ => .first (.modify _)

theorem service_contained : (service : Step ε _ _).Contained (Machine.PlacedBeside placed) := by
  refine .bind (.second (fence.read _)) fun word => .guard (.first (.modify _)) fun _ => ?_
  refine .guard (.second (Machine.note_contained _ _)) fun _ => ?_
  exact .guard (.second (Machine.note_contained _ _)) fun _ => .pure _

end Interrupts

/-! ### Calls of a controller -/

namespace Controller

theorem onTransmit_contained {α : Type} {step : Step ε (TransmitRing × Machine δ) α}
    (contained : step.Contained (Machine.PlacedBeside placed)) :
    (onTransmit step).Contained (Machine.PlacedBeside placed) :=
  contained.within (fun _ => id) (fun _ _ _ => id)

theorem onReceive_contained {α : Type} {step : Step ε (ReceiveRing × Machine δ) α}
    (contained : step.Contained (Machine.PlacedBeside placed)) :
    (onReceive step).Contained (Machine.PlacedBeside placed) :=
  contained.within (fun _ => id) (fun _ _ _ => id)

theorem onInterrupts_contained {α : Type} {step : Step ε (Interrupts × Machine δ) α}
    (contained : step.Contained (Machine.PlacedBeside placed)) :
    (onInterrupts step).Contained (Machine.PlacedBeside placed) :=
  contained.within (fun _ => id) (fun _ _ _ => id)

inductive Request where
  | transmit (fragment : Fragment)
  | transmitFrame (fragments : List Fragment)
  | receive
  | receiveInto (destination : List UInt8)
  | receiveIntoPage (target : PageId) (offset : Nat)
  | receiveReady
  | reclaim
  | serviceInterrupts
  | linkUp
  deriving DecidableEq, Repr

variable [RegisterBus δ]

def Request.perform : Request → Step String (Controller × Machine δ) Unit
  | .transmit fragment => (Controller.transmit fragment).mapRefusal TransmitError.message
  | .transmitFrame fragments => (Controller.transmitFrame fragments).mapRefusal TransmitError.message
  | .receive => do let _ ← Controller.receive.mapRefusal ReceiveError.message
  | .receiveInto destination => do let _ ← (Controller.receiveInto destination).mapRefusal ReceiveError.message
  | .receiveIntoPage target offset => do
    let _ ← (Controller.receiveIntoPage target offset).mapRefusal ReceiveError.message
  | .receiveReady => do let _ ← Step.second (← get).1.receiveReady
  | .reclaim => do let _ ← Controller.reclaim
  | .serviceInterrupts => do let _ ← Controller.serviceInterrupts
  | .linkUp => do let _ ← Step.second Controller.linkUp

variable (fence : Register.Fence placed)
include fence

theorem linkUp_contained : (linkUp : Step ε (Machine δ) _).Contained (Machine.Placed placed) :=
  .bind (fence.read _) fun _ => .pure _

theorem serviceInterrupts_contained :
    (serviceInterrupts : Step ε (Controller × Machine δ) _).Contained (Machine.PlacedBeside placed) := by
  refine .bind (onInterrupts_contained (Interrupts.service_contained fence)) fun work => ?_
  refine .ite (.bind (onTransmit_contained TransmitRing.reclaim_contained) fun _ => ?_) ?_
  all_goals
    exact .guard_two (.second (linkUp_contained fence)) (fun _ => .second (Machine.note_contained _ _)) fun _ => .pure _

theorem Request.perform_contained (request : Request) :
    (request.perform : Step _ (Controller × Machine δ) _).Contained (Machine.PlacedBeside placed) := by
  cases request with
  | transmit fragment => exact .mapRefusal (onTransmit_contained (TransmitRing.post_contained fence fragment true))
  | transmitFrame fragments =>
    exact .mapRefusal (onTransmit_contained (TransmitRing.postFrame_contained fence fragments))
  | receive => exact .bind (.mapRefusal (onReceive_contained (ReceiveRing.receive_contained fence))) fun _ => .pure _
  | receiveInto destination =>
    exact .bind (.mapRefusal (onReceive_contained (ReceiveRing.receiveInto_contained fence _))) fun _ => .pure _
  | receiveIntoPage target offset =>
    exact .bind (.mapRefusal (onReceive_contained (ReceiveRing.receiveIntoPage_contained fence _ _))) fun _ => .pure _
  | receiveReady => exact .bind .get fun state => .bind (.second state.1.receiveRing.isReady_contained) fun _ => .pure _
  | reclaim => exact .bind (onTransmit_contained TransmitRing.reclaim_contained) fun _ => .pure _
  | serviceInterrupts => exact .bind (serviceInterrupts_contained fence) fun _ => .pure _
  | linkUp => exact .bind (.second (linkUp_contained fence)) fun _ => .pure _

/-! ### Bringing up -/

theorem settleMac_contained (mac : Option MacAddress) :
    (settleMac mac : Step _ (Machine δ) _).Contained (Machine.Placed placed) := by
  cases mac with
  | some mac =>
    exact .bind (fence.write _ _) fun _ => .bind (fence.write _ _) fun _ =>
      .bind (Machine.note_contained _ _) fun _ => .pure _
  | none =>
    refine .bind (fence.read _) fun low => .bind (fence.read _) fun high => ?_
    cases MacAddress.ofWords? low high with
    | none => exact .refuse _
    | some mac => exact .bind (Machine.note_contained _ _) fun _ => .pure _

theorem clearMulticast_contained (index count : Nat) :
    (clearMulticast index count : Step _ (Machine δ) _).Contained (Machine.Placed placed) := by
  induction count generalizing index with
  | zero => exact .pure _
  | succ count ih => exact .bind (fence.writeMulticast _ _) fun _ => ih (index + 1)

variable {platform : Platform π δ}

theorem raiseTransmit_contained (allocates : platform.allocate.Contained (Machine.PlacedBeside placed))
    (settings : Settings) : (raiseTransmit platform settings).Contained (Machine.PlacedBeside placed) := by
  refine .bind (.mapRefusal allocates) fun page => .thenIfStopped (.second ?_) fun _ => id
  refine .bind (DescriptorTable.create_contained _ _) fun table => ?_
  refine .bind (TransmitRing.create_contained _) fun ring => ?_
  refine .bind (TransmitRing.program_contained fence ring) fun _ => ?_
  exact .bind (fence.write _ _) fun _ => .bind (fence.write _ _) fun _ => .bind (fence.write _ _) fun _ => .pure _

omit fence [RegisterBus δ] in
theorem allocatePool_contained (allocates : platform.allocate.Contained (Machine.PlacedBeside placed)) (count : Nat) :
    (allocatePool platform count).Contained (Machine.PlacedBeside placed) := by
  induction count with
  | zero => exact .pure _
  | succ count ih =>
    exact .bind (.mapRefusal allocates) fun _ => .thenIfStopped (.bind ih fun _ => .pure _) fun _ => id

theorem raiseReceive_contained (allocates : platform.allocate.Contained (Machine.PlacedBeside placed))
    (settings : Settings) : (raiseReceive platform settings).Contained (Machine.PlacedBeside placed) := by
  refine .bind (.mapRefusal allocates) fun page => .thenIfStopped ?_ fun _ => id
  refine .bind (.second (DescriptorTable.create_contained _ _)) fun table => ?_
  refine .bind (allocatePool_contained allocates _) fun pool => .thenIfStopped (.second ?_) fun _ => id
  refine .bind (ReceiveRing.create_contained _ _) fun ring => ?_
  refine .bind (ReceiveRing.program_contained fence ring) fun _ => ?_
  exact .bind (fence.write _ _) fun _ => .bind (fence.write _ _) fun _ => .pure _

theorem bringUp_contained (allocates : platform.allocate.Contained (Machine.PlacedBeside placed))
    (routes : ∀ line, (platform.route line).Contained (Machine.PlacedBeside placed)) (pci : PciFunction)
    (settings : Settings) : (bringUp platform pci settings).Contained (Machine.PlacedBeside placed) := by
  refine .bind (.second (.carrying _ (Interrupts.disable_contained fence))) fun _ => ?_
  refine .bind (.second (settleMac_contained fence _)) fun mac => ?_
  refine .bind (.second (clearMulticast_contained fence _ _)) fun _ => ?_
  refine .bind (raiseTransmit_contained fence allocates settings) fun transmitRing => .thenIfStopped ?_ fun _ => id
  refine .bind (raiseReceive_contained fence allocates settings) fun receiveRing => .thenIfStopped ?_ fun _ => id
  refine .bind (.second (fence.setBits _ _)) fun _ => .bind (.mapRefusal (routes _)) fun _ => ?_
  refine .bind (.second (.carrying _ (Interrupts.enable_contained fence _))) fun _ => ?_
  exact .bind (.second (Machine.note_contained _ _)) fun _ => .pure _

end Controller

/-! ### Platforms -/

/-- The platform's part in this: it makes no accesses of its own and leaves the size of the window alone. -/
def LeavesWindow {α : Type} (step : Step String (π × Machine WatchedWindow) α) : Prop :=
  ∀ state, step.Ends state
    (fun _ after => after.2.device.size = state.2.device.size ∧ after.2.device.events = state.2.device.events)
    (fun stop after => ¬ stop.AtWindow ∧
      after.2.device.size = state.2.device.size ∧ after.2.device.events = state.2.device.events)

/-- A platform that maps windows of exactly the size that was asked for. -/
structure Platform.MapsExactly (platform : Platform π WatchedWindow) : Prop where
  enable : ∀ pci, LeavesWindow (platform.enable pci)
  map : ∀ base size state, (platform.map base size).Ends state
    (fun _ after => after.2.device.size = size ∧ after.2.device.events = state.2.device.events)
    (fun stop after => ¬ stop.AtWindow ∧ after.2.device.events = state.2.device.events)
  allocate : LeavesWindow platform.allocate
  route : ∀ line, LeavesWindow (platform.route line)

section

variable {platform : Platform π WatchedWindow} {size : Nat} {before : List RegisterEvent}

/-- What is the same size and has the same record is as good as the window before. -/
theorem LeavesWindow.contained {α : Type} {step : Step String (π × Machine WatchedWindow) α}
    {good : WatchedWindow → Prop} (leaves : LeavesWindow step)
    (same : ∀ window next : WatchedWindow, next.size = window.size → next.events = window.events → good window →
      good next) : step.Contained (Machine.PlacedBeside good) := by
  intro state there
  refine (leaves state).mono ?_ ?_
  · rintro value after ⟨sized, recorded⟩
    exact same _ _ sized recorded there
  · rintro stop after ⟨elsewhere, sized, recorded⟩
    exact ⟨elsewhere, same _ _ sized recorded there⟩

theorem LeavesWindow.mapped {α : Type} {step : Step String (π × Machine WatchedWindow) α} (leaves : LeavesWindow step) :
    step.Contained (Machine.PlacedBeside (WatchedWindow.Mapped size before)) := by
  refine leaves.contained fun window next sized recorded mapped => ⟨sized.trans mapped.sized, ?_⟩
  obtain ⟨made, since, all⟩ := mapped.since
  exact ⟨made, recorded.trans since, all⟩

namespace Controller

theorem checkFunction_contained {good : WatchedWindow → Prop} (pci : PciFunction) :
    (checkFunction pci : Step _ (π × Machine WatchedWindow) _).Contained (Machine.PlacedBeside good) :=
  .ite (.bind (.second (Machine.note_contained _ _)) fun _ => .refuse _) (.pure _)

theorem checkSettings_contained {good : WatchedWindow → Prop} (settings : Settings) :
    (checkSettings settings : Step _ (π × Machine WatchedWindow) _).Contained (Machine.PlacedBeside good) := by
  unfold checkSettings
  cases settings.validate with
  | error error => exact .refuse _
  | ok => exact .pure _

theorem opening_ends (maps : platform.MapsExactly) (pci : PciFunction) (settings : Settings)
    {state : π × Machine WatchedWindow} (recorded : state.2.device.events = before) :
    (opening platform pci settings).Ends state
      (fun _ after => Register.windowSize ≤ pci.windowSize ∧ after.2.device.size = pci.windowSize ∧
        after.2.device.events = before)
      (fun stop after => ¬ stop.AtWindow ∧ Machine.PlacedBeside (fun window => window.events = before) after) := by
  have enables : (platform.enable pci).Contained (Machine.PlacedBeside fun window => window.events = before) :=
    (maps.enable pci).contained fun _ _ _ same => same.trans
  unfold opening
  refine (checkFunction_contained pci).ends_bind recorded fun _ checked there => ?_
  refine (checkSettings_contained settings).ends_bind there fun _ settled there => ?_
  refine (Contained.second (Machine.note_contained _ _)).ends_bind there fun _ noted there => ?_
  refine (enables.mapRefusal).ends_bind there fun _ enabled there => ?_
  unfold checkWindow atStage
  simp only [Step.ends_bind, Step.ends_ite, Step.ends_refuse, Step.ends_pure, Step.ends_mapRefusal]
  refine ⟨fun _ => ⟨not_false, there⟩, fun long => (maps.map _ _ enabled).mono ?_ ?_⟩
  · rintro _ mapped ⟨sized, same⟩
    exact ⟨Nat.le_of_not_lt long, sized, same.trans there⟩
  · rintro stop mapped ⟨elsewhere, same⟩
    exact ⟨mt (Stop.atWindow_map _ _).mp elsewhere, same.trans there⟩

end Controller

end

/-! ### Runs -/

inductive Turn where
  | call (request : Controller.Request)
  | meanwhile (memory : Memory) (answers : List RegisterEvent → Nat → UInt32)

/-- A call that is stopped is followed by the next turn all the same. -/
def Turn.take (state : Controller × Machine WatchedWindow) : Turn → Controller × Machine WatchedWindow
  | .call request => request.perform.after state
  | .meanwhile memory answers =>
    (state.1, { state.2 with memory := memory, device := { state.2.device with answers := answers } })

def takeTurns (state : Controller × Machine WatchedWindow) (turns : List Turn) : Controller × Machine WatchedWindow :=
  turns.foldl Turn.take state

section

variable {size : Nat} {before : List RegisterEvent} {state : Controller × Machine WatchedWindow}

theorem Turn.take_mapped (covers : Register.windowSize ≤ size) (mapped : state.2.device.Mapped size before)
    (turn : Turn) : (turn.take state).2.device.Mapped size before := by
  cases turn with
  | call request =>
    have contained := Controller.Request.perform_contained (WatchedWindow.fence covers before) request
    exact (contained state mapped).mono (fun _ _ => id) (fun _ _ stopped => stopped.2) |>.after
  | meanwhile memory answers => exact ⟨mapped.sized, mapped.since⟩

theorem takeTurns_mapped (covers : Register.windowSize ≤ size) (mapped : state.2.device.Mapped size before)
    (turns : List Turn) : (takeTurns state turns).2.device.Mapped size before := by
  induction turns generalizing state with
  | nil => exact mapped
  | cons turn later ih => exact ih (turn.take_mapped covers mapped)

end

/-- Every access of bringing up, and of any run of calls of the controller afterwards, is to a listed register whose
word lies inside the least window, and so inside the window that was mapped; no call is stopped at the window. The
entries of the multicast table lie below the address registers. -/
theorem accesses_stay_inside {platform : Platform π WatchedWindow} (maps : platform.MapsExactly) (pci : PciFunction)
    (settings : Settings) (state : π × Machine WatchedWindow) :
    let before := state.2.device.events
    (Controller.attach platform pci settings).Ends state
      (fun controller after => after.2.device.Mapped pci.windowSize before ∧
        ∀ turns, ∀ request : Controller.Request,
          request.perform.Ends (takeTurns (controller, after.2) turns)
            (fun _ last => last.2.device.Mapped pci.windowSize before)
            (fun stop last => ¬ stop.AtWindow ∧ last.2.device.Mapped pci.windowSize before))
      (fun stop after => ¬ stop.AtWindow ∧ after.2.device.SoundSince pci.windowSize before) ∧
    ∀ (machine : Machine WatchedWindow) index word, Register.windowSize ≤ machine.device.size →
      (Register.writeMulticast index word : Step Empty _ _).Ends machine
        (fun _ after => index < Register.multicastEntries ∧
          after.device.events = .write (Register.multicastTable.offset + index * 4) word :: machine.device.events ∧
          Register.multicastTable.offset + index * 4 + 4 ≤ Register.addressLow.offset)
        (fun stop after => ¬ index < Register.multicastEntries ∧ stop = .violated (.multicastIndex index) ∧
          after = machine) := by
  intro before
  refine ⟨?_, fun machine index word covers => WatchedWindow.writeMulticast_ends covers index word⟩
  rw [Controller.attach_eq, Step.ends_bind]
  refine (Controller.opening_ends maps pci settings rfl).mono ?_ ?_
  · rintro _ mapped ⟨covers, sized, recorded⟩
    have fence := WatchedWindow.fence covers before
    have raised := Controller.bringUp_contained fence maps.allocate.mapped (fun line => (maps.route line).mapped) pci
      settings
    refine (raised mapped ⟨sized, .of_same recorded⟩).mono ?_ ?_
    · rintro controller ⟨host, machine⟩ up
      change machine.device.Mapped pci.windowSize before at up
      exact ⟨up, fun turns request => request.perform_contained fence _ (takeTurns_mapped covers up turns)⟩
    · rintro stop after ⟨elsewhere, reached⟩
      exact ⟨elsewhere, reached.since⟩
  · rintro stop after ⟨elsewhere, recorded⟩
    exact ⟨elsewhere, .of_same recorded⟩

/-! ### A window that reads as zeros -/

namespace WatchedWindow

def host : Platform (List PlatformCall) WatchedWindow where
  enable pci := Step.first (modify (· ++ [.enable pci]))
  map base size := do
    Step.first (modify (· ++ [.map base size]))
    Step.second (modify fun machine =>
      { machine with device := { machine.device with size := size, answers := fun _ _ => 0 } })
  allocate := fun (calls, machine) =>
    let base := UInt64.ofNat (machine.memory.pages.size * Limits.pageSize)
    let (page, memory) := machine.memory.adopt base (Array.replicate Limits.pageSize 0)
    .ok page (calls ++ [.allocate], { machine with memory := memory })
  route line := Step.first (modify (· ++ [.route line]))

theorem host_mapsExactly : host.MapsExactly where
  enable _ _ := ⟨rfl, rfl⟩
  map _ _ _ := ⟨rfl, rfl⟩
  allocate _ := ⟨rfl, rfl⟩
  route _ _ := ⟨rfl, rfl⟩

structure Zeroed (window : WatchedWindow) : Prop where
  covers : Register.windowSize ≤ window.size
  zero : window.answers = fun _ _ => 0

theorem file : Register.File Zeroed fun _ => 0 where
  load window offset zeroed aligned ends := by
    refine ⟨_, _, load_of_inside zeroed.covers ⟨aligned, ends⟩, ⟨zeroed.covers, zeroed.zero⟩, rfl, fun _ => ?_⟩
    rw [zeroed.zero]
  store window offset word zeroed aligned ends :=
    ⟨_, store_of_inside zeroed.covers ⟨aligned, ends⟩ word, ⟨zeroed.covers, zeroed.zero⟩, fun _ => rfl⟩

def granted (calls : List PlatformCall) : List PlatformAnswer :=
  calls.map fun call => ⟨call, none⟩

theorem granted_concat (calls : List PlatformCall) (call : PlatformCall) :
    granted (calls ++ [call]) = granted calls ++ [⟨call, none⟩] :=
  List.map_append

theorem host_answers : host.Answers granted Zeroed where
  enable _ _ := ⟨granted_concat .., trivial⟩
  map _ _ _ := ⟨granted_concat .., fun covers => ⟨covers, rfl⟩⟩
  route _ _ := ⟨granted_concat .., id⟩
  allocate state := ⟨granted_concat .., (state.2.memory.size_adopt _ _).trans Array.size_replicate,
    state.2.memory.size_le_adopt _ _, id⟩

/-- With an address of its own to set, a supported function comes up. -/
theorem exists_attach_host {pci : PciFunction} (supported : pci.isSupported = true)
    (covers : Register.windowSize ≤ pci.windowSize) (mac : MacAddress)
    (state : List PlatformCall × Machine WatchedWindow) :
    ∃ controller after, Controller.attach host pci { mac := some mac } state = .ok controller after := by
  have met (hurdle : Hurdle) : Attempt.Met ⟨pci, { mac := some mac }, 0⟩ none hurdle := by
    cases hurdle with
    | supported =>
      unfold PciFunction.isSupported at supported
      rwa [Bool.and_eq_true, beq_iff_eq, List.contains_iff_mem] at supported
    | ring direction =>
      cases direction with
      | transmit => exact (Settings.ringFits_iff 16).mp (by decide)
      | receive => exact (Settings.ringFits_iff 128).mp (by decide)
    | threshold => exact Nat.zero_le _
    | window => exact covers
    | address => exact .inl (Option.some_ne_none mac)
    | call => rfl
  have granted (calls : List PlatformCall) (answer : PlatformAnswer) (listed : answer ∈ granted calls) :
      answer.refusal = none := by
    obtain ⟨call, -, rfl⟩ := List.mem_map.mp listed
    rfl
  have up : (Controller.attach host pci { mac := some mac }).Ends state (fun _ _ => True) (fun _ _ => False) := by
    rw [Controller.attach_eq, Step.ends_bind]
    refine ((Controller.opening_takes _ host_answers).ends_of_met (fun hurdle _ => met hurdle) granted).mono ?_
      (fun _ _ => id)
    rintro _ mapped zeroed
    exact (Controller.bringUp_takes file host_answers (.of_placed zeroed) rfl (met _) (met _)).ends_of_met
      (fun hurdle _ => met hurdle) granted
  obtain ⟨controller, after, ended, -⟩ := up.exists_ok
  exact ⟨controller, after, ended⟩

theorem linkUp_ends {state : Controller × Machine WatchedWindow} (covers : Register.windowSize ≤ state.2.device.size) :
    Controller.Request.linkUp.perform.Ends state
      (fun _ last => last.2.device.events.length = state.2.device.events.length + 1) (fun _ _ => False) := by
  unfold Controller.Request.perform Controller.linkUp Register.read
  simp only [Step.ends_bind, Step.ends_second, Step.ends_pure]
  unfold Machine.load Step.Ends
  dsimp only
  rw [load_of_inside covers Register.status.inside]
  rfl

end WatchedWindow

/-- On a platform with pages bringing up ends well. After two calls a third one reads one more register. -/
theorem accesses_stay_inside_in_calls :
    let window : WatchedWindow := ⟨0, fun _ _ => 0, []⟩
    let turns : List Turn := [.call (.transmit ⟨⟨0⟩, 0, 60⟩), .call .serviceInterrupts]
    ∃ controller after,
      Controller.attach WatchedWindow.host Board.pciFunction { mac := some .emulated } ([], ⟨.empty, window, #[]⟩) =
        .ok controller after ∧
      Controller.Request.linkUp.perform.Ends (takeTurns (controller, after.2) turns)
        (fun _ last => last.2.device.Mapped Board.windowSize [] ∧
          last.2.device.events.length = (takeTurns (controller, after.2) turns).2.device.events.length + 1)
        (fun _ _ => False) := by
  intro window turns
  have covers : Register.windowSize ≤ Board.windowSize := by decide
  have supported : Board.pciFunction.isSupported = true := by decide
  obtain ⟨controller, after, ended⟩ :=
    WatchedWindow.exists_attach_host supported covers .emulated ([], ⟨.empty, window, #[]⟩)
  have stays := accesses_stay_inside WatchedWindow.host_mapsExactly Board.pciFunction { mac := some .emulated }
    ([], ⟨.empty, window, #[]⟩)
  have sized : Board.pciFunction.windowSize = Board.windowSize := rfl
  -- With the function in view, comparing statements would run it.
  generalize Board.pciFunction = pci at ended stays sized ⊢
  obtain ⟨mapped, calls⟩ := (Step.ends_of_ok ended).mp stays.1
  rw [sized] at mapped calls
  have reached : (takeTurns (controller, after.2) turns).2.device.Mapped Board.windowSize [] :=
    takeTurns_mapped covers mapped turns
  refine ⟨controller, after, ended, ((calls turns .linkUp).and (WatchedWindow.linkUp_ends (reached.sized.symm ▸ covers))).mono ?_ ?_⟩
  · exact fun _ _ => id
  · exact fun _ _ => And.right

end PacketPath
