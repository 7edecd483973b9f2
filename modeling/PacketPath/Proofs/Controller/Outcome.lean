import PacketPath.Proofs.Controller.Hurdles
import PacketPath.Proofs.Register.File
import PacketPath.Host.Board
import PacketPath.Proofs.Host.Sides
import PacketPath.Proofs.Memory.Accounts

/-! How bringing a controller up turns out, on any platform and with any registers. Up to the mapping of the
registers it knows nothing of them; from then on they only have to answer. -/

set_option autoImplicit false

namespace PacketPath

variable {π δ α β : Type} {record : π → List PlatformAnswer} {placed : δ → Prop} {high : δ → UInt32}
  {state : π × Machine δ} {platform : Platform π δ}

theorem Settings.ringFits_iff (length : Nat) :
    Settings.ringFits length = true ↔ 8 ∣ length ∧ 8 ≤ length ∧ length ≤ 256 := by
  unfold Settings.ringFits Limits.descriptorSize Limits.ringAlignment Limits.pageSize
  simp only [Bool.and_eq_true, decide_eq_true_eq, beq_iff_eq]
  omega

theorem Settings.threshold_iff (threshold : UInt16) :
    ¬ Register.smallPacketMask < threshold.toUInt32 ↔ threshold.toNat ≤ 0xFFF := by
  rw [UInt32.lt_iff_toNat_lt, Nat.not_lt]
  rfl

namespace Controller

/-! ### Both halves -/

def checkFunction (pci : PciFunction) : Step AttachError (π × Machine δ) Unit := do
  let function := pci.text
  if ¬ pci.isSupported then
    Step.second (Machine.note .warn s!"[e1000] refusing pci function {function}")
    Step.refuse (.unsupported pci)

def checkSettings (settings : Settings) : Step AttachError (π × Machine δ) Unit := do
  if let .error error := settings.validate then
    Step.refuse (.settings error)

def checkWindow (pci : PciFunction) : Step AttachError (π × Machine δ) Unit := do
  if pci.windowSize < Register.windowSize then
    Step.refuse (.windowTooSmall pci.windowSize)

def opening (platform : Platform π δ) (pci : PciFunction) (settings : Settings) :
    Step AttachError (π × Machine δ) Unit := do
  checkFunction pci
  checkSettings settings
  let function := pci.text
  let window := Text.hex pci.windowBase.toNat
  Step.second (Machine.note .info s!"[e1000] attaching {function} bar0={window}")
  atStage .enable (platform.enable pci)
  checkWindow pci
  atStage .map (platform.map pci.windowBase pci.windowSize)

def bringUp [RegisterBus δ] (platform : Platform π δ) (pci : PciFunction) (settings : Settings) :
    Step AttachError (π × Machine δ) Controller := do
  let (_, interrupts) ← Step.second (Step.carrying .masked Interrupts.disable)
  let mac ← Step.second (settleMac settings.mac)
  Step.second (clearMulticast 0 Register.multicastEntries)
  let transmitRing ← raiseTransmit platform settings
  keeping transmitRing.pages do
    let receiveRing ← raiseReceive platform settings
    keeping receiveRing.pages do
      Step.second (Register.control.setBits Register.setLinkUp)
      atStage .route (platform.route pci.interruptLine)
      let (_, interrupts) ← Step.second (Step.carrying interrupts (Interrupts.enable settings.causes))
      let address := mac.text
      let line := pci.interruptLine.toNat
      Step.second (Machine.note .info
        s!"[e1000] up mac={address} tx_slots={transmitRing.capacity} rx_slots={receiveRing.capacity} irq={line}")
      return ⟨transmitRing, receiveRing, interrupts, mac, pci⟩

theorem refuse_bind {σ ε : Type} (error : ε) (next : β → Step ε σ α) :
    (Step.refuse error >>= next) = Step.refuse error :=
  rfl

/-- Bringing up falls into two halves. -/
theorem attach_eq [RegisterBus δ] (platform : Platform π δ) (pci : PciFunction) (settings : Settings) :
    attach platform pci settings = opening platform pci settings >>= fun _ => bringUp platform pci settings := by
  unfold attach opening bringUp checkFunction checkSettings checkWindow
  dsimp only
  -- A refusal ends the sequence, so in each case both sides are the same calls in the same order.
  by_cases supported : pci.isSupported = true
  · rw [if_neg (not_not_intro supported), if_neg (not_not_intro supported)]
    cases settings.validate with
    | error error => rfl
    | ok =>
      by_cases short : pci.windowSize < Register.windowSize
      · simp only [if_pos short, refuse_bind, bind_assoc, pure_bind]
      · simp only [if_neg short, bind_assoc, pure_bind]
  · rw [if_pos supported, if_pos supported]
    simp only [refuse_bind, bind_assoc]

/-! ### Up to the mapping -/

section Opening

variable (attempt : Attempt)

theorem checkFunction_takes :
    attempt.Takes record [.supported] (checkFunction attempt.pci) state fun _ _ => True := by
  have supported : attempt.pci.isSupported = true ↔ attempt.Met none .supported := by
    unfold PciFunction.isSupported
    rw [Bool.and_eq_true, beq_iff_eq, List.contains_iff_mem]
    rfl
  unfold checkFunction
  dsimp only
  by_cases met : attempt.pci.isSupported = true
  · rw [if_neg (not_not_intro met)]
    apply Attempt.Takes.pass _ rfl trivial
    simpa using supported.mp met
  · rw [if_pos met]
    refine (Attempt.Takes.note ..).bind fun _ _ _ => ?_
    exact .refuse [] .supported List.prefix_rfl (List.forall_mem_nil _) (mt supported.mpr met) rfl

theorem checkSettings_takes :
    attempt.Takes record [.ring .transmit, .ring .receive, .threshold] (checkSettings attempt.settings) state
      fun _ _ => True := by
  have transmit : Settings.ringFits attempt.settings.transmitLength = true ↔ attempt.Met none (.ring .transmit) :=
    Settings.ringFits_iff _
  have receive : Settings.ringFits attempt.settings.receiveLength = true ↔ attempt.Met none (.ring .receive) :=
    Settings.ringFits_iff _
  have threshold : ¬ Register.smallPacketMask < attempt.settings.smallPacketThreshold.toUInt32 ↔
      attempt.Met none .threshold := Settings.threshold_iff _
  unfold checkSettings Settings.validate
  -- The first check that fails speaks for all behind it.
  by_cases sends : Settings.ringFits attempt.settings.transmitLength = true
  · rw [if_neg (not_not_intro sends)]
    by_cases receives : Settings.ringFits attempt.settings.receiveLength = true
    · rw [if_neg (not_not_intro receives)]
      by_cases large : Register.smallPacketMask < attempt.settings.smallPacketThreshold.toUInt32
      · rw [if_pos large]
        refine .refuse [.ring .transmit, .ring .receive] .threshold List.prefix_rfl ?_
          (fun met => threshold.mpr met large) rfl
        simp [transmit.mp sends, receive.mp receives]
      · rw [if_neg large]
        apply Attempt.Takes.pass _ rfl trivial
        simp [transmit.mp sends, receive.mp receives, threshold.mp large]
    · rw [if_pos receives]
      refine .refuse [.ring .transmit] (.ring .receive) ⟨[.threshold], rfl⟩ ?_ (mt receive.mpr receives) rfl
      simp [transmit.mp sends]
  · rw [if_pos sends]
    exact .refuse [] (.ring .transmit) ⟨[.ring .receive, .threshold], rfl⟩ (List.forall_mem_nil _) (mt transmit.mpr sends) rfl

theorem checkWindow_takes :
    attempt.Takes record [.window] (checkWindow attempt.pci) state
      fun _ _ => Register.windowSize ≤ attempt.pci.windowSize := by
  unfold checkWindow
  split
  case isTrue short =>
    exact .refuse [] .window List.prefix_rfl (List.forall_mem_nil _) (Nat.not_le.mpr short) rfl
  case isFalse covers =>
    have met : attempt.Met none .window := Nat.not_lt.mp covers
    apply Attempt.Takes.pass _ rfl (Nat.not_lt.mp covers)
    simpa using met

theorem opening_takes (answers : platform.Answers record placed) :
    attempt.Takes record attempt.opening (opening platform attempt.pci attempt.settings) state
      fun _ after => placed after.device := by
  unfold opening
  refine (checkFunction_takes attempt).bind fun _ first _ => ?_
  refine (checkSettings_takes attempt).bind fun _ second _ => ?_
  refine (Attempt.Takes.note ..).bind fun _ third _ => ?_
  refine (Attempt.Takes.call (answers.enable ..)).bind fun _ fourth _ => ?_
  refine (checkWindow_takes attempt).bind fun _ fifth covers => ?_
  -- That the window was found to be large enough is what the registers need in order to answer.
  have mapped : attempt.Takes record [attempt.mapping]
      (atStage .map (platform.map attempt.pci.windowBase attempt.pci.windowSize)) fifth
      fun _ after => Register.windowSize ≤ attempt.pci.windowSize → placed after.device := .call (answers.map ..)
  exact mapped.mono (fun _ _ passes => ⟨passes.1, passes.2 covers⟩) fun _ _ => id

end Opening

/-! ### From the mapping on -/

variable {attempt : Attempt} {settings : Settings} {pages : List PageId}

theorem allocate_takes (answers : platform.Answers record placed) (ready : state.2.Ready placed pages)
    (stage : AttachStage) :
    attempt.Takes record [.call stage .allocate] (atStage stage platform.allocate) state
      fun page after => after.Ready placed (page :: pages) := by
  refine Step.Ends.mono (Attempt.Takes.call (answers.allocate state)) ?_ (fun _ _ => id)
  rintro page after ⟨passes, size, grows, still⟩
  refine ⟨passes, still ready.placed, fun other listed => ?_⟩
  rcases List.mem_cons.mp listed with rfl | before
  · exact Nat.le_of_eq size.symm
  · exact Nat.le_trans (ready.whole other before) (grows other)

theorem allocatePool_takes (answers : platform.Answers record placed) (ready : state.2.Ready placed pages)
    (count : Nat) :
    attempt.Takes record (List.replicate count (.call .receiveBuffer .allocate)) (allocatePool platform count) state
      fun pool after => pool.length = count ∧ after.Ready placed (pool ++ pages) := by
  induction count generalizing pages state with
  | zero => exact .pass (List.forall_mem_nil _) rfl ⟨rfl, ready⟩
  | succ count ih =>
    -- The pages so far are kept in use while the others are asked for.
    unfold allocatePool
    refine (allocate_takes answers ready _).bind fun page given ready => Attempt.Takes.keeping ?_ _
    have rest : attempt.Takes record (List.replicate count (.call .receiveBuffer .allocate) ++ [])
        (do return page :: (← allocatePool platform count)) given
        fun pool after => pool.length = count + 1 ∧ after.Ready placed (pool ++ pages) := by
      refine (ih ready).bind fun pool last reached => ?_
      refine .pass (List.forall_mem_nil _) rfl ⟨congrArg (· + 1) reached.1, reached.2.of_subset fun other listed => ?_⟩
      simpa [or_left_comm] using listed
    rwa [List.append_nil] at rest

variable [RegisterBus δ]

theorem raiseTransmit_takes (file : Register.File placed high) (answers : platform.Answers record placed)
    (ready : state.2.Ready placed []) (paged : settings.transmitLength * Limits.descriptorSize ≤ Limits.pageSize) :
    attempt.Takes record [.call .transmitTable .allocate] (raiseTransmit platform settings) state
      fun _ after => after.Ready placed [] := by
  unfold raiseTransmit
  refine (allocate_takes answers ready _).bind fun page given ready => ?_
  refine (Attempt.Takes.second ?_).keeping _
  have listed := List.mem_cons_self (a := page) (l := [])
  simp only [Step.ends_bind]
  refine (ready.create_table listed paged).mono ?_ (fun _ _ => id)
  rintro table laid ⟨rfl, ready⟩
  have fits : DescriptorTable.byteLength ⟨page, settings.transmitLength⟩ ≤ Limits.pageSize := paged
  refine Step.Ends.mono (ready.create_transmitRing listed fits) ?_ (fun _ _ => id)
  rintro _ marked ⟨rfl, ready⟩
  refine (file.program_transmit ready _).mono ?_ (fun _ _ => id)
  rintro _ _ ready
  apply file.write_ready ready
  intro _ ready
  apply file.write_ready ready
  intro _ ready
  apply file.write_ready ready
  intro _ ready
  exact Machine.Ready.of_placed ready.placed

theorem raiseReceive_takes (file : Register.File placed high) (answers : platform.Answers record placed)
    (ready : state.2.Ready placed []) (several : 0 < settings.receiveLength)
    (paged : settings.receiveLength * Limits.descriptorSize ≤ Limits.pageSize) :
    attempt.Takes record
      (.call .receiveTable .allocate :: List.replicate settings.receiveLength (.call .receiveBuffer .allocate))
      (raiseReceive platform settings) state fun _ after => after.Ready placed [] := by
  rw [← List.append_nil (List.replicate ..)]
  unfold raiseReceive
  refine (allocate_takes answers ready _).bind fun page given ready => Attempt.Takes.keeping ?_ _
  have listed := List.mem_cons_self (a := page) (l := [])
  refine (Attempt.Takes.second (ready.create_table listed paged)).bind fun table laid created => ?_
  obtain ⟨rfl, ready⟩ := created
  refine (allocatePool_takes answers ready _).bind fun pool full pooled => ?_
  obtain ⟨whole, ready⟩ := pooled
  refine (Attempt.Takes.second ?_).keeping _
  have fits : DescriptorTable.byteLength ⟨page, settings.receiveLength⟩ ≤ Limits.pageSize := paged
  have there : page ∈ pool ++ [page] := List.mem_append_right _ listed
  simp only [Step.ends_bind]
  refine Step.Ends.mono
    (ready.create_receiveRing there fits (fun _ pooled => List.mem_append_left _ pooled) whole) ?_ (fun _ _ => id)
  rintro _ bound ⟨rfl, ready⟩
  have holds : (ReceiveRing.blank ⟨page, settings.receiveLength⟩ pool).capacity ≠ 0 := Nat.ne_of_gt several
  refine (file.program_receive ready _ holds).mono ?_ (fun _ _ => id)
  rintro _ _ ready
  apply file.write_ready ready
  intro _ ready
  apply file.write_ready ready
  intro _ ready
  exact Machine.Ready.of_placed ready.placed

theorem bringUp_takes (file : Register.File placed high) (answers : platform.Answers record placed)
    (ready : state.2.Ready placed []) (same : attempt.high = high state.2.device)
    (transmit : attempt.Met none (.ring .transmit)) (receive : attempt.Met none (.ring .receive)) :
    attempt.Takes record attempt.raising (bringUp platform attempt.pci attempt.settings) state fun _ _ => True := by
  obtain ⟨-, several, few⟩ := transmit
  obtain ⟨-, several', few'⟩ := receive
  change 8 ≤ attempt.settings.transmitLength at several
  change attempt.settings.transmitLength ≤ 256 at few
  change 8 ≤ attempt.settings.receiveLength at several'
  change attempt.settings.receiveLength ≤ 256 at few'
  have paged {length : Nat} (few : length ≤ 256) : length * Limits.descriptorSize ≤ Limits.pageSize := by
    unfold Limits.descriptorSize Limits.pageSize
    omega
  unfold bringUp
  refine (Attempt.Takes.second (file.disable_ends ready)).bind fun masked first disabled => ?_
  obtain ⟨ready, still⟩ := disabled
  have settled : attempt.Takes record [.address] (Step.second (settleMac attempt.settings.mac)) first
      fun _ after => after.Ready placed [] := by
    -- Only interrupts were masked so far, and that is not done in the address registers.
    unfold Attempt.Takes
    rw [Step.ends_second]
    refine (file.settleMac_ends ready attempt.settings.mac).mono ?_ ?_
    · rintro mac after ⟨ready, own⟩
      have met : attempt.Met none .address := by rwa [still, ← same] at own
      exact ⟨⟨by simpa using met, (List.append_nil _).symm⟩, ready⟩
    · rintro stop after ⟨rfl, missing, unset⟩
      have unmet : ¬ attempt.Met none .address := by
        rw [still, ← same] at unset
        exact fun met => met.elim (· missing) (· unset)
      exact ⟨[], .address, none, rfl, List.prefix_rfl, List.forall_mem_nil _, unmet, by simp [Hurdle.calls]⟩
  refine settled.bind fun mac second ready => ?_
  have cleared : (clearMulticast 0 Register.multicastEntries).Ends second.2
      (fun _ after => after.Ready placed []) (fun _ _ => False) :=
    file.clearMulticast_ends ready 0 (Nat.le_of_eq (Nat.zero_add _))
  refine (Attempt.Takes.second cleared).bind fun _ third ready => ?_
  refine (raiseTransmit_takes file answers ready (paged few)).bind fun sender fourth ready => ?_
  refine Attempt.Takes.keeping ?_ _
  refine (raiseReceive_takes file answers ready (by omega) (paged few')).bind fun receiver fifth ready => ?_
  refine Attempt.Takes.keeping ?_ _
  refine (Attempt.Takes.second (file.setBits_ends ready .control _)).bind fun _ sixth ready => ?_
  refine (Attempt.Takes.call (answers.route ..)).bind fun _ routed placed => ?_
  have ready : routed.2.Ready _ [] := .of_placed (placed ready.placed)
  refine (Attempt.Takes.second (file.enable_ends ready ..)).bind fun enabled last ready => ?_
  exact (Attempt.Takes.note ..).bind fun _ _ _ => .pass (List.forall_mem_nil _) rfl trivial

end Controller

/-- How an attempt turns out. There is a controller if all hurdles are met, and only then. Otherwise the answer is the
error of the first that is not met, and if that is no later than the mapping, it comes out the same whatever
answers behind the registers. -/
def Attempt.Decides [RegisterBus δ] (attempt : Attempt) (record : π → List PlatformAnswer) (platform : Platform π δ)
    (state : π × Machine δ) : Prop :=
  (Controller.attach platform attempt.pci attempt.settings).Ends state
    (fun _ after => attempt.Passes attempt.hurdles (record state.1) (record after.1))
    (fun stop after => ¬ attempt.Passes attempt.hurdles (record state.1) (record after.1) ∧
      ∃ front failing refusal, stop = .refused (attempt.error refusal failing) ∧
        attempt.Falls attempt.hurdles (record state.1) (record after.1) front failing refusal ∧
        (attempt.mapping ∉ front → ∀ other : RegisterBus δ,
          @Controller.attach π δ other platform attempt.pci attempt.settings state = .error stop after))

/-- Bringing up never breaks a precondition, whatever the settings are, and its outcome is that of its hurdles. -/
theorem attach_outcome [RegisterBus δ] (file : Register.File placed high)
    (answers : platform.Answers record placed) (pci : PciFunction) (settings : Settings) (state : π × Machine δ) :
    let mapped := (Controller.opening platform pci settings).after state
    Attempt.Decides ⟨pci, settings, high mapped.2.device⟩ record platform state := by
  intro mapped
  generalize taken : (⟨pci, settings, high mapped.2.device⟩ : Attempt) = attempt
  obtain ⟨rfl, rfl, same⟩ := Attempt.mk.inj taken
  unfold Attempt.Decides
  rw [Controller.attach_eq, Step.ends_bind]
  refine ((Controller.opening_takes attempt answers).and (Step.ends_self _ state)).mono ?_ ?_
  · -- The registers are mapped: the other hurdles are taken with what is in them now.
    rintro _ opened ⟨⟨passes, placed⟩, ended⟩
    have reached : mapped = opened := by
      change Step.after _ state = opened
      unfold Step.after
      rw [ended]
    have transmit := passes.met (.ring .transmit) (by simp [Attempt.opening])
    have receive := passes.met (.ring .receive) (by simp [Attempt.opening])
    refine (Controller.bringUp_takes file answers (.of_placed placed) (reached ▸ same.symm) transmit receive).mono ?_ ?_
    · rintro controller after ⟨later, -⟩
      exact passes.append later
    · rintro stop after ⟨front, failing, refusal, answer, later⟩
      have falls := passes.falls later
      refine ⟨falls.not_passes, _, failing, refusal, answer, falls, fun unmapped => ?_⟩
      have listed : attempt.mapping ∈ attempt.opening := by simp [Attempt.opening]
      exact absurd (List.mem_append_left front listed) unmapped
  · -- It ends before, and the second half with all its accesses is not even begun.
    rintro stop after ⟨⟨front, failing, refusal, answer, first⟩, ended⟩
    have falls := first.append attempt.raising
    refine ⟨falls.not_passes, front, failing, refusal, answer, falls, fun _ other => ?_⟩
    rw [Controller.attach_eq]
    exact Step.bind_of_error ended _

/-! ### An emulated controller on a platform of few pages -/

theorem Emulator.file : Register.File (fun _ => True) fun device : Emulator => device.word .addressHigh where
  load device offset _ _ _ := by
    refine ⟨(device.load offset).1, (device.load offset).2, rfl, trivial, ?_, ?_⟩
    · unfold Emulator.load
      split
      · rfl
      split <;> rfl
    · rintro rfl
      rfl
  store device offset word _ _ _ :=
    ⟨_, rfl, trivial, fun apart => device.word_store_of_ne word (Ne.symm apart)⟩

namespace Ledger

def note (call : PlatformCall) : Step String (List PlatformAnswer × Machine δ) Unit :=
  Step.first (modify (· ++ [⟨call, none⟩]))

def allocate (limit : Nat) : Step String (List PlatformAnswer × Machine δ) PageId := fun (ledger, machine) =>
  if machine.memory.pages.size < limit then
    let base := UInt64.ofNat (machine.memory.pages.size * Limits.pageSize)
    let (page, memory) := machine.memory.adopt base (Array.replicate Limits.pageSize 0)
    .ok page (ledger ++ [⟨.allocate, none⟩], { machine with memory := memory })
  else .error (.refused "no page left") (ledger ++ [⟨.allocate, some "no page left"⟩], machine)

def host (limit : Nat) : Platform (List PlatformAnswer) δ where
  enable pci := note (.enable pci)
  map base size := note (.map base size)
  allocate := allocate limit
  route line := note (.route line)

theorem answers (limit : Nat) :
    (host limit : Platform (List PlatformAnswer) δ).Answers id (fun _ => True) where
  enable _ _ := ⟨rfl, trivial⟩
  map _ _ _ := ⟨rfl, fun _ => trivial⟩
  route _ _ := ⟨rfl, id⟩
  allocate state := by
    obtain ⟨ledger, machine⟩ := state
    unfold PlatformCall.Answered Step.Ends host allocate
    dsimp only
    by_cases left : machine.memory.pages.size < limit
    · rw [if_pos left]
      exact ⟨rfl, (machine.memory.size_adopt _ _).trans Array.size_replicate, machine.memory.size_le_adopt _ _,
        fun _ => trivial⟩
    · rw [if_neg left]
      exact ⟨_, rfl, rfl⟩

theorem device_opening (limit : Nat) (pci : PciFunction) (settings : Settings)
    (state : List PlatformAnswer × Machine δ) :
    ((Controller.opening (host limit) pci settings).after state).2.device = state.2.device := by
  have keeps : (Controller.opening (host limit) pci settings).Ends state
      (fun _ after => after.2.device = state.2.device) (fun _ after => after.2.device = state.2.device) := by
    unfold Controller.opening Controller.checkFunction Controller.checkSettings Controller.checkWindow
      Controller.atStage host note
    cases settings.validate <;>
      simp only [Step.ends_bind, Step.ends_ite, Step.ends_second, Machine.ends_note, Step.ends_refuse, Step.ends_pure,
        Step.ends_mapRefusal, Step.ends_first, Step.ends_modify, implies_true, and_self]
  exact keeps.after

end Ledger

/-- The emulated controller has an address of its own. There are three pages, so none is left for the second buffer. -/
theorem attach_outcome_emulated :
    Attempt.Decides ⟨Board.pciFunction, {}, MacAddress.emulated.highWord⟩ id (Ledger.host 3)
      ([], ⟨.empty, Emulator.create .emulated, #[]⟩) := by
  have own : (Emulator.create .emulated).word .addressHigh = MacAddress.emulated.highWord := by
    simp [Emulator.create, Emulator.word_setWord]
  -- With the device and the function in view, stating the outcome would run it.
  generalize Emulator.create .emulated = device at own
  rw [← own]
  generalize Board.pciFunction = pci
  have decides := attach_outcome Emulator.file (Ledger.answers 3) pci {} ([], ⟨.empty, device, #[]⟩)
  dsimp only at decides
  rw [Ledger.device_opening] at decides
  exact decides

end PacketPath
