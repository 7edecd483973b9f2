import PacketPath.Controller.Attach
import PacketPath.Proofs.Machine

/-! Hurdles on the way to a controller. They come in a fixed order, some are calls of the platform, and the first
that is not met is what the answer says. A step is judged by the hurdles that it takes. -/

set_option autoImplicit false

namespace PacketPath

/-! ### Calls of the platform -/

inductive PlatformCall where
  | enable (pci : PciFunction)
  | map (base : UInt64) (size : Nat)
  | allocate
  | route (line : UInt8)
  deriving DecidableEq, Repr

structure PlatformAnswer where
  call : PlatformCall
  refusal : Option String
  deriving DecidableEq, Repr

variable {π δ α β : Type} {record : π → List PlatformAnswer} {placed : δ → Prop} {state : π × Machine δ}
  {platform : Platform π δ}

/-- The platform puts the call on record. It does what it was asked for, or it refuses. -/
def PlatformCall.Answered (record : π → List PlatformAnswer) (call : PlatformCall)
    (step : Step String (π × Machine δ) α) (state : π × Machine δ) (good : α → Machine δ → Prop) : Prop :=
  step.Ends state
    (fun value after => record after.1 = record state.1 ++ [⟨call, none⟩] ∧ good value after.2)
    (fun stop after => ∃ detail, stop = .refused detail ∧ record after.1 = record state.1 ++ [⟨call, some detail⟩])

/-- A platform whose calls are on record. A register window that is large enough answers once it is mapped, and
pages are as long as they should be. -/
structure Platform.Answers (platform : Platform π δ) (record : π → List PlatformAnswer) (placed : δ → Prop) :
    Prop where
  enable : ∀ pci state, (PlatformCall.enable pci).Answered record (platform.enable pci) state fun _ _ => True
  map : ∀ base size state, (PlatformCall.map base size).Answered record (platform.map base size) state
    fun _ after => Register.windowSize ≤ size → placed after.device
  allocate : ∀ state, PlatformCall.allocate.Answered record platform.allocate state fun page after =>
    (after.memory.page page).size = Limits.pageSize ∧
      (∀ id, (state.2.memory.page id).size ≤ (after.memory.page id).size) ∧
      (placed state.2.device → placed after.device)
  route : ∀ line state, (PlatformCall.route line).Answered record (platform.route line) state
    fun _ after => placed state.2.device → placed after.device

/-! ### Hurdles -/

/-- What has to be met, either as things are or by what the platform answers. -/
inductive Hurdle where
  | supported
  | ring (direction : Direction)
  | threshold
  | window
  | address
  | call (stage : AttachStage) (call : PlatformCall)
  deriving DecidableEq, Repr

def Hurdle.calls (refusal : Option String) : Hurdle → List PlatformAnswer
  | .call _ asked => [⟨asked, refusal⟩]
  | _ => []

def Settings.ringLength (settings : Settings) : Direction → Nat
  | .transmit => settings.transmitLength
  | .receive => settings.receiveLength

structure Attempt where
  pci : PciFunction
  settings : Settings
  high : UInt32

namespace Attempt

def mapping (attempt : Attempt) : Hurdle :=
  .call .map (.map attempt.pci.windowBase attempt.pci.windowSize)

def opening (attempt : Attempt) : List Hurdle :=
  [.supported, .ring .transmit, .ring .receive, .threshold, .call .enable (.enable attempt.pci), .window,
    attempt.mapping]

def raising (attempt : Attempt) : List Hurdle :=
  [.address, .call .transmitTable .allocate, .call .receiveTable .allocate] ++
    List.replicate attempt.settings.receiveLength (.call .receiveBuffer .allocate) ++
    [.call .route (.route attempt.pci.interruptLine)]

def hurdles (attempt : Attempt) : List Hurdle :=
  attempt.opening ++ attempt.raising

def Met (attempt : Attempt) (refusal : Option String) : Hurdle → Prop
  | .supported => attempt.pci.vendor = PciFunction.supportedVendor ∧ attempt.pci.model ∈ PciFunction.supportedModels
  | .ring direction =>
    8 ∣ attempt.settings.ringLength direction ∧ 8 ≤ attempt.settings.ringLength direction ∧
      attempt.settings.ringLength direction ≤ 256
  | .threshold => attempt.settings.smallPacketThreshold.toNat ≤ 0xFFF
  | .window => Register.windowSize ≤ attempt.pci.windowSize
  | .address => attempt.settings.mac ≠ none ∨ attempt.high &&& Register.addressValid ≠ 0
  | .call .. => refusal = none

def error (attempt : Attempt) (refusal : Option String) : Hurdle → AttachError
  | .supported => .unsupported attempt.pci
  | .ring direction => .settings (.ringLength direction (attempt.settings.ringLength direction))
  | .threshold => .settings (.smallPacketThreshold attempt.settings.smallPacketThreshold)
  | .window => .windowTooSmall attempt.pci.windowSize
  | .address => .noMacAddress
  | .call stage _ => .platform stage (refusal.getD "")

/-- All hurdles are met, and the platform was called for nothing else. -/
structure Passes (attempt : Attempt) (hurdles : List Hurdle) (before after : List PlatformAnswer) : Prop where
  met : ∀ hurdle ∈ hurdles, attempt.Met none hurdle
  calls : after = before ++ hurdles.flatMap (Hurdle.calls none)

/-- A hurdle is the first that is not met. The platform was called for the hurdles in front of it and for this one,
and for nothing else. -/
structure Falls (attempt : Attempt) (hurdles : List Hurdle) (before after : List PlatformAnswer)
    (front : List Hurdle) (failing : Hurdle) (refusal : Option String) : Prop where
  first : front ++ [failing] <+: hurdles
  met : ∀ hurdle ∈ front, attempt.Met none hurdle
  unmet : ¬ attempt.Met refusal failing
  calls : after = before ++ front.flatMap (Hurdle.calls none) ++ failing.calls refusal

/-- A step takes hurdles: it gets past all of them, or its answer names the first that is not met. -/
def Takes (attempt : Attempt) (record : π → List PlatformAnswer) (hurdles : List Hurdle)
    (step : Step AttachError (π × Machine δ) α) (state : π × Machine δ) (good : α → Machine δ → Prop) : Prop :=
  step.Ends state
    (fun value after => attempt.Passes hurdles (record state.1) (record after.1) ∧ good value after.2)
    (fun stop after => ∃ front failing refusal, stop = .refused (attempt.error refusal failing) ∧
      attempt.Falls hurdles (record state.1) (record after.1) front failing refusal)

variable {attempt : Attempt} {hurdles more front : List Hurdle} {hurdle failing : Hurdle}
  {before middle after : List PlatformAnswer} {refusal : Option String} {good : α → Machine δ → Prop}

theorem Passes.append (first : attempt.Passes hurdles before middle) (second : attempt.Passes more middle after) :
    attempt.Passes (hurdles ++ more) before after where
  met hurdle listed := (List.mem_append.mp listed).elim (first.met hurdle) (second.met hurdle)
  calls := by rw [second.calls, first.calls, List.flatMap_append, List.append_assoc]

theorem Passes.falls (passes : attempt.Passes hurdles before middle)
    (falls : attempt.Falls more middle after front failing refusal) :
    attempt.Falls (hurdles ++ more) before after (hurdles ++ front) failing refusal where
  first := by
    rw [List.append_assoc]
    exact List.prefix_append_right_inj hurdles |>.mpr falls.first
  met hurdle listed := (List.mem_append.mp listed).elim (passes.met hurdle) (falls.met hurdle)
  unmet := falls.unmet
  calls := by rw [falls.calls, passes.calls, List.flatMap_append, List.append_assoc before]

theorem Falls.append (falls : attempt.Falls hurdles before after front failing refusal) (more : List Hurdle) :
    attempt.Falls (hurdles ++ more) before after front failing refusal :=
  { falls with first := falls.first.trans (List.prefix_append ..) }

theorem Falls.not_passes (falls : attempt.Falls hurdles before after front failing refusal) :
    ¬ attempt.Passes hurdles before after := by
  intro passes
  obtain ⟨rest, split⟩ := falls.first
  cases failing with
  | call stage call =>
    -- Both say what the last call in the record was answered.
    have calls := passes.calls.symm.trans falls.calls
    rw [← split] at calls
    simp only [Hurdle.calls, List.flatMap_append, List.flatMap_singleton, List.append_assoc,
      List.append_cancel_left_eq] at calls
    have refused : none = refusal := by simpa using (List.cons.inj calls).1
    exact falls.unmet refused.symm
  | supported | ring | threshold | window | address =>
    have listed := split ▸ List.mem_append_left rest List.mem_concat_self
    exact falls.unmet (passes.met _ listed)

namespace Takes

theorem pass {value : α} (met : ∀ hurdle ∈ hurdles, attempt.Met none hurdle)
    (silent : hurdles.flatMap (Hurdle.calls none) = []) (holds : good value state.2) :
    attempt.Takes record hurdles (pure value : Step AttachError (π × Machine δ) α) state good := by
  refine ⟨⟨met, ?_⟩, holds⟩
  rw [silent, List.append_nil]

theorem bind {step : Step AttachError (π × Machine δ) β} {rest : β → Step AttachError (π × Machine δ) α}
    {reached : β → Machine δ → Prop} (takes : attempt.Takes record hurdles step state reached)
    (next : ∀ value after, reached value after.2 → attempt.Takes record more (rest value) after good) :
    attempt.Takes record (hurdles ++ more) (step >>= rest) state good := by
  unfold Takes
  rw [Step.ends_bind]
  refine takes.mono ?_ ?_
  · -- The hurdles behind count from where the first step has got to.
    rintro value middle ⟨passes, holds⟩
    refine (next value middle holds).mono ?_ ?_
    · rintro last after ⟨later, holds⟩
      exact ⟨passes.append later, holds⟩
    · rintro stop after ⟨front, failing, refusal, answer, falls⟩
      exact ⟨hurdles ++ front, failing, refusal, answer, passes.falls falls⟩
  · rintro stop after ⟨front, failing, refusal, answer, falls⟩
    exact ⟨front, failing, refusal, answer, falls.append more⟩

theorem second {step : Step AttachError (Machine δ) α}
    (ends : step.Ends state.2 good (fun _ _ => False)) :
    attempt.Takes record [] (Step.second step) state good := by
  unfold Takes
  rw [Step.ends_second]
  refine ends.mono (fun value after holds => ?_) (fun _ _ => False.elim)
  exact ⟨⟨List.forall_mem_nil _, (List.append_nil _).symm⟩, holds⟩

theorem note (level : Level) (body : String) :
    attempt.Takes record [] (Step.second (Machine.note level body)) state fun _ _ => True :=
  second ((Machine.ends_note level body).mpr trivial)

theorem keeping {step : Step AttachError (π × Machine δ) α} (takes : attempt.Takes record hurdles step state good)
    (pages : List PageId) : attempt.Takes record hurdles (Controller.keeping pages step) state good := by
  unfold Takes Controller.keeping
  rw [Step.ends_thenIfStopped]
  exact takes

theorem call {stage : AttachStage} {call : PlatformCall} {step : Step String (π × Machine δ) α}
    (answered : call.Answered record step state good) :
    attempt.Takes record [.call stage call] (Controller.atStage stage step) state good := by
  unfold Takes Controller.atStage
  rw [Step.ends_mapRefusal]
  refine Step.Ends.mono answered ?_ ?_
  · rintro value after ⟨recorded, holds⟩
    refine ⟨⟨fun hurdle listed => ?_, recorded⟩, holds⟩
    rw [List.mem_singleton.mp listed]
    rfl
  · rintro _ after ⟨detail, rfl, recorded⟩
    refine ⟨[], .call stage call, some detail, rfl, List.prefix_rfl, List.forall_mem_nil _, Option.some_ne_none detail, ?_⟩
    rw [recorded, List.flatMap_nil, List.append_nil]
    rfl

theorem refuse (front : List Hurdle) (failing : Hurdle) (first : front ++ [failing] <+: hurdles)
    (met : ∀ hurdle ∈ front, attempt.Met none hurdle) (unmet : ¬ attempt.Met none failing) (silent : front.flatMap (Hurdle.calls none) ++ failing.calls none = []) :
    attempt.Takes record hurdles
      (Step.refuse (attempt.error none failing) : Step AttachError (π × Machine δ) α) state good := by
  refine ⟨front, failing, none, rfl, first, met, unmet, ?_⟩
  rw [List.append_assoc, silent, List.append_nil]

/-- If the platform never refuses, only a check can stop a step. -/
theorem ends_of_met {step : Step AttachError (π × Machine δ) α} (takes : attempt.Takes record hurdles step state good)
    (met : ∀ hurdle ∈ hurdles, attempt.Met none hurdle)
    (granted : ∀ platform, ∀ answer ∈ record platform, answer.refusal = none) :
    step.Ends state (fun value after => good value after.2) (fun _ _ => False) := by
  refine takes.mono (fun _ _ => And.right) ?_
  rintro stop after ⟨front, failing, refusal, -, falls⟩
  have passed := met failing (falls.first.subset List.mem_concat_self)
  have unmet := falls.unmet
  cases failing with
  | call stage asked =>
    refine unmet (granted after.1 ⟨asked, refusal⟩ ?_)
    rw [falls.calls]
    exact List.mem_append_right _ (List.mem_singleton_self _)
  | supported | ring | threshold | window | address => exact unmet passed

end Takes

end Attempt

end PacketPath
