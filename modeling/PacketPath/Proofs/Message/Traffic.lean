import Mathlib.Data.List.Induction
import PacketPath.Proofs.Memory.Accounts
import PacketPath.Proofs.Message.Mailboxes

/-! Traffic on a bus. Whoever registers, sends, fetches, drains or stops receiving, and in whatever order: each
mailbox hands out the messages that were accepted for it, all of them, as they were sent and in that order. -/

set_option autoImplicit false

namespace PacketPath

/-! ### Dealings -/

/-- What a process does with the bus. -/
inductive Dealing where
  | register (process : ProcessId)
  | setReceiving (process : ProcessId) (receiving : Bool)
  /-- The sender takes a handle to every page that it attaches. -/
  | send (sender receiver : ProcessId) (code : UInt32) (attachment : Attachment)
  | fetch (process : ProcessId)
  | drain (process : ProcessId)
  deriving DecidableEq

variable {δ ω : Type}

def Dealing.perform : Dealing → Step DeliveryError (Surroundings δ ω) (List Message)
  | .register process => do
    modify fun around => { around with bus := around.bus.register process }
    return []
  | .setReceiving process receiving => do
    modify fun around => { around with bus := around.bus.setReceiving process receiving }
    return []
  | .send sender receiver code attachment => do
    Surroundings.onMachine (Machine.changeMemory (·.retainAll attachment.pages))
    Surroundings.send (.process sender) receiver code attachment
    return []
  | .fetch process => do
    return (← Surroundings.fetchMessage (.process process)).toList
  | .drain process => do
    let (messages, bus) := (← get).bus.drain process
    modify fun around => { around with bus := bus }
    return messages

/-- The dealings so far with their ends, oldest first, and what they have come to. -/
structure Correspondence (δ ω : Type) where
  history : List (Dealing × Except (Stop DeliveryError) (List Message)) := []
  around : Surroundings δ ω

namespace Correspondence

def perform (now : Correspondence δ ω) (dealing : Dealing) : Correspondence δ ω where
  history := now.history ++ [(dealing, dealing.perform.ended now.around)]
  around := dealing.perform.after now.around

def run (first : Correspondence δ ω) (dealings : List Dealing) : Correspondence δ ω :=
  dealings.foldl perform first

end Correspondence

/-! ### Reading a history -/

namespace Dealing

def acceptedFor (process : ProcessId) :
    Dealing × Except (Stop DeliveryError) (List Message) → List Message
  | (.send sender receiver code attachment, .ok _) =>
    if receiver = process then [⟨sender, code, attachment⟩] else []
  | _ => []

def takenBy (process : ProcessId) : Dealing × Except (Stop DeliveryError) (List Message) → List Message
  | (.fetch owner, .ok messages) => if owner = process then messages else []
  | (.drain owner, .ok messages) => if owner = process then messages else []
  | _ => []

def standingAfter (process : ProcessId) (standing : Option Bool) : Dealing → Option Bool
  | .register owner => if owner = process then some (standing.getD true) else standing
  | .setReceiving owner receiving => if owner = process then standing.map fun _ => receiving else standing
  | _ => standing

/-- Whether a process takes messages after some dealings. A process begins to with its first registration, and
nothing but what was set since then changes that. -/
def standing (dealings : List Dealing) (process : ProcessId) : Option Bool :=
  dealings.foldl (standingAfter process) none

theorem standing_concat (dealings : List Dealing) (dealing : Dealing) (process : ProcessId) :
    standing (dealings ++ [dealing]) process = standingAfter process (standing dealings process) dealing := by
  rw [standing, List.foldl_append]
  rfl

theorem standing_eq_none_iff {dealings : List Dealing} {process : ProcessId} :
    standing dealings process = none ↔ Dealing.register process ∉ dealings := by
  induction dealings using List.reverseRecOn with
  | nil => simp [standing]
  | append_singleton dealings dealing ih =>
    rw [standing_concat, List.mem_append, not_or, ← ih, List.mem_singleton]
    cases dealing with
    | register owner =>
      by_cases same : owner = process
      · simp [standingAfter, same]
      · simp [standingAfter, same, Ne.symm same]
    | setReceiving owner receiving =>
      by_cases same : owner = process <;> simp [standingAfter, same]
    | send | fetch | drain => simp [standingAfter]

end Dealing

/-! ### One dealing -/

namespace Dealing

variable {around : Surroundings δ ω} {sender receiver : ProcessId} {code : UInt32} {attachment : Attachment}

/-- What one dealing does to one mailbox: what is taken comes from its front, and what is accepted goes behind the
rest. -/
structure Settles (dealing : Dealing) (process : ProcessId) (before : MessageBus)
    (outcome : Except (Stop DeliveryError) (List Message)) (after : MessageBus) : Prop where
  waiting : takenBy process (dealing, outcome) ++ after.waiting process =
    before.waiting process ++ acceptedFor process (dealing, outcome)
  receives : after.receives process = standingAfter process (before.receives process) dealing

theorem settles (dealing : Dealing) (around : Surroundings δ ω) (process : ProcessId) :
    dealing.Settles process around.bus (dealing.perform.ended around) (dealing.perform.after around).bus := by
  -- Each way in which a dealing ends is looked at where its steps end.
  refine (Step.ends_iff_ended fun outcome (after : Surroundings δ ω) =>
    dealing.Settles process around.bus outcome after.bus).mp ?_
  cases dealing with
  | register owner =>
    simp only [perform, Step.ends_bind, Step.ends_modify, Step.ends_pure]
    refine ⟨?_, around.bus.receives_register owner process⟩
    simp only [takenBy, acceptedFor, MessageBus.waiting_register, List.nil_append, List.append_nil]
  | setReceiving owner receiving =>
    simp only [perform, Step.ends_bind, Step.ends_modify, Step.ends_pure]
    refine ⟨?_, around.bus.receives_setReceiving owner process receiving⟩
    simp only [takenBy, acceptedFor, MessageBus.waiting_setReceiving, List.nil_append, List.append_nil]
  | send sender receiver code attachment =>
    simp only [perform, Step.ends_bind, Surroundings.ends_onMachine, Machine.ends_changeMemory]
    refine Surroundings.send_ends (fun error _ => ?_) fun sender' bus log same sent => ?_
    · refine ⟨?_, rfl⟩
      simp only [takenBy, acceptedFor, List.nil_append, List.append_nil]
    · cases same
      rw [Step.ends_pure]
      refine ⟨?_, MessageBus.receives_deliver sent process⟩
      simp only [takenBy, acceptedFor, MessageBus.waiting_deliver sent, List.nil_append]
      by_cases same : receiver = process
      · rw [if_pos same, if_pos same.symm]
      · rw [if_neg same, if_neg (Ne.symm same), List.append_nil]
  | fetch owner =>
    simp only [perform, Surroundings.fetchMessage, Step.ends_bind, Step.ends_get]
    cases fetched : around.bus.take owner with
    | error error =>
      simp only [Step.ends_refuse]
      refine ⟨?_, rfl⟩
      simp only [takenBy, acceptedFor, List.nil_append, List.append_nil]
    | ok taken =>
      simp only [Step.ends_bind, Step.ends_modify, Step.ends_pure]
      refine ⟨?_, MessageBus.receives_take fetched process⟩
      obtain ⟨_ | message, after⟩ := taken
      · cases MessageBus.take_eq_ok_none fetched
        simp only [takenBy, acceptedFor, Option.toList_none, ite_self, List.nil_append, List.append_nil]
      · rw [MessageBus.waiting_take fetched]
        simp only [takenBy, acceptedFor, Option.toList_some, List.append_nil]
        by_cases same : owner = process
        · rw [if_pos same, if_pos same.symm, List.singleton_append]
        · rw [if_neg same, if_neg (Ne.symm same), List.nil_append]
  | drain owner =>
    simp only [perform, Step.ends_bind, Step.ends_get, Step.ends_modify, Step.ends_pure]
    refine ⟨?_, around.bus.receives_drain owner process⟩
    simp only [takenBy, acceptedFor, List.append_nil]
    exact around.bus.waiting_drain owner process

/-- A message that is refused leaves no trace: its handles are given back, and no mailbox changes. -/
theorem send_refused {error : DeliveryError}
    (refused : around.bus.deliver receiver ⟨sender, code, attachment⟩ = .error error) :
    (send sender receiver code attachment).perform around = .error (.refused error) around := by
  apply Step.Ends.eq_error
  simp only [perform, Step.ends_bind, Surroundings.ends_onMachine, Machine.ends_changeMemory]
  refine Surroundings.send_ends ?_ ?_
  · rintro error' (⟨gone, -⟩ | ⟨_, same, told⟩)
    · cases gone
    · cases same
      rw [refused] at told
      cases told
      exact ⟨rfl, by rw [Memory.releaseAll_retainAll]⟩
  · intro _ _ _ same sent
    cases same
    rw [refused] at sent
    cases sent

/-- How a message fares depends on its receiver alone. -/
theorem ended_send (around : Surroundings δ ω) (sender receiver : ProcessId) (code : UInt32) (attachment : Attachment) :
    (send sender receiver code attachment).perform.ended around =
      match around.bus.receives receiver with
      | none => .error (.refused .closed)
      | some false => .error (.refused (.notReceiving receiver))
      | some true => .ok [] := by
  rcases around.bus.deliver_cases receiver ⟨sender, code, attachment⟩ with
    ⟨gone, refused⟩ | ⟨busy, refused⟩ | ⟨free, bus, accepted⟩
  · rw [gone, Step.ended, send_refused refused]
  · rw [busy, Step.ended, send_refused refused]
  · rw [free]
    refine (Step.ends_iff_ended fun outcome (_ : Surroundings δ ω) => outcome = .ok []).mp ?_
    simp only [perform, Step.ends_bind, Surroundings.ends_onMachine, Machine.ends_changeMemory]
    refine Surroundings.send_ends ?_ fun _ _ _ _ _ => rfl
    rintro error (⟨closed, -⟩ | ⟨_, same, told⟩)
    · cases closed
    · cases same
      rw [accepted] at told
      cases told

theorem ended_fetch (around : Surroundings δ ω) (process : ProcessId) :
    (fetch process).perform.ended around =
      match around.bus.receives process with
      | none => .error (.refused .closed)
      | some _ => .ok (around.bus.waiting process).head?.toList := by
  refine (Step.ends_iff_ended fun outcome (_ : Surroundings δ ω) => outcome = _).mp ?_
  simp only [perform, Surroundings.fetchMessage, Step.ends_bind, Step.ends_get]
  rcases around.bus.take_cases process with ⟨gone, closed⟩ | ⟨here, after, taken⟩
  · simp only [closed, Step.ends_refuse, gone]
  · simp only [taken, Step.ends_bind, Step.ends_modify, Step.ends_pure]
    obtain ⟨receiving, here⟩ := Option.ne_none_iff_exists'.mp here
    rw [here]

theorem ended_drain (around : Surroundings δ ω) (process : ProcessId) :
    (drain process).perform.ended around = .ok (around.bus.waiting process) :=
  congrArg Except.ok (around.bus.fst_drain process)

end Dealing

/-! ### All dealings -/

namespace Correspondence

variable {now : Correspondence δ ω}

def accepted (now : Correspondence δ ω) (process : ProcessId) : List Message :=
  now.history.flatMap (Dealing.acceptedFor process)

def taken (now : Correspondence δ ω) (process : ProcessId) : List Message :=
  now.history.flatMap (Dealing.takenBy process)

structure Settled (now : Correspondence δ ω) (dealings : List Dealing) : Prop where
  waiting : ∀ process, now.taken process ++ now.around.bus.waiting process = now.accepted process
  receives : ∀ process, now.around.bus.receives process = Dealing.standing dealings process

theorem Settled.perform {dealings : List Dealing} (settled : now.Settled dealings) (dealing : Dealing) :
    (now.perform dealing).Settled (dealings ++ [dealing]) where
  waiting process := by
    have one := (dealing.settles now.around process).waiting
    unfold taken accepted Correspondence.perform
    rw [List.flatMap_append, List.flatMap_append, List.flatMap_singleton, List.flatMap_singleton, List.append_assoc, one,
      ← List.append_assoc]
    exact congrArg (· ++ _) (settled.waiting process)
  receives process := by
    rw [Dealing.standing_concat, ← settled.receives]
    exact (dealing.settles now.around process).receives

theorem settled_run (machine : Machine δ) (others : ω) (dealings : List Dealing) :
    (run { around := ⟨machine, .empty, others⟩ } dealings).Settled dealings := by
  induction dealings using List.reverseRecOn with
  | nil => exact ⟨fun _ => rfl, fun _ => rfl⟩
  | append_singleton dealings dealing ih =>
    rw [run, List.foldl_append]
    exact ih.perform dealing

/-- What processes can rely on after some dealings. -/
structure Reliable (now : Correspondence δ ω) (dealings : List Dealing) : Prop where
  /-- What a process has taken and what waits for it are what was accepted for it. -/
  waiting : ∀ process, now.taken process ++ now.around.bus.waiting process = now.accepted process
  /-- Only those who never registered cannot be reached. -/
  closed : ∀ sender receiver code attachment,
    (Dealing.send sender receiver code attachment).perform.ended now.around = .error (.refused .closed) ↔
      Dealing.register receiver ∉ dealings
  /-- Only those who do not want to receive refuse. -/
  refused : ∀ sender receiver code attachment,
    (Dealing.send sender receiver code attachment).perform.ended now.around =
        .error (.refused (.notReceiving receiver)) ↔
      Dealing.standing dealings receiver = some false
  accepted : ∀ sender receiver code attachment,
    (Dealing.send sender receiver code attachment).perform.ended now.around = .ok [] ↔
      Dealing.standing dealings receiver = some true
  /-- What is not accepted changes nothing: no mailbox, and no page's handles. -/
  undone : ∀ sender receiver code attachment stop after,
    (Dealing.send sender receiver code attachment).perform now.around = .error stop after → after = now.around
  /-- A fetch hands out the oldest message that waits, if one waits. -/
  fetched : ∀ process, Dealing.register process ∈ dealings →
    (Dealing.fetch process).perform.ended now.around = .ok (now.around.bus.waiting process).head?.toList
  /-- Nothing is fetched for those who never registered. -/
  absent : ∀ process, (Dealing.fetch process).perform.ended now.around = .error (.refused .closed) ↔
    Dealing.register process ∉ dealings
  /-- A drain hands out all messages that wait. -/
  drained : ∀ process, (Dealing.drain process).perform.ended now.around = .ok (now.around.bus.waiting process)
  /-- Who registers again keeps what there is. -/
  again : ∀ process, Dealing.register process ∈ dealings →
    (Dealing.register process).perform now.around = .ok [] now.around

theorem Settled.receives_ne_none {dealings : List Dealing} {process : ProcessId} (settled : now.Settled dealings)
    (registered : Dealing.register process ∈ dealings) : now.around.bus.receives process ≠ none := by
  rw [settled.receives]
  exact fun missing => Dealing.standing_eq_none_iff.mp missing registered

theorem Settled.reliable {dealings : List Dealing} (settled : now.Settled dealings) : now.Reliable dealings := by
  refine ⟨settled.waiting, ?_, ?_, ?_, ?_, ?_, ?_, fun process => Dealing.ended_drain _ process, ?_⟩
  · intro sender receiver code attachment
    rw [Dealing.ended_send, settled.receives, ← Dealing.standing_eq_none_iff]
    rcases Dealing.standing dealings receiver with _ | _ | _ <;> simp
  · intro sender receiver code attachment
    rw [Dealing.ended_send, settled.receives]
    rcases Dealing.standing dealings receiver with _ | _ | _ <;> simp
  · intro sender receiver code attachment
    rw [Dealing.ended_send, settled.receives]
    rcases Dealing.standing dealings receiver with _ | _ | _ <;> simp
  · intro sender receiver code attachment stop after stopped
    -- A delivery that stopped was refused by the bus, since handles and log cannot stop it.
    rcases now.around.bus.deliver_cases receiver ⟨sender, code, attachment⟩ with
      ⟨-, refused⟩ | ⟨-, refused⟩ | ⟨free, -⟩
    · rw [Dealing.send_refused refused] at stopped
      cases stopped
      rfl
    · rw [Dealing.send_refused refused] at stopped
      cases stopped
      rfl
    · have accepted := Dealing.ended_send now.around sender receiver code attachment
      rw [free, Step.ended, stopped] at accepted
      cases accepted
  · intro process registered
    obtain ⟨receiving, here⟩ := Option.ne_none_iff_exists'.mp (settled.receives_ne_none registered)
    rw [Dealing.ended_fetch, here]
  · intro process
    rw [Dealing.ended_fetch, settled.receives, ← Dealing.standing_eq_none_iff]
    cases Dealing.standing dealings process <;> simp
  · intro process registered
    -- Who registered has a mailbox, and registering leaves a mailbox as it is.
    have known := settled.receives_ne_none registered
    unfold MessageBus.receives at known
    apply Step.Ends.eq_ok
    simp only [Dealing.perform, Step.ends_bind, Step.ends_modify, Step.ends_pure, true_and]
    unfold MessageBus.register
    cases found : now.around.bus.mailbox? process with
    | none =>
      rw [found] at known
      exact absurd rfl known
    | some mailbox => rfl

end Correspondence

/-- Mailboxes lose nothing and keep the order, whatever processes do with a bus. -/
theorem mailboxes_lose_nothing (machine : Machine δ) (others : ω) (dealings : List Dealing) :
    (Correspondence.run { around := ⟨machine, .empty, others⟩ } dealings).Reliable dealings :=
  (Correspondence.settled_run machine others dealings).reliable

end PacketPath
