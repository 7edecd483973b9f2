import PacketPath.Message.Exchange
import PacketPath.Proofs.Machine

/-! Mailboxes under the operations of a bus: who waits for what, and which pages are lent in all. An
operation on one mailbox leaves every other one as it is. -/

set_option autoImplicit false

namespace PacketPath

def Mailbox.pages (mailbox : Mailbox) : List PageId :=
  mailbox.waiting.flatMap Message.pages

namespace MessageBus

variable {bus after : MessageBus} {process other receiver : ProcessId} {mailbox : Mailbox}
  {message : Message}

def pages (bus : MessageBus) : List PageId :=
  bus.mailboxes.flatMap fun entry => entry.2.pages

def Distinct (bus : MessageBus) : Prop :=
  (bus.mailboxes.map Prod.fst).Nodup

theorem mem_pages_of_waiting {id : PageId} (waits : message ∈ bus.waiting process) (carried : id ∈ message.pages) :
    id ∈ bus.pages := by
  unfold waiting at waits
  cases found : bus.mailbox? process with
  | none =>
    rw [found] at waits
    cases waits
  | some mailbox =>
    rw [found] at waits
    obtain ⟨before, behind, entries, -⟩ := List.lookup_eq_some_iff.mp found
    have listed : (process, mailbox) ∈ bus.mailboxes := entries ▸ List.mem_append_right _ (List.mem_cons_self ..)
    exact List.mem_flatMap.mpr ⟨_, listed, List.mem_flatMap.mpr ⟨message, waits, carried⟩⟩

/-! ### Replacing a mailbox -/

theorem keys_put (bus : MessageBus) (process : ProcessId) (mailbox : Mailbox) :
    (bus.put process mailbox).mailboxes.map Prod.fst = bus.mailboxes.map Prod.fst := by
  unfold put
  rw [List.map_map]
  apply List.map_congr_left
  intro entry _
  change (if entry.1 = process then (process, mailbox) else entry).1 = entry.1
  split
  case isTrue same => exact same.symm
  case isFalse => rfl

theorem Distinct.put (distinct : bus.Distinct) (process : ProcessId) (mailbox : Mailbox) :
    (bus.put process mailbox).Distinct := by
  unfold Distinct
  rw [keys_put]
  exact distinct

theorem lookup_put_of_ne (apart : other ≠ process) (entries : List (ProcessId × Mailbox)) :
    (entries.map fun entry => if entry.1 = process then (process, mailbox) else entry).lookup other =
      entries.lookup other := by
  induction entries with
  | nil => rfl
  | cons entry rest ih =>
    rw [List.map_cons, List.lookup_cons, List.lookup_cons, ih]
    by_cases here : entry.1 = process
    · rw [if_pos here, here, beq_false_of_ne apart]
    · rw [if_neg here]

theorem lookup_put {entries : List (ProcessId × Mailbox)} {old : Mailbox}
    (found : entries.lookup process = some old) (other : ProcessId) :
    (entries.map fun entry => if entry.1 = process then (process, mailbox) else entry).lookup other =
      if other = process then some mailbox else entries.lookup other := by
  by_cases same : other = process
  case neg => rw [if_neg same, lookup_put_of_ne same]
  subst same
  rw [if_pos rfl]
  induction entries with
  | nil => cases found
  | cons entry rest ih =>
    rw [List.map_cons, List.lookup_cons]
    rw [List.lookup_cons] at found
    by_cases here : entry.1 = other
    · rw [if_pos here, beq_self_eq_true]
    · rw [beq_false_of_ne (Ne.symm here)] at found
      rw [if_neg here, beq_false_of_ne (Ne.symm here)]
      exact ih found

theorem mailbox?_put {old : Mailbox} (found : bus.mailbox? process = some old) (other : ProcessId) :
    (bus.put process mailbox).mailbox? other = if other = process then some mailbox else bus.mailbox? other :=
  lookup_put found other

theorem waiting_put {old : Mailbox} (found : bus.mailbox? process = some old) (other : ProcessId) :
    (bus.put process mailbox).waiting other = if other = process then mailbox.waiting else bus.waiting other := by
  unfold waiting
  rw [mailbox?_put found]
  split <;> rfl

theorem exists_perm_pages_put {old : Mailbox} (distinct : bus.Distinct)
    (found : bus.mailbox? process = some old) (mailbox : Mailbox) :
    ∃ rest, bus.pages.Perm (old.pages ++ rest) ∧ (bus.put process mailbox).pages.Perm (mailbox.pages ++ rest) := by
  obtain ⟨entries⟩ := bus
  unfold Distinct at distinct
  unfold mailbox? at found
  unfold pages put
  dsimp only at *
  induction entries with
  | nil => simp at found
  | cons entry rest ih =>
    rw [List.map_cons, List.nodup_cons] at distinct
    rw [List.lookup_cons] at found
    simp only [List.flatMap_cons, List.map_cons]
    by_cases here : entry.1 = process
    · have hit : (process == entry.1) = true := by simpa using here.symm
      rw [hit, Option.some.injEq] at found
      refine ⟨rest.flatMap fun entry => entry.2.pages, ?_, ?_⟩
      · rw [found]
      · -- Each process has one mailbox, so none further back is replaced.
        have same : (rest.map fun entry => if entry.1 = process then (process, mailbox) else entry) = rest := by
          refine (List.map_congr_left fun next listed => if_neg ?_).trans (List.map_id _)
          intro again
          exact distinct.1 (List.mem_map.mpr ⟨next, listed, again.trans here.symm⟩)
        rw [if_pos here, same]
    · have skipped : (process == entry.1) = false := by simpa using Ne.symm here
      rw [skipped] at found
      obtain ⟨others, before, after⟩ := ih distinct.2 found
      refine ⟨entry.2.pages ++ others, ?_, ?_⟩
      · refine (before.append_left _).trans ?_
        rw [← List.append_assoc, ← List.append_assoc]
        exact List.perm_append_comm.append_right _
      · rw [if_neg here]
        refine (after.append_left _).trans ?_
        rw [← List.append_assoc, ← List.append_assoc]
        exact List.perm_append_comm.append_right _

/-! ### Operations -/

/-- A delivery goes to a mailbox that receives, behind the messages that wait there. -/
theorem deliver_eq_ok (sent : bus.deliver receiver message = .ok after) :
    ∃ mailbox, bus.mailbox? receiver = some mailbox ∧ mailbox.receiving = true ∧
      after = bus.put receiver { mailbox with waiting := mailbox.waiting ++ [message] } := by
  unfold deliver at sent
  split at sent
  · cases sent
  case h_2 mailbox found =>
    split at sent
    case isTrue open_ =>
      cases sent
      exact ⟨mailbox, found, open_, rfl⟩
    case isFalse => cases sent

theorem perm_pages_deliver (distinct : bus.Distinct) (sent : bus.deliver receiver message = .ok after) :
    after.pages.Perm (message.pages ++ bus.pages) := by
  obtain ⟨mailbox, found, -, rfl⟩ := deliver_eq_ok sent
  obtain ⟨rest, before, after⟩ := exists_perm_pages_put distinct found _
  refine after.trans ?_
  simp only [Mailbox.pages, List.flatMap_append, List.flatMap_singleton]
  refine List.Perm.trans ?_ (before.symm.append_left _)
  rw [← List.append_assoc]
  exact List.perm_append_comm.append_right _

theorem distinct_deliver (distinct : bus.Distinct) (sent : bus.deliver receiver message = .ok after) :
    after.Distinct := by
  obtain ⟨mailbox, -, -, rfl⟩ := deliver_eq_ok sent
  exact distinct.put ..

theorem waiting_deliver (sent : bus.deliver receiver message = .ok after) (process : ProcessId) :
    after.waiting process = if process = receiver then bus.waiting process ++ [message] else bus.waiting process := by
  obtain ⟨mailbox, found, -, rfl⟩ := deliver_eq_ok sent
  rw [waiting_put found]
  split
  case isTrue same => rw [same, waiting, found, Option.elim_some]
  case isFalse => rfl

theorem take_eq_ok_some (taken : bus.take process = .ok (some message, after)) :
    ∃ mailbox rest, bus.mailbox? process = some mailbox ∧ mailbox.waiting = message :: rest ∧
      after = bus.put process { mailbox with waiting := rest } := by
  unfold take at taken
  split at taken
  · cases taken
  case h_2 mailbox found =>
    split at taken
    · cases taken
    case h_2 first rest waits =>
      cases taken
      exact ⟨mailbox, rest, found, waits, rfl⟩

theorem take_eq_ok_none (taken : bus.take process = .ok (none, after)) : after = bus := by
  unfold take at taken
  split at taken
  · cases taken
  · split at taken
    · cases taken
      rfl
    · cases taken

theorem perm_pages_take (distinct : bus.Distinct) (taken : bus.take process = .ok (some message, after)) :
    bus.pages.Perm (message.pages ++ after.pages) := by
  obtain ⟨mailbox, rest, found, waits, rfl⟩ := take_eq_ok_some taken
  obtain ⟨others, before, after⟩ :=
    exists_perm_pages_put distinct found { mailbox with waiting := rest }
  refine before.trans ?_
  rw [Mailbox.pages, waits, List.flatMap_cons, List.append_assoc]
  exact after.symm.append_left _

theorem distinct_take (distinct : bus.Distinct) (taken : bus.take process = .ok (some message, after)) :
    after.Distinct := by
  obtain ⟨mailbox, rest, found, waits, rfl⟩ := take_eq_ok_some taken
  exact distinct.put ..

theorem waiting_take (taken : bus.take process = .ok (some message, after)) (other : ProcessId) :
    bus.waiting other = if other = process then message :: after.waiting other else after.waiting other := by
  obtain ⟨mailbox, rest, found, waits, rfl⟩ := take_eq_ok_some taken
  rw [waiting_put found]
  by_cases same : other = process
  · rw [if_pos same, if_pos same, same, waiting, found, Option.elim_some, waits]
  · rw [if_neg same, if_neg same]

theorem pages_register (bus : MessageBus) (process : ProcessId) : (bus.register process).pages = bus.pages := by
  unfold register
  split
  · rfl
  · simp [pages, Mailbox.pages]

theorem Distinct.register (distinct : bus.Distinct) (process : ProcessId) : (bus.register process).Distinct := by
  unfold MessageBus.register
  split
  · exact distinct
  case h_2 missing =>
    unfold Distinct at distinct ⊢
    rw [List.map_append, List.nodup_append]
    refine ⟨distinct, List.pairwise_singleton .., ?_⟩
    intro key listed last same
    rw [List.map_singleton, List.mem_singleton] at same
    rintro rfl
    obtain ⟨entry, present, key⟩ := List.mem_map.mp listed
    rw [mailbox?, List.lookup_eq_none_iff] at missing
    have apart := missing entry present
    rw [key, same] at apart
    simp at apart

theorem waiting_register (bus : MessageBus) (process other : ProcessId) :
    (bus.register process).waiting other = bus.waiting other := by
  unfold register
  split
  · rfl
  case h_2 missing =>
    unfold waiting mailbox?
    dsimp only
    rw [List.lookup_append]
    cases bus.mailboxes.lookup other with
    | some mailbox => rfl
    | none =>
      rw [List.lookup_cons]
      cases other == process <;> rfl

theorem perm_pages_setReceiving (distinct : bus.Distinct) (process : ProcessId) (receiving : Bool) :
    (bus.setReceiving process receiving).pages.Perm bus.pages := by
  unfold setReceiving
  split
  · exact List.Perm.refl _
  case h_2 found =>
    obtain ⟨others, before, after⟩ := exists_perm_pages_put distinct found _
    exact after.trans before.symm

theorem Distinct.setReceiving (distinct : bus.Distinct) (process : ProcessId) (receiving : Bool) :
    (bus.setReceiving process receiving).Distinct := by
  unfold MessageBus.setReceiving
  split
  · exact distinct
  · exact distinct.put ..

theorem waiting_setReceiving (bus : MessageBus) (process other : ProcessId) (receiving : Bool) :
    (bus.setReceiving process receiving).waiting other = bus.waiting other := by
  unfold setReceiving
  split
  · rfl
  case h_2 mailbox found =>
    rw [waiting_put found]
    split
    case isTrue same => rw [same, waiting, found, Option.elim_some]
    case isFalse => rfl

/-! ### Who receives -/

def receives (bus : MessageBus) (process : ProcessId) : Option Bool :=
  (bus.mailbox? process).map Mailbox.receiving

theorem receives_put {old mailbox : Mailbox} (found : bus.mailbox? process = some old) (other : ProcessId) :
    (bus.put process mailbox).receives other =
      if process = other then some mailbox.receiving else bus.receives other := by
  unfold receives
  rw [mailbox?_put found]
  by_cases same : process = other
  · rw [if_pos same, if_pos same.symm, Option.map_some]
  · rw [if_neg same, if_neg (Ne.symm same)]

theorem receives_put_waiting {mailbox : Mailbox} (found : bus.mailbox? process = some mailbox)
    (messages : List Message) (other : ProcessId) :
    (bus.put process { mailbox with waiting := messages }).receives other = bus.receives other := by
  rw [receives_put found]
  split
  case isTrue same => rw [← same, receives, found, Option.map_some]
  case isFalse => rfl

theorem receives_register (bus : MessageBus) (process other : ProcessId) :
    (bus.register process).receives other =
      if process = other then some ((bus.receives other).getD true) else bus.receives other := by
  unfold register
  cases found : bus.mailbox? process with
  | some mailbox =>
    dsimp only
    split
    case isTrue same => rw [← same, receives, found, Option.map_some, Option.getD_some]
    case isFalse => rfl
  | none =>
    unfold receives mailbox? at *
    dsimp only
    rw [List.lookup_append]
    by_cases same : process = other
    · subst same
      simp [found]
    · have apart : (other == process) = false := by simpa using Ne.symm same
      rw [if_neg same, List.lookup_cons, apart]
      simp

theorem receives_setReceiving (bus : MessageBus) (process other : ProcessId) (receiving : Bool) :
    (bus.setReceiving process receiving).receives other =
      if process = other then (bus.receives other).map fun _ => receiving else bus.receives other := by
  unfold setReceiving
  cases found : bus.mailbox? process with
  | none =>
    dsimp only
    split
    case isTrue same => rw [← same, receives, found, Option.map_none, Option.map_none]
    case isFalse => rfl
  | some mailbox =>
    rw [receives_put found]
    split
    case isTrue same => rw [← same, receives, found, Option.map_some, Option.map_some]
    case isFalse => rfl

/-- A message is accepted by a mailbox that receives, refused by one that does not, and without a mailbox there is
nobody to take it. -/
theorem deliver_cases (bus : MessageBus) (receiver : ProcessId) (message : Message) :
    bus.receives receiver = none ∧ bus.deliver receiver message = .error .closed ∨
      bus.receives receiver = some false ∧ bus.deliver receiver message = .error (.notReceiving receiver) ∨
      bus.receives receiver = some true ∧ ∃ after, bus.deliver receiver message = .ok after := by
  unfold receives deliver
  cases bus.mailbox? receiver with
  | none => exact .inl ⟨rfl, rfl⟩
  | some mailbox =>
    rcases mailbox with ⟨waiting, _ | _⟩
    · exact .inr (.inl ⟨rfl, rfl⟩)
    · exact .inr (.inr ⟨rfl, _, rfl⟩)

theorem receives_deliver (sent : bus.deliver receiver message = .ok after) (process : ProcessId) :
    after.receives process = bus.receives process := by
  obtain ⟨mailbox, found, -, rfl⟩ := deliver_eq_ok sent
  exact receives_put_waiting found _ _

theorem receives_take {taken : Option Message} (fetched : bus.take process = .ok (taken, after))
    (other : ProcessId) : after.receives other = bus.receives other := by
  cases taken with
  | none => rw [take_eq_ok_none fetched]
  | some message =>
    obtain ⟨mailbox, rest, found, -, rfl⟩ := take_eq_ok_some fetched
    exact receives_put_waiting found _ _

theorem receives_drain (bus : MessageBus) (process other : ProcessId) :
    (bus.drain process).2.receives other = bus.receives other := by
  unfold drain
  cases found : bus.mailbox? process with
  | none => rfl
  | some mailbox => exact receives_put_waiting found _ _

theorem take_cases (bus : MessageBus) (process : ProcessId) :
    bus.receives process = none ∧ bus.take process = .error .closed ∨
      bus.receives process ≠ none ∧ ∃ after, bus.take process = .ok ((bus.waiting process).head?, after) := by
  unfold receives take waiting
  cases bus.mailbox? process with
  | none => exact .inl ⟨rfl, rfl⟩
  | some mailbox =>
    refine .inr ⟨Option.some_ne_none _, ?_⟩
    rcases mailbox with ⟨_ | ⟨message, rest⟩, receiving⟩
    · exact ⟨bus, rfl⟩
    · exact ⟨_, rfl⟩

theorem fst_drain (bus : MessageBus) (process : ProcessId) : (bus.drain process).1 = bus.waiting process := by
  unfold drain waiting
  cases bus.mailbox? process <;> rfl

theorem waiting_drain (bus : MessageBus) (process other : ProcessId) :
    (if process = other then (bus.drain process).1 else []) ++ (bus.drain process).2.waiting other =
      bus.waiting other := by
  unfold drain
  cases found : bus.mailbox? process with
  | none =>
    dsimp only
    rw [ite_self, List.nil_append]
  | some mailbox =>
    dsimp only
    rw [waiting_put found]
    by_cases same : process = other
    · subst same
      rw [if_pos rfl, if_pos rfl, List.append_nil, waiting, found, Option.elim_some]
    · rw [if_neg same, if_neg (Ne.symm same), List.nil_append]

end MessageBus

/-! ### Sending -/

namespace Surroundings

variable {δ ω ε : Type} {around : Surroundings δ ω}

@[simp] theorem ends_onMachine {α : Type} {good : α → Surroundings δ ω → Prop}
    {bad : Stop ε → Surroundings δ ω → Prop} (step : Step ε (Machine δ) α) :
    (onMachine step).Ends around good bad ↔
      step.Ends around.machine (fun value machine => good value { around with machine := machine })
        (fun stop machine => bad stop { around with machine := machine }) :=
  Step.ends_within ..

theorem send_ends {good : Unit → Surroundings δ ω → Prop}
    {bad : Stop DeliveryError → Surroundings δ ω → Prop} {endpoint : Endpoint} {receiver : ProcessId}
    {code : UInt32} {attachment : Attachment}
    (undelivered : ∀ error,
      (endpoint = .closed ∧ error = .closed ∨
        ∃ sender, endpoint = .process sender ∧
          around.bus.deliver receiver ⟨sender, code, attachment⟩ = .error error) →
      bad (.refused error)
        { around with machine.memory := around.machine.memory.releaseAll attachment.pages })
    (delivered : ∀ sender bus log, endpoint = .process sender →
      around.bus.deliver receiver ⟨sender, code, attachment⟩ = .ok bus →
      good () { around with machine.log := log, bus := bus }) :
    (send endpoint receiver code attachment).Ends around good bad := by
  unfold send
  cases endpoint with
  | closed =>
    simp only [Step.ends_bind, ends_onMachine, Machine.ends_changeMemory, Step.ends_refuse]
    exact undelivered _ (.inl ⟨rfl, rfl⟩)
  | process sender =>
    rw [Step.ends_bind, Step.ends_get]
    cases outcome : around.bus.deliver receiver ⟨sender, code, attachment⟩ with
    | error error =>
      simp only [Step.ends_bind, ends_onMachine, Machine.ends_changeMemory, Step.ends_refuse]
      exact undelivered _ (.inr ⟨sender, rfl, outcome⟩)
    | ok bus =>
      simp only [Step.ends_bind, ends_onMachine, Machine.ends_note, Step.ends_modify]
      exact delivered _ _ _ rfl outcome

end Surroundings

end PacketPath
