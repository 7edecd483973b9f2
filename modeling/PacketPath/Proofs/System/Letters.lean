import Mathlib.Data.List.Forall2
import PacketPath.Message.Request
import PacketPath.Proofs.System.Sound

/-! Letters: messages from one process to another, each with the memory that goes with it. Nobody else
writes letters in the sender's name, and nobody writes to the pages that are lent with them. -/

set_option autoImplicit false

namespace PacketPath

variable {rules : Rules} {controller : Controller} {rotation : List PageId} {recycled : Nat} {site next : Site}
  {sender receiver : ProcessId}

structure Memory.Packs (memory : Memory) (page : PageId) (frame : List UInt8) : Prop where
  length : Word.ofBytes (memory.slice page 0 4) = frame.length
  bytes : memory.slice page Limits.headerSize frame.length = frame

theorem Memory.Packs.of_slice {memory after : Memory} {page : PageId} {frame : List UInt8}
    (packs : memory.Packs page frame)
    (same : ∀ offset length, after.slice page offset length = memory.slice page offset length) :
    after.Packs page frame :=
  ⟨by rw [same, packs.length], by rw [same, packs.bytes]⟩

/-- A letter holds a frame: it lends a page of the rotation for reading, in which the frame stands as a packet. -/
structure HoldsFrame (rotation : List PageId) (frame : List UInt8) (letter : Message × Memory) : Prop where
  code : letter.1.code = Request.inputCode
  page : ∃ page ∈ rotation, letter.1.attachment = .page ⟨page, .readable⟩ ∧ letter.2.Packs page frame

theorem forall₂_holdsFrame_append {memory after : Memory} {messages : List Message}
    (kept : ∀ message ∈ messages, ∀ page ∈ rotation, page ∈ message.pages → ∀ offset length,
      after.slice page offset length = memory.slice page offset length)
    {frames : List (List UInt8)} {letters : List (Message × Memory)}
    (bring : List.Forall₂ (HoldsFrame rotation) frames (letters ++ messages.map fun message => (message, memory))) :
    List.Forall₂ (HoldsFrame rotation) frames (letters ++ messages.map fun message => (message, after)) := by
  induction letters generalizing frames with
  | cons letter rest ih =>
    rw [List.cons_append] at bring ⊢
    cases bring with
    | cons first others => exact .cons first (ih others)
  | nil =>
    rw [List.nil_append] at bring ⊢
    induction messages generalizing frames with
    | nil => exact bring
    | cons message rest ih =>
      rw [List.map_cons] at bring ⊢
      cases bring with
      | cons first others =>
        refine .cons ⟨first.code, ?_⟩ (ih (fun other listed => kept other (List.mem_cons_of_mem _ listed)) others)
        obtain ⟨page, turns, lent, packs⟩ := first.page
        refine ⟨page, turns, lent, packs.of_slice (kept message (List.mem_cons_self ..) page turns ?_)⟩
        have carried : message.pages = [page] := by rw [Message.pages, lent]; rfl
        rw [carried]
        exact List.mem_singleton_self page

theorem Site.holdsFrame_of_same (site next : Site) {frames : List (List UInt8)}
    (receipts : next.others.receipts = site.others.receipts)
    (waiting : next.bus.waiting receiver = site.bus.waiting receiver)
    (kept : ∀ page ∈ rotation, page ∈ site.bus.pages → ∀ offset length,
      next.machine.memory.slice page offset length = site.machine.memory.slice page offset length)
    (bring : List.Forall₂ (HoldsFrame rotation) frames (site.letters sender receiver)) :
    List.Forall₂ (HoldsFrame rotation) frames (next.letters sender receiver) := by
  unfold letters at bring ⊢
  rw [receipts, waiting]
  refine forall₂_holdsFrame_append ?_ bring
  intro message listed page turns carried
  exact kept page turns (MessageBus.mem_pages_of_waiting (List.mem_of_mem_filter listed) carried)

theorem Site.letters_deliver (site : Site) {message : Message} {reader : ProcessId} {bus : MessageBus}
    (sent : site.bus.deliver reader message = .ok bus) (log : Array LogLine) (sender receiver : ProcessId) :
    Site.letters { site with machine.log := log, bus := bus } sender receiver =
      site.letters sender receiver ++
        if receiver = reader ∧ message.sender = sender then [(message, site.machine.memory)] else [] := by
  have waiting := MessageBus.waiting_deliver sent receiver
  unfold letters
  dsimp only
  rw [waiting]
  by_cases here : receiver = reader
  · rw [if_pos here, List.filter_append, List.map_append, ← List.append_assoc]
    by_cases own : message.sender = sender
    · simp [here, own]
    · simp [own]
  · rw [if_neg here, if_neg (fun both => here both.1), List.append_nil]

def Site.SameMail (sender receiver : ProcessId) (site next : Site) : Prop :=
  next.letters sender receiver = site.letters sender receiver ∨
    next.others.receipts = site.others.receipts ∧ next.bus.waiting receiver = site.bus.waiting receiver

theorem PageAction.sameMail (action : PageAction rules site next) (barred : rules.barred sender receiver) :
    Site.SameMail sender receiver site next := by
  cases action with
  | allocate | make | retain | release | write | wait => exact .inr ⟨rfl, rfl⟩
  | register process => exact .inr ⟨rfl, MessageBus.waiting_register ..⟩
  | setReceiving process receiving => exact .inr ⟨rfl, MessageBus.waiting_setReceiving ..⟩
  | send writer reader code attachment holds allowed =>
    apply Step.Ends.after
    apply Surroundings.send_ends
    · intro error _
      exact .inr ⟨rfl, rfl⟩
    · intro process bus log same sent
      cases same
      -- Somebody else wrote the new letter, if it is one to this reader at all.
      have foreign : ¬ (receiver = reader ∧ writer = sender) := by
        rintro ⟨rfl, rfl⟩
        exact allowed barred
      left
      rw [Site.letters_deliver _ sent, if_neg foreign, List.append_nil]
      rfl
  | @fetch message bus process taken =>
    have waiting := MessageBus.waiting_take taken receiver
    left
    unfold Site.letters
    dsimp only
    rw [waiting, List.filter_append]
    by_cases here : receiver = process
    · subst here
      rw [if_pos rfl]
      by_cases own : message.sender = sender
      · simp [own]
      · simp [own]
    · rw [if_neg here]
      simp [Ne.symm here]

theorem Move.holdsFrame {frames : List (List UInt8)} (sound : Sound controller rotation recycled site)
    (reserved : ∀ page ∈ rotation, rules.reserved page) (barred : rules.barred sender receiver)
    (move : Move rules site next) (bring : List.Forall₂ (HoldsFrame rotation) frames (site.letters sender receiver)) :
    List.Forall₂ (HoldsFrame rotation) frames (next.letters sender receiver) := by
  have keepsReserved := (move.keepsReserved sound).2
  have kept (page : PageId) (turns : page ∈ rotation) (_ : page ∈ site.bus.pages) (offset length : Nat) :
      next.machine.memory.slice page offset length = site.machine.memory.slice page offset length :=
    keepsReserved.changes.slice (sound.knows_extra turns) (sound.outside_of_reserved turns (reserved page turns)) ..
  cases move with
  | action action =>
    rcases action.sameMail barred with same | ⟨receipts, waiting⟩
    · rwa [same]
    · exact Site.holdsFrame_of_same site next receipts waiting kept bring
  | transmit | inject | lose | raise => exact Site.holdsFrame_of_same site _ rfl rfl kept bring

theorem Moves.holdsFrame {frames : List (List UInt8)} (sound : Sound controller rotation recycled site)
    (reserved : ∀ page ∈ rotation, rules.reserved page) (barred : rules.barred sender receiver)
    (moves : Moves rules site next) (bring : List.Forall₂ (HoldsFrame rotation) frames (site.letters sender receiver)) :
    List.Forall₂ (HoldsFrame rotation) frames (next.letters sender receiver) := by
  induction moves with
  | none => exact bring
  | @more middle last before move ih =>
    -- To put the machine on record changes no letter.
    change List.Forall₂ (HoldsFrame rotation) frames (last.letters sender receiver)
    exact move.holdsFrame (before.keepsReserved sound).1 reserved barred ih

end PacketPath
