import PacketPath.Proofs.Host.EnginesAlike

/-! What a device finds as it reports slots. The emulated engine reports every slot as done and nothing else;
hardware may add that there were collisions or that it ran out of bytes. Reports go into the table of the ring
and nowhere else, and a slot that is done stays so. -/

set_option autoImplicit false

namespace PacketPath

def TransmitStatus.finished (found : TransmitStatus) : TransmitStatus :=
  ⟨found.bits ||| 0x01⟩

theorem TransmitStatus.isDone_finished (found : TransmitStatus) : found.finished.isDone = true := by
  have kept : (found.bits ||| 0x01) &&& 0x01 = 0x01 := by
    apply UInt8.toBitVec_inj.mp
    ext i
    simp only [UInt8.toBitVec_and, UInt8.toBitVec_or, BitVec.getElem_and, BitVec.getElem_or]
    grind
  unfold isDone finished
  dsimp only
  rw [kept]
  decide

namespace TransmitRing

variable {ring ring' : TransmitRing} {memory other : Memory} {side : Emulator.TransmitSide} {flights : List Flight}
  {slots : List Nat}

def mark (ring : TransmitRing) (found : Nat → TransmitStatus) (memory : Memory) : (slots : List Nat) → Memory
  | [] => memory
  | slot :: rest =>
    ring.mark found (memory.overwrite ring.table.page (DescriptorTable.position slot)
      { ring.table.transmitCell memory slot with status := (found slot).finished }.encode) rest

theorem changes_mark (ring : TransmitRing) (found : Nat → TransmitStatus) (memory : Memory) (slots : List Nat) :
    memory.ChangesWithin (· = ring.table.page) (ring.mark found memory slots) := by
  induction slots generalizing memory with
  | nil => exact .refl _ _
  | cons slot rest ih => exact (Memory.changes_overwrite _ (by rfl) _ _).trans (ih _)

theorem reachable_mark (ring : TransmitRing) (found : Nat → TransmitStatus) (memory : Memory) (slots : List Nat) :
    (ring.mark found memory slots).reachable = memory.reachable := by
  induction slots generalizing memory with
  | nil => rfl
  | cons slot rest ih => exact ih _

theorem handles_mark (ring : TransmitRing) (found : Nat → TransmitStatus) (memory : Memory) (slots : List Nat)
    (id : PageId) : (ring.mark found memory slots).handles id = memory.handles id := by
  induction slots generalizing memory with
  | nil => rfl
  | cons slot rest ih => exact (ih _).trans (Memory.handles_overwrite ..)

theorem mark_alike (alike : memory.Alike other) (table : ring'.table = ring.table) (found : Nat → TransmitStatus)
    (slots : List Nat) : (ring.mark found memory slots).Alike (ring'.mark found other slots) := by
  induction slots generalizing memory other with
  | nil => exact alike
  | cons slot rest ih =>
    unfold mark
    rw [table, alike.transmitCell]
    exact ih (alike.overwrite ..)

theorem transmitCell_mark (fits : ring.table.Fits memory) (known : memory.Knows ring.table.page)
    (found : Nat → TransmitStatus) (inside : ∀ slot ∈ slots, slot < ring.capacity) (slot : Nat) :
    ring.table.transmitCell (ring.mark found memory slots) slot =
      if slot ∈ slots then { ring.table.transmitCell memory slot with status := (found slot).finished }
      else ring.table.transmitCell memory slot := by
  induction slots generalizing memory with
  | nil => rfl
  | cons first rest ih =>
    have here := inside first (List.mem_cons_self ..)
    have changes : memory.ChangesWithin (· = ring.table.page)
        (memory.overwrite ring.table.page (DescriptorTable.position first)
          { ring.table.transmitCell memory first with status := (found first).finished }.encode) :=
      Memory.changes_overwrite _ (by rfl) _ _
    have cells := DescriptorTable.transmitCell_overwrite fits here
      { ring.table.transmitCell memory first with status := (found first).finished } slot
    unfold mark
    rw [ih (fits.of_changes changes known) (changes.knows _ known) fun slot listed =>
      inside slot (List.mem_cons_of_mem _ listed), cells]
    by_cases same : slot = first
    · subst same
      by_cases again : slot ∈ rest <;> simp [again]
    · by_cases again : slot ∈ rest <;> simp [again, same]

theorem Carries.marked (carries : ring.Carries memory side flights) (found : Nat → TransmitStatus)
    (done : ∀ slot ∈ slots, slot < ring.capacity ∧ (ring.table.transmitCell memory slot).status.isDone = true) :
    ring.Carries (ring.mark found memory slots) side flights := by
  have changes := ring.changes_mark found memory slots
  have seated := carries.wired.seated
  have cells := transmitCell_mark seated.fits seated.knows found fun slot listed => (done slot listed).1
  exact
    { carries with
      wired := carries.wired.of_changes changes
      asked := by
        intro i flight listed
        have asks := carries.asked i flight listed
        refine asks.of_changes changes ?_
        rw [cells, if_neg]
        intro marked
        have said := (done _ marked).2
        rw [asks.not_done] at said
        cases said
      rest := by
        intro slot inside free
        rw [cells]
        split
        · exact TransmitStatus.isDone_finished _
        · exact carries.rest slot inside free }

def finished (ring : TransmitRing) (before after : Memory) : List Nat :=
  (List.range ring.capacity).filter fun slot =>
    !(ring.table.transmitCell before slot).status.isDone && (ring.table.transmitCell after slot).status.isDone

theorem mem_finished_iff {before after : Memory} {slot : Nat} :
    slot ∈ ring.finished before after ↔ slot < ring.capacity ∧
      (ring.table.transmitCell before slot).status.isDone = false ∧
      (ring.table.transmitCell after slot).status.isDone = true := by
  simp [finished, List.mem_filter]

end TransmitRing

namespace Emulator

open Step

variable {ring ring' : TransmitRing} {one other machine : Machine Emulator} {flights : List Flight}
  {limit limit' : Nat}

/-- The transmit engine runs, and what is found about the slots that it finishes is reported with them. -/
def serve (ring : TransmitRing) (most : Nat) (found : Nat → TransmitStatus) :
    Step HostError (Machine Emulator) Nat := do
  let before := (← get).memory
  let count ← transmit most
  Machine.changeMemory fun after => ring.mark found after (ring.finished before after)
  return count

theorem serves_mark (head : machine.device.transmitSide.head < ring.capacity) (found : Nat → TransmitStatus)
    (slots : List Nat) :
    Serves ring machine { machine with memory := ring.mark found machine.memory slots } where
  changes := ring.changes_mark found machine.memory slots
  reachable := ring.reachable_mark found machine.memory slots
  handles := ring.handles_mark found machine.memory slots
  sameRing := .refl _
  head := head
  receiveSide := rfl

/-- Flights are fetched in order, as many as the engine may, up to the first one that the device cannot see. -/
theorem serve_fetches (ready : TransmitReady limit ring machine flights) (most : Nat) (found : Nat → TransmitStatus) :
    (serve ring most found).Ends machine
      (fun count after => count = min flights.length most ∧ Serves ring machine after ∧
        TransmitRing.Flies (ring, after) (flights.drop count) ∧ ring.Persists machine.memory after.memory)
      (fun _ after => ∃ stuck, Serves ring machine after ∧ TransmitRing.Flies (ring, after) (flights.drop stuck) ∧
        ring.Persists machine.memory after.memory ∧
        ∃ flight, flights[stuck]? = some flight ∧ ¬ flight.Visible ring machine.memory) := by
  unfold serve
  simp only [Step.ends_bind, Step.ends_get, Machine.ends_changeMemory, Step.ends_pure]
  refine (transmit_flies ready most).mono ?_ ?_
  · rintro count after ⟨all, fetched⟩
    have seated := fetched.flies.carries.wired.seated
    refine ⟨all, fetched.serves.trans (serves_mark fetched.serves.head found _), ?_, fun slot inside done => ?_⟩
    · refine fetched.flies.carries.marked found fun slot listed => ?_
      obtain ⟨inside, -, done⟩ := TransmitRing.mem_finished_iff.mp listed
      exact ⟨inside, done⟩
    · -- Slots that were done are not among those that the engine finishes.
      have cells := TransmitRing.transmitCell_mark seated.fits seated.knows found
        (fun slot (listed : slot ∈ ring.finished machine.memory after.memory) =>
          (TransmitRing.mem_finished_iff.mp listed).1) slot
      refine cells.trans ((if_neg fun listed => ?_).trans (fetched.persists slot inside done))
      rw [(TransmitRing.mem_finished_iff.mp listed).2.1] at done
      cases done
  · rintro _ after ⟨stuck, -, fetched, hidden⟩
    exact ⟨stuck, fetched.serves, fetched.flies, fetched.persists, hidden⟩

theorem serve_flies (ready : TransmitReady limit ring machine flights)
    (visible : ∀ flight ∈ flights, flight.Visible ring machine.memory) (most : Nat) (found : Nat → TransmitStatus) :
    (serve ring most found).Ends machine
      (fun count after => count = min flights.length most ∧ Serves ring machine after ∧
        TransmitRing.Flies (ring, after) (flights.drop count) ∧ ring.Persists machine.memory after.memory)
      (fun _ _ => False) := by
  refine (serve_fetches ready most found).mono (fun _ _ fetched => fetched) ?_
  rintro _ _ ⟨stuck, -, -, -, flight, here, hidden⟩
  exact hidden (visible flight (List.mem_of_getElem? here))

theorem serve_agree (alike : one.Alike other) (table : ring'.table = ring.table)
    (ready : TransmitReady limit ring one flights) (ready' : TransmitReady limit' ring' other flights)
    (same : ∀ flight ∈ flights, flight.located other.memory = flight.located one.memory) (most : Nat)
    (found : Nat → TransmitStatus) :
    Agree Machine.Alike (serve ring most found) (serve ring' most found) one other := by
  have sent := transmit_agree Machine.Alike.view sends_alike alike table trivial ready ready' same
    (fun _ _ _ _ _ => trivial) most
  refine .get_bind (sent.bind fun count after after' kept => ?_)
  have finished : ring'.finished other.memory after'.memory = ring.finished one.memory after.memory := by
    unfold TransmitRing.finished TransmitRing.capacity
    rw [table, alike.memory.transmitCell, kept.memory.transmitCell]
  refine .of_ok rfl rfl ⟨?_, kept.device⟩
  dsimp only
  rw [finished]
  exact TransmitRing.mark_alike kept.memory table found _

end Emulator

end PacketPath
