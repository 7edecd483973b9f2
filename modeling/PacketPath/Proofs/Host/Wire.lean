import PacketPath.Proofs.Host.TransmitEngine

/-! The wire. Fetching takes the flights in order and adds their bytes to the frame that is being
gathered; the bytes of a flight whose page the device can see are those that stand in the page then. -/

set_option autoImplicit false

namespace PacketPath

/-- What has left the transmit engine: whole frames, and the beginning of the next one. -/
structure Wire where
  gathered : List UInt8
  sent : List (List UInt8)
  deriving DecidableEq, Repr

def Wire.gather (wire : Wire) (bytes : List UInt8) (endsFrame : Bool) : Wire :=
  if endsFrame then ⟨[], wire.sent ++ [wire.gathered ++ bytes]⟩ else ⟨wire.gathered ++ bytes, wire.sent⟩

namespace Emulator

def wire (device : Emulator) : Wire :=
  ⟨device.gathered, device.sent⟩

theorem wire_gather (device : Emulator) (bytes : List UInt8) (endsFrame : Bool) :
    (device.gather bytes endsFrame).wire = device.wire.gather bytes endsFrame := by
  unfold gather Wire.gather
  split <;> rfl

theorem wire_of_transmitSide {before after : Emulator} (same : after.transmitSide = before.transmitSide) :
    after.wire = before.wire := by
  have gathered : after.gathered = before.gathered := congrArg TransmitSide.gathered same
  have sent : after.sent = before.sent := congrArg TransmitSide.sent same
  unfold wire
  rw [gathered, sent]

@[simp] theorem wire_onward (device : Emulator) (length : Nat) : (device.onward length).wire = device.wire :=
  rfl

@[simp] theorem wire_latch (device : Emulator) : device.latch.wire = device.wire := by
  unfold latch
  dsimp only
  split <;> rfl

end Emulator

/-- The device can see the bytes of the flight, and reporting about the ring does not touch them. -/
structure Flight.Visible (flight : Flight) (ring : TransmitRing) (memory : Memory) : Prop where
  reached : memory.Reaches flight.fragment.page
  apart : flight.fragment.page ≠ ring.table.page
  begins : flight.fragment.offset < Limits.pageSize
  ends : flight.fragment.offset + flight.fragment.length ≤ Limits.pageSize

def Flight.bytes (flight : Flight) (memory : Memory) : List UInt8 :=
  memory.slice flight.fragment.page flight.fragment.offset flight.fragment.length

inductive Gathers (ring : TransmitRing) (memory : Memory) : List Flight → Wire → Wire → Prop
  | done (wire : Wire) : Gathers ring memory [] wire wire
  | next {flight : Flight} {rest : List Flight} {wire last : Wire} (bytes : List UInt8)
      (shown : flight.Visible ring memory → bytes = flight.bytes memory)
      (later : Gathers ring memory rest (wire.gather bytes flight.endsFrame) last) :
      Gathers ring memory (flight :: rest) wire last

variable {ring : TransmitRing} {machine : Machine Emulator} {flights : List Flight} {flight : Flight}
  {limit : Nat}

theorem Flight.Visible.of_changes {memory after : Memory} {scope : PageId → Prop}
    (visible : flight.Visible ring memory) (charted : memory.Charted limit)
    (changes : memory.ChangesWithin scope after) : flight.Visible ring after :=
  { visible with
    reached := changes.reaches (charted.knows_of_reaches visible.reached) visible.reached }

theorem Gathers.eq_of_nil {memory : Memory} {first last : Wire} (gathers : Gathers ring memory [] first last) :
    last = first := by
  generalize gone : ([] : List Flight) = none at gathers
  cases gathers with
  | done => rfl
  | next => cases gone

theorem Gathers.of_changes {memory after : Memory} {first last : Wire} (charted : memory.Charted limit)
    (changes : memory.ChangesWithin (· = ring.table.page) after) (gathers : Gathers ring after flights first last) :
    Gathers ring memory flights first last := by
  induction gathers with
  | done wire => exact .done wire
  | next bytes shown later ih =>
    refine .next bytes (fun visible => ?_) ih
    rw [shown (visible.of_changes charted changes)]
    exact changes.slice (charted.knows_of_reaches visible.reached) visible.apart _ _

structure Fetched (ring : TransmitRing) (before after : Machine Emulator) (flights : List Flight)
    (count : Nat) : Prop where
  serves : Emulator.Serves ring before after
  flies : TransmitRing.Flies (ring, after) (flights.drop count)
  gathers : Gathers ring before.memory (flights.take count) before.device.wire after.device.wire
  persists : ring.Persists before.memory after.memory

theorem TransmitRing.mem_pages_of_binding {slot : Nat} {page : PageId} (bound : ring.binding slot = some page) :
    page ∈ ring.pages := by
  have kept := TransmitRing.binding_eq_some_iff.mp bound
  rw [← Array.getElem?_toList] at kept
  unfold pages
  exact List.mem_cons_of_mem _ (List.mem_filterMap.mpr ⟨some page, List.mem_of_getElem? kept, rfl⟩)

theorem TransmitRing.mem_pages_iff {page : PageId} :
    page ∈ ring.pages ↔ page = ring.table.page ∨ ∃ slot, ring.binding slot = some page := by
  refine ⟨fun listed => ?_, fun listed => ?_⟩
  · rcases List.mem_cons.mp listed with here | kept
    · exact .inl here
    · obtain ⟨bound, among, rfl⟩ := List.mem_filterMap.mp kept
      obtain ⟨slot, here⟩ := List.mem_iff_getElem?.mp among
      rw [Array.getElem?_toList] at here
      exact .inr ⟨slot, TransmitRing.binding_eq_some_iff.mpr here⟩
  · rcases listed with rfl | ⟨slot, bound⟩
    · exact List.mem_cons_self ..
    · exact mem_pages_of_binding bound

def Flight.address (flight : Flight) (memory : Memory) : UInt64 :=
  (memory.page flight.fragment.page).base + UInt64.ofNat flight.fragment.offset

/-- What the device finds at the address of a flight. -/
def Flight.located (flight : Flight) (memory : Memory) : Except AddressFault (PageId × Nat) :=
  memory.locate (flight.address memory) flight.fragment.length

namespace TransmitRing.Asks

variable {memory : Memory} {slot : Nat}

theorem advance (asks : ring.Asks memory slot flight) :
    Address.advance (memory.page flight.fragment.page).base flight.fragment.offset = .ok (flight.address memory) := by
  obtain ⟨address, found, -⟩ := asks.address
  unfold Address.advance at found ⊢
  split at found
  case isTrue fits => rw [if_pos fits, Flight.address]
  case isFalse => cases found

theorem cell (asks : ring.Asks memory slot flight) : ring.table.transmitCell memory slot =
    request (flight.address memory) flight.fragment.length flight.endsFrame := by
  obtain ⟨address, found, cell⟩ := asks.address
  cases asks.advance.symm.trans found
  exact cell

end TransmitRing.Asks

namespace Emulator

/-- The engine works on the flights of a ring, and the pages that the ring keeps are alive. -/
structure TransmitReady (limit : Nat) (ring : TransmitRing) (machine : Machine Emulator) (flights : List Flight) : Prop
    extends TableReady limit ring machine where
  flies : TransmitRing.Flies (ring, machine) flights
  alive : ∀ id ∈ ring.pages, 0 < machine.memory.handles id

namespace TransmitReady

theorem asks_head (ready : TransmitReady limit ring machine (flight :: flights)) :
    ring.Asks machine.memory machine.device.transmitHead flight := by
  have first := ready.flies.carries.asked 0 flight rfl
  rwa [Nat.add_zero, Nat.mod_eq_of_lt ready.wired.head] at first

theorem located (ready : TransmitReady limit ring machine flights) (listed : flight ∈ flights)
    (visible : flight.Visible ring machine.memory) :
    flight.located machine.memory = .ok (flight.fragment.page, flight.fragment.offset) := by
  obtain ⟨_, _, asks⟩ := ready.flies.carries.exists_asks listed
  exact ready.charted.locate_eq visible.reached (ready.alive _ (TransmitRing.mem_pages_of_binding asks.binding))
    (Address.advance_eq_ok_iff.mp asks.advance) visible.begins visible.ends

theorem fetched {after : Machine Emulator} {count : Nat} (ready : TransmitReady limit ring machine flights)
    (fetched : Fetched ring machine after flights count) : TransmitReady limit ring after (flights.drop count) where
  toTableReady := fetched.serves.ready ready.toTableReady
  flies := fetched.flies
  alive id listed := by
    rw [fetched.serves.handles]
    exact ready.alive id listed

end TransmitReady

def fetched (ring : TransmitRing) (flight : Flight) (bytes : List UInt8) (log : Array LogLine)
    (machine : Machine Emulator) : Machine Emulator where
  memory := machine.memory.overwrite ring.table.page (DescriptorTable.position machine.device.transmitHead)
    { ring.table.transmitCell machine.memory machine.device.transmitHead with status := TransmitStatus.done }.encode
  device := (machine.device.gather bytes flight.endsFrame).onward machine.device.transmitSide.length
  log := log

/-- The first flight is fetched if something is found at its address, and stays otherwise. -/
theorem fetchSlot_located (ready : TransmitReady limit ring machine (flight :: flights)) :
    (fetchSlot machine.device.transmitSide.base machine.device.transmitSide.length).Ends machine
      (fun _ after => ∃ id offset log, flight.located machine.memory = .ok (id, offset) ∧
        after = fetched ring flight (machine.memory.slice id offset flight.fragment.length) log machine)
      (fun stop after => ∃ fault, flight.located machine.memory = .error fault ∧
        stop = .refused (.address fault) ∧ after = machine) := by
  have asks := ready.asks_head
  have cell := asks.cell
  have length := TransmitRing.length_request (flight.address machine.memory) asks.short flight.endsFrame
  apply fetchSlot_ends ready.toTableReady cell
  · intro fault missing
    rw [length] at missing
    exact ⟨fault, missing, rfl, rfl⟩
  · intro id offset log seen
    rw [length] at seen
    refine ⟨id, offset, log, seen, ?_⟩
    rw [TransmitRing.reportsStatus_request, TransmitRing.endsFrame_request, length, if_pos rfl]
    unfold fetched
    rw [cell]

theorem fetchSlot_flies (ready : TransmitReady limit ring machine (flight :: flights)) :
    (fetchSlot machine.device.transmitSide.base machine.device.transmitSide.length).Ends machine
      (fun _ after => Fetched ring machine after (flight :: flights) 1)
      (fun _ after => Fetched ring machine after (flight :: flights) 0 ∧
        ¬ flight.Visible ring machine.memory) := by
  have wired := ready.wired
  have serves := fetchSlot_serves ready.toTableReady
  refine (serves.and (fetchSlot_located ready)).mono ?_ ?_
  · rintro _ after ⟨serves, id, offset, log, seen, rfl⟩
    have side := TransmitSide.sameRing_gather machine.device.transmitSide
      (machine.memory.slice id offset flight.fragment.length) flight.endsFrame
    refine ⟨serves, ?_, ?_, fun slot _ done => ?_⟩
    · unfold TransmitRing.Flies fetched
      dsimp only
      rw [transmitSide_onward (by rw [transmitSide_gather]; exact side.length), transmitSide_gather]
      refine ready.flies.carries.fetched (show TransmitStatus.done.isDone = true by decide) side.base side.length
        side.enabled side.tail ?_ ?_
      · change (_ % _) = _
        rw [TransmitSide.head_gather, side.length, wired.length]
      · change (_ - 1) = _
        rw [TransmitSide.pending_gather]
    · refine .next (machine.memory.slice id offset flight.fragment.length) (fun visible => ?_) ?_
      · cases (ready.located (List.mem_cons_self ..) visible).symm.trans seen
        rfl
      · unfold fetched
        dsimp only
        rw [wire_onward, wire_gather]
        exact .done _
    · -- The engine reports the slot of a flight, and that slot was not done.
      have cells := DescriptorTable.transmitCell_overwrite wired.seated.fits wired.head
      refine (cells _ slot).trans (if_neg ?_)
      rintro rfl
      have fresh := ready.asks_head.not_done
      rw [show machine.device.transmitHead = machine.device.transmitSide.head from rfl, done] at fresh
      cases fresh
  · rintro _ after ⟨serves, fault, missing, -, rfl⟩
    refine ⟨⟨serves, ready.flies, .done _, .refl _ _⟩, fun visible => ?_⟩
    cases (ready.located (List.mem_cons_self ..) visible).symm.trans missing

theorem fetchSlots_flies (ready : TransmitReady limit ring machine flights) {count : Nat}
    (pending : count ≤ flights.length) :
    (fetchSlots machine.device.transmitSide.base machine.device.transmitSide.length count).Ends machine
      (fun _ after => Fetched ring machine after flights count)
      (fun _ after => ∃ stuck < count, Fetched ring machine after flights stuck ∧
        ∃ flight, flights[stuck]? = some flight ∧ ¬ flight.Visible ring machine.memory) := by
  induction count generalizing machine flights with
  | zero =>
    refine ⟨.of_same ready.wired.head rfl rfl rfl, ready.flies, ?_, .refl _ _⟩
    rw [List.take_zero]
    exact .done _
  | succ count ih =>
    cases flights with
    | nil => simp at pending
    | cons flight flights =>
      rw [List.length_cons] at pending
      unfold fetchSlots
      rw [Step.ends_bind]
      refine (fetchSlot_flies ready).mono ?_ ?_
      · intro _ middle first
        have serves := first.serves
        rw [← serves.sameRing.base, ← serves.sameRing.length]
        have visible {flight : Flight} (seen : flight.Visible ring machine.memory) :
            flight.Visible ring middle.memory := seen.of_changes ready.charted serves.changes
        -- What is fetched later is fetched after the first flight.
        have follow {after : Machine Emulator} {more : Nat} (later : Fetched ring middle after flights more) :
            Fetched ring machine after (flight :: flights) (more + 1) := by
          refine ⟨serves.trans later.serves, later.flies, ?_, first.persists.trans later.persists⟩
          have one := first.gathers
          rw [List.take_succ_cons, List.take_zero] at one
          rw [List.take_succ_cons]
          cases one with
          | next bytes shown none =>
            refine .next bytes shown ?_
            rw [← none.eq_of_nil]
            exact later.gathers.of_changes ready.charted serves.changes
        refine (ih (ready.fetched first) (Nat.le_of_succ_le_succ pending)).mono (fun _ _ later => follow later) ?_
        rintro _ after ⟨stuck, short, later, hidden, here, unseen⟩
        refine ⟨stuck + 1, by omega, follow later, hidden, ?_, fun seen => unseen (visible seen)⟩
        rwa [List.getElem?_cons_succ]
      · rintro _ after ⟨none, hidden⟩
        exact ⟨0, by omega, none, flight, rfl, hidden⟩

/-- A transmission fetches the flights in order, as many as it may. It stops early only at a flight
that the device cannot see. -/
theorem transmit_flies (ready : TransmitReady limit ring machine flights) (most : Nat) :
    (transmit most).Ends machine
      (fun count after => count = min flights.length most ∧ Fetched ring machine after flights count)
      (fun _ after => ∃ stuck < min flights.length most, Fetched ring machine after flights stuck ∧
        ∃ flight, flights[stuck]? = some flight ∧ ¬ flight.Visible ring machine.memory) := by
  apply transmit_ends ready.wired
  rw [ready.flies.carries.pending]
  refine (fetchSlots_flies ready (Nat.min_le_left ..)).mono ?_ (fun _ _ stuck => stuck)
  intro _ after fetched
  refine ⟨rfl, ?_⟩
  split
  · exact fetched
  · refine ⟨fetched.serves.trans (.of_same fetched.serves.head rfl (transmitSide_latch _)
      (receiveSide_latch _)), ?_, ?_, fetched.persists⟩
    · have kept := fetched.flies
      unfold TransmitRing.Flies at kept ⊢
      dsimp only at kept ⊢
      rwa [transmitSide_latch]
    · dsimp only
      rw [wire_latch]
      exact fetched.gathers

end Emulator

end PacketPath
