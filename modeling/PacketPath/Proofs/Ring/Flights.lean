import PacketPath.Proofs.Ring.Arc
import PacketPath.Proofs.Ring.TransmitSteps

/-! Flights: the fragments that are posted and not yet fetched, in the order of their slots. The ring
and the device agree on them through the descriptors and the tail register alone. -/

set_option autoImplicit false

namespace PacketPath

/-- A fragment on its way to the wire. -/
structure Flight where
  fragment : Fragment
  endsFrame : Bool
  deriving DecidableEq, Repr

namespace TransmitRing

variable {ring : TransmitRing} {memory after : Memory} {side : Emulator.TransmitSide}
  {flights : List Flight} {flight : Flight} {slot : Nat} {scope : PageId → Prop}

structure Wired (ring : TransmitRing) (memory : Memory) (side : Emulator.TransmitSide) : Prop where
  seated : ring.Seated memory
  several : 1 < ring.capacity
  small : ring.capacity < 2 ^ 16
  base : side.base = (memory.page ring.table.page).base
  length : side.length = ring.capacity
  enabled : side.enabled = true
  head : side.head < ring.capacity

/-- The slot asks the device for the bytes of a flight, and the ring keeps their page. -/
structure Asks (ring : TransmitRing) (memory : Memory) (slot : Nat) (flight : Flight) : Prop where
  address : ∃ address,
    Address.advance (memory.page flight.fragment.page).base flight.fragment.offset = .ok address ∧
    ring.table.transmitCell memory slot = request address flight.fragment.length flight.endsFrame
  short : flight.fragment.length ≤ Limits.maxFrame
  binding : ring.binding slot = some flight.fragment.page
  knows : memory.Knows flight.fragment.page

/-- The flights stand in the slots from the device's head up to the ring's tail, and every other
slot is done. -/
structure Carries (ring : TransmitRing) (memory : Memory) (side : Emulator.TransmitSide)
    (flights : List Flight) : Prop where
  wired : ring.Wired memory side
  pending : side.pending = flights.length
  bounded : flights.length ≤ ring.capacity
  tail : ring.tail = (side.head + flights.length) % ring.capacity
  word : side.tail = UInt32.ofNat ring.tail
  asked : ∀ i flight, flights[i]? = some flight →
    ring.Asks memory ((side.head + i) % ring.capacity) flight
  rest : ∀ slot < ring.capacity, slot ∉ Ring.arc ring.capacity side.head flights.length →
    (ring.table.transmitCell memory slot).status.isDone = true

@[simp] theorem endsFrame_request (address : UInt64) (length : Nat) (endsFrame : Bool) :
    (request address length endsFrame).command.endsFrame = endsFrame := by
  change (TransmitCommand.posting endsFrame).endsFrame = endsFrame
  cases endsFrame <;> decide

@[simp] theorem reportsStatus_request (address : UInt64) (length : Nat) (endsFrame : Bool) :
    (request address length endsFrame).command.reportsStatus = true := by
  change (TransmitCommand.posting endsFrame).reportsStatus = true
  cases endsFrame <;> decide

theorem length_request (address : UInt64) {length : Nat} (short : length ≤ Limits.maxFrame)
    (endsFrame : Bool) : (request address length endsFrame).length.toNat = length := by
  have fits : length < UInt16.size := Nat.lt_of_le_of_lt short (by decide)
  exact UInt16.toNat_ofNat_of_lt' fits

/-! ### Changes elsewhere -/

theorem Wired.of_changes (wired : ring.Wired memory side) (changes : memory.ChangesWithin scope after) :
    ring.Wired after side :=
  { wired with
    seated :=
      { wired.seated with
        fits := wired.seated.fits.of_changes changes wired.seated.knows
        knows := changes.knows _ wired.seated.knows }
    base := by rw [changes.base _ wired.seated.knows, wired.base] }

theorem Asks.of_changes (asks : ring.Asks memory slot flight) (changes : memory.ChangesWithin scope after)
    (same : ring.table.transmitCell after slot = ring.table.transmitCell memory slot) :
    ring.Asks after slot flight :=
  { asks with
    address := by
      obtain ⟨address, found, cell⟩ := asks.address
      exact ⟨address, by rw [changes.base _ asks.knows, found], by rw [same, cell]⟩
    knows := changes.knows _ asks.knows }

/-- Flights go on through every change that leaves the page of the table alone. -/
theorem Carries.of_changes (carries : ring.Carries memory side flights)
    (changes : memory.ChangesWithin scope after) (outside : ¬ scope ring.table.page) :
    ring.Carries after side flights := by
  have cells : ring.table.transmitCell after = ring.table.transmitCell memory := by
    funext slot
    unfold DescriptorTable.transmitCell
    rw [DescriptorTable.cell_of_changes changes carries.wired.seated.knows outside]
  exact
    { carries with
      wired := carries.wired.of_changes changes
      asked := fun i flight listed => (carries.asked i flight listed).of_changes changes (by rw [cells])
      rest := fun slot inside free => by rw [cells]; exact carries.rest slot inside free }

/-! ### Which slots are done -/

def Persists (ring : TransmitRing) (memory after : Memory) : Prop :=
  ∀ slot < ring.capacity, (ring.table.transmitCell memory slot).status.isDone = true →
    ring.table.transmitCell after slot = ring.table.transmitCell memory slot

theorem Persists.refl (ring : TransmitRing) (memory : Memory) : ring.Persists memory memory :=
  fun _ _ _ => rfl

theorem Persists.trans {middle after : Memory} (first : ring.Persists memory middle)
    (second : ring.Persists middle after) : ring.Persists memory after := by
  intro slot inside done
  have same := first slot inside done
  rw [second slot inside (by rwa [same]), same]

theorem Persists.of_changes {after : Memory} (changes : memory.ChangesWithin scope after)
    (known : memory.Knows ring.table.page) (outside : ¬ scope ring.table.page) : ring.Persists memory after := by
  intro slot _ _
  unfold DescriptorTable.transmitCell
  rw [DescriptorTable.cell_of_changes changes known outside]

theorem Asks.not_done (asks : ring.Asks memory slot flight) :
    (ring.table.transmitCell memory slot).status.isDone = false := by
  obtain ⟨address, -, cell⟩ := asks.address
  rw [cell, isDone_request]

theorem Carries.not_done_of_mem (carries : ring.Carries memory side flights)
    (listed : slot ∈ Ring.arc ring.capacity side.head flights.length) :
    (ring.table.transmitCell memory slot).status.isDone = false := by
  obtain ⟨i, inside, rfl⟩ := (Ring.mem_arc_iff carries.wired.head).mp listed
  exact (carries.asked i _ (List.getElem?_eq_getElem inside)).not_done

theorem Carries.exists_asks (carries : ring.Carries memory side flights) (listed : flight ∈ flights) :
    ∃ slot, slot ∈ Ring.arc ring.capacity side.head flights.length ∧ ring.Asks memory slot flight := by
  obtain ⟨i, inside, here⟩ := List.mem_iff_getElem.mp listed
  exact ⟨_, Ring.mem_arc_of_lt carries.wired.head inside,
    carries.asked i flight (List.getElem?_eq_some_iff.mpr ⟨inside, here⟩)⟩

theorem Carries.mem_arc_of_waiting (carries : ring.Carries memory side flights) (inside : slot < ring.capacity)
    (waiting : (ring.table.transmitCell memory slot).status.isDone = false) :
    slot ∈ Ring.arc ring.capacity side.head flights.length := by
  apply Decidable.byContradiction
  intro outside
  rw [carries.rest slot inside outside] at waiting
  cases waiting

theorem Carries.exists_flight (carries : ring.Carries memory side flights) (inside : slot < ring.capacity)
    (waiting : (ring.table.transmitCell memory slot).status.isDone = false) :
    ∃ flight ∈ flights, ring.Asks memory slot flight := by
  obtain ⟨i, short, rfl⟩ := (Ring.mem_arc_iff carries.wired.head).mp (carries.mem_arc_of_waiting inside waiting)
  exact ⟨flights[i], List.getElem_mem short, carries.asked i _ (List.getElem?_eq_getElem short)⟩

theorem Carries.knows_of_mem (carries : ring.Carries memory side flights) (listed : flight ∈ flights) :
    memory.Knows flight.fragment.page := by
  obtain ⟨_, _, asks⟩ := carries.exists_asks listed
  exact asks.knows

theorem Carries.isDone_tail (carries : ring.Carries memory side flights) :
    (ring.table.transmitCell memory ring.tail).status.isDone = decide (flights.length < ring.capacity) := by
  have bounded := carries.bounded
  by_cases room : flights.length < ring.capacity
  · rw [decide_eq_true room]
    apply carries.rest _ carries.wired.seated.tail
    rw [carries.tail]
    exact Ring.end_not_mem_arc carries.wired.head room
  · rw [decide_eq_false room]
    have full : flights.length = ring.capacity := by omega
    apply carries.not_done_of_mem
    rw [carries.tail, full, Nat.add_mod_right, Nat.mod_eq_of_lt carries.wired.head, Ring.mem_arc_iff carries.wired.head]
    exact ⟨0, by have several := carries.wired.several; omega,
      by rw [Nat.add_zero, Nat.mod_eq_of_lt carries.wired.head]⟩

theorem doneCount_eq_of_done {start count limit : Nat} (inside : start < ring.capacity)
    (done : ∀ slot ∈ Ring.arc ring.capacity start count, (ring.table.transmitCell memory slot).status.isDone = true)
    (last : count < limit →
      (ring.table.transmitCell memory ((start + count) % ring.capacity)).status.isDone = false)
    (fits : count ≤ limit) : ring.doneCount memory start limit = count := by
  induction count generalizing start limit with
  | zero =>
    cases limit with
    | zero => rfl
    | succ limit =>
      have stop := last (by omega)
      rw [Nat.add_zero, Nat.mod_eq_of_lt inside] at stop
      rw [doneCount, if_neg (by rw [stop]; decide)]
  | succ count ih =>
    cases limit with
    | zero => omega
    | succ limit =>
      have here := done start (by rw [Ring.arc]; exact List.mem_cons_self ..)
      rw [doneCount, if_pos here, ih (next_lt inside)]
      · intro slot listed
        exact done slot (by rw [Ring.arc]; exact List.mem_cons_of_mem _ listed)
      · intro short
        rw [next, Ring.succ_mod_add]
        exact last (by omega)
      · omega

/-- As many slots can be posted as are not in flight. -/
theorem Carries.doneCount_eq (carries : ring.Carries memory side flights) :
    ring.doneCount memory ring.tail ring.capacity = ring.capacity - flights.length := by
  have bounded := carries.bounded
  have head := carries.wired.head
  apply doneCount_eq_of_done carries.wired.seated.tail
  · intro slot listed
    have inside := Ring.lt_of_mem_arc carries.wired.seated.tail listed
    rw [carries.tail] at listed
    exact carries.rest slot inside (Ring.not_mem_arc_of_mem_rest head bounded listed)
  · intro some
    apply carries.not_done_of_mem
    have lap : (ring.tail + (ring.capacity - flights.length)) % ring.capacity = side.head := by
      rw [carries.tail, Nat.mod_add_mod,
        show side.head + flights.length + (ring.capacity - flights.length) = side.head + ring.capacity by omega,
        Nat.add_mod_right, Nat.mod_eq_of_lt head]
    rw [lap, Ring.mem_arc_iff head]
    exact ⟨0, by omega, by rw [Nat.add_zero, Nat.mod_eq_of_lt head]⟩
  · omega

/-! ### Posting -/

theorem Carries.freed (carries : ring.Carries memory side flights) (status : TransmitStatus)
    (free : slot ∉ Ring.arc ring.capacity side.head flights.length) :
    (ring.freed slot status).Carries (memory.releaseAll (ring.slotPages slot)) side flights := by
  have changes := Memory.changes_releaseAll (fun _ => False) memory (ring.slotPages slot)
  have kept := carries.of_changes changes id
  have table : (ring.freed slot status).table = ring.table := table_freed ring slot status
  have capacity : (ring.freed slot status).capacity = ring.capacity := congrArg DescriptorTable.length table
  have tail : (ring.freed slot status).tail = ring.tail := tail_freed ring slot status
  exact
    { wired :=
        { seated :=
            { fits := table ▸ kept.wired.seated.fits
              knows := table ▸ kept.wired.seated.knows
              bindings := by rw [size_bindings_freed, capacity, kept.wired.seated.bindings]
              tail := by rw [tail, capacity]; exact kept.wired.seated.tail }
          several := capacity ▸ kept.wired.several
          small := capacity ▸ kept.wired.small
          base := table ▸ kept.wired.base
          length := capacity ▸ kept.wired.length
          enabled := kept.wired.enabled
          head := capacity ▸ kept.wired.head }
      pending := kept.pending
      bounded := capacity ▸ kept.bounded
      tail := by rw [tail, capacity]; exact kept.tail
      word := by rw [tail]; exact kept.word
      asked := by
        intro i flight listed
        rw [capacity]
        have asks := kept.asked i flight listed
        have inside : i < flights.length := (List.getElem?_eq_some_iff.mp listed).1
        refine ⟨by rw [table]; exact asks.address, asks.short, ?_, asks.knows⟩
        rw [binding_freed, if_neg, asks.binding]
        exact ne_of_mem_of_not_mem (Ring.mem_arc_of_lt carries.wired.head inside) free
      rest := by rw [capacity, table]; exact kept.rest }

theorem toNat_ofNat_of_small {slot : Nat} (small : slot < 2 ^ 16) : (UInt32.ofNat slot).toNat = slot :=
  UInt32.toNat_ofNat_of_lt' (Nat.lt_trans small (by decide))

theorem Carries.pending_moveTail (carries : ring.Carries memory side flights)
    (room : flights.length < ring.capacity) :
    (side.moveTail (UInt32.ofNat (ring.next ring.tail))).pending = flights.length + 1 := by
  have several := carries.wired.several
  have small := carries.wired.small
  have tail := carries.wired.seated.tail
  have onward : ring.next ring.tail < ring.capacity := next_lt tail
  have step : (ring.next ring.tail + ring.capacity - ring.tail) % ring.capacity = 1 := Ring.succ_mod_sub several tail
  unfold Emulator.TransmitSide.moveTail
  dsimp only
  rw [carries.wired.length, if_neg (by omega), carries.word, toNat_ofNat_of_small (by omega),
    toNat_ofNat_of_small (by omega), Nat.mod_eq_of_lt onward, Nat.mod_eq_of_lt tail, step, carries.pending]
  omega

/-- A post adds a flight at the end. -/
theorem Carries.posted {fragment : Fragment} {endsFrame : Bool} {address : UInt64}
    (carries : ring.Carries memory side flights) (status : TransmitStatus)
    (room : flights.length < ring.capacity) (known : memory.Knows fragment.page)
    (short : fragment.length ≤ Limits.maxFrame)
    (found : Address.advance (memory.page fragment.page).base fragment.offset = .ok address) :
    (ring.posted status fragment endsFrame).Carries (ring.postedMemory memory fragment address endsFrame)
      (side.moveTail (UInt32.ofNat (ring.next ring.tail))) (flights ++ [⟨fragment, endsFrame⟩]) := by
  have head := carries.wired.head
  have seated := carries.wired.seated
  have cells := transmitCell_postedMemory seated fragment address endsFrame
  -- Only the tail slot is written, and no flight stands there.
  have free : ring.tail ∉ Ring.arc ring.capacity side.head flights.length := by
    rw [carries.tail]
    exact Ring.end_not_mem_arc head room
  have changes := changes_postedMemory ring known address endsFrame
  have bindings := binding_posted seated.tail_bound status fragment endsFrame
  exact
    { wired :=
        { carries.wired.of_changes changes with seated := seated.posted known status address endsFrame }
      pending := by
        rw [carries.pending_moveTail room, List.length_append, List.length_singleton]
      bounded := by
        rw [List.length_append, List.length_singleton]
        exact room
      tail := by
        change ring.next ring.tail = (side.head + (flights ++ [_]).length) % ring.capacity
        rw [next, carries.tail, Nat.mod_add_mod, List.length_append, List.length_singleton, Nat.add_assoc]
      word := rfl
      asked := by
        intro i flight listed
        change Asks _ _ ((side.head + i) % ring.capacity) flight
        rcases getElem?_push listed with earlier | ⟨rfl, rfl⟩
        · have asks := carries.asked i flight earlier
          have other : (side.head + i) % ring.capacity ≠ ring.tail :=
            ne_of_mem_of_not_mem (Ring.mem_arc_of_lt head (List.getElem?_eq_some_iff.mp earlier).1) free
          refine ⟨?_, asks.short, ?_, changes.knows _ asks.knows⟩
          · obtain ⟨place, started, cell⟩ := asks.address
            refine ⟨place, by rw [changes.base _ asks.knows, started], ?_⟩
            rw [← cell]
            exact (cells _).trans (if_neg other)
          · rw [bindings, if_neg other, asks.binding]
        · rw [← carries.tail]
          refine ⟨⟨address, by rw [changes.base _ known, found], ?_⟩, short, ?_, changes.knows _ known⟩
          · exact (cells _).trans (if_pos rfl)
          · rw [bindings, if_pos rfl]
      rest := by
        intro slot inside outside
        change slot ∉ Ring.arc ring.capacity side.head (flights ++ [_]).length at outside
        rw [List.length_append, List.length_singleton, Ring.not_mem_arc_succ_iff head, ← carries.tail] at outside
        obtain ⟨before, other⟩ := outside
        refine Eq.trans ?_ (carries.rest slot inside before)
        exact congrArg (fun cell => cell.status.isDone) ((cells slot).trans (if_neg other)) }

/-! ### Fetching -/

/-- When the device reports its head slot done and moves on, the first flight is over. -/
theorem Carries.fetched {onward : Emulator.TransmitSide} (carries : ring.Carries memory side (flight :: flights))
    {report : TransmitDescriptor} (done : report.status.isDone = true)
    (base : onward.base = side.base) (length : onward.length = side.length)
    (enabled : onward.enabled = side.enabled) (tail : onward.tail = side.tail)
    (head : onward.head = (side.head + 1) % ring.capacity) (pending : onward.pending = side.pending - 1) :
    ring.Carries (memory.overwrite ring.table.page (DescriptorTable.position side.head) report.encode) onward
      flights := by
  have wired := carries.wired
  have inside : onward.head < ring.capacity := head ▸ next_lt wired.head
  have changes : memory.ChangesWithin (· = ring.table.page)
      (memory.overwrite ring.table.page (DescriptorTable.position side.head) report.encode) :=
    Memory.changes_overwrite _ (by rfl) _ _
  have cells := DescriptorTable.transmitCell_overwrite wired.seated.fits wired.head report
  have bounded := carries.bounded
  rw [List.length_cons] at bounded
  have gone : side.head ∉ Ring.arc ring.capacity onward.head flights.length := by
    rw [head]
    exact Ring.start_not_mem_arc wired.head bounded
  have later (i : Nat) : (onward.head + i) % ring.capacity = (side.head + (i + 1)) % ring.capacity := by
    rw [head, Ring.succ_mod_add]
  exact
    { wired :=
        { wired.of_changes changes with
          base := by rw [base]; exact (wired.of_changes changes).base
          length := by rw [length, wired.length]
          enabled := by rw [enabled, wired.enabled]
          head := inside }
      pending := by rw [pending, carries.pending, List.length_cons, Nat.add_sub_cancel]
      bounded := by omega
      tail := by rw [later, carries.tail, List.length_cons]
      word := by rw [tail, carries.word]
      asked := by
        intro i flight listed
        have asks := carries.asked (i + 1) flight (by rwa [List.getElem?_cons_succ])
        rw [later]
        apply asks.of_changes changes
        rw [cells, if_neg]
        rw [← later]
        exact ne_of_mem_of_not_mem (Ring.mem_arc_of_lt inside (List.getElem?_eq_some_iff.mp listed).1) gone
      rest := by
        intro slot valid free
        rw [cells]
        split
        case isTrue => exact done
        case isFalse other =>
          rw [head] at free
          exact carries.rest slot valid (Ring.not_mem_arc_cons_iff.mpr ⟨other, free⟩) }

end TransmitRing

end PacketPath
