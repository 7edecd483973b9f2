import PacketPath.Proofs.Host.Sides
import PacketPath.Proofs.Ring.Polling

/-! The receive queue: the frames that the device has put into the ring and that have not been handed
back yet, in the order of their slots. Each of them stands whole in the pool page of its slot, and the
slot before the cursor is never the device's. -/

set_option autoImplicit false

namespace PacketPath

/-- A frame that came in, with the errors found in it. -/
structure Arrival where
  frame : List UInt8
  errors : ReceiveErrors
  deriving DecidableEq, Repr

def Arrival.spoiled (arrival : Arrival) : Bool :=
  arrival.errors.spoilFrame

namespace ReceiveRing

variable {ring : ReceiveRing} {memory after : Memory} {side : Emulator.ReceiveSide} {queue : List Arrival}
  {arrival : Arrival} {slot : Nat} {page : PageId} {scope : PageId → Prop}

structure Wired (ring : ReceiveRing) (memory : Memory) (side : Emulator.ReceiveSide) : Prop where
  fits : ring.table.Fits memory
  knows : memory.Knows ring.table.page
  several : 1 < ring.capacity
  small : ring.capacity < 2 ^ 16
  base : side.base = (memory.page ring.table.page).base
  length : side.length = ring.capacity
  enabled : side.enabled = true
  cursor : ring.cursor < ring.capacity
  buffers : ring.buffers.size = ring.capacity
  apart : ring.pages.Nodup
  pool : ∀ page ∈ ring.buffers.toList, memory.Knows page

def filledCell (base : UInt64) (arrival : Arrival) : ReceiveDescriptor :=
  { ReceiveDescriptor.empty base with
    length := UInt16.ofNat arrival.frame.length
    errors := arrival.errors
    status := .complete }

structure Filled (ring : ReceiveRing) (memory : Memory) (slot : Nat) (arrival : Arrival) : Prop where
  cell : ∃ page, ring.buffers[slot]? = some page ∧
    ring.table.receiveCell memory slot = filledCell (memory.page page).base arrival ∧
    memory.slice page 0 arrival.frame.length = arrival.frame
  short : arrival.frame.length ≤ Limits.receiveBuffer

def Vacant (ring : ReceiveRing) (memory : Memory) (slot : Nat) : Prop :=
  ∃ page, ring.buffers[slot]? = some page ∧
    ring.table.receiveCell memory slot = .empty (memory.page page).base

/-- The queue stands in the slots from the cursor up to the device's head, every other slot waits,
and the device may fill all of them but the one before the cursor. -/
structure Holds (ring : ReceiveRing) (memory : Memory) (side : Emulator.ReceiveSide) (queue : List Arrival) :
    Prop where
  wired : ring.Wired memory side
  bounded : queue.length < ring.capacity
  head : side.head = (ring.cursor + queue.length) % ring.capacity
  tail : side.tail = UInt32.ofNat ((ring.cursor + ring.capacity - 1) % ring.capacity)
  filled : ∀ i arrival, queue[i]? = some arrival → ring.Filled memory ((ring.cursor + i) % ring.capacity) arrival
  vacant : ∀ slot < ring.capacity, slot ∉ Ring.arc ring.capacity ring.cursor queue.length → ring.Vacant memory slot

theorem mem_pages (owned : ring.buffers[slot]? = some page) : page ∈ ring.pages :=
  List.mem_cons_of_mem _ (mem_buffers owned)

theorem Wired.exists_buffer (wired : ring.Wired memory side) (inside : slot < ring.capacity) :
    ∃ page, ring.buffers[slot]? = some page := by
  rw [← wired.buffers] at inside
  exact ⟨_, Array.getElem?_eq_getElem inside⟩

theorem Wired.ne_table (wired : ring.Wired memory side) (owned : ring.buffers[slot]? = some page) :
    page ≠ ring.table.page := by
  rintro rfl
  exact (List.nodup_cons.mp wired.apart).1 (mem_buffers owned)

theorem Wired.slot_inj (wired : ring.Wired memory side) {other : Nat}
    (owned : ring.buffers[slot]? = some page) (shared : ring.buffers[other]? = some page) : slot = other := by
  have pool := (List.nodup_cons.mp wired.apart).2
  rw [← Array.getElem?_toList] at owned shared
  have inside := (List.getElem?_eq_some_iff.mp owned).1
  exact (List.getElem?_inj inside pool).mp (owned.trans shared.symm)

/-! ### Changes elsewhere -/

theorem Wired.of_changes (wired : ring.Wired memory side) (changes : memory.ChangesWithin scope after) :
    ring.Wired after side :=
  { wired with
    fits := wired.fits.of_changes changes wired.knows
    knows := changes.knows _ wired.knows
    base := by rw [changes.base _ wired.knows, wired.base]
    pool := fun page listed => changes.knows _ (wired.pool page listed) }

theorem Filled.of_changes (filled : ring.Filled memory slot arrival) (wired : ring.Wired memory side)
    (changes : memory.ChangesWithin scope after)
    (same : ring.table.receiveCell after slot = ring.table.receiveCell memory slot)
    (outside : ∀ page, ring.buffers[slot]? = some page →
      after.slice page 0 arrival.frame.length = memory.slice page 0 arrival.frame.length) :
    ring.Filled after slot arrival where
  cell := by
    obtain ⟨page, owned, cell, bytes⟩ := filled.cell
    have known := wired.pool page (mem_buffers owned)
    exact ⟨page, owned, by rw [same, cell, changes.base _ known], by rw [outside page owned, bytes]⟩
  short := filled.short

theorem Vacant.of_changes (vacant : ring.Vacant memory slot) (wired : ring.Wired memory side)
    (changes : memory.ChangesWithin scope after)
    (same : ring.table.receiveCell after slot = ring.table.receiveCell memory slot) : ring.Vacant after slot := by
  obtain ⟨page, owned, cell⟩ := vacant
  have known := wired.pool page (mem_buffers owned)
  exact ⟨page, owned, by rw [same, cell, changes.base _ known]⟩

/-- The queue outlives every change that leaves the ring's pages alone. -/
theorem Holds.of_changes (holds : ring.Holds memory side queue) (changes : memory.ChangesWithin scope after)
    (outside : ∀ page ∈ ring.pages, ¬ scope page) : ring.Holds after side queue := by
  have cells : ring.table.receiveCell after = ring.table.receiveCell memory := by
    funext slot
    unfold DescriptorTable.receiveCell
    rw [DescriptorTable.cell_of_changes changes holds.wired.knows (outside _ (List.mem_cons_self ..))]
  exact
    { holds with
      wired := holds.wired.of_changes changes
      filled := fun i arrival listed =>
        (holds.filled i arrival listed).of_changes holds.wired changes (by rw [cells]) fun page owned =>
          changes.slice (holds.wired.pool page (mem_buffers owned)) (outside page (mem_pages owned)) _ _
      vacant := fun slot inside free =>
        (holds.vacant slot inside free).of_changes holds.wired changes (by rw [cells]) }

/-! ### The slot at the cursor -/

theorem isDone_filledCell (base : UInt64) (arrival : Arrival) :
    (filledCell base arrival).status.isDone = true := by
  change ReceiveStatus.complete.isDone = true
  decide

theorem endsFrame_filledCell (base : UInt64) (arrival : Arrival) :
    (filledCell base arrival).status.endsFrame = true := by
  change ReceiveStatus.complete.endsFrame = true
  decide

theorem isDone_empty (base : UInt64) : (ReceiveDescriptor.empty base).status.isDone = false := by
  change ReceiveStatus.pending.isDone = false
  decide

theorem length_filledCell (base : UInt64) {arrival : Arrival}
    (short : arrival.frame.length ≤ Limits.receiveBuffer) :
    (filledCell base arrival).length.toNat = arrival.frame.length := by
  have fits : arrival.frame.length < UInt16.size := Nat.lt_of_le_of_lt short (by decide)
  exact UInt16.toNat_ofNat_of_lt' fits

theorem isSpoiled_filledCell (base : UInt64) (arrival : Arrival) :
    (filledCell base arrival).isSpoiled = arrival.spoiled := by
  unfold ReceiveDescriptor.isSpoiled
  rw [isDone_filledCell, endsFrame_filledCell]
  rfl

theorem decision_empty (base : UInt64) (slot : Nat) : decision (.empty base) slot = .ok none :=
  if_pos (by simp [isDone_empty])

theorem decision_filledCell (base : UInt64) {arrival : Arrival}
    (short : arrival.frame.length ≤ Limits.receiveBuffer) (slot : Nat) :
    decision (filledCell base arrival) slot = .ok (some (slot, arrival.frame.length)) := by
  simp [decision, isDone_filledCell, endsFrame_filledCell, length_filledCell base short, Nat.not_lt.mpr short]

theorem Holds.front (holds : ring.Holds memory side (arrival :: queue)) :
    ring.Filled memory ring.cursor arrival := by
  have first := holds.filled 0 arrival rfl
  rwa [Nat.add_zero, Nat.mod_eq_of_lt holds.wired.cursor] at first

theorem Holds.vacant_cursor (holds : ring.Holds memory side []) : ring.Vacant memory ring.cursor :=
  holds.vacant _ holds.wired.cursor (by simp [Ring.arc])

/-! ### Handing back -/

theorem Holds.recycled (holds : ring.Holds memory side (arrival :: queue))
    (owned : ring.buffers[ring.cursor]? = some page) (counters : ReceiveCounters) :
    Holds { ring with cursor := (ring.cursor + 1) % ring.capacity, counters := counters }
      (memory.overwrite ring.table.page (DescriptorTable.position ring.cursor)
        (ReceiveDescriptor.empty (memory.page page).base).encode)
      { side with tail := UInt32.ofNat ring.cursor } queue := by
  have wired := holds.wired
  have several := wired.several
  have cursor := wired.cursor
  have bounded := holds.bounded
  rw [List.length_cons] at bounded
  have onward : (ring.cursor + 1) % ring.capacity < ring.capacity := Nat.mod_lt _ (by omega)
  have changes : memory.ChangesWithin (· = ring.table.page)
      (memory.overwrite ring.table.page (DescriptorTable.position ring.cursor)
        (ReceiveDescriptor.empty (memory.page page).base).encode) :=
    Memory.changes_overwrite _ (by rfl) _ _
  have cells := DescriptorTable.receiveCell_overwrite wired.fits cursor
    (ReceiveDescriptor.empty (memory.page page).base)
  have known := wired.pool page (mem_buffers owned)
  -- The slot handed back is behind all that are left.
  have gone : ring.cursor ∉ Ring.arc ring.capacity ((ring.cursor + 1) % ring.capacity) queue.length :=
    Ring.start_not_mem_arc cursor (by omega)
  have kept := wired.of_changes changes
  exact
    { wired := { kept with cursor := onward }
      bounded := Nat.lt_of_succ_lt bounded
      head := by
        change side.head = ((ring.cursor + 1) % ring.capacity + queue.length) % ring.capacity
        rw [Ring.succ_mod_add, holds.head, List.length_cons]
      tail := by
        change UInt32.ofNat ring.cursor =
          UInt32.ofNat (((ring.cursor + 1) % ring.capacity + ring.capacity - 1) % ring.capacity)
        rw [Ring.succ_mod_pred cursor]
      filled := by
        intro i arrival listed
        change Filled _ _ (((ring.cursor + 1) % ring.capacity + i) % ring.capacity) arrival
        have filled := holds.filled (i + 1) arrival (by rwa [List.getElem?_cons_succ])
        have later := Ring.mem_arc_of_lt onward (List.getElem?_eq_some_iff.mp listed).1
        rw [Ring.succ_mod_add] at later ⊢
        have other := ne_of_mem_of_not_mem later gone
        have moved := filled.of_changes wired changes ((cells _).trans (if_neg other)) fun page owned =>
          changes.slice (wired.pool page (mem_buffers owned)) (wired.ne_table owned) _ _
        exact ⟨moved.cell, moved.short⟩
      vacant := by
        intro slot inside free
        by_cases here : slot = ring.cursor
        · subst here
          refine ⟨page, owned, ?_⟩
          rw [changes.base _ known]
          exact (cells _).trans (if_pos rfl)
        · have before : slot ∉ Ring.arc ring.capacity ring.cursor (arrival :: queue).length :=
            Ring.not_mem_arc_cons_iff.mpr ⟨here, free⟩
          exact (holds.vacant slot inside before).of_changes wired changes ((cells _).trans (if_neg here)) }

/-! ### Filling -/

def filledMemory (ring : ReceiveRing) (memory : Memory) (slot : Nat) (page : PageId) (arrival : Arrival) : Memory :=
  (memory.overwrite page 0 arrival.frame).overwrite ring.table.page (DescriptorTable.position slot)
    (filledCell (memory.page page).base arrival).encode

theorem changes_filledMemory (ring : ReceiveRing) (memory : Memory) (slot : Nat) (page : PageId)
    (arrival : Arrival) :
    memory.ChangesWithin (fun id => id = ring.table.page ∨ id = page)
      (ring.filledMemory memory slot page arrival) :=
  (Memory.changes_overwrite _ (.inr rfl) _ _).trans (Memory.changes_overwrite _ (.inl rfl) _ _)

theorem receiveCell_filledMemory (wired : ring.Wired memory side) (inside : slot < ring.capacity)
    (owned : ring.buffers[slot]? = some page) (arrival : Arrival) (other : Nat) :
    ring.table.receiveCell (ring.filledMemory memory slot page arrival) other =
      if other = slot then filledCell (memory.page page).base arrival else ring.table.receiveCell memory other := by
  have laid : memory.ChangesWithin (· = page) (memory.overwrite page 0 arrival.frame) :=
    Memory.changes_overwrite _ (by rfl) _ _
  have before : ring.table.receiveCell (memory.overwrite page 0 arrival.frame) other =
      ring.table.receiveCell memory other := by
    unfold DescriptorTable.receiveCell
    rw [DescriptorTable.cell_of_changes laid wired.knows fun same => wired.ne_table owned same.symm]
  unfold filledMemory
  rw [DescriptorTable.receiveCell_overwrite (wired.fits.of_changes laid wired.knows) inside, before]

theorem filled_filledMemory (wired : ring.Wired memory side) (inside : slot < ring.capacity)
    (owned : ring.buffers[slot]? = some page) (size : (memory.page page).size = Limits.pageSize)
    (short : arrival.frame.length ≤ Limits.receiveBuffer) :
    ring.Filled (ring.filledMemory memory slot page arrival) slot arrival := by
  refine ⟨⟨page, owned, ?_, ?_⟩, short⟩
  · rw [(changes_filledMemory ring memory slot page arrival).base _ (wired.pool page (mem_buffers owned)),
      receiveCell_filledMemory wired inside owned, if_pos rfl]
  · have room : 0 + arrival.frame.length ≤ (memory.page page).size := by
      rw [size, Nat.zero_add]
      exact Nat.le_trans short (by decide)
    unfold filledMemory
    rw [Memory.slice, Memory.page_overwrite, if_neg (wired.ne_table owned), Memory.page_overwrite, if_pos rfl]
    exact Page.slice_overwrite room

theorem Filled.stays {other : Nat} {earlier : Arrival} (filled : ring.Filled memory other earlier)
    (wired : ring.Wired memory side) (inside : slot < ring.capacity) (owned : ring.buffers[slot]? = some page)
    (arrival : Arrival) (apart : other ≠ slot) :
    ring.Filled (ring.filledMemory memory slot page arrival) other earlier := by
  have changes := changes_filledMemory ring memory slot page arrival
  have cell := receiveCell_filledMemory wired inside owned arrival other
  refine filled.of_changes wired changes (cell.trans (if_neg apart)) ?_
  intro mine own
  refine changes.slice (wired.pool mine (mem_buffers own)) ?_ _ _
  rintro (same | same)
  · exact wired.ne_table own same
  · rw [same] at own
    exact apart (wired.slot_inj own owned)

/-- The device has reached the slot before the cursor exactly when every slot but that one holds a
frame. -/
theorem Holds.full_iff (holds : ring.Holds memory side queue) :
    side.head = side.tail.toNat % side.length ↔ queue.length = ring.capacity - 1 := by
  have several := holds.wired.several
  have small := holds.wired.small
  have cursor := holds.wired.cursor
  have bounded := holds.bounded
  have inside : (ring.cursor + ring.capacity - 1) % ring.capacity < ring.capacity := Nat.mod_lt _ (by omega)
  have tail : side.tail.toNat = (ring.cursor + ring.capacity - 1) % ring.capacity := by
    rw [holds.tail]
    exact UInt32.toNat_ofNat_of_lt' (Nat.lt_trans (Nat.lt_trans inside small) (by decide))
  rw [tail, holds.wired.length, Nat.mod_mod, holds.head,
    Ring.mod_eq_of_lt_two_laps (show ring.cursor + queue.length < 2 * ring.capacity by omega),
    Ring.mod_eq_of_lt_two_laps (show ring.cursor + ring.capacity - 1 < 2 * ring.capacity by omega)]
  split <;> split <;> omega

/-- A frame that comes in stands behind the others. -/
theorem Holds.arrived (holds : ring.Holds memory side queue) (room : queue.length < ring.capacity - 1)
    (owned : ring.buffers[side.head]? = some page) (size : (memory.page page).size = Limits.pageSize)
    (short : arrival.frame.length ≤ Limits.receiveBuffer) {onward : Emulator.ReceiveSide}
    (moved : onward = { side with head := (side.head + 1) % ring.capacity }) :
    ring.Holds (ring.filledMemory memory side.head page arrival) onward (queue ++ [arrival]) := by
  subst moved
  have wired := holds.wired
  have cursor := wired.cursor
  have several := wired.several
  have inside : side.head < ring.capacity := by
    rw [holds.head]
    exact Nat.mod_lt _ (by omega)
  have free : side.head ∉ Ring.arc ring.capacity ring.cursor queue.length := by
    rw [holds.head]
    exact Ring.end_not_mem_arc cursor holds.bounded
  have changes := changes_filledMemory ring memory side.head page arrival
  have kept := wired.of_changes changes
  exact
    { wired := { kept with }
      bounded := by
        rw [List.length_append, List.length_singleton]
        omega
      head := by
        change (side.head + 1) % ring.capacity = (ring.cursor + (queue ++ [arrival]).length) % ring.capacity
        rw [holds.head, Nat.mod_add_mod, List.length_append, List.length_singleton, Nat.add_assoc]
      tail := holds.tail
      filled := by
        intro i other listed
        rcases getElem?_push listed with earlier | ⟨rfl, rfl⟩
        · have slot : (ring.cursor + i) % ring.capacity ≠ side.head :=
            ne_of_mem_of_not_mem (Ring.mem_arc_of_lt cursor (List.getElem?_eq_some_iff.mp earlier).1) free
          exact (holds.filled i other earlier).stays wired inside owned arrival slot
        · rw [← holds.head]
          exact filled_filledMemory wired inside owned size short
      vacant := by
        intro slot valid outside
        rw [List.length_append, List.length_singleton, Ring.not_mem_arc_succ_iff cursor, ← holds.head] at outside
        obtain ⟨before, other⟩ := outside
        have cell := receiveCell_filledMemory wired inside owned arrival slot
        exact (holds.vacant slot valid before).of_changes wired changes (cell.trans (if_neg other)) }

end ReceiveRing

end PacketPath
