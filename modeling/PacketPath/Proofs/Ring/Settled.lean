import PacketPath.Proofs.Ring.Flights
import Mathlib.Data.Finset.Card

/-! Settling a transmit ring: what it would be if the pages of all finished slots were given back at once. A page
given back early or late settles to the same ring, and to post and settle is to settle and post. -/

set_option autoImplicit false

namespace PacketPath.TransmitRing

variable {ring ring' : TransmitRing} {memory later : Memory} {slot : Nat} {status : TransmitStatus}
  {reads : TransmitStatus → Bool}

theorem eq_of_binding (table : ring'.table = ring.table) (size : ring'.bindings.size = ring.bindings.size)
    (binding : ∀ slot, ring'.binding slot = ring.binding slot) (tail : ring'.tail = ring.tail)
    (counters : ring'.counters = ring.counters) : ring' = ring := by
  have bindings : ring'.bindings = ring.bindings := by
    refine Array.ext size fun slot inside inside' => ?_
    have same := binding slot
    unfold TransmitRing.binding at same
    rwa [Array.getElem?_eq_getElem inside, Array.getElem?_eq_getElem inside'] at same
  cases ring
  cases ring'
  simp_all

theorem binding_eq_none_of_le (outside : ring.bindings.size ≤ slot) : ring.binding slot = none := by
  unfold binding
  rw [Array.getElem?_eq_none outside]
  rfl

def due (ring : TransmitRing) (memory : Memory) (reads : TransmitStatus → Bool) : Finset Nat :=
  {slot ∈ Finset.range ring.capacity | (ring.binding slot).isSome = true ∧
    (ring.table.transmitCell memory slot).status.isDone = true ∧
    reads (ring.table.transmitCell memory slot).status = true}

/-- Every page of a finished slot is given back, and what was reported about the slot is counted. -/
def settled (ring : TransmitRing) (memory : Memory) : TransmitRing :=
  { ring with
    bindings := ring.bindings.mapIdx fun slot page =>
      if (ring.table.transmitCell memory slot).status.isDone then none else page
    counters := { ring.counters with
      released := ring.counters.released + (ring.due memory fun _ => true).card
      collisions := ring.counters.collisions + (ring.due memory TransmitStatus.hasCollision).card
      underruns := ring.counters.underruns + (ring.due memory TransmitStatus.hasUnderrun).card } }

theorem counters_settled (ring : TransmitRing) (memory : Memory) : (ring.settled memory).counters =
    { ring.counters with
      released := ring.counters.released + (ring.due memory fun _ => true).card
      collisions := ring.counters.collisions + (ring.due memory TransmitStatus.hasCollision).card
      underruns := ring.counters.underruns + (ring.due memory TransmitStatus.hasUnderrun).card } :=
  rfl

theorem binding_settled (ring : TransmitRing) (memory : Memory) (slot : Nat) :
    (ring.settled memory).binding slot =
      if (ring.table.transmitCell memory slot).status.isDone then none else ring.binding slot := by
  unfold settled binding
  dsimp only
  rw [Array.getElem?_mapIdx]
  split <;> cases ring.bindings[slot]? <;> rfl

theorem settled_congr (same : ring.table.transmitCell later = ring.table.transmitCell memory) :
    ring.settled later = ring.settled memory := by
  unfold settled due
  rw [same]

theorem settled_eq_self (clear : ∀ slot < ring.capacity,
    (ring.table.transmitCell memory slot).status.isDone = true → ring.binding slot = none)
    (size : ring.bindings.size = ring.capacity) : ring.settled memory = ring := by
  have nothing (reads : TransmitStatus → Bool) : ring.due memory reads = ∅ := by
    unfold due
    refine Finset.filter_false_of_mem fun slot inside ⟨held, done, _⟩ => ?_
    rw [clear slot (Finset.mem_range.mp inside) done] at held
    cases held
  refine eq_of_binding rfl (by simp [settled]) (fun slot => ?_) rfl ?_
  · rw [binding_settled]
    split
    case isTrue done =>
      by_cases inside : slot < ring.capacity
      · rw [clear slot inside done]
      · rw [binding_eq_none_of_le (by omega)]
    case isFalse => rfl
  · simp only [counters_settled, nothing, Finset.card_empty, Nat.add_zero]

/-! ### Giving a page back -/

theorem due_freed (ring : TransmitRing) (memory : Memory) (slot : Nat) (status : TransmitStatus)
    (reads : TransmitStatus → Bool) :
    (ring.freed slot status).due memory reads = (ring.due memory reads).erase slot := by
  ext other
  have capacity : (ring.freed slot status).capacity = ring.capacity :=
    congrArg DescriptorTable.length (table_freed ..)
  unfold due
  rw [capacity, table_freed, Finset.mem_erase, Finset.mem_filter, Finset.mem_filter, binding_freed]
  by_cases same : other = slot <;> simp [same]

theorem card_due_freed (held : (ring.binding slot).isSome = true) (inside : slot < ring.capacity)
    (done : (ring.table.transmitCell memory slot).status.isDone = true) (status : TransmitStatus)
    (reads : TransmitStatus → Bool) : ((ring.freed slot status).due memory reads).card +
      (if reads (ring.table.transmitCell memory slot).status then 1 else 0) = (ring.due memory reads).card := by
  have listed : slot ∈ ring.due memory reads ↔ reads (ring.table.transmitCell memory slot).status = true := by
    simp [due, inside, held, done]
  rw [due_freed]
  split
  case isTrue read => exact Finset.card_erase_add_one (listed.mpr read)
  case isFalse unread => rw [Finset.erase_eq_of_notMem (listed.not.mpr unread), Nat.add_zero]

theorem settled_freed (inside : slot < ring.capacity)
    (done : (ring.table.transmitCell memory slot).status.isDone = true) :
    (ring.freed slot (ring.table.transmitCell memory slot).status).settled memory = ring.settled memory := by
  refine eq_of_binding (table_freed ..) (by simp [settled]) (fun other => ?_) (tail_freed ..) ?_
  · rw [binding_settled, binding_settled, table_freed, binding_freed]
    by_cases same : other = slot
    · rw [same, if_pos done, if_pos done]
    · rw [if_neg same]
  · cases held : ring.binding slot with
    | none => rw [freed, held]
    | some page =>
      -- The slot is counted as it is freed, and no more among those that are due.
      have kept : (ring.binding slot).isSome = true := by rw [held]; rfl
      have card := card_due_freed kept inside done (ring.table.transmitCell memory slot).status
      have counters : (ring.freed slot (ring.table.transmitCell memory slot).status).counters =
          tally (ring.table.transmitCell memory slot).status ring.counters := by rw [freed, held]
      rw [counters_settled, counters_settled, counters, ← card fun _ => true, ← card TransmitStatus.hasCollision,
        ← card TransmitStatus.hasUnderrun]
      unfold tally
      simp only [TransmitCounters.mk.injEq]
      grind

/-! ### Posting and finishing -/

theorem due_posted (seated : ring.Seated memory) (fragment : Fragment) (status : TransmitStatus) (address : UInt64)
    (endsFrame : Bool) (reads : TransmitStatus → Bool) :
    (ring.posted status fragment endsFrame).due (ring.postedMemory memory fragment address endsFrame) reads =
      (ring.freed ring.tail status).due memory reads := by
  have cells := transmitCell_postedMemory seated fragment address endsFrame
  have table : (ring.posted status fragment endsFrame).table = ring.table := rfl
  have capacity : (ring.posted status fragment endsFrame).capacity = ring.capacity := rfl
  ext slot
  rw [due_freed]
  unfold due
  rw [Finset.mem_erase, Finset.mem_filter, Finset.mem_filter, binding_posted seated.tail_bound, table, capacity, cells]
  by_cases here : slot = ring.tail <;> simp [here]

/-- To post and settle is to settle and post. -/
theorem settled_posted (seated : ring.Seated memory) (fragment : Fragment)
    (done : (ring.table.transmitCell memory ring.tail).status.isDone = true) (address : UInt64) (endsFrame : Bool) :
    (ring.posted (ring.table.transmitCell memory ring.tail).status fragment endsFrame).settled
        (ring.postedMemory memory fragment address endsFrame) =
      (ring.settled memory).posted (ring.table.transmitCell memory ring.tail).status fragment endsFrame := by
  have cells := transmitCell_postedMemory seated fragment address endsFrame
  have inside' : (ring.settled memory).tail < (ring.settled memory).bindings.size := by
    simpa [settled] using seated.tail_bound
  refine eq_of_binding rfl (by simp [settled, posted, bound]) (fun slot => ?_) rfl ?_
  · rw [binding_posted inside', binding_settled, binding_settled, binding_posted seated.tail_bound]
    change (if (ring.table.transmitCell _ slot).status.isDone then none else _) = if slot = ring.tail then _ else _
    rw [cells]
    by_cases here : slot = ring.tail
    · simp [here]
    · simp only [if_neg here]
  · -- The page of the tail goes back as the slot is posted; a settled ring has given it back already.
    have freed := congrArg counters (settled_freed seated.tail done)
    have idle : (ring.settled memory).freed ring.tail (ring.table.transmitCell memory ring.tail).status =
        ring.settled memory := by
      unfold TransmitRing.freed
      rw [binding_settled, if_pos done]
    have due := due_posted seated fragment (ring.table.transmitCell memory ring.tail).status address endsFrame
    have posted : ((ring.posted (ring.table.transmitCell memory ring.tail).status fragment endsFrame).settled
        (ring.postedMemory memory fragment address endsFrame)).counters = tallyPost endsFrame
          ((ring.freed ring.tail (ring.table.transmitCell memory ring.tail).status).settled memory).counters := by
      simp only [counters_settled, due]
      rfl
    rw [posted, freed]
    change _ = tallyPost endsFrame ((ring.settled memory).freed ring.tail _).counters
    rw [idle]

theorem card_due_settled (persists : ring.Persists memory later) (reads : TransmitStatus → Bool) :
    (ring.due memory reads).card + ((ring.settled memory).due later reads).card = (ring.due later reads).card := by
  -- No slot is due twice: settling takes its page away.
  rw [← Finset.card_union_of_disjoint]
  · congr 1
    ext slot
    unfold due
    simp only [Finset.mem_union, Finset.mem_filter, Finset.mem_range, binding_settled]
    change _ ∨ slot < ring.capacity ∧ _ ∧ (ring.table.transmitCell later slot).status.isDone = true ∧
      reads (ring.table.transmitCell later slot).status = true ↔ _
    have same := persists slot
    by_cases done : (ring.table.transmitCell memory slot).status.isDone = true
    · grind
    · grind
  · rw [Finset.disjoint_left]
    intro slot first second
    unfold due at first second
    simp only [Finset.mem_filter, binding_settled] at first second
    rw [if_pos first.2.2.1] at second
    exact absurd second.2.1 (by decide)

theorem settled_settled (persists : ring.Persists memory later) (size : ring.bindings.size = ring.capacity) :
    (ring.settled memory).settled later = ring.settled later := by
  refine eq_of_binding rfl (by simp [settled]) (fun slot => ?_) rfl ?_
  · rw [binding_settled, binding_settled, binding_settled]
    change (if (ring.table.transmitCell later slot).status.isDone then _ else _) = _
    by_cases inside : slot < ring.capacity
    · have same := persists slot inside
      grind
    · rw [binding_eq_none_of_le (by omega)]
      simp
  · have card := card_due_settled persists
    rw [counters_settled _ later, counters_settled _ later, counters_settled, ← card, ← card, ← card]
    simp only [Nat.add_assoc]

end PacketPath.TransmitRing
