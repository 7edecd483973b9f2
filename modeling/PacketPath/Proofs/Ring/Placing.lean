import PacketPath.Proofs.Ring.Paths

/-! Placing a received frame in a page of the caller. A frame that reaches past the end of the page is refused and stays
where it is. An empty one reaches past the end too if it is to be placed there, but nothing refuses it, and the copy
breaks its precondition instead. -/

set_option autoImplicit false

namespace PacketPath.ReceiveRing

variable {δ α : Type} {ring : ReceiveRing} {machine : Machine δ} {middle : ReceiveRing × Machine δ}
  {page target : PageId} {slot length offset : Nat} {tell : δ → UInt32 → δ} [RegisterBus δ] {reached : δ → Prop}

/-- A frame that is not delivered stays where it was found. -/
theorem take_of_undelivered {deliver : PageId → Nat → Step ReceiveError (Machine δ) α} {stop : Stop ReceiveError}
    (owned : middle.1.buffers[middle.1.cursor]? = some page)
    (sought : seek (max 1 ring.capacity) (ring, machine) = .ok (some (middle.1.cursor, length)) middle)
    (stops : deliver page length middle.2 = .error stop middle.2) :
    take deliver (ring, machine) = .error stop middle := by
  apply Step.Ends.eq_error
  unfold take
  rw [Step.ends_bind, Step.ends_get, Step.ends_bind, Step.ends_of_ok sought]
  dsimp only
  rw [Step.ends_bind, Step.ends_get, Step.ends_bind, ends_buffer owned, Step.ends_bind, Step.ends_second,
    Step.ends_of_error stops]
  exact ⟨rfl, rfl⟩

theorem receiveIntoPage_of_tight (owned : middle.1.buffers[middle.1.cursor]? = some page)
    (sought : seek (max 1 ring.capacity) (ring, machine) = .ok (some (middle.1.cursor, length)) middle)
    (tight : (middle.2.memory.page target).size - offset < length) :
    receiveIntoPage target offset (ring, machine) =
      .error (.refused (.bufferTooSmall length ((middle.2.memory.page target).size - offset))) middle := by
  refine take_of_undelivered owned sought ?_
  apply Step.Ends.eq_error
  rw [Step.ends_bind, Machine.ends_sizeOf, if_pos tight, Step.ends_bind, Step.ends_refuse]
  exact ⟨rfl, rfl⟩

/-- Behind the end of a page there is as much room as an empty frame needs, but no place to copy it to. -/
theorem receiveIntoPage_of_beyond (owned : middle.1.buffers[middle.1.cursor]? = some page)
    (sought : seek (max 1 ring.capacity) (ring, machine) = .ok (some (middle.1.cursor, 0)) middle)
    (beyond : (middle.2.memory.page target).size < offset) :
    receiveIntoPage target offset (ring, machine) =
      .error (.violated ((middle.2.memory.page target).outside offset 0)) middle := by
  refine take_of_undelivered owned sought ?_
  apply Step.Ends.eq_error
  unfold Machine.copy
  rw [Step.ends_bind, Machine.ends_sizeOf, if_neg (Nat.not_lt_zero _), Step.ends_bind, Step.ends_bind,
    Machine.ends_access_of_outside beyond]
  exact ⟨rfl, rfl⟩

omit [RegisterBus δ] in
theorem cell_of_found {found : Nat × Nat} (seated : ring.Seated machine.memory)
    (skips : Skips tell ring.capacity (ring, machine) middle)
    (decided : ring.verdict machine.memory ring.capacity = .ok (some found)) :
    ring.table.cell middle.2.memory middle.1.cursor = ring.table.cell machine.memory middle.1.cursor := by
  have bounded : ring.spoiledCount machine.memory ring.cursor ring.capacity ≤ ring.capacity := Ring.leading_le ..
  have fewer : ring.spoiledCount machine.memory ring.cursor ring.capacity ≠ ring.capacity := fun all => by
    rw [verdict, if_pos all] at decided
    cases decided
  refine skips.hands.kept _ ?_
  rw [skips.hands.cursor, Ring.length_arc]
  exact Ring.end_not_mem_arc seated.cursor (Nat.lt_of_le_of_ne bounded fewer)

/-- What becomes of the next good frame when it is to be placed in a page of somebody else. The spoiled frames before it
go back to the device whatever happens, and a frame that is not placed waits in its slot. -/
theorem receiveIntoPage_decided (port : Register.receiveTail.Port reached tell) (near : reached machine.device)
    (seated : ring.Seated machine.memory) (foreign : target ∉ ring.pages) (offset : Nat)
    (found : ring.verdict machine.memory ring.capacity = .ok (some (slot, length))) :
    let before := machine.memory.page target
    ∃ page middle, ring.buffers[slot]? = some page ∧ Skips tell ring.capacity (ring, machine) middle ∧
      middle.1.cursor = slot ∧ ring.table.cell middle.2.memory slot = ring.table.cell machine.memory slot ∧
      middle.2.memory.page target = before ∧
      (page ≠ ring.table.page → middle.2.memory.page page = machine.memory.page page) ∧
      (before.size < offset + length ∧ 0 < length → receiveIntoPage target offset (ring, machine) =
        .error (.refused (.bufferTooSmall length (before.size - offset))) middle) ∧
      (before.size < offset ∧ length = 0 → receiveIntoPage target offset (ring, machine) =
        .error (.violated (.pageAccess offset 0 before.size before.base)) middle) ∧
      (offset + length ≤ before.size → ∃ after,
        receiveIntoPage target offset (ring, machine) = .ok (some length) after ∧
        after.2.memory.slice target offset length = middle.2.memory.slice page 0 length ∧
        (∀ place, place < offset ∨ offset + length ≤ place →
          (after.2.memory.page target).byte place = before.byte place) ∧
        ∃ returned, HandsBack tell [slot] middle returned ∧
          after = withFrame target offset (middle.2.memory.slice page 0 length) returned) := by
  intro before
  obtain ⟨middle, sought, skips⟩ := seek_of_verdict_ok port near seated found
  -- Seeking is the same for all three ways to take a frame; from here on only the target decides.
  obtain ⟨rfl, short, -⟩ := seek_some port near seated sought
  have later := skips.hands.seated seated
  have reach : reached middle.2.device := skips.hands.device ▸ port.tellSlots_stays near _
  obtain ⟨page, owned⟩ := later.exists_buffer later.cursor
  have pool : ring.buffers[middle.1.cursor]? = some page := (skips.hands.buffer _).symm.trans owned
  have same : middle.2.memory.page target = before :=
    skips.hands.pages target fun same => foreign (same ▸ List.mem_cons_self ..)
  refine ⟨page, middle, pool, skips, rfl, ?_, same, skips.hands.pages page, fun tight => ?_, fun beyond => ?_,
    fun room => ?_⟩
  · exact cell_of_found seated skips found
  · have less : (middle.2.memory.page target).size - offset < length := by
      rw [same]
      omega
    rw [receiveIntoPage_of_tight owned sought less, same]
  · obtain ⟨beyond, rfl⟩ := beyond
    rw [receiveIntoPage_of_beyond owned sought (same ▸ beyond), same]
    rfl
  · have placed :=
      receiveIntoPage_of_some port reach later owned sought short (skips.hands.holdings ▸ foreign) (same ▸ room)
    generalize taken : middle.2.memory.slice page 0 length = frame at placed ⊢
    obtain rfl : length = frame.length := by
      rw [← taken, Memory.slice, Page.length_slice (later.covers owned short)]
    have settled := page_withFrame offset frame.length frame skips later owned foreign
    refine ⟨_, placed, ?_, fun place outside => ?_, _, hands_afterDelivery tell frame.length later owned, rfl⟩
    · rw [Memory.slice, settled, Page.slice_overwrite room]
    · rw [settled, Page.byte_overwrite_apart outside]

def hollowMachine : Machine Recorder where
  memory :=
    { pages :=
        #[⟨0x1000, ({ address := 0x2000, length := 0, status := .complete } : ReceiveDescriptor).encode.toArray, 1⟩,
          ⟨0x2000, Array.replicate 2048 0, 1⟩, ⟨0x3000, #[1, 2, 3, 4], 1⟩] }
  device := .empty

def hollowRing : ReceiveRing :=
  ⟨⟨⟨0⟩, 1⟩, #[⟨1⟩], 0, {}⟩

theorem hollowRing_seated : hollowRing.Seated hollowMachine.memory where
  fits := by unfold DescriptorTable.Fits; decide
  cursor := by decide
  buffers := by decide
  roomy := by simp [hollowRing, hollowMachine, Memory.page, Page.size, Limits.receiveBuffer]

theorem receiveIntoPage_decided_past_end :
    ∃ after, receiveIntoPage ⟨2⟩ 5 (hollowRing, hollowMachine) =
      .error (.violated (.pageAccess 5 0 4 0x3000)) after ∧
      after.2.memory.page ⟨2⟩ = hollowMachine.memory.page ⟨2⟩ := by
  have empty : hollowRing.verdict hollowMachine.memory hollowRing.capacity = .ok (some (0, 0)) := by decide
  have foreign : ⟨2⟩ ∉ hollowRing.pages := by decide
  obtain ⟨page, middle, -, -, -, -, same, -, -, violated, -⟩ :=
    receiveIntoPage_decided (Recorder.port .receiveTail) trivial hollowRing_seated foreign 5 empty
  exact ⟨middle, violated ⟨by decide, rfl⟩, same⟩

end PacketPath.ReceiveRing
