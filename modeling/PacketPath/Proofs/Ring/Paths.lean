import PacketPath.Proofs.Refusals
import PacketPath.Proofs.Ring.Polling

/-! The three ways to take a frame out of a receive ring: as bytes, into a destination of the caller, and into a page.
They look for the frame alike and hand its slot back alike, so that one tells what the others come to. -/

set_option autoImplicit false

namespace PacketPath.ReceiveRing

variable {δ : Type} {ring : ReceiveRing} {machine : Machine δ} {middle : ReceiveRing × Machine δ} {page : PageId}
  {slot length : Nat} {tell : δ → UInt32 → δ} [RegisterBus δ] {reached : δ → Prop}

/-! ### What is found -/

/-- No frame that is found is longer than a receive buffer, and nothing is refused for want of room. -/
theorem seek_short (limit : Nat) (state : ReceiveRing × Machine δ) :
    (seek limit).Ends state
      (fun found _ => ∀ slot length, found = some (slot, length) → length ≤ Limits.receiveBuffer)
      (fun stop _ => ∀ error, stop = .refused error → ∀ needed provided, error ≠ .bufferTooSmall needed provided) := by
  -- Nothing is assumed of the table here: a slot that cannot be read stops the search, but refuses nothing.
  induction limit generalizing state with
  | zero =>
    rintro _ _ ⟨⟩
  | succ limit ih =>
    unfold seek isReady
    rw [Step.ends_bind, Step.ends_get, Step.ends_bind, Step.ends_second, Step.ends_bind]
    refine (DescriptorTable.receiveStatus_refuses _ _ _).mono (fun status _ _ => ?_) (fun _ _ => id)
    rw [Step.ends_pure, Step.ends_ite]
    refine ⟨fun _ => ?_, fun _ => ?_⟩
    · rintro _ _ ⟨⟩
    rw [Step.ends_bind, Step.ends_second]
    refine (DescriptorTable.readReceive_refuses _ _ _).mono (fun descriptor _ _ => ?_) (fun _ _ => id)
    rw [Step.ends_ite]
    refine ⟨fun _ => ?_, fun _ => ?_⟩
    · rintro _ ⟨⟩ _ _ ⟨⟩
    rw [Step.ends_ite]
    refine ⟨fun _ => ?_, fun _ => ?_⟩
    · unfold count
      rw [Step.ends_bind, Step.ends_first, Step.ends_modify, Step.ends_bind, Step.ends_second, Machine.ends_note,
        Step.ends_bind]
      exact (recycle_refuses _ _).mono (fun _ after _ => ih after) (fun _ _ => id)
    rw [Step.ends_ite]
    refine ⟨fun _ => ?_, fun short => ?_⟩
    · rintro _ ⟨⟩ _ _ ⟨⟩
    · rintro _ _ ⟨⟩
      exact Nat.le_of_not_lt short

theorem receive_has_room (needed provided : Nat) (state after : ReceiveRing × Machine δ) :
    receive state ≠ .error (.refused (.bufferTooSmall needed provided)) after := by
  have ends : receive.Ends state (fun _ _ => True)
      (fun stop _ => ∀ error, stop = .refused error → ∀ needed provided, error ≠ .bufferTooSmall needed provided) := by
    unfold receive take
    rw [Step.ends_bind, Step.ends_get, Step.ends_bind]
    refine (seek_short _ _).mono (fun found middle short => ?_) (fun _ _ => id)
    rcases found with _ | ⟨slot, length⟩
    · trivial
    have fits := short slot length rfl
    dsimp only
    simp only [if_neg (Nat.not_lt.mpr fits)]
    exact Step.RefusesOnly.bind .get (fun state => .bind (.inspect _) fun page =>
      .bind (.second (Machine.readBytes_refuses page 0 length)) fun value =>
      .bind (recycle_refuses slot) fun _ => .bind (.first (.modify _)) fun _ =>
      .bind (.second (Machine.note_refuses _ _)) fun _ => .pure (some value)) middle
  intro refused
  exact (Step.ends_of_error refused).mp ends _ rfl needed provided rfl

theorem seek_of_empty (machine : Machine δ) (empty : ring.capacity = 0) :
    ∃ stop, seek (max 1 ring.capacity) (ring, machine) = .error stop (ring, machine) := by
  have nowhere : ¬ ring.cursor < ring.table.length := fun inside => by
    change ring.table.length = 0 at empty
    omega
  refine ⟨.violated (.descriptorIndex ring.cursor ring.table.length), ?_⟩
  apply Step.Ends.eq_error
  rw [empty, show max 1 0 = 0 + 1 from rfl]
  unfold seek isReady DescriptorTable.receiveStatus DescriptorTable.readByte DescriptorTable.check
  simp only [Step.ends_bind, Step.ends_get, Step.ends_second, if_neg nowhere, Step.ends_violate, and_self]

theorem seek_some (port : Register.receiveTail.Port reached tell) (near : reached machine.device)
    (seated : ring.Seated machine.memory)
    (sought : seek (max 1 ring.capacity) (ring, machine) = .ok (some (slot, length)) middle) :
    slot = middle.1.cursor ∧ length ≤ Limits.receiveBuffer ∧ Skips tell ring.capacity (ring, machine) middle := by
  have short := (Step.ends_of_ok sought).mp (seek_short ..) slot length rfl
  rw [Nat.max_eq_right (Nat.one_le_iff_ne_zero.mpr (Nat.ne_zero_of_lt seated.cursor))] at sought
  obtain ⟨decided, skips⟩ := (Step.ends_of_ok sought).mp (seek_ends port near seated (Nat.le_refl _))
  refine ⟨?_, short, skips⟩
  rw [skips.hands.cursor, Ring.length_arc]
  unfold verdict decision at decided
  dsimp only at decided
  split at decided
  case isTrue => cases decided
  split at decided
  case isTrue => cases decided
  split at decided
  case isTrue => cases decided
  split at decided
  case isTrue => cases decided
  rw [Except.ok.injEq, Option.some.injEq, Prod.mk.injEq] at decided
  exact decided.1.symm

/-! ### The three ways -/

variable {target : PageId} {offset : Nat} {frame destination : List UInt8}

def withFrame (target : PageId) (offset : Nat) (frame : List UInt8) (state : ReceiveRing × Machine δ) :
    ReceiveRing × Machine δ :=
  (state.1, { state.2 with memory := state.2.memory.overwrite target offset frame })

omit [RegisterBus δ] in
/-- It does not matter whether the slot goes back before or after the frame is put into a page. -/
theorem afterDelivery_withFrame (foreign : target ≠ middle.1.table.page) :
    afterDelivery tell slot length page (withFrame target offset frame middle) =
      withFrame target offset frame (afterDelivery tell slot length page middle) := by
  dsimp only [afterDelivery, afterRecycle, withFrame]
  rw [Memory.base_page_overwrite, Memory.overwrite_comm foreign]

theorem receiveInto_of_some (port : Register.receiveTail.Port reached tell) (near : reached middle.2.device)
    (seated : middle.1.Seated middle.2.memory) (owned : middle.1.buffers[middle.1.cursor]? = some page)
    (sought : seek (max 1 ring.capacity) (ring, machine) = .ok (some (middle.1.cursor, length)) middle)
    (short : length ≤ Limits.receiveBuffer) (long : Limits.receiveBuffer ≤ destination.length) :
    receiveInto destination (ring, machine) =
      .ok (some (length, middle.2.memory.slice page 0 length ++ destination.drop length))
        (afterDelivery tell middle.1.cursor length page middle) := by
  refine take_of_some port seated owned sought ?_ near seated.fits
  apply Step.Ends.eq_ok
  rw [if_neg (by omega), Step.ends_bind, Machine.ends_readBytes (seated.covers owned short), Step.ends_pure]
  exact ⟨rfl, rfl⟩

theorem receiveIntoPage_of_some (port : Register.receiveTail.Port reached tell) (near : reached middle.2.device)
    (seated : middle.1.Seated middle.2.memory) (owned : middle.1.buffers[middle.1.cursor]? = some page)
    (sought : seek (max 1 ring.capacity) (ring, machine) = .ok (some (middle.1.cursor, length)) middle)
    (short : length ≤ Limits.receiveBuffer) (foreign : target ∉ middle.1.pages)
    (room : offset + length ≤ (middle.2.memory.page target).size) :
    receiveIntoPage target offset (ring, machine) =
      .ok (some length) (withFrame target offset (middle.2.memory.slice page 0 length)
        (afterDelivery tell middle.1.cursor length page middle)) := by
  have table : target ≠ middle.1.table.page := fun same => foreign (same ▸ List.mem_cons_self ..)
  have apart : page ≠ target := ne_of_mem_of_not_mem (List.mem_cons_of_mem _ (mem_buffers owned)) foreign
  rw [← afterDelivery_withFrame table]
  refine take_of_some port seated owned sought ?_ near (seated.fits.of_size (Memory.size_page_overwrite ..))
  apply Step.Ends.eq_ok
  rw [Step.ends_bind, Machine.ends_sizeOf, Step.ends_ite]
  refine ⟨fun tight => by omega, fun _ => ?_⟩
  rw [Step.ends_bind, Machine.ends_copy apart room (seated.covers owned short), Step.ends_pure]
  exact ⟨rfl, rfl⟩

omit [RegisterBus δ] in
theorem page_withFrame (offset length : Nat) (frame : List UInt8)
    (skips : Skips tell ring.capacity (ring, machine) middle) (seated : middle.1.Seated middle.2.memory)
    (owned : middle.1.buffers[middle.1.cursor]? = some page) (foreign : target ∉ ring.pages) :
    (withFrame target offset frame (afterDelivery tell middle.1.cursor length page middle)).2.memory.page target =
      (machine.memory.page target).overwrite offset frame := by
  have untouched := (skips.hands.trans (hands_afterDelivery tell length seated owned)).pages target
    (fun same => foreign (same ▸ List.mem_cons_self ..))
  rw [withFrame, Memory.page_overwrite, if_pos rfl]
  exact congrArg (Page.overwrite · offset frame) untouched

/-- Whichever way the next frame is taken, it is the same frame or the same error, and the ring, the memory and the
device are the same afterwards, but for the bytes of a page that the frame was put into. -/
theorem paths_agree (port : Register.receiveTail.Port reached tell) (near : reached machine.device)
    (seated : 0 < ring.capacity → ring.Seated machine.memory) (long : Limits.receiveBuffer ≤ destination.length)
    (foreign : target ∉ ring.pages)
    (room : offset + Limits.receiveBuffer ≤ (machine.memory.page target).size) :
    (∃ frame after, receive (ring, machine) = .ok (some frame) after ∧
      receiveInto destination (ring, machine) =
        .ok (some (frame.length, frame ++ destination.drop frame.length)) after ∧
      receiveIntoPage target offset (ring, machine) =
        .ok (some frame.length) (withFrame target offset frame after) ∧
      (withFrame target offset frame after).2.memory.slice target offset frame.length = frame ∧
      ∀ place, place < offset ∨ offset + frame.length ≤ place →
        ((withFrame target offset frame after).2.memory.page target).byte place =
          (machine.memory.page target).byte place) ∨
    (∃ after, receive (ring, machine) = .ok none after ∧ receiveInto destination (ring, machine) = .ok none after ∧
      receiveIntoPage target offset (ring, machine) = .ok none after) ∨
    (∃ stop after, receive (ring, machine) = .error stop after ∧
      receiveInto destination (ring, machine) = .error stop after ∧
      receiveIntoPage target offset (ring, machine) = .error stop after ∧
      ∀ needed provided, stop ≠ .refused (.bufferTooSmall needed provided)) := by
  cases sought : seek (max 1 ring.capacity) (ring, machine) with
  | error stop after =>
    have received : receive (ring, machine) = .error stop after := take_of_stop sought
    refine .inr (.inr ⟨stop, after, received, take_of_stop sought, take_of_stop sought, ?_⟩)
    rintro needed provided rfl
    exact receive_has_room needed provided _ _ received
  | ok found middle =>
    rcases found with _ | ⟨slot, length⟩
    · exact .inr (.inl ⟨middle, take_of_none sought, take_of_none sought, take_of_none sought⟩)
    -- A ring without slots finds no frame.
    rcases Nat.eq_zero_or_pos ring.capacity with empty | some
    · obtain ⟨stop, stopped⟩ := seek_of_empty machine empty
      rw [stopped] at sought
      cases sought
    have start := seated some
    obtain ⟨rfl, short, skips⟩ := seek_some port near start sought
    have later := skips.hands.seated start
    obtain ⟨page, owned⟩ := later.exists_buffer later.cursor
    have reach : reached middle.2.device := skips.hands.device ▸ port.tellSlots_stays near _
    have size : (middle.2.memory.page target).size = (machine.memory.page target).size := skips.hands.size target
    have received := receive_of_some port reach later owned sought short
    have into := receiveInto_of_some port reach later owned sought short long
    have roomy : offset + length ≤ (middle.2.memory.page target).size := by omega
    have intoPage := receiveIntoPage_of_some port reach later owned sought short (skips.hands.holdings ▸ foreign) roomy
    generalize taken : middle.2.memory.slice page 0 length = frame at received into intoPage
    obtain rfl : length = frame.length := by
      rw [← taken, Memory.slice, Page.length_slice (later.covers owned short)]
    have placed := page_withFrame offset frame.length frame skips later owned foreign
    refine .inl ⟨frame, _, received, into, intoPage, ?_, fun place outside => ?_⟩
    · rw [Memory.slice, placed, Page.slice_overwrite (by omega)]
    · rw [placed, Page.byte_overwrite_apart outside]

theorem paths_agree_past_spoiled :
    ∃ frame after, receive (polledRing, polledMachine) = .ok (some frame) after ∧
      receiveInto (List.replicate 2048 1) (polledRing, polledMachine) =
        .ok (some (frame.length, frame ++ (List.replicate 2048 1).drop frame.length)) after ∧
      receiveIntoPage ⟨3⟩ 2000 (polledRing, polledMachine) =
        .ok (some frame.length) (withFrame ⟨3⟩ 2000 frame after) := by
  have long : Limits.receiveBuffer ≤ (List.replicate 2048 (1 : UInt8)).length := by
    rw [List.length_replicate]
    decide
  have room : 2000 + Limits.receiveBuffer ≤ (polledMachine.memory.page ⟨3⟩).size := by
    have size : (polledMachine.memory.page ⟨3⟩).size = 4096 := Array.size_replicate
    rw [size]
    decide
  have agree := paths_agree (Recorder.port .receiveTail) trivial (fun _ => polledRing_seated) long (by decide) room
  -- The first slot that is not spoiled holds a frame.
  have decided : polledRing.verdict polledMachine.memory polledRing.capacity = .ok (some (0, 3)) := by decide
  obtain ⟨middle, sought, skips⟩ := seek_of_verdict_ok (Recorder.port .receiveTail) trivial polledRing_seated decided
  obtain ⟨front, short, -⟩ := seek_some (Recorder.port .receiveTail) trivial polledRing_seated sought
  have later := skips.hands.seated polledRing_seated
  obtain ⟨page, owned⟩ := later.exists_buffer later.cursor
  rw [front] at sought
  have received := receive_of_some (Recorder.port .receiveTail) trivial later owned sought short
  rcases agree with ⟨frame, after, taken, into, intoPage, -⟩ | ⟨after, nothing, -⟩ | ⟨stop, after, stopped, -⟩
  · exact ⟨frame, after, taken, into, intoPage⟩
  · rw [received] at nothing
    cases nothing
  · rw [received] at stopped
    cases stopped

end PacketPath.ReceiveRing
