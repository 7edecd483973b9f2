import PacketPath.Proofs.Agreement
import PacketPath.Proofs.Host.ReceiveEngine
import PacketPath.Proofs.Host.Wire
import PacketPath.Proofs.Memory.Lookup
import PacketPath.Proofs.Ring.PostingAlike
import PacketPath.Proofs.Ring.TakingAlike

/-! Engines of devices over machines that look the same through the pages that the engines work on. A device finds
live pages only, so it may tell such machines apart by the pages that are still kept; but the page of a flight is
kept on both sides, and so are the pages that the driver works on. -/

set_option autoImplicit false

namespace PacketPath

/-- Machines whose transmit engines are in the same place, and stay alike as the engines go on. -/
structure Machine.Sends (like : Machine Emulator → Machine Emulator → Prop) : Prop where
  transmitSide : ∀ {one other}, like one other → other.device.transmitSide = one.device.transmitSide
  onward : ∀ {one other}, like one other → ∀ bytes endsFrame length,
    like { one with device := (one.device.gather bytes endsFrame).onward length }
      { other with device := (other.device.gather bytes endsFrame).onward length }
  latched : ∀ {one other}, like one other →
    like { one with device := one.device.latch } { other with device := other.device.latch }

structure Machine.Lands (like : Machine Emulator → Machine Emulator → Prop) : Prop where
  head : ∀ {one other}, like one other → other.device.receiveHead = one.device.receiveHead
  filled : ∀ {one other}, like one other → ∀ length,
    like { one with device := one.device.filled length } { other with device := other.device.filled length }
  missing : ∀ {one other}, like one other →
    like { one with device := one.device.missing } { other with device := other.device.missing }

namespace Emulator

open Step

variable {ring ring' : TransmitRing} {one other machine : Machine Emulator} {flights : List Flight} {flight : Flight}
  {limit limit' : Nat} {pages : PageId → Prop} {registers : Register → Prop}
  {like : Machine Emulator → Machine Emulator → Prop}

namespace Alike

variable {device device' : Emulator} (alike : device.Alike device')
include alike

theorem transmitSide : device'.transmitSide = device.transmitSide := by
  obtain ⟨_, rfl⟩ := alike
  rfl

theorem receiveSide : device'.receiveSide = device.receiveSide := by
  obtain ⟨_, rfl⟩ := alike
  rfl

theorem gather (bytes : List UInt8) (endsFrame : Bool) :
    (device.gather bytes endsFrame).Alike (device'.gather bytes endsFrame) := by
  obtain ⟨_, rfl⟩ := alike
  unfold Emulator.gather
  split <;> exact ⟨_, rfl⟩

theorem onward (length : Nat) : (device.onward length).Alike (device'.onward length) := by
  obtain ⟨_, rfl⟩ := alike
  exact ⟨_, rfl⟩

theorem latch : device.latch.Alike device'.latch := by
  obtain ⟨_, rfl⟩ := alike
  unfold Emulator.latch
  dsimp only
  split <;> split
  · exact ⟨_, rfl⟩
  · contradiction
  · contradiction
  · exact ⟨_, rfl⟩

theorem filled (length : Nat) : (device.filled length).Alike (device'.filled length) := by
  obtain ⟨_, rfl⟩ := alike
  exact ⟨_, rfl⟩

theorem missing : device.missing.Alike device'.missing := by
  obtain ⟨_, rfl⟩ := alike
  exact ⟨_, rfl⟩

end Alike

theorem sends_alike : Machine.Sends Machine.Alike where
  transmitSide alike := alike.device.transmitSide
  onward alike bytes endsFrame length := ⟨alike.memory, (alike.device.gather bytes endsFrame).onward length⟩
  latched alike := ⟨alike.memory, alike.device.latch⟩

theorem lands_alike : Machine.Lands Machine.Alike where
  head alike := congrArg ReceiveSide.head alike.device.receiveSide
  filled alike length := ⟨alike.memory, alike.device.filled length⟩
  missing alike := ⟨alike.memory, alike.device.missing⟩

/-! ### Fetching -/

theorem Serves.located {after : Machine Emulator} (serves : Serves ring machine after)
    (charted : machine.memory.Charted limit) (known : machine.memory.Knows flight.fragment.page) :
    flight.located after.memory = flight.located machine.memory := by
  have entered : machine.memory.Entered := charted.base
  unfold Flight.located Flight.address
  rw [serves.changes.base _ known]
  refine entered.locate_congr serves.reachable (fun id reached => ?_) (fun id _ _ => ?_) _
  · exact serves.changes.size id (charted.knows_of_reaches reached)
  · unfold Memory.isAlive
    rw [serves.handles]

theorem fetched_like (view : Machine.View pages registers like) (sends : Machine.Sends like) (alike : like one other)
    (table : ring'.table = ring.table) (covered : pages ring.table.page) (bytes : List UInt8)
    (log log' : Array LogLine) :
    like (fetched ring flight bytes log one) (fetched ring' flight bytes log' other) := by
  have side := sends.transmitSide alike
  have head : other.device.transmitHead = one.device.transmitHead := congrArg TransmitSide.head side
  have cell (slot : Nat) : ring.table.transmitCell other.memory slot = ring.table.transmitCell one.memory slot := by
    unfold DescriptorTable.transmitCell DescriptorTable.cell
    rw [view.slice alike covered]
  unfold fetched
  rw [table, head, cell, side]
  exact view.noted (sends.onward (view.overwritten alike _ _ _ covered) ..) log log'

/-- Engines that find the same at the addresses of the flights, in pages that look the same, fetch alike and stop at
the same flight. -/
theorem fetchSlots_agree (view : Machine.View pages registers like) (sends : Machine.Sends like)
    (alike : like one other) (table : ring'.table = ring.table) (covered : pages ring.table.page)
    (ready : TransmitReady limit ring one flights) (ready' : TransmitReady limit' ring' other flights)
    (same : ∀ flight ∈ flights, flight.located other.memory = flight.located one.memory)
    (seen : ∀ flight ∈ flights, ∀ id offset, flight.located one.memory = .ok (id, offset) → pages id)
    {count : Nat} (pending : count ≤ flights.length) :
    Agree like (fetchSlots one.device.transmitSide.base one.device.transmitSide.length count)
      (fetchSlots other.device.transmitSide.base other.device.transmitSide.length count) one other := by
  induction count generalizing one other flights with
  | zero => exact .pure _ alike
  | succ count ih =>
    cases flights with
    | nil => simp at pending
    | cons flight flights =>
      rw [List.length_cons] at pending
      have first := List.mem_cons_self (a := flight) (l := flights)
      have rest (flight' : Flight) (listed : flight' ∈ flights) := List.mem_cons_of_mem flight listed
      have fetches := fetchSlot_located ready
      have fetches' := fetchSlot_located ready'
      rw [same flight first] at fetches'
      unfold fetchSlots
      cases found : flight.located one.memory with
      | error fault =>
        -- Neither engine gets past the flight.
        simp only [found, reduceCtorEq, false_and, exists_false, Except.error.injEq, exists_eq_left']
          at fetches fetches'
        obtain ⟨_, _, ended, rfl, rfl⟩ := fetches.exists_error
        obtain ⟨_, _, ended', rfl, rfl⟩ := fetches'.exists_error
        exact .of_error (bind_of_error ended _) (bind_of_error ended' _) alike
      | ok place =>
        obtain ⟨source, start⟩ := place
        simp only [found, reduceCtorEq, false_and, exists_false, Except.ok.injEq, Prod.mk.injEq] at fetches fetches'
        obtain ⟨_, after, ended, id, offset, log, ⟨rfl, rfl⟩, done⟩ := fetches.exists_ok
        obtain ⟨_, after', ended', id, offset, log', ⟨rfl, rfl⟩, done'⟩ := fetches'.exists_ok
        have kept : like after after' := by
          rw [done, done', view.slice alike (seen flight first _ _ found)]
          exact fetched_like view sends alike table covered _ log log'
        have next := (ends_of_ok ended).mp (fetchSlot_flies ready)
        have next' := (ends_of_ok ended').mp (fetchSlot_flies ready')
        have serves := next.serves
        have serves' := next'.serves
        have located (other' : Flight) (listed : other' ∈ flights) :=
          serves.located ready.charted (ready.flies.carries.knows_of_mem (rest other' listed))
        have located' (other' : Flight) (listed : other' ∈ flights) :=
          serves'.located ready'.charted (ready'.flies.carries.knows_of_mem (rest other' listed))
        refine .bind_of_ok ended ended' ?_
        rw [← serves.sameRing.base, ← serves.sameRing.length, ← serves'.sameRing.base, ← serves'.sameRing.length]
        refine ih kept (ready.fetched next) (ready'.fetched next') ?_ ?_ (Nat.le_of_succ_le_succ pending)
        · intro flight' listed
          rw [located flight' listed, located' flight' listed, same flight' (rest flight' listed)]
        · intro flight' listed
          rw [located flight' listed]
          exact seen flight' (rest flight' listed)

theorem transmit_agree (view : Machine.View pages registers like) (sends : Machine.Sends like)
    (alike : like one other) (table : ring'.table = ring.table) (covered : pages ring.table.page)
    (ready : TransmitReady limit ring one flights) (ready' : TransmitReady limit' ring' other flights)
    (same : ∀ flight ∈ flights, flight.located other.memory = flight.located one.memory)
    (seen : ∀ flight ∈ flights, ∀ id offset, flight.located one.memory = .ok (id, offset) → pages id) (most : Nat) :
    Agree like (transmit most) (transmit most) one other := by
  have fetched : Agree _ _ _ _ _ := fetchSlots_agree view sends alike table covered ready ready' same seen
    (Nat.min_le_left flights.length most)
  rw [← ready.flies.carries.pending] at fetched
  have side := sends.transmitSide alike
  unfold Agree at fetched ⊢
  apply transmit_ends ready.wired
  refine fetched.mono (fun _ after ends => ?_) (fun _ after ends => ?_)
  · apply transmit_ends ready'.wired
    rw [side] at ends ⊢
    refine ends.mono ?_ (fun _ _ => False.elim)
    rintro _ after' ⟨-, kept⟩
    refine ⟨rfl, ?_⟩
    split
    · exact kept
    · exact sends.latched kept
  · apply transmit_ends ready'.wired
    rw [side] at ends ⊢
    exact ends.mono (fun _ _ => False.elim) fun _ _ stopped => stopped

theorem transmit_agree_of_visible (view : Machine.View pages registers like) (sends : Machine.Sends like)
    (alike : like one other) (table : ring'.table = ring.table) (covered : pages ring.table.page)
    (ready : TransmitReady limit ring one flights) (ready' : TransmitReady limit' ring' other flights)
    (visible : ∀ flight ∈ flights, flight.Visible ring one.memory)
    (visible' : ∀ flight ∈ flights, flight.Visible ring' other.memory)
    (seen : ∀ flight ∈ flights, pages flight.fragment.page) (most : Nat) :
    Agree like (transmit most) (transmit most) one other := by
  have located (flight : Flight) (listed : flight ∈ flights) := ready.located listed (visible flight listed)
  have located' (flight : Flight) (listed : flight ∈ flights) := ready'.located listed (visible' flight listed)
  refine transmit_agree view sends alike table covered ready ready' (fun flight listed => ?_)
    (fun flight listed id offset found => ?_) most
  · rw [located flight listed, located' flight listed]
  · cases (located flight listed).symm.trans found
    exact seen flight listed

/-! ### Frames that come in -/

variable {queue : List Arrival}

theorem receive_agree {ring : ReceiveRing} (view : Machine.View pages registers like) (lands : Machine.Lands like)
    (alike : like one other) (covered : ring.Covered pages)
    (ready : ReceiveReady limit ring one queue) (ready' : ReceiveReady limit' ring other queue)
    (frame : List UInt8) (errors : ReceiveErrors) :
    Agree like (receive frame errors) (receive frame errors) one other := by
  have head := lands.head alike
  unfold Agree
  -- What the first engine meets decides what the second one meets: the heads, the buffers and the room are the same.
  apply receive_ends ready
  · intro long
    apply receive_ends ready'
    · exact fun _ => ⟨rfl, alike⟩
    · intro short
      omega
    · intro _ _ short
      omega
  · intro short crowded
    apply receive_ends ready'
    · intro long
      omega
    · exact fun _ _ => ⟨rfl, lands.missing alike⟩
    · intro _ _ _ room
      omega
  · intro page log short room owned _
    apply receive_ends ready'
    · intro long
      omega
    · intro _ crowded
      omega
    · intro page' log' _ _ owned' _
      rw [head, owned] at owned'
      cases owned'
      refine ⟨rfl, ?_⟩
      unfold ReceiveRing.filledMemory
      rw [head, view.base alike]
      have put := view.overwritten alike page 0 frame (covered page (ReceiveRing.mem_pages owned))
      have told := view.overwritten put ring.table.page (DescriptorTable.position one.device.receiveHead)
      exact view.noted (lands.filled (told _ covered.table) ring.capacity) log log'

end Emulator

end PacketPath
