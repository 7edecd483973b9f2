import PacketPath.Proofs.Ring.Queue

/-! How the steps of a receive ring change its queue. Spoiled frames are dropped on the way to the
first good one, and a frame leaves the queue only once it has been delivered. -/

set_option autoImplicit false

namespace PacketPath.ReceiveRing

variable {ring : ReceiveRing} {machine : Machine Emulator} {queue : List Arrival} {arrival : Arrival}
  {slot : Nat} {page : PageId} {scope : PageId → Prop}

def Stands (state : ReceiveRing × Machine Emulator) (queue : List Arrival) : Prop :=
  state.1.Holds state.2.memory state.2.device.receiveSide queue

/-- From one state of a ring and its machine to another: the ring keeps its table and its pages, only
the table and pages in scope are written, no handle comes or goes, and the transmit side of the
device does not notice. -/
structure Leads (scope : PageId → Prop) (before after : ReceiveRing × Machine Emulator) : Prop where
  table : after.1.table = before.1.table
  buffers : after.1.buffers = before.1.buffers
  changes : before.2.memory.ChangesWithin (fun id => id = before.1.table.page ∨ scope id) after.2.memory
  reachable : after.2.memory.reachable = before.2.memory.reachable
  handles : ∀ id, after.2.memory.handles id = before.2.memory.handles id
  transmitSide : after.2.device.transmitSide = before.2.device.transmitSide

namespace Leads

variable {before middle after : ReceiveRing × Machine Emulator}

theorem of_same (table : after.1.table = before.1.table) (buffers : after.1.buffers = before.1.buffers)
    (memory : after.2.memory = before.2.memory)
    (transmitSide : after.2.device.transmitSide = before.2.device.transmitSide) : Leads scope before after where
  table := table
  buffers := buffers
  changes := memory ▸ .refl _ _
  reachable := by rw [memory]
  handles _ := by rw [memory]
  transmitSide := transmitSide

theorem of_writes {before after : Machine Emulator} (ring : ReceiveRing) (writes : Machine.Writes scope before after) :
    Leads scope (ring, before) (ring, after) where
  table := rfl
  buffers := rfl
  changes := writes.changes.mono fun _ inside => .inr inside
  reachable := writes.reachable
  handles := writes.handles
  transmitSide := by rw [writes.device]

theorem refl (state : ReceiveRing × Machine Emulator) : Leads scope state state :=
  of_same rfl rfl rfl rfl

theorem trans (first : Leads scope before middle) (second : Leads scope middle after) :
    Leads scope before after where
  table := second.table.trans first.table
  buffers := second.buffers.trans first.buffers
  changes := by
    have later := second.changes
    rw [first.table] at later
    exact first.changes.trans later
  reachable := second.reachable.trans first.reachable
  handles id := (second.handles id).trans (first.handles id)
  transmitSide := second.transmitSide.trans first.transmitSide

theorem widen (leads : Leads (fun _ => False) before after) : Leads scope before after :=
  { leads with changes := leads.changes.mono fun _ inside => inside.imp id False.elim }

theorem capacity (leads : Leads scope before after) : after.1.capacity = before.1.capacity :=
  congrArg DescriptorTable.length leads.table

theorem pages (leads : Leads scope before after) : after.1.pages = before.1.pages := by
  rw [ReceiveRing.pages, ReceiveRing.pages, leads.table, leads.buffers]

end Leads

theorem Stands.of_same {before after : ReceiveRing × Machine Emulator} (stands : Stands before queue)
    (table : after.1.table = before.1.table) (buffers : after.1.buffers = before.1.buffers)
    (cursor : after.1.cursor = before.1.cursor) (memory : after.2.memory = before.2.memory)
    (receiveSide : after.2.device.receiveSide = before.2.device.receiveSide) : Stands after queue := by
  obtain ⟨⟨table', buffers', cursor', _⟩, ⟨memory', device', _⟩⟩ := after
  obtain ⟨⟨_, _, _, _⟩, ⟨_, _, _⟩⟩ := before
  dsimp only at table buffers cursor memory receiveSide
  subst table buffers cursor memory
  unfold Stands at stands ⊢
  dsimp only at stands ⊢
  rw [receiveSide]
  exact { stands with
    wired := { stands.wired with }
    filled := fun i arrival listed => ⟨(stands.filled i arrival listed).cell, (stands.filled i arrival listed).short⟩ }

theorem Stands.of_writes {after : Machine Emulator} (stands : Stands (ring, machine) queue)
    (writes : Machine.Writes scope machine after) (outside : ∀ id ∈ ring.pages, ¬ scope id) :
    Stands (ring, after) queue := by
  have holds : ring.Holds machine.memory machine.device.receiveSide queue := stands
  unfold Stands
  dsimp only
  rw [writes.device]
  exact holds.of_changes writes.changes outside

/-! ### Handing back -/

theorem recycle_stands {ε : Type} (stands : Stands (ring, machine) (arrival :: queue)) :
    (recycle ring.cursor : Step ε _ _).Ends (ring, machine)
      (fun _ after => Leads (fun _ => False) (ring, machine) after ∧ Stands after queue ∧
        after.1.counters = ring.counters)
      (fun _ _ => False) := by
  have holds : ring.Holds machine.memory machine.device.receiveSide (arrival :: queue) := stands
  obtain ⟨page, owned⟩ := holds.wired.exists_buffer holds.wired.cursor
  refine recycle_ends (Emulator.port .receiveTail) trivial holds.wired.fits holds.wired.cursor owned ?_
  refine ⟨⟨rfl, rfl, Memory.changes_overwrite _ (.inl rfl) _ _, rfl, fun id => Memory.handles_overwrite ..,
    Emulator.transmitSide_store_receiveTail ..⟩, ?_, rfl⟩
  dsimp only [Stands, afterRecycle]
  rw [Emulator.receiveSide_store_tail]
  exact holds.recycled owned ring.counters

/-! ### Looking for a good frame -/

theorem ends_isReady {ε : Type} {good : Bool → Machine Emulator → Prop}
    {bad : Stop ε → Machine Emulator → Prop} (stands : Stands (ring, machine) queue) :
    ring.isReady.Ends machine good bad ↔ good (!queue.isEmpty) machine := by
  have holds : ring.Holds machine.memory machine.device.receiveSide queue := stands
  unfold isReady
  rw [Step.ends_bind, DescriptorTable.ends_receiveStatus holds.wired.fits holds.wired.cursor, Step.ends_pure]
  cases queue with
  | nil =>
    obtain ⟨page, -, cell⟩ := holds.vacant_cursor
    rw [cell, isDone_empty]
    rfl
  | cons arrival queue =>
    obtain ⟨page, -, cell, -⟩ := holds.front.cell
    rw [cell, isDone_filledCell]
    rfl

/-- The good frames that come next, the first of them at the front, unless a spoiled one comes before. -/
abbrev upcoming (queue : List Arrival) : List Arrival :=
  queue.dropWhile Arrival.spoiled

/-- Seeking drops the spoiled frames at the front of the queue and finds the good one behind them. -/
theorem seek_stands (stands : Stands (ring, machine) queue) {limit : Nat} (enough : queue.length < limit) :
    (seek limit).Ends (ring, machine)
      (fun found after => Leads (fun _ => False) (ring, machine) after ∧
        Stands after (upcoming queue) ∧
        after.1.counters = tallyDropped (queue.takeWhile Arrival.spoiled).length ring.counters ∧
        found = (upcoming queue).head?.map fun arrival => (after.1.cursor, arrival.frame.length))
      (fun _ _ => False) := by
  induction limit generalizing ring machine queue with
  | zero => omega
  | succ limit ih =>
    have holds : ring.Holds machine.memory machine.device.receiveSide queue := stands
    have fits := holds.wired.fits
    cases queue with
    | nil =>
      obtain ⟨page, -, cell⟩ := holds.vacant_cursor
      refine ends_seek_succ fits holds.wired.cursor ?_ ?_
      · rw [cell, decision_empty]
        exact fun _ => ⟨.refl _, stands, rfl, rfl⟩
      · intro spoiled
        rw [cell, ReceiveDescriptor.isSpoiled, isDone_empty] at spoiled
        cases spoiled
    | cons arrival queue =>
      obtain ⟨page, owned, cell, bytes⟩ := holds.front.cell
      rw [List.length_cons] at enough
      refine ends_seek_succ fits holds.wired.cursor ?_ ?_
      · rw [cell, isSpoiled_filledCell, decision_filledCell _ holds.front.short]
        intro clean
        have kept : ¬ arrival.spoiled = true := ne_true_of_eq_false clean
        rw [upcoming, List.dropWhile_cons_of_neg kept, List.takeWhile_cons_of_neg kept]
        exact ⟨.refl _, stands, rfl, rfl⟩
      · -- A spoiled frame is handed back at once, and seeking goes on behind it.
        rw [cell, isSpoiled_filledCell]
        intro dropped log
        rw [upcoming, List.dropWhile_cons_of_pos dropped, List.takeWhile_cons_of_pos dropped]
        have counted : Stands ({ ring with counters := tallyDropped 1 ring.counters },
            { machine with log := log }) (arrival :: queue) :=
          stands.of_same rfl rfl rfl rfl rfl
        refine (recycle_stands counted).mono ?_ (fun _ _ => False.elim)
        rintro - after ⟨first, stood, counters⟩
        have begun : Leads (fun _ => False) (ring, machine) after := by
          refine Leads.trans ?_ first
          exact .of_same rfl rfl rfl rfl
        refine (ih stood (by omega)).mono ?_ (fun _ _ => id)
        rintro found last ⟨later, left, tallied, which⟩
        refine ⟨begun.trans later, left, ?_, which⟩
        rw [tallied, counters]
        simp only [tallyDropped, List.length_cons, ReceiveCounters.mk.injEq, true_and]
        omega

/-! ### Taking a frame -/

variable {α : Type}

/-- How an attempt to take a frame may end: with nothing, as every frame of the queue was spoiled; or
with the first good frame, delivered or not. A frame that was not delivered stays in the queue. -/
structure Taken (scope : PageId → Prop) (queue : List Arrival) (before after : ReceiveRing × Machine Emulator)
    (left : List Arrival) (delivered : ReceiveCounters → ReceiveCounters) : Prop where
  leads : Leads scope before after
  stands : Stands after left
  counters : after.1.counters =
    delivered (tallyDropped (queue.takeWhile Arrival.spoiled).length before.1.counters)

/-- With a delivery that works inside its scope for every frame of the queue, taking is a step on the
queue. -/
theorem take_stands {deliver : PageId → Nat → Step ReceiveError (Machine Emulator) α}
    {right : Machine Emulator → Arrival → α → Machine Emulator → Prop}
    {wrong : Machine Emulator → Arrival → Stop ReceiveError → Machine Emulator → Prop}
    (stands : Stands (ring, machine) queue) (outside : ∀ id ∈ ring.pages, ¬ scope id)
    (delivers : ∀ (middle : Machine Emulator) (page : PageId) (arrival : Arrival),
      Leads (fun _ => False) (ring, machine) (ring, middle) → page ∈ ring.buffers.toList →
      arrival ∈ queue → arrival.frame.length ≤ Limits.receiveBuffer →
      middle.memory.slice page 0 arrival.frame.length = arrival.frame →
      (deliver page arrival.frame.length).Ends middle
        (fun value after => Machine.Writes scope middle after ∧ right middle arrival value after)
        (fun stop after => Machine.Writes scope middle after ∧ wrong middle arrival stop after)) :
    (take deliver).Ends (ring, machine)
      (fun result after =>
        upcoming queue = [] ∧ result = none ∧ Taken scope queue (ring, machine) after [] id ∨
        ∃ arrival rest, upcoming queue = arrival :: rest ∧
          Taken scope queue (ring, machine) after rest (tallyDelivered arrival.frame.length) ∧
          ∃ value begun ended, result = some value ∧ right begun arrival value ended ∧
            ended.memory.ChangesWithin (· = ring.table.page) after.2.memory)
      (fun stop after => ∃ arrival rest, upcoming queue = arrival :: rest ∧
        Taken scope queue (ring, machine) after (upcoming queue) id ∧ ∃ begun ended, wrong begun arrival stop ended) := by
  have holds : ring.Holds machine.memory machine.device.receiveSide queue := stands
  have enough : queue.length < max 1 ring.capacity := Nat.lt_of_lt_of_le holds.bounded (Nat.le_max_right ..)
  have members : ∀ arrival ∈ upcoming queue, arrival ∈ queue :=
    fun arrival listed => (List.dropWhile_sublist _).subset listed
  unfold take
  rw [Step.ends_bind, Step.ends_get, Step.ends_bind]
  refine (seek_stands stands enough).mono ?_ (fun _ _ => False.elim)
  rintro found ⟨ring', middle⟩ ⟨leads, stood, counters, which⟩
  dsimp only at leads stood counters which
  cases rest : upcoming queue with
  | nil =>
    rw [rest] at stood which
    rw [which]
    exact .inl ⟨rfl, rfl, leads.widen, stood, counters⟩
  | cons arrival others =>
    rw [rest] at stood which members
    rw [which]
    have held : ring'.Holds middle.memory middle.device.receiveSide (arrival :: others) := stood
    obtain ⟨page, owned, cell, bytes⟩ := held.front.cell
    have short := held.front.short
    have listed : arrival ∈ queue := members arrival (List.mem_cons_self ..)
    have table : ring'.table = ring.table := leads.table
    have buffers : ring'.buffers = ring.buffers := leads.buffers
    have apart : ∀ id ∈ ring'.pages, ¬ scope id := fun id listed => outside id (leads.pages ▸ listed)
    dsimp only [Option.map_some, List.head?_cons]
    rw [Step.ends_bind, Step.ends_get, Step.ends_bind, ends_buffer owned, Step.ends_bind, Step.ends_second]
    have start : Leads (fun _ => False) (ring, machine) (ring, middle) :=
      ⟨rfl, rfl, leads.changes, leads.reachable, leads.handles, leads.transmitSide⟩
    refine (delivers middle page arrival start (buffers ▸ mem_buffers owned) listed short bytes).mono ?_ ?_
    · -- A frame leaves the queue only after its delivery.
      rintro value ended ⟨delivery, correct⟩
      have carried := leads.widen.trans (.of_writes ring' delivery)
      rw [Step.ends_bind]
      refine (recycle_stands (stood.of_writes delivery apart)).mono ?_ (fun _ _ => False.elim)
      rintro - ⟨last, final⟩ ⟨handed, stood, same⟩
      dsimp only at handed stood same
      unfold count
      rw [Step.ends_bind, Step.ends_first, Step.ends_modify, Step.ends_bind, Step.ends_second, Machine.ends_note,
        Step.ends_pure]
      refine .inr ⟨arrival, others, rfl,
        ⟨carried.trans (handed.widen.trans (.of_same rfl rfl rfl rfl)), stood.of_same rfl rfl rfl rfl rfl, ?_⟩,
        value, middle, ended, rfl, correct, ?_⟩
      · rw [← counters, ← same]
        rfl
      · refine handed.changes.mono ?_
        rintro id (here | never)
        · rw [here]
          exact congrArg DescriptorTable.page table
        · exact never.elim
    · rintro stop ended ⟨delivery, incorrect⟩
      exact ⟨arrival, others, rfl,
        ⟨leads.widen.trans (.of_writes ring' delivery), stood.of_writes delivery apart, counters⟩, middle, ended,
        incorrect⟩

/-! ### The three ways to take a frame -/

def tallyTaken : Option Arrival → ReceiveCounters → ReceiveCounters
  | none => id
  | some arrival => tallyDelivered arrival.frame.length

def Roomy (ring : ReceiveRing) (memory : Memory) : Prop :=
  ∀ page ∈ ring.buffers.toList, (memory.page page).size = Limits.pageSize

theorem Roomy.covers {memory after : Memory} {side : Emulator.ReceiveSide} (roomy : ring.Roomy memory)
    (wired : ring.Wired memory side) (changes : memory.ChangesWithin scope after)
    (listed : page ∈ ring.buffers.toList) (short : arrival.frame.length ≤ Limits.receiveBuffer) :
    0 + arrival.frame.length ≤ (after.page page).size := by
  rw [changes.size _ (wired.pool page listed), roomy page listed, Nat.zero_add]
  exact Nat.le_trans short (by decide)

theorem receive_stands (stands : Stands (ring, machine) queue) (roomy : ring.Roomy machine.memory) :
    receive.Ends (ring, machine)
      (fun result after => result = (upcoming queue).head?.map Arrival.frame ∧
        Taken (fun _ => False) queue (ring, machine) after (upcoming queue).tail
          (tallyTaken (upcoming queue).head?))
      (fun _ _ => False) := by
  have holds : ring.Holds machine.memory machine.device.receiveSide queue := stands
  have delivers (middle : Machine Emulator) (page : PageId) (arrival : Arrival)
      (start : Leads (fun _ => False) (ring, machine) (ring, middle)) (listed : page ∈ ring.buffers.toList)
      (_ : arrival ∈ queue) (short : arrival.frame.length ≤ Limits.receiveBuffer)
      (bytes : middle.memory.slice page 0 arrival.frame.length = arrival.frame) :
      (do
        if Limits.receiveBuffer < arrival.frame.length then
          Step.refuse (.bufferTooSmall arrival.frame.length Limits.receiveBuffer)
        Machine.readBytes page 0 arrival.frame.length : Step ReceiveError _ _).Ends middle
        (fun value after => Machine.Writes (fun _ => False) middle after ∧ value = arrival.frame)
        (fun _ after => Machine.Writes (fun _ => False) middle after ∧ False) := by
    rw [if_neg (Nat.not_lt.mpr short), Machine.ends_readBytes (roomy.covers holds.wired start.changes listed short)]
    exact ⟨.refl _ _, bytes⟩
  unfold receive
  refine (take_stands stands (fun _ _ => id) delivers).mono ?_ (fun _ _ ⟨_, _, _, _, _, _, never⟩ => never)
  rintro result after (⟨empty, rfl, taken⟩ | ⟨arrival, rest, front, taken, _, _, _, rfl, rfl, _⟩)
  · rw [empty]
    exact ⟨rfl, taken⟩
  · rw [front]
    exact ⟨rfl, taken⟩

def TooSmall (queue : List Arrival) (provided : Nat) (stop : Stop ReceiveError) : Prop :=
  ∃ arrival, (upcoming queue).head? = some arrival ∧ provided < arrival.frame.length ∧
    stop = .refused (.bufferTooSmall arrival.frame.length provided)

theorem receiveInto_stands (stands : Stands (ring, machine) queue) (roomy : ring.Roomy machine.memory)
    (destination : List UInt8) :
    (receiveInto destination).Ends (ring, machine)
      (fun result after =>
        (∀ arrival, (upcoming queue).head? = some arrival → arrival.frame.length ≤ destination.length) ∧
        result = (upcoming queue).head?.map (fun arrival =>
          (arrival.frame.length, arrival.frame ++ destination.drop arrival.frame.length)) ∧
        Taken (fun _ => False) queue (ring, machine) after (upcoming queue).tail
          (tallyTaken (upcoming queue).head?))
      (fun stop after => TooSmall queue destination.length stop ∧
        Taken (fun _ => False) queue (ring, machine) after (upcoming queue) id) := by
  have holds : ring.Holds machine.memory machine.device.receiveSide queue := stands
  -- What is done with the frame at the front, for whichever slots were dropped before it.
  have delivers (middle : Machine Emulator) (page : PageId) (arrival : Arrival)
      (start : Leads (fun _ => False) (ring, machine) (ring, middle)) (listed : page ∈ ring.buffers.toList)
      (_ : arrival ∈ queue) (short : arrival.frame.length ≤ Limits.receiveBuffer)
      (bytes : middle.memory.slice page 0 arrival.frame.length = arrival.frame) :
      (do
        if destination.length < arrival.frame.length then
          Step.refuse (.bufferTooSmall arrival.frame.length destination.length)
        return (arrival.frame.length, (← Machine.readBytes page 0 arrival.frame.length) ++
          destination.drop arrival.frame.length) : Step ReceiveError _ _).Ends middle
        (fun value after => Machine.Writes (fun _ => False) middle after ∧
          (arrival.frame.length ≤ destination.length ∧
            value = (arrival.frame.length, arrival.frame ++ destination.drop arrival.frame.length)))
        (fun stop after => Machine.Writes (fun _ => False) middle after ∧
          (destination.length < arrival.frame.length ∧
            stop = .refused (.bufferTooSmall arrival.frame.length destination.length))) := by
    simp only [Step.ends_bind, Step.ends_ite, Step.ends_refuse, Step.ends_pure,
      Machine.ends_readBytes (roomy.covers holds.wired start.changes listed short), bytes]
    exact ⟨fun long => ⟨.refl _ _, long, trivial⟩, fun fits => ⟨.refl _ _, by omega, trivial⟩⟩
  unfold receiveInto
  refine (take_stands stands (fun _ _ => id) delivers).mono ?_ ?_
  · rintro result after (⟨empty, rfl, taken⟩ | ⟨arrival, rest, front, taken, _, _, _, rfl, ⟨fits, rfl⟩, _⟩)
    · rw [empty]
      exact ⟨by rintro _ ⟨⟩, rfl, taken⟩
    · rw [front]
      exact ⟨fun _ here => Option.some.inj here ▸ fits, rfl, taken⟩
  · rintro stop after ⟨arrival, rest, front, taken, _, _, long, which⟩
    exact ⟨⟨arrival, by rw [front, List.head?_cons], long, which⟩, taken⟩

theorem receiveIntoPage_stands (stands : Stands (ring, machine) queue) (roomy : ring.Roomy machine.memory)
    {target : PageId} (foreign : target ∉ ring.pages) (known : machine.memory.Knows target) (offset : Nat) :
    (receiveIntoPage target offset).Ends (ring, machine)
      (fun result after =>
        (∀ arrival, (upcoming queue).head? = some arrival →
          offset + arrival.frame.length ≤ (machine.memory.page target).size ∧
          after.2.memory.slice target offset arrival.frame.length = arrival.frame) ∧
        result = (upcoming queue).head?.map (fun arrival => arrival.frame.length) ∧
        Taken (· = target) queue (ring, machine) after (upcoming queue).tail
          (tallyTaken (upcoming queue).head?))
      (fun stop after => (TooSmall queue ((machine.memory.page target).size - offset) stop ∨
          (machine.memory.page target).size < offset ∧ ∃ violation, stop = .violated violation) ∧
        Taken (· = target) queue (ring, machine) after (upcoming queue) id) := by
  have holds : ring.Holds machine.memory machine.device.receiveSide queue := stands
  have outside : ∀ id ∈ ring.pages, ¬ id = target := by
    rintro id listed rfl
    exact foreign listed
  -- What is done with the frame at the front, for whichever slots were dropped before it.
  have delivers (middle : Machine Emulator) (page : PageId) (arrival : Arrival)
      (start : Leads (fun _ => False) (ring, machine) (ring, middle)) (listed : page ∈ ring.buffers.toList)
      (_ : arrival ∈ queue) (short : arrival.frame.length ≤ Limits.receiveBuffer)
      (bytes : middle.memory.slice page 0 arrival.frame.length = arrival.frame) :
      (do
        let provided := (← Machine.sizeOf target) - offset
        if provided < arrival.frame.length then
          Step.refuse (.bufferTooSmall arrival.frame.length provided)
        Machine.copy target offset page 0 arrival.frame.length
        return arrival.frame.length : Step ReceiveError _ _).Ends middle
        (fun value after => Machine.Writes (· = target) middle after ∧
          (value = arrival.frame.length ∧
            offset + arrival.frame.length ≤ (machine.memory.page target).size ∧ after.memory.Knows target ∧
            after.memory.slice target offset arrival.frame.length = arrival.frame))
        (fun stop after => Machine.Writes (· = target) middle after ∧
          ((machine.memory.page target).size - offset < arrival.frame.length ∧
              stop = .refused
                (.bufferTooSmall arrival.frame.length ((machine.memory.page target).size - offset)) ∨
            (machine.memory.page target).size < offset ∧ ∃ violation, stop = .violated violation)) := by
    have size := start.changes.size target known
    dsimp only at size
    have apart : page ≠ target := outside page (List.mem_cons_of_mem _ listed)
    simp only [Step.ends_bind, Machine.ends_sizeOf, Step.ends_ite, Step.ends_refuse, Step.ends_pure, size]
    refine ⟨fun long => ⟨.refl _ _, .inl ⟨long, trivial⟩⟩, fun fits => ?_⟩
    -- Past the end of the target nothing is provided, so an empty frame gets as far as the copy.
    by_cases inside : offset ≤ (machine.memory.page target).size
    case neg =>
      unfold Machine.copy
      rw [Step.ends_bind, Machine.ends_access_of_outside (by rw [size]; omega)]
      exact ⟨.refl _ _, .inr ⟨by omega, _, rfl⟩⟩
    have room : offset + arrival.frame.length ≤ (middle.memory.page target).size := by
      rw [size]
      omega
    have changes : middle.memory.ChangesWithin (· = target)
        (middle.memory.overwrite target offset arrival.frame) := Memory.changes_overwrite _ (by rfl) _ _
    rw [Machine.ends_copy apart room (roomy.covers holds.wired start.changes listed short), bytes]
    refine ⟨⟨changes, rfl, fun id => Memory.handles_overwrite .., rfl⟩, trivial, by rwa [size] at room,
      changes.knows _ (start.changes.knows _ known), ?_⟩
    rw [Memory.slice, Memory.page_overwrite, if_pos rfl]
    exact Page.slice_overwrite room
  unfold receiveIntoPage
  refine (take_stands stands outside delivers).mono ?_ ?_
  · rintro result after
      (⟨empty, rfl, taken⟩ | ⟨arrival, rest, front, taken, _, _, last, rfl, ⟨rfl, fits, there, copied⟩, changes⟩)
    · rw [empty]
      exact ⟨by rintro _ ⟨⟩, rfl, taken⟩
    · rw [front]
      refine ⟨fun other here => ?_, rfl, taken⟩
      obtain rfl := Option.some.inj here
      refine ⟨fits, ?_⟩
      rw [changes.slice there (fun same => foreign (same ▸ List.mem_cons_self ..)), copied]
  · rintro stop after ⟨arrival, rest, front, taken, _, _, ⟨long, which⟩ | outside⟩
    · exact ⟨.inl ⟨arrival, by rw [front, List.head?_cons], long, which⟩, taken⟩
    · exact ⟨.inr outside, taken⟩

end PacketPath.ReceiveRing
