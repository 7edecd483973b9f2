import PacketPath.Ring.Receive
import PacketPath.Proofs.Descriptor.Cells
import PacketPath.Proofs.Register.Port
import PacketPath.Proofs.Ring.Arc

/-! Polling a receive ring whose table may hold anything. What a poll comes to is read off the descriptors from the
cursor on: those that report a spoiled frame are handed back, and the first other one decides. -/

set_option autoImplicit false

namespace PacketPath

def ReceiveDescriptor.isSpoiled (descriptor : ReceiveDescriptor) : Bool :=
  descriptor.status.isDone && descriptor.status.endsFrame && descriptor.errors.spoilFrame

namespace ReceiveRing

variable {δ ε α : Type} {ring : ReceiveRing} {machine : Machine δ} {slot : Nat} {page : PageId}

/-- The table lies in its page, the cursor is a slot, and every slot has a pool page that is long enough. -/
structure Seated (ring : ReceiveRing) (memory : Memory) : Prop where
  fits : ring.table.Fits memory
  cursor : ring.cursor < ring.capacity
  buffers : ring.buffers.size = ring.capacity
  roomy : ∀ page ∈ ring.buffers.toList, Limits.receiveBuffer ≤ (memory.page page).size

theorem Seated.exists_buffer {memory : Memory} (seated : ring.Seated memory) (inside : slot < ring.capacity) :
    ∃ page, ring.buffers[slot]? = some page := by
  rw [← seated.buffers] at inside
  exact ⟨_, Array.getElem?_eq_getElem inside⟩

theorem mem_buffers (owned : ring.buffers[slot]? = some page) : page ∈ ring.buffers.toList := by
  rw [← Array.getElem?_toList] at owned
  exact List.mem_of_getElem? owned

theorem Seated.covers {memory : Memory} (seated : ring.Seated memory) (owned : ring.buffers[slot]? = some page)
    {length : Nat} (short : length ≤ Limits.receiveBuffer) : 0 + length ≤ (memory.page page).size := by
  rw [Nat.zero_add]
  exact Nat.le_trans short (seated.roomy page (mem_buffers owned))

/-! ### Handing slots back -/

/-- From one state of a ring and its machine to another, slots were handed back one after the other: each of them says
nothing any more but the address of its pool page, the device was told of each, and the cursor is behind the last.
Nothing else in the ring, in memory or in the device is different. -/
structure HandsBack (tell : δ → UInt32 → δ) (slots : List Nat) (before after : ReceiveRing × Machine δ) : Prop where
  table : after.1.table = before.1.table
  buffers : after.1.buffers = before.1.buffers
  cursor : after.1.cursor = (before.1.cursor + slots.length) % before.1.capacity
  handed : ∀ slot ∈ slots, ∃ page, before.1.buffers[slot]? = some page ∧
    before.1.table.cell after.2.memory slot = (ReceiveDescriptor.empty (before.2.memory.page page).base).encode
  kept : ∀ slot, slot ∉ slots → before.1.table.cell after.2.memory slot = before.1.table.cell before.2.memory slot
  pages : ∀ id, id ≠ before.1.table.page → after.2.memory.page id = before.2.memory.page id
  base : ∀ id, (after.2.memory.page id).base = (before.2.memory.page id).base
  size : ∀ id, (after.2.memory.page id).size = (before.2.memory.page id).size
  handles : ∀ id, after.2.memory.handles id = before.2.memory.handles id
  reachable : after.2.memory.reachable = before.2.memory.reachable
  device : after.2.device = tellSlots tell before.2.device slots

namespace HandsBack

variable {tell : δ → UInt32 → δ} {first second : List Nat} {before middle after : ReceiveRing × Machine δ}

theorem of_same (inside : before.1.cursor < before.1.capacity) (table : after.1.table = before.1.table)
    (buffers : after.1.buffers = before.1.buffers) (cursor : after.1.cursor = before.1.cursor)
    (memory : after.2.memory = before.2.memory) (device : after.2.device = before.2.device) :
    HandsBack tell [] before after where
  table := table
  buffers := buffers
  cursor := by rw [cursor, List.length_nil, Nat.add_zero, Nat.mod_eq_of_lt inside]
  handed _ none := by cases none
  kept _ _ := by rw [memory]
  pages _ _ := by rw [memory]
  base _ := by rw [memory]
  size _ := by rw [memory]
  handles _ := by rw [memory]
  reachable := by rw [memory]
  device := device

theorem trans (one : HandsBack tell first before middle) (other : HandsBack tell second middle after) :
    HandsBack tell (first ++ second) before after where
  table := other.table.trans one.table
  buffers := other.buffers.trans one.buffers
  cursor := by
    have capacity : middle.1.capacity = before.1.capacity := congrArg DescriptorTable.length one.table
    rw [other.cursor, one.cursor, capacity, Nat.mod_add_mod, List.length_append, Nat.add_assoc]
  handed slot listed := by
    have table := one.table
    -- A slot may be handed back twice, once round the ring; then its later descriptor stands.
    by_cases late : slot ∈ second
    · obtain ⟨page, owned, cell⟩ := other.handed slot late
      rw [one.buffers] at owned
      rw [table, one.base] at cell
      exact ⟨page, owned, cell⟩
    · have early := (List.mem_append.mp listed).resolve_right late
      obtain ⟨page, owned, cell⟩ := one.handed slot early
      have same := other.kept slot late
      rw [table] at same
      exact ⟨page, owned, same.trans cell⟩
  kept slot unlisted := by
    rw [List.mem_append, not_or] at unlisted
    have same := other.kept slot unlisted.2
    rw [one.table] at same
    exact same.trans (one.kept slot unlisted.1)
  pages id apart := by
    have same := other.pages id
    rw [one.table] at same
    exact (same apart).trans (one.pages id apart)
  base id := (other.base id).trans (one.base id)
  size id := (other.size id).trans (one.size id)
  handles id := (other.handles id).trans (one.handles id)
  reachable := other.reachable.trans one.reachable
  device := by rw [other.device, one.device, tellSlots, tellSlots, tellSlots, List.foldl_append]

theorem capacity (hands : HandsBack tell first before after) : after.1.capacity = before.1.capacity :=
  congrArg DescriptorTable.length hands.table

theorem buffer (hands : HandsBack tell first before after) (slot : Nat) :
    after.1.buffers[slot]? = before.1.buffers[slot]? := by
  rw [hands.buffers]

theorem holdings (hands : HandsBack tell first before after) : after.1.pages = before.1.pages := by
  rw [ReceiveRing.pages, ReceiveRing.pages, hands.table, hands.buffers]

theorem seated (hands : HandsBack tell first before after) (seated : before.1.Seated before.2.memory) :
    after.1.Seated after.2.memory where
  fits := by
    rw [hands.table]
    exact seated.fits.of_size (hands.size _)
  cursor := by
    rw [hands.cursor, hands.capacity]
    exact Nat.mod_lt _ (Nat.zero_lt_of_lt seated.cursor)
  buffers := by rw [hands.buffers, hands.capacity, seated.buffers]
  roomy page listed := by
    rw [hands.buffers] at listed
    rw [hands.size]
    exact seated.roomy page listed

theorem receiveCell (hands : HandsBack tell first before after) {slot : Nat} (unlisted : slot ∉ first) :
    after.1.table.receiveCell after.2.memory slot = before.1.table.receiveCell before.2.memory slot := by
  unfold DescriptorTable.receiveCell
  rw [hands.table, hands.kept slot unlisted]

end HandsBack

def afterRecycle (tell : δ → UInt32 → δ) (slot : Nat) (page : PageId) (state : ReceiveRing × Machine δ) :
    ReceiveRing × Machine δ :=
  let (ring, machine) := state
  let cursor := (slot + 1) % ring.capacity
  let frames := ring.counters.packets + 1
  ({ ring with cursor := cursor },
    { memory := machine.memory.overwrite ring.table.page (DescriptorTable.position slot)
        (ReceiveDescriptor.empty (machine.memory.page page).base).encode
      device := tell machine.device (UInt32.ofNat slot)
      log := if cursor = 0 then machine.log.push ⟨.debug, s!"[rx] cursor wrapped after {frames} frames"⟩
        else machine.log })

theorem hands_afterRecycle (tell : δ → UInt32 → δ) (seated : ring.Seated machine.memory)
    (owned : ring.buffers[ring.cursor]? = some page) :
    HandsBack tell [ring.cursor] (ring, machine) (afterRecycle tell ring.cursor page (ring, machine)) where
  table := rfl
  buffers := rfl
  cursor := rfl
  handed slot listed := by
    rw [List.mem_singleton.mp listed]
    refine ⟨page, owned, ?_⟩
    dsimp only [afterRecycle]
    rw [DescriptorTable.cell_overwrite seated.fits seated.cursor (ReceiveDescriptor.length_encode _), if_pos rfl]
  kept slot unlisted := by
    have other : slot ≠ ring.cursor := fun same => unlisted (List.mem_singleton.mpr same)
    dsimp only [afterRecycle]
    rw [DescriptorTable.cell_overwrite seated.fits seated.cursor (ReceiveDescriptor.length_encode _), if_neg other]
  pages id apart := (Memory.page_overwrite ..).trans (if_neg apart)
  base id := Memory.base_page_overwrite ..
  size id := Memory.size_page_overwrite ..
  handles id := Memory.handles_overwrite ..
  reachable := rfl
  device := rfl

def tallyDelivered (length : Nat) (counters : ReceiveCounters) : ReceiveCounters :=
  { counters with packets := counters.packets + 1, bytes := counters.bytes + length }

def afterDelivery (tell : δ → UInt32 → δ) (slot length : Nat) (page : PageId) (state : ReceiveRing × Machine δ) :
    ReceiveRing × Machine δ :=
  let (ring, machine) := afterRecycle tell slot page state
  ({ ring with counters := tallyDelivered length ring.counters },
    { machine with log := machine.log.push ⟨.trace, s!"[rx] delivered slot={slot} len={length}"⟩ })

theorem hands_afterDelivery (tell : δ → UInt32 → δ) (length : Nat) (seated : ring.Seated machine.memory)
    (owned : ring.buffers[ring.cursor]? = some page) :
    HandsBack tell [ring.cursor] (ring, machine) (afterDelivery tell ring.cursor length page (ring, machine)) := by
  have handed := hands_afterRecycle tell seated owned
  exact handed.trans (.of_same (handed.seated seated).cursor rfl rfl rfl rfl rfl)

/-! ### What the descriptors decide -/

/-- How many of the next `limit` slots from `slot` on hold spoiled frames, up to the first that does not. -/
def spoiledCount (ring : ReceiveRing) (memory : Memory) (slot limit : Nat) : Nat :=
  Ring.leading ring.capacity (fun slot => (ring.table.receiveCell memory slot).isSpoiled) slot limit

/-- What a slot without a spoiled frame comes to: it waits for the device, or holds a frame, or what can never be one. -/
def decision (descriptor : ReceiveDescriptor) (slot : Nat) : Except ReceiveError (Option (Nat × Nat)) :=
  if ¬ descriptor.status.isDone then .ok none
  else if ¬ descriptor.status.endsFrame then .error (.fragmented slot)
  else if Limits.receiveBuffer < descriptor.length.toNat then
    .error (.lengthOverflow slot descriptor.length.toNat)
  else .ok (some (slot, descriptor.length.toNat))

/-- The first slot without a spoiled frame decides, if there is one among the next `limit`. -/
def verdict (ring : ReceiveRing) (memory : Memory) (limit : Nat) : Except ReceiveError (Option (Nat × Nat)) :=
  let dropped := ring.spoiledCount memory ring.cursor limit
  let slot := (ring.cursor + dropped) % ring.capacity
  if dropped = limit then .ok none else decision (ring.table.receiveCell memory slot) slot

variable {memory later : Memory} {limit : Nat}

/-- Behind a spoiled frame that was handed back the others are as they were. -/
theorem verdict_behind (seated : ring.Seated memory) (once : limit < ring.capacity)
    (spoiled : (ring.table.receiveCell memory ring.cursor).isSpoiled = true) {ring' : ReceiveRing}
    (table : ring'.table = ring.table) (cursor : ring'.cursor = (ring.cursor + 1) % ring.capacity)
    (same : ∀ place, place ≠ ring.cursor →
      ring'.table.receiveCell later place = ring.table.receiveCell memory place) :
    ring.spoiledCount memory ring.cursor (limit + 1) = ring'.spoiledCount later ring'.cursor limit + 1 ∧
      ring.verdict memory (limit + 1) = ring'.verdict later limit := by
  have capacity : ring'.capacity = ring.capacity := congrArg DescriptorTable.length table
  have behind : ring.cursor ∉ Ring.arc ring.capacity ring'.cursor limit := by
    rw [cursor]
    exact Ring.start_not_mem_arc seated.cursor once
  -- The slots that are looked at now do not come round to the one handed back.
  have count : ring'.spoiledCount later ring'.cursor limit = ring.spoiledCount memory ring'.cursor limit := by
    unfold spoiledCount
    rw [capacity]
    exact Ring.leading_congr fun place listed => by rw [same place (ne_of_mem_of_not_mem listed behind)]
  have longer : ring.spoiledCount memory ring.cursor (limit + 1) = ring'.spoiledCount later ring'.cursor limit + 1 := by
    rw [spoiledCount, Ring.leading, if_pos spoiled, ← cursor, count, spoiledCount]
  refine ⟨longer, ?_⟩
  have short : ring'.spoiledCount later ring'.cursor limit ≤ limit := Ring.leading_le ..
  unfold verdict
  rw [longer, capacity]
  -- Either all slots are spoiled, or both sides stop at the same one.
  by_cases all : ring'.spoiledCount later ring'.cursor limit = limit
  · rw [if_pos all, if_pos (by omega)]
  · have place : (ring.cursor + (ring'.spoiledCount later ring'.cursor limit + 1)) % ring.capacity =
        (ring'.cursor + ring'.spoiledCount later ring'.cursor limit) % ring.capacity := by
      rw [cursor, Ring.succ_mod_add]
    have onward : ring'.cursor < ring.capacity := by
      rw [cursor]
      exact Nat.mod_lt _ (by omega)
    have listed := Ring.mem_arc_of_lt onward (show ring'.spoiledCount later ring'.cursor limit < limit by omega)
    rw [if_neg all, if_neg (by omega), place, same _ (ne_of_mem_of_not_mem listed behind)]

theorem verdict_here (seated : ring.Seated memory)
    (good : (ring.table.receiveCell memory ring.cursor).isSpoiled = false) (limit : Nat) :
    ring.spoiledCount memory ring.cursor (limit + 1) = 0 ∧
      ring.verdict memory (limit + 1) = decision (ring.table.receiveCell memory ring.cursor) ring.cursor := by
  have none : ring.spoiledCount memory ring.cursor (limit + 1) = 0 := by
    rw [spoiledCount, Ring.leading, if_neg (ne_true_of_eq_false good)]
  refine ⟨none, ?_⟩
  unfold verdict
  rw [none, if_neg (Nat.succ_ne_zero limit).symm, Nat.add_zero, Nat.mod_eq_of_lt seated.cursor]

/-! ### Looking for a good frame -/

def tallyDropped (dropped : Nat) (counters : ReceiveCounters) : ReceiveCounters :=
  { counters with dropped := counters.dropped + dropped }

variable {tell : δ → UInt32 → δ}

/-- Between two states the spoiled frames among the next `limit` slots were handed back and counted. -/
structure Skips (tell : δ → UInt32 → δ) (limit : Nat) (before after : ReceiveRing × Machine δ) : Prop where
  hands : HandsBack tell (Ring.arc before.1.capacity before.1.cursor
    (before.1.spoiledCount before.2.memory before.1.cursor limit)) before after
  counters : after.1.counters =
    tallyDropped (before.1.spoiledCount before.2.memory before.1.cursor limit) before.1.counters

theorem HandsBack.skips {after : ReceiveRing × Machine δ} {middle : ReceiveRing × Machine δ}
    (handed : HandsBack tell [ring.cursor] (ring, machine) middle)
    (longer : ring.spoiledCount machine.memory ring.cursor (limit + 1) =
      middle.1.spoiledCount middle.2.memory middle.1.cursor limit + 1)
    (counted : middle.1.counters = tallyDropped 1 ring.counters) (skips : Skips tell limit middle after) :
    Skips tell (limit + 1) (ring, machine) after where
  hands := by
    have later := skips.hands
    have cursor : middle.1.cursor = (ring.cursor + 1) % ring.capacity := handed.cursor
    rw [handed.capacity] at later
    rw [longer, Ring.arc, ← cursor]
    exact handed.trans later
  counters := by
    rw [skips.counters, counted, longer]
    simp only [tallyDropped, ReceiveCounters.mk.injEq, true_and]
    omega

theorem skips_here (tell : δ → UInt32 → δ) (seated : ring.Seated machine.memory)
    (good : (ring.table.receiveCell machine.memory ring.cursor).isSpoiled = false) (limit : Nat) :
    Skips tell (limit + 1) (ring, machine) (ring, machine) := by
  have none := (verdict_here seated good limit).1
  refine ⟨?_, ?_⟩
  · rw [none]
    exact .of_same seated.cursor rfl rfl rfl rfl rfl
  · rw [none]
    rfl

variable [RegisterBus δ] {reached : δ → Prop}

theorem ends_buffer {σ : Type} {state : σ} {good : PageId → σ → Prop} {bad : Stop ε → σ → Prop}
    (owned : ring.buffers[slot]? = some page) :
    (Step.inspect fun _ => ring.buffer slot).Ends state good bad ↔ good page state := by
  have found : ring.buffer slot = .ok page := by rw [buffer, owned]
  rw [Step.ends_inspect, found]
  simp

theorem recycle_ends {good : Unit → ReceiveRing × Machine δ → Prop} {bad : Stop ε → ReceiveRing × Machine δ → Prop}
    (port : Register.receiveTail.Port reached tell) (near : reached machine.device)
    (fits : ring.table.Fits machine.memory) (inside : slot < ring.capacity) (owned : ring.buffers[slot]? = some page)
    (yields : good () (afterRecycle tell slot page (ring, machine))) : (recycle slot).Ends (ring, machine) good bad := by
  dsimp only [afterRecycle] at yields
  unfold recycle
  simp only [Step.ends_bind, Step.ends_get, ends_buffer owned, Step.ends_second, Machine.ends_baseOf,
    DescriptorTable.ends_writeReceive fits inside]
  rw [port.ends_write ?near]
  case near => exact near
  simp only [Step.ends_first, Step.ends_modify, Step.ends_ite, Step.ends_second, Machine.ends_note, Step.ends_pure]
  constructor
  case left =>
    intro front
    rwa [if_pos front] at yields
  case right =>
    intro onward
    rwa [if_neg onward] at yields

/-- The slot at the cursor decides, unless its frame is spoiled: then the slot is handed back, and seeking goes on. -/
theorem ends_seek_succ {good : Option (Nat × Nat) → ReceiveRing × Machine δ → Prop}
    {bad : Stop ReceiveError → ReceiveRing × Machine δ → Prop} (fits : ring.table.Fits machine.memory)
    (inside : ring.cursor < ring.capacity)
    (decides : (ring.table.receiveCell machine.memory ring.cursor).isSpoiled = false →
      match decision (ring.table.receiveCell machine.memory ring.cursor) ring.cursor with
      | .ok found => good found (ring, machine)
      | .error error => bad (.refused error) (ring, machine))
    (drops : (ring.table.receiveCell machine.memory ring.cursor).isSpoiled = true → ∀ log,
      (recycle ring.cursor).Ends ({ ring with counters := tallyDropped 1 ring.counters }, { machine with log := log })
        (fun _ after => (seek limit).Ends after good bad) bad) :
    (seek (limit + 1)).Ends (ring, machine) good bad := by
  unfold ReceiveDescriptor.isSpoiled decision at decides
  unfold ReceiveDescriptor.isSpoiled at drops
  unfold seek isReady
  simp only [Step.ends_bind, Step.ends_get, Step.ends_second, DescriptorTable.ends_receiveStatus fits inside,
    DescriptorTable.ends_readReceive fits inside, Step.ends_pure, Step.ends_ite, Step.ends_refuse, count,
    Step.ends_first, Step.ends_modify, Machine.ends_note]
  -- The checks come in the order in which they are made.
  refine ⟨fun waiting => ?_, fun ready => ⟨fun unended => ?_, fun ended => ⟨fun spoiled => ?_, fun clean => ?_⟩⟩⟩
  · simpa [waiting] using decides
  · simpa [ready, unended] using decides
  · rw [not_not] at ready ended
    exact drops (by rw [ready, ended, spoiled]; rfl) _
  · refine ⟨fun long => ?_, fun short => ?_⟩
    · simpa [ready, ended, clean, long] using decides
    · simpa [ready, ended, clean, short] using decides

/-- Seeking hands back the spoiled frames, and then the first other slot decides. -/
theorem seek_ends (port : Register.receiveTail.Port reached tell) (near : reached machine.device)
    (seated : ring.Seated machine.memory) (once : limit ≤ ring.capacity) :
    (seek limit).Ends (ring, machine)
      (fun found after => ring.verdict machine.memory limit = .ok found ∧ Skips tell limit (ring, machine) after)
      (fun stop after => (∃ error, stop = .refused error ∧ ring.verdict machine.memory limit = .error error) ∧
        Skips tell limit (ring, machine) after) := by
  induction limit generalizing ring machine with
  | zero => exact ⟨rfl, .of_same seated.cursor rfl rfl rfl rfl rfl, rfl⟩
  | succ limit ih =>
    refine ends_seek_succ seated.fits seated.cursor (fun good => ?_) (fun spoiled log => ?_)
    · have skips := skips_here tell seated good limit
      rw [(verdict_here seated good limit).2]
      cases decision (ring.table.receiveCell machine.memory ring.cursor) ring.cursor with
      | ok found => exact ⟨rfl, skips⟩
      | error error => exact ⟨⟨error, rfl, rfl⟩, skips⟩
    · -- The slot goes back, and the others are looked at as they were before.
      obtain ⟨page, owned⟩ := seated.exists_buffer seated.cursor
      have counted : HandsBack tell [] (ring, machine)
          ({ ring with counters := tallyDropped 1 ring.counters }, { machine with log := log }) :=
        .of_same seated.cursor rfl rfl rfl rfl rfl
      have handed := counted.trans (hands_afterRecycle tell (counted.seated seated) owned)
      refine recycle_ends port near seated.fits seated.cursor owned ?_
      rw [List.nil_append] at handed
      obtain ⟨longer, verdict⟩ := verdict_behind seated once spoiled handed.table rfl fun place apart =>
        handed.receiveCell fun listed => apart (List.mem_singleton.mp listed)
      have onward := ih (port.stays _ _ near) (handed.seated seated) (Nat.le_of_succ_le once)
      rw [verdict]
      refine onward.mono (fun found last ⟨decided, skips⟩ => ⟨decided, handed.skips longer rfl skips⟩)
        fun stop last ⟨decided, skips⟩ => ⟨decided, handed.skips longer rfl skips⟩

variable {middle : ReceiveRing × Machine δ}

theorem seek_of_verdict_ok (port : Register.receiveTail.Port reached tell) (near : reached machine.device)
    (seated : ring.Seated machine.memory) {found : Option (Nat × Nat)}
    (decided : ring.verdict machine.memory ring.capacity = .ok found) :
    ∃ middle, seek (max 1 ring.capacity) (ring, machine) = .ok found middle ∧
      Skips tell ring.capacity (ring, machine) middle := by
  rw [Nat.max_eq_right (Nat.one_le_iff_ne_zero.mpr (Nat.ne_zero_of_lt seated.cursor))]
  have ends : (seek ring.capacity).Ends (ring, machine)
      (fun value after => value = found ∧ Skips tell ring.capacity (ring, machine) after) (fun _ _ => False) := by
    refine (seek_ends port near seated (Nat.le_refl _)).mono ?_ ?_
    · rintro value after ⟨told, skips⟩
      rw [decided] at told
      exact ⟨(Except.ok.inj told).symm, skips⟩
    · rintro stop after ⟨⟨error, -, told⟩, -⟩
      rw [decided] at told
      cases told
  obtain ⟨value, after, sought, rfl, skips⟩ := ends.exists_ok
  exact ⟨after, sought, skips⟩

theorem seek_of_verdict_error (port : Register.receiveTail.Port reached tell) (near : reached machine.device)
    (seated : ring.Seated machine.memory) {error : ReceiveError}
    (decided : ring.verdict machine.memory ring.capacity = .error error) :
    ∃ middle, seek (max 1 ring.capacity) (ring, machine) = .error (.refused error) middle ∧
      Skips tell ring.capacity (ring, machine) middle := by
  rw [Nat.max_eq_right (Nat.one_le_iff_ne_zero.mpr (Nat.ne_zero_of_lt seated.cursor))]
  have ends : (seek ring.capacity).Ends (ring, machine) (fun _ _ => False)
      (fun stop after => stop = .refused error ∧ Skips tell ring.capacity (ring, machine) after) := by
    refine (seek_ends port near seated (Nat.le_refl _)).mono ?_ ?_
    · rintro value after ⟨told, -⟩
      rw [decided] at told
      cases told
    · rintro stop after ⟨⟨other, rfl, told⟩, skips⟩
      rw [decided] at told
      cases told
      exact ⟨rfl, skips⟩
  obtain ⟨stop, after, sought, rfl, skips⟩ := ends.exists_error
  exact ⟨after, sought, skips⟩

/-! ### Taking a frame -/

variable {deliver : PageId → Nat → Step ReceiveError (Machine δ) α} {length : Nat}

theorem take_of_none (sought : seek (max 1 ring.capacity) (ring, machine) = .ok none middle) :
    take deliver (ring, machine) = .ok none middle := by
  apply Step.Ends.eq_ok
  unfold take
  rw [Step.ends_bind, Step.ends_get, Step.ends_bind, Step.ends_of_ok sought]
  exact ⟨rfl, rfl⟩

theorem take_of_stop {stop : Stop ReceiveError}
    (sought : seek (max 1 ring.capacity) (ring, machine) = .error stop middle) :
    take deliver (ring, machine) = .error stop middle := by
  apply Step.Ends.eq_error
  unfold take
  rw [Step.ends_bind, Step.ends_get, Step.ends_bind, Step.ends_of_error sought]
  exact ⟨rfl, rfl⟩

theorem take_of_some (port : Register.receiveTail.Port reached tell) (seated : middle.1.Seated middle.2.memory)
    (owned : middle.1.buffers[middle.1.cursor]? = some page)
    (sought : seek (max 1 ring.capacity) (ring, machine) = .ok (some (middle.1.cursor, length)) middle) {value : α}
    {ended : Machine δ} (delivers : deliver page length middle.2 = .ok value ended) (near : reached ended.device)
    (fits : middle.1.table.Fits ended.memory) :
    take deliver (ring, machine) =
      .ok (some value) (afterDelivery tell middle.1.cursor length page (middle.1, ended)) := by
  apply Step.Ends.eq_ok
  unfold take
  rw [Step.ends_bind, Step.ends_get, Step.ends_bind, Step.ends_of_ok sought]
  dsimp only
  rw [Step.ends_bind, Step.ends_get, Step.ends_bind, ends_buffer owned, Step.ends_bind, Step.ends_second,
    Step.ends_of_ok delivers, Step.ends_bind]
  refine recycle_ends port near fits seated.cursor owned ?_
  unfold count
  rw [Step.ends_bind, Step.ends_first, Step.ends_modify, Step.ends_bind, Step.ends_second, Machine.ends_note,
    Step.ends_pure]
  exact ⟨rfl, rfl⟩

theorem receive_of_some (port : Register.receiveTail.Port reached tell) (near : reached middle.2.device)
    (seated : middle.1.Seated middle.2.memory) (owned : middle.1.buffers[middle.1.cursor]? = some page)
    (sought : seek (max 1 ring.capacity) (ring, machine) = .ok (some (middle.1.cursor, length)) middle)
    (short : length ≤ Limits.receiveBuffer) :
    receive (ring, machine) =
      .ok (some (middle.2.memory.slice page 0 length)) (afterDelivery tell middle.1.cursor length page middle) := by
  refine take_of_some port seated owned sought ?_ near seated.fits
  apply Step.Ends.eq_ok
  rw [if_neg (Nat.not_lt.mpr short), Machine.ends_readBytes (seated.covers owned short)]
  exact ⟨rfl, rfl⟩

/-- What a poll comes to: the spoiled frames from the cursor on go back to the device, and then the first other slot is
waited for, or is an error, or holds the frame. -/
theorem receive_decided (port : Register.receiveTail.Port reached tell) (near : reached machine.device)
    (seated : ring.Seated machine.memory) (apart : ring.table.page ∉ ring.buffers.toList) :
    let dropped := ring.spoiledCount machine.memory ring.cursor ring.capacity
    let slot := (ring.cursor + dropped) % ring.capacity
    let descriptor := ring.table.receiveCell machine.memory slot
    dropped ≤ ring.capacity ∧
    (∀ i < dropped,
      (ring.table.receiveCell machine.memory ((ring.cursor + i) % ring.capacity)).isSpoiled = true) ∧
    (dropped < ring.capacity → descriptor.isSpoiled = false) ∧
    (dropped = ring.capacity ∨ descriptor.status.isDone = false →
      ∃ after, receive (ring, machine) = .ok none after ∧ Skips tell ring.capacity (ring, machine) after) ∧
    (dropped < ring.capacity → descriptor.status.isDone = true →
      (descriptor.status.endsFrame = false →
        ∃ after, receive (ring, machine) = .error (.refused (.fragmented slot)) after ∧
          Skips tell ring.capacity (ring, machine) after ∧ after.1.cursor = slot) ∧
      (descriptor.status.endsFrame = true → Limits.receiveBuffer < descriptor.length.toNat →
        ∃ after, receive (ring, machine) =
            .error (.refused (.lengthOverflow slot descriptor.length.toNat)) after ∧
          Skips tell ring.capacity (ring, machine) after ∧ after.1.cursor = slot) ∧
      (descriptor.status.endsFrame = true → descriptor.length.toNat ≤ Limits.receiveBuffer →
        ∃ page after, ring.buffers[slot]? = some page ∧
          receive (ring, machine) = .ok (some (machine.memory.slice page 0 descriptor.length.toNat)) after ∧
          HandsBack tell (Ring.arc ring.capacity ring.cursor (dropped + 1)) (ring, machine) after ∧
          after.1.counters = tallyDelivered descriptor.length.toNat (tallyDropped dropped ring.counters))) := by
  intro dropped slot descriptor
  have here : dropped = ring.spoiledCount machine.memory ring.cursor ring.capacity := rfl
  have bounded : dropped ≤ ring.capacity := Ring.leading_le ..
  have decides (short : dropped < ring.capacity) :
      ring.verdict machine.memory ring.capacity = decision descriptor slot := by
    rw [verdict, ← here, if_neg (Nat.ne_of_lt short)]
  have stays {after : ReceiveRing × Machine δ} (skips : Skips tell ring.capacity (ring, machine) after) :
      after.1.cursor = slot := by
    rw [skips.hands.cursor, Ring.length_arc]
  refine ⟨bounded, fun i early => Ring.holds_of_lt_leading seated.cursor early,
    fun short => Ring.not_holds_of_leading_lt seated.cursor short, fun waits => ?_, fun short done => ⟨fun open_ => ?_,
      fun ended long => ?_, fun ended fits => ?_⟩⟩
  · have nothing : ring.verdict machine.memory ring.capacity = .ok none := by
      by_cases all : dropped = ring.capacity
      · rw [verdict, ← here, if_pos all]
      · rw [decides (Nat.lt_of_le_of_ne bounded all), decision, if_pos (by simpa using waits.resolve_left all)]
    obtain ⟨after, sought, skips⟩ := seek_of_verdict_ok port near seated nothing
    exact ⟨after, take_of_none sought, skips⟩
  · have fragment : ring.verdict machine.memory ring.capacity = .error (.fragmented slot) := by
      rw [decides short]
      simp [decision, done, open_]
    obtain ⟨after, sought, skips⟩ := seek_of_verdict_error port near seated fragment
    exact ⟨after, take_of_stop sought, skips, stays skips⟩
  · have overflow : ring.verdict machine.memory ring.capacity =
        .error (.lengthOverflow slot descriptor.length.toNat) := by
      rw [decides short]
      simp [decision, done, ended, long]
    obtain ⟨after, sought, skips⟩ := seek_of_verdict_error port near seated overflow
    exact ⟨after, take_of_stop sought, skips, stays skips⟩
  · have frame : ring.verdict machine.memory ring.capacity = .ok (some (slot, descriptor.length.toNat)) := by
      rw [decides short]
      simp [decision, done, ended, Nat.not_lt.mpr fits]
    obtain ⟨middle, sought, skips⟩ := seek_of_verdict_ok port near seated frame
    have later := skips.hands.seated seated
    have onward : middle.1.cursor = slot := stays skips
    obtain ⟨page, owned⟩ := later.exists_buffer later.cursor
    have pool : ring.buffers[slot]? = some page := by
      rw [← onward, ← owned]
      exact (skips.hands.buffer _).symm
    -- Handing back writes the table alone, so the frame is the one that the device wrote.
    have bytes : middle.2.memory.page page = machine.memory.page page :=
      skips.hands.pages page (ne_of_mem_of_not_mem (mem_buffers pool) apart)
    rw [← onward] at sought
    have taken := receive_of_some port (skips.hands.device ▸ port.tellSlots_stays near _) later owned sought fits
    rw [Memory.slice, bytes] at taken
    have handed := skips.hands.trans (hands_afterDelivery tell descriptor.length.toNat later owned)
    rw [onward, ← Ring.arc_succ_last seated.cursor, ← onward] at handed
    exact ⟨page, _, pool, taken, handed, congrArg (tallyDelivered _) skips.counters⟩

def polledMachine : Machine Recorder where
  memory :=
    { pages :=
        #[⟨0x1000, (({ address := 0x2000, length := 3, status := .complete } : ReceiveDescriptor).encode ++
            ({ address := 0x3000, length := 9, status := .complete, errors := ⟨0x80⟩ } :
              ReceiveDescriptor).encode).toArray, 1⟩,
          (⟨0x2000, Array.replicate 2048 0, 1⟩ : Page).overwrite 0 [7, 8, 9],
          ⟨0x3000, Array.replicate 2048 0, 1⟩, ⟨0x4000, Array.replicate 4096 0, 1⟩] }
  device := .empty

def polledRing : ReceiveRing :=
  ⟨⟨⟨0⟩, 2⟩, #[⟨1⟩, ⟨2⟩], 1, {}⟩

theorem polledRing_seated : polledRing.Seated polledMachine.memory where
  fits := by unfold DescriptorTable.Fits; decide
  cursor := by decide
  buffers := by decide
  roomy := by simp [polledRing, polledMachine, Memory.page, Page.overwrite, Page.size, Limits.receiveBuffer]

theorem receive_decided_past_spoiled :
    ∃ after, receive (polledRing, polledMachine) = .ok (some [7, 8, 9]) after ∧
      HandsBack (fun recorder : Recorder => recorder.store Register.receiveTail.offset) [1, 0]
        (polledRing, polledMachine) after ∧
      after.1.counters = { packets := 1, bytes := 3, dropped := 1 } := by
  have dropped : polledRing.spoiledCount polledMachine.memory polledRing.cursor polledRing.capacity = 1 := by decide
  have cell : polledRing.table.receiveCell polledMachine.memory ((polledRing.cursor + 1) % polledRing.capacity) =
      { address := 0x2000, length := 3, status := .complete } := by decide
  have decided := receive_decided (Recorder.port .receiveTail) trivial polledRing_seated (by decide)
  dsimp only at decided
  rw [dropped, cell] at decided
  obtain ⟨page, after, owned, received, hands, counters⟩ :=
    (decided.2.2.2.2 (by decide) (by decide)).2.2 (by decide) (by decide)
  have first : page = ⟨1⟩ := (Option.some.inj owned).symm
  have bytes : polledMachine.memory.slice ⟨1⟩ 0 3 = [7, 8, 9] := Page.slice_overwrite (by simp [Page.size])
  rw [first] at received
  exact ⟨after, bytes ▸ received, hands, counters⟩

end ReceiveRing

end PacketPath
