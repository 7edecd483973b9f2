import PacketPath.Ring.Transmit
import PacketPath.Proofs.Descriptor.Cells
import PacketPath.Proofs.Host.Sides
import PacketPath.Proofs.Memory.Alike
import PacketPath.Proofs.Register.Port
import PacketPath.Proofs.Ring.Arc

/-! What the steps of a transmit ring change, whatever stands in its table. They write no page but
the table's own, and every handle that the ring takes or gives back is the one of a slot. -/

set_option autoImplicit false

namespace PacketPath.TransmitRing

variable {ring : TransmitRing} {memory : Memory} {machine : Machine Emulator} {slot : Nat} {page : PageId}

structure Seated (ring : TransmitRing) (memory : Memory) : Prop where
  fits : ring.table.Fits memory
  knows : memory.Knows ring.table.page
  bindings : ring.bindings.size = ring.capacity
  tail : ring.tail < ring.capacity

theorem Seated.tail_bound {memory : Memory} (seated : ring.Seated memory) : ring.tail < ring.bindings.size := by
  rw [seated.bindings]
  exact seated.tail

theorem next_lt (inside : slot < ring.capacity) : ring.next slot < ring.capacity :=
  Nat.mod_lt _ (by omega)

/-! ### Pages of slots -/

theorem perm_filterMap_unset {slots : List (Option PageId)} (bound : slots[slot]? = some (some page)) :
    (slots.filterMap id).Perm (page :: (slots.set slot none).filterMap id) := by
  induction slots generalizing slot with
  | nil => simp at bound
  | cons first rest ih =>
    cases slot with
    | zero =>
      have here : first = some page := by simpa using bound
      simp [here]
    | succ slot =>
      have later := ih (by simpa using bound)
      cases first with
      | none => simpa using later
      | some other => simpa using (later.cons other).trans (List.Perm.swap ..)

theorem perm_filterMap_set {slots : List (Option PageId)} (free : slots[slot]? = some none) :
    ((slots.set slot (some page)).filterMap id).Perm (page :: slots.filterMap id) := by
  induction slots generalizing slot with
  | nil => simp at free
  | cons first rest ih =>
    cases slot with
    | zero =>
      have here : first = none := by simpa using free
      simp [here]
    | succ slot =>
      have later := ih (by simpa using free)
      cases first with
      | none => simpa using later
      | some other => simpa using (later.cons other).trans (List.Perm.swap ..)

theorem binding_eq_some_iff : ring.binding slot = some page ↔ ring.bindings[slot]? = some (some page) := by
  unfold binding
  rcases ring.bindings[slot]? with _ | _ | other <;> simp

def unbound (ring : TransmitRing) (slot : Nat) : TransmitRing :=
  { ring with bindings := ring.bindings.setIfInBounds slot none }

def bound (ring : TransmitRing) (slot : Nat) (page : PageId) : TransmitRing :=
  { ring with bindings := ring.bindings.setIfInBounds slot (some page) }

theorem perm_pages_unbound (held : ring.binding slot = some page) :
    ring.pages.Perm (page :: (ring.unbound slot).pages) := by
  have kept := binding_eq_some_iff.mp held
  rw [← Array.getElem?_toList] at kept
  unfold pages unbound
  rw [Array.toList_setIfInBounds]
  exact ((perm_filterMap_unset kept).cons _).trans (List.Perm.swap ..)

theorem perm_pages_bound (free : ring.binding slot = none) (inside : slot < ring.bindings.size) :
    (ring.bound slot page).pages.Perm (page :: ring.pages) := by
  have empty : ring.bindings.toList[slot]? = some none := by
    unfold binding at free
    rw [Array.getElem?_eq_getElem inside] at free
    rw [Array.getElem?_toList, Array.getElem?_eq_getElem inside]
    simpa using free
  unfold pages bound
  rw [Array.toList_setIfInBounds]
  exact ((perm_filterMap_set empty).cons _).trans (List.Perm.swap ..)

theorem binding_unbound (ring : TransmitRing) (slot other : Nat) :
    (ring.unbound slot).binding other = if other = slot then none else ring.binding other := by
  unfold binding unbound
  dsimp only
  rw [Array.getElem?_setIfInBounds]
  by_cases same : slot = other
  · subst same
    by_cases inside : slot < ring.bindings.size <;> simp [inside]
  · rw [if_neg same, if_neg (Ne.symm same)]

theorem binding_bound (inside : slot < ring.bindings.size) (page : PageId) (other : Nat) :
    (ring.bound slot page).binding other = if other = slot then some page else ring.binding other := by
  unfold binding bound
  dsimp only
  rw [Array.getElem?_setIfInBounds]
  by_cases same : slot = other
  · subst same
    simp [inside]
  · rw [if_neg same, if_neg (Ne.symm same)]

/-! ### Giving a page back -/

def tally (status : TransmitStatus) (counters : TransmitCounters) : TransmitCounters :=
  { counters with
    collisions := if status.hasCollision then counters.collisions + 1 else counters.collisions
    underruns := if status.hasUnderrun then counters.underruns + 1 else counters.underruns
    released := counters.released + 1 }

def freed (ring : TransmitRing) (slot : Nat) (status : TransmitStatus) : TransmitRing :=
  match ring.binding slot with
  | none => ring
  | some _ => { ring.unbound slot with counters := tally status ring.counters }

/-- The page of a slot, as a list of at most one. -/
def slotPages (ring : TransmitRing) (slot : Nat) : List PageId :=
  (ring.binding slot).toList

@[simp] theorem table_freed (ring : TransmitRing) (slot : Nat) (status : TransmitStatus) :
    (ring.freed slot status).table = ring.table := by
  unfold freed
  split <;> rfl

@[simp] theorem tail_freed (ring : TransmitRing) (slot : Nat) (status : TransmitStatus) :
    (ring.freed slot status).tail = ring.tail := by
  unfold freed
  split <;> rfl

@[simp] theorem size_bindings_freed (ring : TransmitRing) (slot : Nat) (status : TransmitStatus) :
    (ring.freed slot status).bindings.size = ring.bindings.size := by
  unfold freed
  split
  · rfl
  · simp [unbound]

theorem binding_freed (ring : TransmitRing) (slot other : Nat) (status : TransmitStatus) :
    (ring.freed slot status).binding other = if other = slot then none else ring.binding other := by
  unfold freed
  split
  case h_1 free =>
    split
    case isTrue same => rw [same, free]
    case isFalse => rfl
  case h_2 => exact binding_unbound ring slot other

theorem perm_pages_freed (ring : TransmitRing) (slot : Nat) (status : TransmitStatus) :
    ring.pages.Perm (ring.slotPages slot ++ (ring.freed slot status).pages) := by
  unfold slotPages freed
  split
  case h_1 free => rw [free]; exact List.Perm.refl _
  case h_2 page held => rw [held]; exact perm_pages_unbound held

theorem release_ends {δ ε : Type} {machine : Machine δ} {good : Unit → TransmitRing × Machine δ → Prop}
    {bad : Stop ε → TransmitRing × Machine δ → Prop} (fits : ring.table.Fits machine.memory)
    (inside : slot < ring.capacity)
    (yields : ∀ log, good () (ring.freed slot (ring.table.transmitCell machine.memory slot).status,
      { machine with memory := machine.memory.releaseAll (ring.slotPages slot), log := log })) :
    (release slot).Ends (ring, machine) good bad := by
  unfold release
  unfold freed slotPages at yields
  simp only [Step.ends_bind, Step.ends_get]
  cases held : ring.binding slot with
  | none =>
    rw [held] at yields
    exact yields machine.log
  | some page =>
    simp only [held] at yields
    simp only [setBinding, count, Step.ends_bind, Step.ends_first, Step.ends_second, Step.ends_modify,
      DescriptorTable.ends_transmitStatus fits inside, Step.ends_ite, Machine.ends_note, Machine.ends_baseOf,
      Machine.ends_release]
    unfold tally at yields
    -- The status decides what is counted and noted, nothing else.
    constructor
    · intro collided
      rw [if_pos collided] at yields
      constructor
      · intro starved
        rw [if_pos starved] at yields
        exact yields _
      · intro fed
        rw [if_neg fed] at yields
        exact yields _
    · intro clear
      rw [if_neg clear] at yields
      constructor
      · intro starved
        rw [if_pos starved] at yields
        exact yields _
      · intro fed
        rw [if_neg fed] at yields
        exact yields _

/-! ### Reclaiming -/

theorem capacity_freed (ring : TransmitRing) (slot : Nat) (status : TransmitStatus) :
    (ring.freed slot status).capacity = ring.capacity :=
  congrArg DescriptorTable.length (table_freed ring slot status)

theorem Seated.freed (seated : ring.Seated memory) (slot : Nat) (status : TransmitStatus) :
    (ring.freed slot status).Seated (memory.releaseAll (ring.slotPages slot)) := by
  have changes := Memory.changes_releaseAll (fun _ => False) memory (ring.slotPages slot)
  exact
    { fits := by
        rw [table_freed]
        exact seated.fits.of_changes changes seated.knows
      knows := by
        rw [table_freed]
        exact changes.knows _ seated.knows
      bindings := by rw [size_bindings_freed, capacity_freed, seated.bindings]
      tail := by
        rw [tail_freed, capacity_freed]
        exact seated.tail }

section

variable {δ ε : Type} {machine : Machine δ} {count : Nat}

/-- A slot that is done gives its page back, and every other slot is passed over. -/
theorem ends_reclaimFrom_succ {good : Nat → TransmitRing × Machine δ → Prop}
    {bad : Stop ε → TransmitRing × Machine δ → Prop} (fits : ring.table.Fits machine.memory)
    (inside : slot < ring.capacity)
    (freed : (ring.table.transmitCell machine.memory slot).status.isDone = true → ∀ log,
      (reclaimFrom (slot + 1) count).Ends
        (ring.freed slot (ring.table.transmitCell machine.memory slot).status,
          { machine with memory := machine.memory.releaseAll (ring.slotPages slot), log := log })
        (fun more => good (more + 1)) bad)
    (skipped : ((ring.table.transmitCell machine.memory slot).status.isDone = true → ring.binding slot = none) →
      (reclaimFrom (slot + 1) count).Ends (ring, machine) good bad) :
    (reclaimFrom slot (count + 1)).Ends (ring, machine) good bad := by
  unfold reclaimFrom
  simp only [Step.ends_bind, Step.ends_get, Step.ends_ite, Step.ends_second,
    DescriptorTable.ends_transmitStatus fits inside, Step.ends_pure]
  refine ⟨fun _ => ⟨fun done => ?_, fun busy => skipped fun done => absurd done busy⟩,
    fun empty => ⟨fun never => absurd never Bool.false_ne_true, fun _ => skipped fun _ => by simpa using empty⟩⟩
  exact release_ends fits inside (freed done)

variable {kept : TransmitRing × Machine δ → Prop}

theorem reclaimFrom_ends (seated : ring.Seated machine.memory)
    (frees : ∀ (ring : TransmitRing) (machine : Machine δ) slot log, ring.Seated machine.memory →
      slot < ring.capacity → (ring.table.transmitCell machine.memory slot).status.isDone = true →
      kept (ring, machine) → kept (ring.freed slot (ring.table.transmitCell machine.memory slot).status,
        { machine with memory := machine.memory.releaseAll (ring.slotPages slot), log := log }))
    (start : kept (ring, machine)) (slot : Nat) (inside : slot + count ≤ ring.capacity) :
    (reclaimFrom slot count : Step ε _ _).Ends (ring, machine) (fun _ => kept) (fun _ _ => False) := by
  induction count generalizing slot ring machine with
  | zero => exact start
  | succ count ih =>
    have here : slot < ring.capacity := by omega
    refine ends_reclaimFrom_succ seated.fits here (fun done log => ?_) fun _ => ih seated start _ (by omega)
    have room : slot + 1 + count ≤ (ring.freed slot (ring.table.transmitCell machine.memory slot).status).capacity := by
      rw [capacity_freed]
      omega
    exact ih (seated.freed ..) (frees ring machine slot log seated here done start) _ room

/-- What holds of a ring, and still holds when a finished slot gives its page back or a line is noted, holds when the
ring was reclaimed. -/
theorem reclaim_ends (seated : ring.Seated machine.memory)
    (frees : ∀ (ring : TransmitRing) (machine : Machine δ) slot log, ring.Seated machine.memory →
      slot < ring.capacity → (ring.table.transmitCell machine.memory slot).status.isDone = true →
      kept (ring, machine) → kept (ring.freed slot (ring.table.transmitCell machine.memory slot).status,
        { machine with memory := machine.memory.releaseAll (ring.slotPages slot), log := log }))
    (notes : ∀ (after : TransmitRing × Machine δ) log, kept after → kept (after.1, { after.2 with log := log }))
    (start : kept (ring, machine)) :
    (reclaim : Step ε _ _).Ends (ring, machine) (fun _ => kept) (fun _ _ => False) := by
  unfold reclaim
  simp only [Step.ends_bind, Step.ends_get, Step.ends_ite, Step.ends_second, Machine.ends_note, Step.ends_pure]
  exact (reclaimFrom_ends seated frees start 0 (by omega)).mono
    (fun _ after reclaimed => ⟨fun _ => notes after _ reclaimed, fun _ => reclaimed⟩) (fun _ _ => id)

end

/-! ### Posting -/

def tallyPost (endsFrame : Bool) (counters : TransmitCounters) : TransmitCounters :=
  { counters with
    posted := counters.posted + 1
    packets := if endsFrame then counters.packets + 1 else counters.packets }

def posted (ring : TransmitRing) (status : TransmitStatus) (fragment : Fragment) (endsFrame : Bool) :
    TransmitRing where
  table := ring.table
  bindings := ((ring.freed ring.tail status).bound ring.tail fragment.page).bindings
  tail := ring.next ring.tail
  counters := tallyPost endsFrame (ring.freed ring.tail status).counters

@[simp] theorem size_bindings_posted (ring : TransmitRing) (status : TransmitStatus) (fragment : Fragment)
    (endsFrame : Bool) : (ring.posted status fragment endsFrame).bindings.size = ring.bindings.size := by
  simp [posted, bound]

theorem binding_posted (inside : ring.tail < ring.bindings.size) (status : TransmitStatus) (fragment : Fragment)
    (endsFrame : Bool) (other : Nat) : (ring.posted status fragment endsFrame).binding other =
      if other = ring.tail then some fragment.page else ring.binding other := by
  have kept : ring.tail < (ring.freed ring.tail status).bindings.size := by rwa [size_bindings_freed]
  have posted := binding_bound kept fragment.page other
  rw [binding_freed] at posted
  refine Eq.trans posted ?_
  split <;> rfl

/-- The memory after a post at the tail: the kept page is given back, the request stands in the
table, and the fragment's page is kept. -/
def postedMemory (ring : TransmitRing) (memory : Memory) (fragment : Fragment) (address : UInt64)
    (endsFrame : Bool) : Memory :=
  ((memory.releaseAll (ring.slotPages ring.tail)).overwrite ring.table.page
    (DescriptorTable.position ring.tail) (request address fragment.length endsFrame).encode).retain
      fragment.page

/-- A post ends in one of three ways: the device still owns the slot; or the kept page is given back
and the fragment has no address; or the slot is handed over. -/
theorem post_ends {δ : Type} [RegisterBus δ] {reached : δ → Prop} {tell : δ → UInt32 → δ} {machine : Machine δ}
    {good : Unit → TransmitRing × Machine δ → Prop} {bad : Stop TransmitError → TransmitRing × Machine δ → Prop}
    {fragment : Fragment} {endsFrame : Bool} (port : Register.transmitTail.Port reached tell)
    (near : reached machine.device) (seated : ring.Seated machine.memory)
    (owned : ∀ log, (ring.table.transmitCell machine.memory ring.tail).status.isDone = false →
      bad (.refused .busy) ({ ring with counters.busy := ring.counters.busy + 1 },
        { machine with log := log }))
    (unreachable : ∀ violation log,
      (ring.table.transmitCell machine.memory ring.tail).status.isDone = true →
      Address.advance (machine.memory.page fragment.page).base fragment.offset = .error violation →
      bad (.violated violation)
        (ring.freed ring.tail (ring.table.transmitCell machine.memory ring.tail).status,
          { machine with memory := machine.memory.releaseAll (ring.slotPages ring.tail), log := log }))
    (handed : ∀ address log,
      (ring.table.transmitCell machine.memory ring.tail).status.isDone = true →
      Address.advance (machine.memory.page fragment.page).base fragment.offset = .ok address →
      good () (ring.posted (ring.table.transmitCell machine.memory ring.tail).status fragment endsFrame,
        { machine with
          memory := ring.postedMemory machine.memory fragment address endsFrame
          device := tell machine.device (UInt32.ofNat (ring.next ring.tail))
          log := log })) :
    (post fragment endsFrame).Ends (ring, machine) good bad := by
  have released := Memory.changes_releaseAll (fun _ => False) machine.memory (ring.slotPages ring.tail)
  have fits : ring.table.Fits (machine.memory.releaseAll (ring.slotPages ring.tail)) :=
    seated.fits.of_changes released seated.knows
  unfold post
  simp only [Step.ends_bind, Step.ends_get, Step.ends_second, count, setBinding,
    DescriptorTable.ends_transmitStatus seated.fits seated.tail, Step.ends_ite, Step.ends_first,
    Step.ends_modify, Machine.ends_note, Step.ends_refuse]
  constructor
  · intro pending
    exact owned _ (by simpa using pending)
  · intro done
    simp only [Bool.not_eq_true, Bool.not_eq_false] at done
    -- The kept page goes back before the address is looked up, also where there turns out to be none.
    apply release_ends seated.fits seated.tail
    intro log
    unfold Fragment.address
    rw [Step.ends_inspect]
    dsimp only
    rw [Memory.base_page_releaseAll]
    constructor
    · intro address found
      rw [DescriptorTable.ends_writeTransmit]
      · simp only [Machine.ends_retain, next, capacity, table_freed]
        rw [port.ends_write]
        · exact handed address _ done found
        · exact near
      · exact fits
      · exact seated.tail
    · intro violation missing
      exact unreachable violation log done missing

def doneCount (ring : TransmitRing) (memory : Memory) (slot : Nat) : (limit : Nat) → Nat
  | 0 => 0
  | limit + 1 =>
    if (ring.table.transmitCell memory slot).status.isDone then
      ring.doneCount memory (ring.next slot) limit + 1
    else 0

theorem doneCount_eq_leading (ring : TransmitRing) (memory : Memory) (slot limit : Nat) :
    ring.doneCount memory slot limit =
      Ring.leading ring.capacity (fun slot => (ring.table.transmitCell memory slot).status.isDone) slot limit := by
  induction limit generalizing slot with
  | zero => rfl
  | succ limit ih => rw [doneCount, Ring.leading, ih, next]

theorem ends_doneRun {δ ε : Type} {machine : Machine δ} {good : Nat → Machine δ → Prop}
    {bad : Stop ε → Machine δ → Prop} (fits : ring.table.Fits machine.memory) (limit : Nat)
    (inside : slot < ring.capacity) :
    (ring.doneRun slot limit).Ends machine good bad ↔
      good (ring.doneCount machine.memory slot limit) machine := by
  induction limit generalizing slot good with
  | zero => exact Iff.rfl
  | succ limit ih =>
    unfold doneRun doneCount
    rw [Step.ends_bind, DescriptorTable.ends_transmitStatus fits inside]
    split
    · rw [Step.ends_bind, ih (next_lt inside), Step.ends_pure]
    · rw [Step.ends_pure]

/-! ### What every step keeps -/

/-- The slot keeps a page that the device is done with. -/
def Spent (ring : TransmitRing) (memory : Memory) (slot : Nat) : Prop :=
  (ring.binding slot).isSome = true ∧ (ring.table.transmitCell memory slot).status.isDone = true

/-- From one state of a ring and its machine to another: the ring stays over its table, only the
page of the table is written, the device is told of nothing but a tail, and the handles that the
ring holds are accounted for as before. The device alone has done with pages. -/
structure Leads (before after : TransmitRing × Machine Emulator) : Prop where
  table : after.1.table = before.1.table
  bindings : after.1.bindings.size = before.1.bindings.size
  tail : before.1.tail < before.1.capacity → after.1.tail < before.1.capacity
  changes : before.2.memory.ChangesWithin (· = before.1.table.page) after.2.memory
  reachable : after.2.memory.reachable = before.2.memory.reachable
  transmitSide : ∃ tail pending, after.2.device.transmitSide =
    { before.2.device.transmitSide with tail := tail, pending := pending }
  receiveSide : after.2.device.receiveSide = before.2.device.receiveSide
  accounts : ∀ others, before.2.memory.Accounts (before.1.pages ++ others) →
    after.2.memory.Accounts (after.1.pages ++ others)
  spent : ∀ slot, after.1.Spent after.2.memory slot → before.1.Spent before.2.memory slot

namespace Leads

variable {before middle after : TransmitRing × Machine Emulator}

theorem of_same (table : after.1.table = before.1.table) (bindings : after.1.bindings = before.1.bindings)
    (tail : after.1.tail = before.1.tail) (memory : after.2.memory = before.2.memory)
    (device : after.2.device = before.2.device) : Leads before after where
  table := table
  bindings := by rw [bindings]
  tail := by rw [tail]; exact id
  changes := by rw [memory]; exact .refl _ _
  reachable := by rw [memory]
  transmitSide := ⟨_, _, by rw [device]⟩
  receiveSide := by rw [device]
  accounts others accounts := by
    have pages : after.1.pages = before.1.pages := by rw [pages, pages, table, bindings]
    rwa [memory, pages]
  spent slot := by
    unfold Spent binding
    rw [memory, table, bindings]
    exact id

theorem refl (state : TransmitRing × Machine Emulator) : Leads state state :=
  of_same rfl rfl rfl rfl rfl

theorem trans (first : Leads before middle) (second : Leads middle after) : Leads before after where
  table := second.table.trans first.table
  bindings := second.bindings.trans first.bindings
  tail inside := by
    have capacity : middle.1.capacity = before.1.capacity := congrArg DescriptorTable.length first.table
    rw [← capacity]
    exact second.tail (capacity ▸ first.tail inside)
  changes := by
    have later := second.changes
    rw [first.table] at later
    exact first.changes.trans later
  reachable := second.reachable.trans first.reachable
  transmitSide := by
    obtain ⟨_, _, one⟩ := first.transmitSide
    obtain ⟨tail, pending, other⟩ := second.transmitSide
    exact ⟨tail, pending, by rw [other, one]⟩
  receiveSide := second.receiveSide.trans first.receiveSide
  accounts others accounts := second.accounts others (first.accounts others accounts)
  spent slot spent := first.spent slot (second.spent slot spent)

theorem capacity (leads : Leads before after) : after.1.capacity = before.1.capacity :=
  congrArg DescriptorTable.length leads.table

theorem seated (leads : Leads before after) (seated : before.1.Seated before.2.memory) :
    after.1.Seated after.2.memory where
  fits := by
    rw [leads.table]
    exact seated.fits.of_changes leads.changes seated.knows
  knows := by
    rw [leads.table]
    exact leads.changes.knows _ seated.knows
  bindings := by rw [leads.bindings, leads.capacity, seated.bindings]
  tail := by
    rw [leads.capacity]
    exact leads.tail seated.tail

end Leads

theorem leads_freed (ring : TransmitRing) (machine : Machine Emulator) (slot : Nat) (status : TransmitStatus)
    (log : Array LogLine) :
    Leads (ring, machine) (ring.freed slot status,
      { machine with memory := machine.memory.releaseAll (ring.slotPages slot), log := log }) where
  table := table_freed ring slot status
  bindings := size_bindings_freed ring slot status
  tail inside := by rwa [tail_freed]
  changes := Memory.changes_releaseAll _ _ _
  reachable := Memory.reachable_releaseAll _ _
  transmitSide := ⟨_, _, rfl⟩
  receiveSide := rfl
  accounts others accounts := by
    have split := (ring.perm_pages_freed slot status).append_right others
    rw [List.append_assoc] at split
    exact (accounts.perm split).releaseAll
  spent other := by
    unfold Spent
    rw [binding_freed, table_freed, (Memory.Alike.releaseAll ..).transmitCell]
    split
    case isTrue => exact fun spent => absurd spent.1 Bool.false_ne_true
    case isFalse => exact id

theorem changes_written (ring : TransmitRing) (memory : Memory) (slot : Nat) (data : List UInt8) :
    memory.ChangesWithin (· = ring.table.page)
      ((memory.releaseAll (ring.slotPages ring.tail)).overwrite ring.table.page slot data) := by
  refine (Memory.changes_releaseAll _ memory (ring.slotPages ring.tail)).trans ?_
  exact Memory.changes_overwrite _ (by rfl) _ _

theorem changes_postedMemory {fragment : Fragment} (ring : TransmitRing) (known : memory.Knows fragment.page)
    (address : UInt64) (endsFrame : Bool) :
    memory.ChangesWithin (· = ring.table.page) (ring.postedMemory memory fragment address endsFrame) := by
  have written := ring.changes_written memory (DescriptorTable.position ring.tail)
    (request address fragment.length endsFrame).encode
  exact written.trans (Memory.changes_retain _ (written.knows _ known))

theorem Seated.posted {fragment : Fragment} (seated : ring.Seated memory) (known : memory.Knows fragment.page)
    (status : TransmitStatus) (address : UInt64) (endsFrame : Bool) :
    (ring.posted status fragment endsFrame).Seated (ring.postedMemory memory fragment address endsFrame) where
  fits := seated.fits.of_changes (changes_postedMemory ring known address endsFrame) seated.knows
  knows := (changes_postedMemory ring known address endsFrame).knows _ seated.knows
  bindings := (size_bindings_posted ..).trans seated.bindings
  tail := next_lt seated.tail

@[simp] theorem isDone_request (address : UInt64) (length : Nat) (endsFrame : Bool) :
    (request address length endsFrame).status.isDone = false := by
  change TransmitStatus.pending.isDone = false
  decide

theorem cell_postedMemory (seated : ring.Seated memory) (fragment : Fragment) (address : UInt64) (endsFrame : Bool)
    (other : Nat) :
    ring.table.cell (ring.postedMemory memory fragment address endsFrame) other =
      if other = ring.tail then (request address fragment.length endsFrame).encode
      else ring.table.cell memory other := by
  have fits : ring.table.Fits (memory.releaseAll (ring.slotPages ring.tail)) :=
    seated.fits.of_changes (Memory.changes_releaseAll (fun _ => False) _ _) seated.knows
  unfold postedMemory
  rw [(Memory.Alike.retain ..).cell, DescriptorTable.cell_overwrite fits seated.tail (TransmitDescriptor.length_encode _),
    (Memory.Alike.releaseAll ..).cell]

theorem transmitCell_postedMemory (seated : ring.Seated memory) (fragment : Fragment) (address : UInt64)
    (endsFrame : Bool) (other : Nat) :
    ring.table.transmitCell (ring.postedMemory memory fragment address endsFrame) other =
      if other = ring.tail then request address fragment.length endsFrame
      else ring.table.transmitCell memory other := by
  unfold DescriptorTable.transmitCell
  rw [cell_postedMemory seated]
  split
  · exact TransmitDescriptor.decode_encode _
  · rfl

theorem leads_posted {fragment : Fragment} {endsFrame : Bool} (seated : ring.Seated machine.memory)
    (known : machine.memory.Knows fragment.page) (status : TransmitStatus) (address : UInt64)
    (log : Array LogLine) :
    Leads (ring, machine) (ring.posted status fragment endsFrame,
      { machine with
        memory := ring.postedMemory machine.memory fragment address endsFrame
        device := machine.device.store Register.transmitTail.offset (UInt32.ofNat (ring.next ring.tail))
        log := log }) where
  table := rfl
  bindings := size_bindings_posted ..
  tail _ := next_lt seated.tail
  changes := changes_postedMemory ring known address endsFrame
  reachable := Memory.reachable_releaseAll _ _
  transmitSide := ⟨_, _, Emulator.transmitSide_store_tail ..⟩
  receiveSide := Emulator.receiveSide_store_transmitTail ..
  accounts others accounts := by
    have freed := (leads_freed ring machine ring.tail status log).accounts others accounts
    have written := freed.overwrite ring.table.page (DescriptorTable.position ring.tail)
      (request address fragment.length endsFrame).encode
    have present := (ring.changes_written machine.memory (DescriptorTable.position ring.tail)
      (request address fragment.length endsFrame).encode).knows _ known
    have kept := written.retain present
    have inside : ring.tail < (ring.freed ring.tail status).bindings.size := by
      rw [size_bindings_freed]
      exact seated.tail_bound
    have free : (ring.freed ring.tail status).binding ring.tail = none := by
      rw [binding_freed, if_pos rfl]
    have pages : (ring.posted status fragment endsFrame).pages =
        ((ring.freed ring.tail status).bound ring.tail fragment.page).pages := by
      simp only [TransmitRing.pages, posted, bound, table_freed]
    rw [pages]
    exact kept.perm ((perm_pages_bound free inside).symm.append_right others)
  spent other := by
    have cell := transmitCell_postedMemory seated fragment address endsFrame other
    have binding := binding_posted seated.tail_bound status fragment endsFrame other
    unfold Spent
    dsimp only
    rw [binding, show (ring.posted status fragment endsFrame).table = ring.table from rfl, cell]
    split
    case isTrue =>
      rw [isDone_request]
      exact fun spent => absurd spent.2 Bool.false_ne_true
    case isFalse => exact id

theorem post_leads {fragment : Fragment} {endsFrame : Bool} (seated : ring.Seated machine.memory)
    (known : machine.memory.Knows fragment.page) :
    (post fragment endsFrame).Ends (ring, machine) (fun _ => Leads (ring, machine))
      (fun _ => Leads (ring, machine)) := by
  apply post_ends (Emulator.port .transmitTail) trivial seated
  · intro log _
    exact .of_same rfl rfl rfl rfl rfl
  · intro _ log _ _
    exact leads_freed ring machine ring.tail _ log
  · intro address log _ _
    exact leads_posted seated known _ address log

theorem postAll_leads {fragments : List Fragment} (seated : ring.Seated machine.memory)
    (known : ∀ fragment ∈ fragments, machine.memory.Knows fragment.page) :
    (postAll fragments).Ends (ring, machine) (fun _ => Leads (ring, machine))
      (fun _ => Leads (ring, machine)) := by
  induction fragments using postAll.induct generalizing ring machine with
  | case1 => exact .refl _
  | case2 last => exact post_leads seated (known last (List.mem_cons_self ..))
  | case3 fragment rest more ih =>
    rw [postAll, Step.ends_bind]
    · refine (post_leads seated (known fragment (List.mem_cons_self ..))).mono ?_ (fun _ _ leads => leads)
      rintro - ⟨ring', machine'⟩ first
      refine (ih (first.seated seated) ?_).mono (fun _ _ later => first.trans later)
        (fun _ _ later => first.trans later)
      intro other listed
      exact first.changes.knows _ (known other (List.mem_cons_of_mem _ listed))
    · exact more

theorem postFrame_leads {fragments : List Fragment} (seated : ring.Seated machine.memory)
    (known : ∀ fragment ∈ fragments, machine.memory.Knows fragment.page) :
    (postFrame fragments).Ends (ring, machine) (fun _ => Leads (ring, machine))
      (fun _ => Leads (ring, machine)) := by
  unfold postFrame
  simp only [Step.ends_bind, Step.ends_get, Step.ends_ite, Step.ends_pure, Step.ends_refuse, Step.ends_second,
    count, Step.ends_first, Step.ends_modify, freeSlots, ends_doneRun seated.fits _ seated.tail]
  refine ⟨fun _ => .refl _, fun _ => ⟨fun _ => .refl _, fun _ => ⟨fun _ => .refl _, fun _ => ?_⟩⟩⟩
  refine ⟨fun _ => .of_same rfl rfl rfl rfl rfl, fun _ => ?_⟩
  exact postAll_leads seated known

theorem reclaim_leads {ε : Type} (seated : ring.Seated machine.memory) :
    (reclaim : Step ε _ _).Ends (ring, machine) (fun _ => Leads (ring, machine)) (fun _ _ => False) := by
  refine reclaim_ends seated (fun ring machine slot log _ _ _ leads => ?_) (fun after log leads => ?_) (.refl _)
  · exact leads.trans (leads_freed ring machine slot _ log)
  · exact leads.trans (.of_same rfl rfl rfl rfl rfl)

end PacketPath.TransmitRing
