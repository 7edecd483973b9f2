import PacketPath.Proofs.Ring.Posting

/-! Posting a frame in several fragments, whatever stands in the table and behind the register window. Enough free slots
are counted before the first fragment is posted, and no post takes a free slot away but its own. -/

set_option autoImplicit false

namespace PacketPath.TransmitRing

variable {δ : Type} {ring : TransmitRing} {machine : Machine δ} {tell : δ → UInt32 → δ} {flight : Flight}
  {flights : List Flight} {before middle after : TransmitRing × Machine δ} {fragments : List Fragment}

/-! ### What stays -/

/-- From one state to another the ring stays over its table, and no page changes its size. -/
structure Stays (before after : TransmitRing × Machine δ) : Prop where
  table : after.1.table = before.1.table
  bindings : after.1.bindings.size = before.1.bindings.size
  tail : before.1.tail < before.1.capacity → after.1.tail < before.1.capacity
  count : after.2.memory.pages.size = before.2.memory.pages.size
  sizes : ∀ id, (after.2.memory.page id).size = (before.2.memory.page id).size

namespace Stays

theorem of_same (table : after.1.table = before.1.table) (bindings : after.1.bindings = before.1.bindings)
    (tail : after.1.tail = before.1.tail) (memory : after.2.memory = before.2.memory) : Stays before after where
  table := table
  bindings := by rw [bindings]
  tail := by rw [tail]; exact id
  count := by rw [memory]
  sizes _ := by rw [memory]

theorem capacity (stays : Stays before after) : after.1.capacity = before.1.capacity :=
  congrArg DescriptorTable.length stays.table

theorem trans (first : Stays before middle) (second : Stays middle after) : Stays before after where
  table := second.table.trans first.table
  bindings := second.bindings.trans first.bindings
  tail inside := by
    rw [← first.capacity]
    exact second.tail (first.capacity ▸ first.tail inside)
  count := second.count.trans first.count
  sizes id := (second.sizes id).trans (first.sizes id)

theorem seated (stays : Stays before after) (seated : before.1.Seated before.2.memory) :
    after.1.Seated after.2.memory where
  fits := by
    rw [stays.table]
    exact seated.fits.of_size (stays.sizes _)
  knows := by
    have knows := seated.knows
    unfold Memory.Knows at knows ⊢
    rwa [stays.table, stays.count]
  bindings := by rw [stays.bindings, stays.capacity, seated.bindings]
  tail := by
    rw [stays.capacity]
    exact stays.tail seated.tail

end Stays

/-! ### What is posted -/

def asking (flight : Flight) (address : UInt64) : TransmitDescriptor where
  address := address
  length := UInt16.ofNat flight.fragment.length
  command := ⟨if flight.endsFrame then 0x89 else 0x88⟩

/-- From one state of a ring and its machine to another, flights were posted one after the other: each slot from the
tail on asks for its flight and keeps its page, and the device was told of each new tail. No other slot is different,
no page is written but the table's, and what is counted besides is what was given back. -/
structure Posts (tell : δ → UInt32 → δ) (flights : List Flight) (before after : TransmitRing × Machine δ) : Prop where
  table : after.1.table = before.1.table
  size : after.1.bindings.size = before.1.bindings.size
  tail : after.1.tail = (before.1.tail + flights.length) % before.1.capacity
  asked : ∀ i flight, flights[i]? = some flight → ∃ address : UInt64,
    address.toNat = (before.2.memory.page flight.fragment.page).base.toNat + flight.fragment.offset ∧
    before.1.table.cell after.2.memory ((before.1.tail + i) % before.1.capacity) = (asking flight address).encode ∧
    after.1.binding ((before.1.tail + i) % before.1.capacity) = some flight.fragment.page
  kept : ∀ slot, slot ∉ Ring.arc before.1.capacity before.1.tail flights.length →
    before.1.table.cell after.2.memory slot = before.1.table.cell before.2.memory slot ∧
    after.1.binding slot = before.1.binding slot
  alike : Memory.AlikeIn (· ≠ before.1.table.page) before.2.memory after.2.memory
  sizes : ∀ id, (after.2.memory.page id).size = (before.2.memory.page id).size
  device : after.2.device =
    tellSlots tell before.2.device (Ring.arc before.1.capacity (before.1.next before.1.tail) flights.length)
  posted : after.1.counters.posted = before.1.counters.posted + flights.length
  packets : after.1.counters.packets = before.1.counters.packets + flights.countP Flight.endsFrame
  busy : after.1.counters.busy = before.1.counters.busy

namespace Posts

theorem nil (inside : before.1.tail < before.1.capacity) : Posts tell [] before before where
  table := rfl
  size := rfl
  tail := (Nat.mod_eq_of_lt inside).symm
  asked _ _ none := by simp at none
  kept _ _ := ⟨rfl, rfl⟩
  alike := .refl _
  sizes _ := rfl
  device := rfl
  posted := rfl
  packets := rfl
  busy := rfl

theorem stays (posts : Posts tell flights before after) : Stays before after where
  table := posts.table
  bindings := posts.size
  tail inside := by
    rw [posts.tail]
    exact Nat.mod_lt _ (Nat.zero_lt_of_lt inside)
  count := posts.alike.count
  sizes := posts.sizes

theorem capacity (posts : Posts tell flights before after) : after.1.capacity = before.1.capacity :=
  posts.stays.capacity

theorem cons (inside : before.1.tail < before.1.capacity) (room : flights.length < before.1.capacity)
    (first : Posts tell [flight] before middle) (rest : Posts tell flights middle after) :
    Posts tell (flight :: flights) before after where
  table := rest.table.trans first.table
  size := rest.size.trans first.size
  tail := by
    rw [rest.tail, first.tail, first.capacity, List.length_singleton, List.length_cons, Ring.succ_mod_add]
  asked i asker listed := by
    have onward : middle.1.tail = (before.1.tail + 1) % before.1.capacity := first.tail
    cases i with
    | zero =>
      obtain ⟨address, started, cell, binding⟩ := first.asked 0 asker listed
      -- The later posts do not come round to the slot of the first one.
      have apart : (before.1.tail + 0) % before.1.capacity ∉
          Ring.arc middle.1.capacity middle.1.tail flights.length := by
        rw [Nat.add_zero, Nat.mod_eq_of_lt inside, first.capacity, onward]
        exact Ring.start_not_mem_arc inside room
      have same := rest.kept _ apart
      rw [first.table] at same
      exact ⟨address, started, same.1.trans cell, same.2.trans binding⟩
    | succ i =>
      obtain ⟨address, started, cell, binding⟩ := rest.asked i asker (by rwa [List.getElem?_cons_succ] at listed)
      rw [first.capacity, onward, Ring.succ_mod_add] at cell binding
      rw [first.alike.base] at started
      rw [first.table] at cell
      exact ⟨address, started, cell, binding⟩
  kept slot unlisted := by
    rw [List.length_cons, Ring.not_mem_arc_cons_iff] at unlisted
    have early := first.kept slot (by
      rw [List.length_singleton, Ring.arc, Ring.arc, List.mem_singleton]
      exact unlisted.1)
    have late := rest.kept slot (by
      rw [first.capacity, first.tail]
      exact unlisted.2)
    rw [first.table] at late
    exact ⟨late.1.trans early.1, late.2.trans early.2⟩
  alike := by
    have later := rest.alike
    rw [first.table] at later
    exact (first.alike.euclidean (.refl _)).euclidean later
  sizes id := (rest.sizes id).trans (first.sizes id)
  device := by
    rw [rest.device, first.device, next, next, first.capacity, first.tail, List.length_singleton]
    rfl
  posted := by
    rw [rest.posted, first.posted, List.length_singleton, List.length_cons]
    omega
  packets := by
    rw [rest.packets, first.packets, List.countP_cons, List.countP_cons, List.countP_nil]
    omega
  busy := rest.busy.trans first.busy

end Posts

theorem counters_freed_of_post (ring : TransmitRing) (slot : Nat) (status : TransmitStatus) :
    (ring.freed slot status).counters.posted = ring.counters.posted ∧
      (ring.freed slot status).counters.packets = ring.counters.packets ∧
      (ring.freed slot status).counters.busy = ring.counters.busy := by
  unfold freed
  split <;> exact ⟨rfl, rfl, rfl⟩

theorem posts_posted (tell : δ → UInt32 → δ) (seated : ring.Seated machine.memory) (flight : Flight)
    {address : UInt64}
    (found : Address.advance (machine.memory.page flight.fragment.page).base flight.fragment.offset = .ok address)
    (status : TransmitStatus) (log : Array LogLine) :
    Posts tell [flight] (ring, machine) (ring.posted status flight.fragment flight.endsFrame,
      { machine with
        memory := ring.postedMemory machine.memory flight.fragment address flight.endsFrame
        device := tell machine.device (UInt32.ofNat (ring.next ring.tail))
        log := log }) := by
  have cells := cell_postedMemory seated flight.fragment address flight.endsFrame
  have bindings := binding_posted seated.tail_bound status flight.fragment flight.endsFrame
  obtain ⟨posted, packets, busy⟩ := ring.counters_freed_of_post ring.tail status
  refine
    { table := rfl
      size := size_bindings_posted ..
      tail := rfl
      asked := ?_
      kept := ?_
      alike := ?_
      sizes := ?_
      device := rfl
      posted := congrArg (· + 1) posted
      packets := ?_
      busy := busy }
  · intro i asker listed
    cases i with
    | succ i => simp at listed
    | zero =>
      obtain rfl : flight = asker := by simpa using listed
      refine ⟨address, Address.advance_eq_ok_iff.mp found, ?_, ?_⟩
      · dsimp only
        rw [Nat.add_zero, Nat.mod_eq_of_lt seated.tail, cells, if_pos rfl]
        rfl
      · dsimp only
        rw [Nat.add_zero, Nat.mod_eq_of_lt seated.tail, bindings, if_pos rfl]
  · intro slot unlisted
    have other : slot ≠ ring.tail := fun same => unlisted (List.mem_singleton.mpr same)
    exact ⟨(cells slot).trans (if_neg other), (bindings slot).trans (if_neg other)⟩
  · have released : Memory.AlikeIn (· ≠ ring.table.page) machine.memory _ :=
      (Memory.AlikeIn.refl machine.memory).trans (Memory.Alike.releaseAll _ (ring.slotPages ring.tail))
    exact (released.overwrite_outside (not_not.mpr rfl) _ _).trans (Memory.Alike.retain ..)
  · intro id
    dsimp only [postedMemory]
    rw [(Memory.Alike.retain ..).size, Memory.size_page_overwrite, (Memory.Alike.releaseAll ..).size]
  · dsimp only [TransmitRing.posted, tallyPost]
    rw [packets, List.countP_singleton]
    split <;> rfl

/-! ### What a frame comes to -/

/-- Posting came to a fragment past the last address: the fragments before it are posted, and the page that the slot at
the new tail kept is given back. -/
def Strands (tell : δ → UInt32 → δ) (fragments : List Fragment) (before : TransmitRing × Machine δ)
    (stop : Stop TransmitError) (after : TransmitRing × Machine δ) : Prop :=
  ∃ i fragment middle log, fragments[i]? = some fragment ∧
    0x10000000000000000 ≤ (before.2.memory.page fragment.page).base.toNat + fragment.offset ∧
    stop = .violated (.addressOverflow (before.2.memory.page fragment.page).base.toNat fragment.offset) ∧
    Posts tell ((fragments.take i).map (⟨·, false⟩)) before middle ∧
    after = (middle.1.freed middle.1.tail (middle.1.table.transmitCell middle.2.memory middle.1.tail).status,
      { middle.2 with
        memory := middle.2.memory.releaseAll (middle.1.slotPages middle.1.tail)
        log := log })

theorem Strands.cons {fragment : Fragment} {stop : Stop TransmitError} (inside : before.1.tail < before.1.capacity)
    (room : fragments.length < before.1.capacity) (first : Posts tell [⟨fragment, false⟩] before middle)
    (strands : Strands tell fragments middle stop after) : Strands tell (fragment :: fragments) before stop after := by
  obtain ⟨i, stray, last, log, listed, past, rfl, posts, rfl⟩ := strands
  rw [first.alike.base] at past ⊢
  refine ⟨i + 1, stray, last, log, listed, past, rfl, ?_, rfl⟩
  rw [List.take_succ_cons, List.map_cons]
  refine first.cons inside ?_ posts
  rw [List.length_map, List.length_take]
  omega

@[simp] theorem length_ofFrame (fragments : List Fragment) : (Flight.ofFrame fragments).length = fragments.length := by
  induction fragments using Flight.ofFrame.induct with
  | case1 => rfl
  | case2 last => rfl
  | case3 fragment rest more ih =>
    rw [Flight.ofFrame, List.length_cons, ih, List.length_cons]
    exact more

theorem getElem?_ofFrame (fragments : List Fragment) (i : Nat) :
    (Flight.ofFrame fragments)[i]? = fragments[i]?.map fun fragment => ⟨fragment, decide (i + 1 = fragments.length)⟩ := by
  induction fragments using Flight.ofFrame.induct generalizing i with
  | case1 => rfl
  | case2 last => cases i <;> rfl
  | case3 fragment rest more ih =>
    rw [Flight.ofFrame]
    · cases i with
      | zero =>
        have several : rest ≠ [] := more
        simp [several]
      | succ i =>
        rw [List.getElem?_cons_succ, ih, List.getElem?_cons_succ]
        simp only [List.length_cons, Nat.add_right_cancel_iff]
    · exact more

/-- The device can count as far as the first byte of the fragment. -/
def Addressable (memory : Memory) (fragment : Fragment) : Prop :=
  (memory.page fragment.page).base.toNat + fragment.offset < 0x10000000000000000

/-- Every fragment that is posted has an address. -/
theorem Posts.addressable (posts : Posts tell (Flight.ofFrame fragments) before after) {fragment : Fragment}
    (listed : fragment ∈ fragments) : Addressable before.2.memory fragment := by
  obtain ⟨i, inside, rfl⟩ := List.getElem_of_mem listed
  obtain ⟨address, started, -⟩ := posts.asked i _ (by rw [getElem?_ofFrame, List.getElem?_eq_getElem inside]; rfl)
  unfold Addressable
  rw [← started]
  exact address.toNat_lt

/-- The fragment at which posting stopped has none. -/
theorem Strands.not_addressable {stop : Stop TransmitError} (strands : Strands tell fragments before stop after) :
    ¬ ∀ fragment ∈ fragments, Addressable before.2.memory fragment := by
  obtain ⟨i, fragment, -, -, listed, past, -⟩ := strands
  intro all
  exact Nat.not_lt.mpr past (all fragment (List.mem_of_getElem? listed))

theorem freeSlots_eq {ε : Type} (seated : 0 < ring.capacity → ring.Seated machine.memory) :
    (ring.freeSlots : Step ε _ _) machine = .ok (ring.doneCount machine.memory ring.tail ring.capacity) machine := by
  apply Step.Ends.eq_ok
  unfold freeSlots
  rcases Nat.eq_zero_or_pos ring.capacity with empty | some
  · rw [empty]
    exact ⟨rfl, rfl⟩
  · have start := seated some
    rw [ends_doneRun start.fits _ start.tail]
    exact ⟨rfl, rfl⟩

theorem isDone_of_lt_doneCount {memory : Memory} {slot limit i : Nat} (inside : slot < ring.capacity)
    (early : i < ring.doneCount memory slot limit) :
    (ring.table.transmitCell memory ((slot + i) % ring.capacity)).status.isDone = true := by
  rw [doneCount_eq_leading] at early
  exact Ring.holds_of_lt_leading inside early

variable [RegisterBus δ] {reached : δ → Prop}

theorem post_posts {fragment : Fragment} {endsFrame : Bool} (port : Register.transmitTail.Port reached tell)
    (near : reached machine.device) (seated : ring.Seated machine.memory)
    (free : (ring.table.transmitCell machine.memory ring.tail).status.isDone = true) (rest : List Fragment) :
    (post fragment endsFrame).Ends (ring, machine)
      (fun _ after => Posts tell [⟨fragment, endsFrame⟩] (ring, machine) after)
      (Strands tell (fragment :: rest) (ring, machine)) := by
  apply post_ends port near seated
  · intro log owned
    rw [free] at owned
    cases owned
  · intro violation log _ missing
    obtain ⟨past, rfl⟩ := Address.advance_eq_error_iff.mp missing
    exact ⟨0, fragment, (ring, machine), log, rfl, past, rfl, .nil seated.tail, rfl⟩
  · intro address log _ found
    exact posts_posted tell seated ⟨fragment, endsFrame⟩ found _ log

/-- With a free slot for each, fragments are posted one after the other, up to one without an address. -/
theorem postAll_ends (port : Register.transmitTail.Port reached tell) (near : reached machine.device)
    (seated : ring.Seated machine.memory) (fits : fragments.length ≤ ring.capacity)
    (free : ∀ i < fragments.length,
      (ring.table.transmitCell machine.memory ((ring.tail + i) % ring.capacity)).status.isDone = true) :
    (postAll fragments).Ends (ring, machine) (fun _ => Posts tell (Flight.ofFrame fragments) (ring, machine))
      (Strands tell fragments (ring, machine)) := by
  induction fragments using postAll.induct generalizing ring machine with
  | case1 => exact .nil seated.tail
  | case2 last =>
    have here := free 0 (by simp)
    rw [Nat.add_zero, Nat.mod_eq_of_lt seated.tail] at here
    exact post_posts port near seated here []
  | case3 fragment rest more ih =>
    rw [List.length_cons] at fits free
    have here := free 0 (by omega)
    rw [Nat.add_zero, Nat.mod_eq_of_lt seated.tail] at here
    rw [postAll, Step.ends_bind]
    · refine (post_posts port near seated here rest).mono ?_ (fun _ _ => id)
      rintro - ⟨ring', machine'⟩ first
      have capacity : ring'.capacity = ring.capacity := first.capacity
      have onward : ring'.tail = (ring.tail + 1) % ring.capacity := first.tail
      have near' : reached machine'.device := by
        rw [show machine'.device = _ from first.device]
        exact port.tellSlots_stays near _
      have room : rest.length < ring.capacity := fits
      -- The first post wrote only its own slot, so the others are as free as before.
      have later := ih near' (first.stays.seated seated) (capacity ▸ Nat.le_of_lt room) fun i short => by
        have onArc := Ring.mem_arc_of_lt (Nat.mod_lt (ring.tail + 1) (Nat.zero_lt_of_lt seated.tail)) short
        have behind := ne_of_mem_of_not_mem onArc (Ring.start_not_mem_arc seated.tail room)
        have same := (first.kept _ (fun listed => behind (List.mem_singleton.mp listed))).1
        have done := free (i + 1) (Nat.succ_lt_succ short)
        rw [← Ring.succ_mod_add] at done
        rw [capacity, onward, DescriptorTable.transmitCell, show ring'.table = ring.table from first.table]
        dsimp only at same
        rwa [same]
      refine later.mono (fun _ after posts => ?_) (fun stop after strands => ?_)
      · rw [Flight.ofFrame]
        · exact first.cons seated.tail (by rw [length_ofFrame]; exact room) posts
        · exact more
      · exact strands.cons seated.tail room first
    · exact more

/-- A frame is looked at as a whole before the first of its fragments is posted. -/
theorem ends_postFrame {good : Unit → TransmitRing × Machine δ → Prop}
    {bad : Stop TransmitError → TransmitRing × Machine δ → Prop}
    (seated : 0 < ring.capacity → ring.Seated machine.memory) (some : fragments ≠ []) :
    (postFrame fragments).Ends (ring, machine) good bad ↔
      (ring.capacity < fragments.length → bad (.refused (.invalid .tooMany)) (ring, machine)) ∧
      (fragments.length ≤ ring.capacity →
        (Limits.maxFrame < (fragments.map Fragment.length).sum →
          bad (.refused (.invalid .frameTooLong)) (ring, machine)) ∧
        ((fragments.map Fragment.length).sum ≤ Limits.maxFrame →
          (ring.doneCount machine.memory ring.tail ring.capacity < fragments.length →
            bad (.refused .busy) ({ ring with counters.busy := ring.counters.busy + 1 }, machine)) ∧
          (fragments.length ≤ ring.doneCount machine.memory ring.tail ring.capacity →
            (postAll fragments).Ends (ring, machine) good bad))) := by
  have total : (fragments.map Fragment.length).foldr (· + ·) 0 = (fragments.map Fragment.length).sum := rfl
  have filled : ¬ fragments.isEmpty = true := by rwa [List.isEmpty_iff]
  unfold postFrame
  rw [if_neg filled]
  simp only [Step.ends_bind, Step.ends_get, Step.ends_ite, Step.ends_refuse, Step.ends_second, count, Step.ends_first,
    Step.ends_modify, Step.ends_of_ok (freeSlots_eq seated), total, Nat.not_lt]

/-- What a frame in several fragments comes to. It is refused as a whole, and then no more than the refusal is counted;
or all of it is posted, unless one of its fragments lies past the last address. -/
theorem postFrame_outcome (port : Register.transmitTail.Port reached tell) (near : reached machine.device)
    (seated : 0 < ring.capacity → ring.Seated machine.memory) (fragments : List Fragment) :
    let free := ring.doneCount machine.memory ring.tail ring.capacity
    let total := (fragments.map Fragment.length).sum
    (ring.freeSlots : Step TransmitError _ _) machine = .ok free machine ∧
    (fragments = [] → postFrame fragments (ring, machine) = .ok () (ring, machine)) ∧
    (ring.capacity < fragments.length →
      postFrame fragments (ring, machine) = .error (.refused (.invalid .tooMany)) (ring, machine)) ∧
    (fragments ≠ [] → fragments.length ≤ ring.capacity → Limits.maxFrame < total →
      postFrame fragments (ring, machine) = .error (.refused (.invalid .frameTooLong)) (ring, machine)) ∧
    (fragments ≠ [] → fragments.length ≤ ring.capacity → total ≤ Limits.maxFrame → free < fragments.length →
      postFrame fragments (ring, machine) =
        .error (.refused .busy) ({ ring with counters.busy := ring.counters.busy + 1 }, machine)) ∧
    (fragments ≠ [] → fragments.length ≤ ring.capacity → total ≤ Limits.maxFrame → fragments.length ≤ free →
      ((∀ fragment ∈ fragments, Addressable machine.memory fragment) →
        ∃ after, postFrame fragments (ring, machine) = .ok () after ∧
          Posts tell (Flight.ofFrame fragments) (ring, machine) after) ∧
      ((¬ ∀ fragment ∈ fragments, Addressable machine.memory fragment) →
        ∃ stop after, postFrame fragments (ring, machine) = .error stop after ∧
          Strands tell fragments (ring, machine) stop after)) := by
  intro free total
  refine ⟨freeSlots_eq seated, fun none => ?_, fun many => ?_, fun some few long => ?_, fun some few short full => ?_,
    fun some few short room => ?_⟩
  · rw [none]
    rfl
  · have some : fragments ≠ [] := by
      rintro rfl
      exact Nat.not_lt_zero _ many
    refine Step.Ends.eq_error ((ends_postFrame seated some).mpr ⟨fun _ => ⟨rfl, rfl⟩, fun few => ?_⟩)
    omega
  · refine Step.Ends.eq_error ((ends_postFrame seated some).mpr ⟨fun many => ?_, fun _ => ⟨fun _ => ⟨rfl, rfl⟩, ?_⟩⟩)
    · omega
    · omega
  · refine Step.Ends.eq_error ((ends_postFrame seated some).mpr ⟨?_, fun _ => ⟨?_, fun _ => ⟨fun _ => ⟨rfl, rfl⟩, ?_⟩⟩⟩)
    · omega
    · omega
    · omega
  · have start := seated (Nat.lt_of_lt_of_le (List.length_pos_iff.mpr some) few)
    have ends : (postFrame fragments).Ends (ring, machine) (fun _ => Posts tell (Flight.ofFrame fragments) (ring, machine))
        (Strands tell fragments (ring, machine)) := by
      refine (ends_postFrame seated some).mpr ⟨?_, fun _ => ⟨?_, fun _ => ⟨?_, fun _ => ?_⟩⟩⟩
      · omega
      · omega
      · omega
      · exact postAll_ends port near start few fun i early => isDone_of_lt_doneCount start.tail (Nat.lt_of_lt_of_le early room)
    -- Posting ends in one of two ways, and which one tells whether every fragment has an address.
    constructor
    · intro all
      obtain ⟨_, after, ended, posts⟩ :=
        (ends.mono (fun _ _ posts => posts) fun _ _ strands => strands.not_addressable all).exists_ok
      exact ⟨after, ended, posts⟩
    · intro stray
      obtain ⟨stop, after, ended, strands⟩ :=
        (ends.mono (fun _ _ posts => stray fun _ listed => posts.addressable listed) fun _ _ strands => strands).exists_error
      exact ⟨stop, after, ended, strands⟩

def lastPageMachine : Machine Window where
  memory :=
    { pages :=
        #[⟨0x1000, (idle.encode ++ idle.encode).toArray, 1⟩, ⟨0xFFFFFFFFFFFFFFFF, #[7, 8], 1⟩] }
  device := .zeroed 0xF0000000 0x20000

def lastPageRing : TransmitRing :=
  ⟨⟨⟨0⟩, 2⟩, #[none, none], 0, {}⟩

/-- The first byte of the page is posted, and the second is not. -/
theorem postFrame_outcome_past_last_address :
    ∃ stop after,
      postFrame [⟨⟨1⟩, 0, 1⟩, ⟨⟨1⟩, 1, 1⟩] (lastPageRing, lastPageMachine) = .error (.violated stop) after ∧
      after.1.counters.posted = 1 := by
  have seated : lastPageRing.Seated lastPageMachine.memory :=
    ⟨by unfold DescriptorTable.Fits; decide, by decide, by decide, by decide⟩
  have outcome := postFrame_outcome (Window.port .transmitTail) (by decide) (fun _ => seated)
    [⟨⟨1⟩, 0, 1⟩, ⟨⟨1⟩, 1, 1⟩]
  obtain ⟨stop, after, ended, i, fragment, middle, log, listed, past, rfl, posts, rfl⟩ :=
    (outcome.2.2.2.2.2 (by decide) (by decide) (by decide) (by decide)).2 (by unfold Addressable; decide)
  refine ⟨_, _, ended, ?_⟩
  match i, listed with
  | 0, listed =>
    obtain rfl : (⟨⟨1⟩, 0, 1⟩ : Fragment) = fragment := Option.some.inj listed
    exact absurd past (by decide)
  | 1, _ =>
    have posted := (counters_freed_of_post middle.1 middle.1.tail
      (middle.1.table.transmitCell middle.2.memory middle.1.tail).status).1
    exact posted.trans posts.posted

end PacketPath.TransmitRing
