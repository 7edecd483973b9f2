import PacketPath.Proofs.Agreement
import PacketPath.Proofs.Ring.Settled

/-! Transmit rings that keep different pages. Which pages a ring still keeps, and how many it has given back,
depends on when it was reclaimed; what a post reads does not, so the steps of such rings agree. Rings that would
be the same once settled stay so. -/

set_option autoImplicit false

namespace PacketPath.TransmitRing

open Step

variable {ε : Type} {settles : Prop} {ring : TransmitRing} {machine : Machine Emulator}
  {one other third : TransmitRing × Machine Emulator} {slot : Nat}

/-- The same ring, but for the pages it keeps and for what it counted as it gave pages back, over machines that
are alike. Once settled, the rings are the same even so, unless that is not asked. -/
structure Alike (settles : Prop) (one other : TransmitRing × Machine Emulator) : Prop where
  table : other.1.table = one.1.table
  tail : other.1.tail = one.1.tail
  posted : other.1.counters.posted = one.1.counters.posted
  packets : other.1.counters.packets = one.1.counters.packets
  busy : other.1.counters.busy = one.1.counters.busy
  machine : one.2.Alike other.2
  settled : settles → other.1.settled other.2.memory = one.1.settled one.2.memory

namespace Alike

theorem refl (state : TransmitRing × Machine Emulator) : Alike settles state state :=
  ⟨rfl, rfl, rfl, rfl, rfl, .refl _, fun _ => rfl⟩

theorem symm (alike : Alike settles one other) : Alike settles other one :=
  ⟨alike.table.symm, alike.tail.symm, alike.posted.symm, alike.packets.symm, alike.busy.symm, alike.machine.symm,
    fun asked => (alike.settled asked).symm⟩

theorem trans (first : Alike settles one other) (second : Alike settles other third) : Alike settles one third where
  table := second.table.trans first.table
  tail := second.tail.trans first.tail
  posted := second.posted.trans first.posted
  packets := second.packets.trans first.packets
  busy := second.busy.trans first.busy
  machine := first.machine.trans second.machine
  settled asked := (second.settled asked).trans (first.settled asked)

theorem capacity (alike : Alike settles one other) : other.1.capacity = one.1.capacity :=
  congrArg DescriptorTable.length alike.table

theorem cell (alike : Alike settles one other) (slot : Nat) :
    other.1.table.transmitCell other.2.memory slot = one.1.table.transmitCell one.2.memory slot := by
  rw [alike.table, alike.machine.memory.transmitCell]

theorem of_machine {machine' : Machine Emulator} (machines : machine.Alike machine') :
    Alike settles (ring, machine) (ring, machine') :=
  ⟨rfl, rfl, rfl, rfl, rfl, machines, fun _ => settled_congr (machines.memory.transmitCell ring.table)⟩

end Alike

/-! ### Giving pages back -/

theorem freed_alike (inside : slot < ring.capacity)
    (done : (ring.table.transmitCell machine.memory slot).status.isDone = true) (log : Array LogLine) :
    Alike settles (ring, machine) (ring.freed slot (ring.table.transmitCell machine.memory slot).status,
      { machine with memory := machine.memory.releaseAll (ring.slotPages slot), log := log }) where
  table := table_freed ..
  tail := tail_freed ..
  posted := by
    unfold freed
    split <;> rfl
  packets := by
    unfold freed
    split <;> rfl
  busy := by
    unfold freed
    split <;> rfl
  machine := ⟨.releaseAll .., .refl _⟩
  settled _ := by
    refine Eq.trans (settled_congr ?_) (settled_freed inside done)
    exact (Memory.Alike.releaseAll ..).transmitCell _

/-- To reclaim is to change nothing but what the ring keeps and counts. -/
theorem reclaim_alike (seated : ring.Seated machine.memory) :
    (reclaim : Step ε _ _).Ends (ring, machine) (fun _ => Alike settles (ring, machine)) (fun _ _ => False) := by
  refine reclaim_ends seated (fun ring machine slot log _ here done alike => ?_) (fun after log alike => ?_) (.refl _)
  · exact alike.trans (freed_alike here done log)
  · exact alike.trans (.of_machine ⟨.refl _, .refl _⟩)

def Clear (limit : Nat) (state : TransmitRing × Machine Emulator) : Prop :=
  ∀ slot < limit, (state.1.table.transmitCell state.2.memory slot).status.isDone = true →
    state.1.binding slot = none

theorem reclaimFrom_clears (seated : ring.Seated machine.memory) (clear : Clear slot (ring, machine)) {count : Nat}
    (inside : slot + count ≤ ring.capacity) :
    (reclaimFrom slot count : Step ε _ _).Ends (ring, machine) (fun _ => Clear (slot + count))
      (fun _ _ => False) := by
  induction count generalizing slot ring machine with
  | zero => exact clear
  | succ count ih =>
    have here : slot < ring.capacity := by omega
    -- A slot that is passed over is not done, or keeps no page.
    have skipped (free : (ring.table.transmitCell machine.memory slot).status.isDone = true →
        ring.binding slot = none) :
        (reclaimFrom (slot + 1) count : Step ε _ _).Ends (ring, machine) (fun _ => Clear (slot + (count + 1)))
          (fun _ _ => False) := by
      rw [show slot + (count + 1) = slot + 1 + count by omega]
      refine ih seated (fun other earlier done => ?_) (by omega)
      rcases Nat.lt_succ_iff_lt_or_eq.mp earlier with before | rfl
      · exact clear other before done
      · exact free done
    refine ends_reclaimFrom_succ seated.fits here (fun done log => ?_) skipped
    have freed : Alike False _ _ := freed_alike here done log
    have capacity : (ring.freed slot (ring.table.transmitCell machine.memory slot).status).capacity =
        ring.capacity := freed.capacity
    rw [show slot + (count + 1) = slot + 1 + count by omega]
    refine ih (seated.freed ..) (fun other earlier said => ?_) (by omega)
    rw [freed.cell] at said
    dsimp only at said ⊢
    rw [binding_freed]
    split
    case isTrue => rfl
    case isFalse apart => exact clear other (by omega) said

theorem reclaim_clears (seated : ring.Seated machine.memory) :
    (reclaim : Step ε _ _).Ends (ring, machine) (fun _ => Clear ring.capacity) (fun _ _ => False) := by
  unfold reclaim
  simp only [Step.ends_bind, Step.ends_get, Step.ends_ite, Step.ends_second, Machine.ends_note,
    Step.ends_pure]
  have nothing : Clear 0 (ring, machine) := fun slot before => absurd before (Nat.not_lt_zero slot)
  refine (reclaimFrom_clears seated nothing (by omega)).mono (fun _ after clear => ⟨fun _ => ?_, fun _ => ?_⟩)
    (fun _ _ => id)
  · rwa [Nat.zero_add] at clear
  · rwa [Nat.zero_add] at clear

theorem reclaim_settles (seated : ring.Seated machine.memory) :
    (reclaim : Step ε _ _).Ends (ring, machine) (fun _ after => after.1.settled after.2.memory = after.1)
      (fun _ _ => False) := by
  refine ((reclaim_clears seated).and (reclaim_leads seated)).mono ?_ (fun _ _ => And.left)
  rintro _ after ⟨clear, leads⟩
  refine settled_eq_self ?_ (leads.seated seated).bindings
  rw [leads.capacity]
  exact clear

theorem Clear.not_spent {limit : Nat} {state : TransmitRing × Machine Emulator} (clear : Clear limit state)
    (size : state.1.bindings.size ≤ limit) (slot : Nat) : ¬ state.1.Spent state.2.memory slot := by
  rintro ⟨bound, done⟩
  obtain ⟨page, here⟩ := Option.isSome_iff_exists.mp bound
  obtain ⟨inside, -⟩ := Array.getElem?_eq_some_iff.mp (binding_eq_some_iff.mp here)
  rw [clear slot (Nat.lt_of_lt_of_le inside size) done] at bound
  cases bound

/-! ### Posting -/

theorem Alike.refused (alike : Alike settles one other) (log log' : Array LogLine) :
    Alike settles ({ one.1 with counters.busy := one.1.counters.busy + 1 }, { one.2 with log := log })
      ({ other.1 with counters.busy := other.1.counters.busy + 1 }, { other.2 with log := log' }) where
  table := alike.table
  tail := alike.tail
  posted := alike.posted
  packets := alike.packets
  busy := congrArg (· + 1) alike.busy
  machine := ⟨alike.machine.memory, alike.machine.device⟩
  settled asked := congrArg (fun ring => { ring with counters.busy := ring.counters.busy + 1 }) (alike.settled asked)

theorem posted_alike {fragment : Fragment} (alike : Alike settles one other) (seated : one.1.Seated one.2.memory)
    (seated' : other.1.Seated other.2.memory)
    (done : (one.1.table.transmitCell one.2.memory one.1.tail).status.isDone = true) (endsFrame : Bool)
    (address : UInt64) (log log' : Array LogLine) :
    Alike settles
      (one.1.posted (one.1.table.transmitCell one.2.memory one.1.tail).status fragment endsFrame,
        { one.2 with
          memory := one.1.postedMemory one.2.memory fragment address endsFrame
          device := one.2.device.store Register.transmitTail.offset (UInt32.ofNat (one.1.next one.1.tail))
          log := log })
      (other.1.posted (other.1.table.transmitCell other.2.memory other.1.tail).status fragment endsFrame,
        { other.2 with
          memory := other.1.postedMemory other.2.memory fragment address endsFrame
          device := other.2.device.store Register.transmitTail.offset (UInt32.ofNat (other.1.next other.1.tail))
          log := log' }) := by
  have same : other.1.table.transmitCell other.2.memory other.1.tail =
      one.1.table.transmitCell one.2.memory one.1.tail := by rw [alike.cell, alike.tail]
  have done' : (other.1.table.transmitCell other.2.memory other.1.tail).status.isDone = true := by rwa [same]
  -- Each ring gives up what its own tail kept before the page is bound, and is like itself then.
  have freed : Alike settles _ _ := freed_alike seated.tail done log
  have freed' : Alike settles _ _ := freed_alike seated'.tail done' log'
  have both := (freed.symm.trans alike).trans freed'
  have memory : (one.2.memory.releaseAll (one.1.slotPages one.1.tail)).Alike
      (other.2.memory.releaseAll (other.1.slotPages other.1.tail)) := both.machine.memory
  have next : other.1.next other.1.tail = one.1.next one.1.tail := by
    rw [TransmitRing.next, TransmitRing.next, alike.tail, alike.capacity]
  refine ⟨alike.table, next, congrArg (· + 1) both.posted, ?_, both.busy, ⟨?_, ?_⟩, fun asked => ?_⟩
  · have packets := both.packets
    unfold posted tallyPost
    dsimp only at packets ⊢
    rw [packets]
  · unfold postedMemory
    rw [alike.table]
    rw [alike.tail] at memory ⊢
    exact ((Memory.Alike.retain ..).symm.trans (memory.overwrite ..)).trans (Memory.Alike.retain ..)
  · dsimp only
    rw [next]
    exact alike.machine.device.store ..
  · dsimp only
    rw [settled_posted seated fragment done, settled_posted seated' fragment done', alike.settled asked, same]

/-- A post ends the same way and changes the same whatever the ring keeps. -/
theorem post_agree {fragment : Fragment} (alike : Alike settles one other) (seated : one.1.Seated one.2.memory)
    (seated' : other.1.Seated other.2.memory) (endsFrame : Bool) :
    Agree (Alike settles) (post fragment endsFrame) (post fragment endsFrame) one other := by
  have same : other.1.table.transmitCell other.2.memory other.1.tail =
      one.1.table.transmitCell one.2.memory one.1.tail := by rw [alike.cell, alike.tail]
  have base : (other.2.memory.page fragment.page).base = (one.2.memory.page fragment.page).base :=
    alike.machine.memory.base fragment.page
  unfold Agree
  -- Both posts read the same slot and work out the same address, so the cases that cross do not happen.
  apply post_ends (Emulator.port .transmitTail) trivial seated
  · intro log owned
    rw [← same] at owned
    apply post_ends (Emulator.port .transmitTail) trivial seated'
    · intro log' _
      exact ⟨rfl, alike.refused log log'⟩
    · intro _ _ done _
      rw [owned] at done
      cases done
    · intro _ _ done _
      rw [owned] at done
      cases done
  · intro violation log done missing
    rw [← base] at missing
    apply post_ends (Emulator.port .transmitTail) trivial seated'
    · intro _ owned
      rw [same, done] at owned
      cases owned
    · intro violation' log' done' missing'
      rw [missing] at missing'
      cases missing'
      exact ⟨rfl, ((freed_alike seated.tail done log).symm.trans alike).trans (freed_alike seated'.tail done' log')⟩
    · intro _ _ _ found
      rw [missing] at found
      cases found
  · intro address log done found
    rw [← base] at found
    apply post_ends (Emulator.port .transmitTail) trivial seated'
    · intro _ owned
      rw [same, done] at owned
      cases owned
    · intro _ _ _ missing
      rw [found] at missing
      cases missing
    · intro address' log' _ found'
      rw [found] at found'
      cases found'
      exact ⟨rfl, posted_alike alike seated seated' done endsFrame address log log'⟩

theorem postAll_agree {fragments : List Fragment} (alike : Alike settles one other)
    (seated : one.1.Seated one.2.memory) (seated' : other.1.Seated other.2.memory)
    (known : ∀ fragment ∈ fragments, one.2.memory.Knows fragment.page) :
    Agree (Alike settles) (postAll fragments) (postAll fragments) one other := by
  induction fragments using postAll.induct generalizing one other with
  | case1 => exact .pure _ alike
  | case2 last => exact post_agree alike seated seated' true
  | case3 fragment rest more ih =>
    have first := known fragment (List.mem_cons_self ..)
    have first' := alike.machine.memory.knows_iff.mpr first
    have posted := (post_agree alike seated seated' false).and_ends (post_leads seated first)
      (post_leads seated' first')
    rw [postAll]
    · refine posted.bind_through (fun _ _ kept => kept.1) ?_
      rintro _ after after' ⟨alike, leads, leads'⟩
      exact ih alike (leads.seated seated) (leads'.seated seated') fun other listed =>
        leads.changes.knows _ (known other (List.mem_cons_of_mem _ listed))
    · exact more

theorem Alike.doneCount (alike : Alike settles one other) (slot limit : Nat) :
    other.1.doneCount other.2.memory slot limit = one.1.doneCount one.2.memory slot limit := by
  rw [doneCount_eq_leading, doneCount_eq_leading, alike.capacity]
  simp only [alike.cell]

theorem freeSlots_agree (alike : Alike settles one other) (seated : one.1.Seated one.2.memory)
    (seated' : other.1.Seated other.2.memory) :
    Agree (fun after after' => after = one.2 ∧ after' = other.2) (one.1.freeSlots : Step ε _ _) other.1.freeSlots
      one.2 other.2 := by
  unfold Agree freeSlots
  rw [ends_doneRun seated.fits _ seated.tail, ends_doneRun seated'.fits _ seated'.tail]
  refine ⟨?_, rfl, rfl⟩
  rw [alike.tail, alike.capacity, alike.doneCount]

theorem postFrame_agree {fragments : List Fragment} (alike : Alike settles one other)
    (seated : one.1.Seated one.2.memory) (seated' : other.1.Seated other.2.memory)
    (known : ∀ fragment ∈ fragments, one.2.memory.Knows fragment.page) :
    Agree (Alike settles) (postFrame fragments) (postFrame fragments) one other := by
  unfold postFrame
  refine .ite _ (fun _ => .pure _ alike) fun _ => .get_bind ?_
  dsimp only
  rw [alike.capacity]
  refine .ite _ (fun _ => .refuse _ alike) fun _ => .ite _ (fun _ => .refuse _ alike) fun _ => ?_
  have counted : Agree (fun after after' => after = one ∧ after' = other)
      (Step.second one.1.freeSlots : Step TransmitError _ _) (Step.second other.1.freeSlots) one other :=
    .within (freeSlots_agree alike seated seated') (by rintro _ _ ⟨rfl, rfl⟩; exact ⟨rfl, rfl⟩)
  refine counted.bind_through (by rintro _ _ ⟨rfl, rfl⟩; exact alike) ?_
  rintro free _ _ ⟨rfl, rfl⟩
  refine .ite _ (fun _ => .bind ?_ fun _ _ _ alike => .refuse _ alike) fun _ =>
    postAll_agree alike seated seated' known
  exact .of_ok rfl rfl (alike.refused ..)

end PacketPath.TransmitRing
