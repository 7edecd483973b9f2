import PacketPath.Proofs.Ring.Flights

/-! How the steps of a transmit ring change its flights. A post adds one flight or changes none, a
frame in several fragments adds all of its flights or none, and reclaiming changes none. -/

set_option autoImplicit false

namespace PacketPath

/-- The flights of a frame; the last one ends it. -/
def Flight.ofFrame : List Fragment → List Flight
  | [] => []
  | [last] => [⟨last, true⟩]
  | fragment :: rest => ⟨fragment, false⟩ :: ofFrame rest

structure Fragment.Inside (fragment : Fragment) (memory : Memory) : Prop where
  some : fragment.length ≠ 0
  short : fragment.length ≤ Limits.maxFrame
  ends : fragment.offset + fragment.length ≤ (memory.page fragment.page).size

theorem Fragment.Inside.of_changes {fragment : Fragment} {memory after : Memory} {scope : PageId → Prop}
    (inside : fragment.Inside memory) (changes : memory.ChangesWithin scope after)
    (known : memory.Knows fragment.page) : fragment.Inside after :=
  { inside with
    ends := by
      rw [changes.size _ known]
      exact inside.ends }

theorem Memory.fragment_eq_ok {memory : Memory} {id : PageId} {offset length : Nat} {fragment : Fragment}
    (valid : memory.fragment id offset length = .ok fragment) :
    fragment = ⟨id, offset, length⟩ ∧ fragment.Inside memory := by
  unfold Memory.fragment at valid
  dsimp only at valid
  split at valid
  · cases valid
  rename_i some
  split at valid
  · cases valid
  rename_i short
  split at valid
  · cases valid
  rename_i ends
  cases valid
  exact ⟨rfl, some, Nat.le_of_not_lt short, Nat.le_of_not_lt ends⟩

theorem Memory.fragment_of_whole {memory : Memory} {page : PageId} {length : Nat}
    (whole : (memory.page page).size = Limits.pageSize) (some : length ≠ 0) (short : length ≤ Limits.maxFrame) :
    memory.fragment page 0 length = .ok ⟨page, 0, length⟩ := by
  have ends : length ≤ Limits.pageSize := Nat.le_trans short (by decide)
  unfold Memory.fragment
  dsimp only
  rw [if_neg some, if_neg (Nat.not_lt.mpr short), whole, Nat.zero_add, if_neg (Nat.not_lt.mpr ends)]

structure Fragment.Sendable (fragment : Fragment) (memory : Memory) : Prop where
  knows : memory.Knows fragment.page
  short : fragment.length ≤ Limits.maxFrame
  address : ∃ address, Address.advance (memory.page fragment.page).base fragment.offset = .ok address

theorem Fragment.Sendable.of_changes {fragment : Fragment} {memory after : Memory} {scope : PageId → Prop}
    (sendable : fragment.Sendable memory) (changes : memory.ChangesWithin scope after) :
    fragment.Sendable after where
  knows := changes.knows _ sendable.knows
  short := sendable.short
  address := by
    rw [changes.base _ sendable.knows]
    exact sendable.address

namespace TransmitRing

variable {ring : TransmitRing} {machine : Machine Emulator} {flights : List Flight} {fragment : Fragment}

/-- `Carries` of a ring together with its machine. -/
def Flies (state : TransmitRing × Machine Emulator) (flights : List Flight) : Prop :=
  state.1.Carries state.2.memory state.2.device.transmitSide flights

theorem Flies.carries (flies : Flies (ring, machine) flights) :
    ring.Carries machine.memory machine.device.transmitSide flights :=
  flies

theorem Flies.of_same {before after : TransmitRing × Machine Emulator} (flies : Flies before flights)
    (table : after.1.table = before.1.table) (bindings : after.1.bindings = before.1.bindings)
    (tail : after.1.tail = before.1.tail) (memory : after.2.memory = before.2.memory)
    (device : after.2.device = before.2.device) : Flies after flights := by
  obtain ⟨⟨table', bindings', tail', _⟩, ⟨memory', device', _⟩⟩ := after
  obtain ⟨⟨_, _, _, _⟩, ⟨_, _, _⟩⟩ := before
  dsimp only at table bindings tail memory device
  subst table bindings tail memory device
  exact { flies with
    wired := { flies.wired with seated := { flies.wired.seated with } }
    asked := fun i flight listed => { flies.asked i flight listed with } }

theorem post_flies {endsFrame : Bool} (flies : Flies (ring, machine) flights)
    (known : machine.memory.Knows fragment.page) (short : fragment.length ≤ Limits.maxFrame) :
    (post fragment endsFrame).Ends (ring, machine)
      (fun _ after => flights.length < ring.capacity ∧ Flies after (flights ++ [⟨fragment, endsFrame⟩]))
      (fun stop after => Flies after flights ∧
        (stop = .refused .busy ∧ flights.length = ring.capacity ∨
          ∃ violation, stop = .violated violation ∧ flights.length < ring.capacity ∧
            Address.advance (machine.memory.page fragment.page).base fragment.offset = .error violation)) := by
  have carries := flies.carries
  have status := carries.isDone_tail
  have bounded := carries.bounded
  apply post_ends (Emulator.port .transmitTail) trivial carries.wired.seated
  · intro log owned
    rw [status, decide_eq_false_iff_not] at owned
    exact ⟨flies.of_same rfl rfl rfl rfl rfl, .inl ⟨rfl, by omega⟩⟩
  · intro violation log done missing
    rw [status, decide_eq_true_eq] at done
    have free : ring.tail ∉ Ring.arc ring.capacity machine.device.transmitSide.head flights.length := by
      rw [carries.tail]
      exact Ring.end_not_mem_arc carries.wired.head done
    exact ⟨carries.freed _ free, .inr ⟨violation, rfl, done, missing⟩⟩
  · intro address log done found
    rw [status, decide_eq_true_eq] at done
    exact ⟨done, carries.posted _ done known short found⟩

theorem post_flies_of_sendable {endsFrame : Bool} (flies : Flies (ring, machine) flights)
    (sendable : fragment.Sendable machine.memory) :
    (post fragment endsFrame).Ends (ring, machine)
      (fun _ after => flights.length < ring.capacity ∧ Flies after (flights ++ [⟨fragment, endsFrame⟩]))
      (fun stop after => Flies after flights ∧ stop = .refused .busy ∧ flights.length = ring.capacity) := by
  refine (post_flies flies sendable.knows sendable.short).mono (fun _ _ posted => posted) ?_
  rintro stop after ⟨kept, full | ⟨violation, -, -, missing⟩⟩
  · exact ⟨kept, full⟩
  · obtain ⟨address, found⟩ := sendable.address
    rw [found] at missing
    cases missing

theorem Flies.adds_none {state : TransmitRing × Machine Emulator} {added : List Flight} (flies : Flies state flights) :
    ∃ first, first <+: added ∧ Flies state (flights ++ first) :=
  ⟨[], List.nil_prefix, by rwa [List.append_nil]⟩

theorem postAll_adds {fragments : List Fragment} (flies : Flies (ring, machine) flights)
    (known : ∀ fragment ∈ fragments, machine.memory.Knows fragment.page)
    (short : ∀ fragment ∈ fragments, fragment.length ≤ Limits.maxFrame) :
    (postAll fragments).Ends (ring, machine)
      (fun _ after => Flies after (flights ++ Flight.ofFrame fragments))
      (fun _ after => ∃ first, first <+: Flight.ofFrame fragments ∧ Flies after (flights ++ first)) := by
  induction fragments using postAll.induct generalizing ring machine flights with
  | case1 => simpa only [postAll, Flight.ofFrame, List.append_nil, Step.ends_pure] using flies
  | case2 last =>
    exact (post_flies flies (known last (List.mem_cons_self ..)) (short last (List.mem_cons_self ..))).mono
      (fun _ _ posted => posted.2) (fun _ _ stopped => stopped.1.adds_none)
  | case3 fragment rest more ih =>
    have first := known fragment (List.mem_cons_self ..)
    rw [postAll, Step.ends_bind]
    · refine ((post_flies flies first (short fragment (List.mem_cons_self ..))).and
        (post_leads flies.wired.seated first)).mono ?_ (fun _ _ stopped => stopped.1.1.adds_none)
      rintro - ⟨ring', machine'⟩ ⟨⟨-, posted⟩, leads⟩
      rw [Flight.ofFrame]
      · refine (ih posted (fun other listed => leads.changes.knows _ (known other (List.mem_cons_of_mem _ listed)))
          (fun other listed => short other (List.mem_cons_of_mem _ listed))).mono ?_ ?_
        · rintro _ after later
          rwa [List.append_assoc, List.singleton_append] at later
        · rintro _ after ⟨some, front, later⟩
          refine ⟨_ :: some, List.cons_prefix_cons.mpr ⟨rfl, front⟩, ?_⟩
          rwa [List.append_assoc, List.singleton_append] at later
      · exact more
    · exact more

theorem postAll_flies {fragments : List Fragment} (flies : Flies (ring, machine) flights)
    (sendable : ∀ fragment ∈ fragments, fragment.Sendable machine.memory)
    (room : flights.length + fragments.length ≤ ring.capacity) :
    (postAll fragments).Ends (ring, machine)
      (fun _ after => Flies after (flights ++ Flight.ofFrame fragments)) (fun _ _ => False) := by
  -- Induction along the frame, with the flights of the earlier fragments in the air.
  induction fragments using postAll.induct generalizing ring machine flights with
  | case1 => simpa only [postAll, Flight.ofFrame, List.append_nil, Step.ends_pure] using flies
  | case2 last =>
    rw [List.length_singleton] at room
    refine (post_flies_of_sendable flies (sendable last (List.mem_cons_self ..))).mono
      (fun _ _ posted => posted.2) ?_
    rintro stop after ⟨-, -, full⟩
    omega
  | case3 fragment rest more ih =>
    rw [List.length_cons] at room
    have first := sendable fragment (List.mem_cons_self ..)
    rw [postAll, Step.ends_bind]
    · refine ((post_flies_of_sendable flies first).and (post_leads flies.wired.seated first.knows)).mono ?_ ?_
      · rintro - ⟨ring', machine'⟩ ⟨⟨-, posted⟩, leads⟩
        have capacity : ring'.capacity = ring.capacity := leads.capacity
        have later := ih posted (fun other listed =>
          (sendable other (List.mem_cons_of_mem _ listed)).of_changes leads.changes)
          (by rw [List.length_append, List.length_singleton, capacity]; omega)
        rw [List.append_assoc, List.singleton_append] at later
        rw [Flight.ofFrame]
        · exact later
        · exact more
      · rintro stop after ⟨⟨-, -, full⟩, -⟩
        omega
    · exact more

/-- What becomes of a frame in fragments that can be sent: nothing to post, a frame that the ring can
never hold or that is too long, too few free slots, or a frame in flight. -/
theorem postFrame_flies {fragments : List Fragment} (flies : Flies (ring, machine) flights)
    (sendable : ∀ fragment ∈ fragments, fragment.Sendable machine.memory) :
    (postFrame fragments).Ends (ring, machine)
      (fun _ after => Flies after (flights ++ Flight.ofFrame fragments) ∧
        (fragments ≠ [] → fragments.length ≤ ring.capacity ∧
          (fragments.map Fragment.length).sum ≤ Limits.maxFrame ∧
          fragments.length ≤ ring.capacity - flights.length))
      (fun stop after => Flies after flights ∧
        (stop = .refused (.invalid .tooMany) ∧ ring.capacity < fragments.length ∨
          stop = .refused (.invalid .frameTooLong) ∧
            Limits.maxFrame < (fragments.map Fragment.length).sum ∨
          stop = .refused .busy ∧ fragments.length ≤ ring.capacity ∧
            (fragments.map Fragment.length).sum ≤ Limits.maxFrame ∧
            ring.capacity - flights.length < fragments.length)) := by
  have carries := flies.carries
  have seated := carries.wired.seated
  have total : (fragments.map Fragment.length).foldr (· + ·) 0 = (fragments.map Fragment.length).sum := rfl
  unfold postFrame
  simp only [Step.ends_bind, Step.ends_get, Step.ends_ite, Step.ends_pure, Step.ends_refuse, Step.ends_second,
    count, Step.ends_first, Step.ends_modify, freeSlots, ends_doneRun seated.fits _ seated.tail,
    carries.doneCount_eq, total]
  refine ⟨?_, fun some => ⟨fun many => ?_, fun few => ⟨fun long => ?_, fun short => ⟨fun full => ?_, fun room => ?_⟩⟩⟩⟩
  · intro none
    rw [List.isEmpty_iff] at none
    rw [none]
    refine ⟨?_, fun some => absurd rfl some⟩
    simpa only [Flight.ofFrame, List.append_nil] using flies
  · exact ⟨flies, .inl ⟨trivial, many⟩⟩
  · exact ⟨flies, .inr (.inl ⟨trivial, long⟩)⟩
  · exact ⟨flies.of_same rfl rfl rfl rfl rfl, .inr (.inr ⟨trivial, by omega, by omega, full⟩)⟩
  · have bounded := carries.bounded
    refine (postAll_flies flies sendable (by omega)).mono (fun _ after posted => ⟨posted, fun _ => ?_⟩)
      (fun _ _ => False.elim)
    exact ⟨by omega, by omega, by omega⟩

theorem postFrame_adds {fragments : List Fragment} (flies : Flies (ring, machine) flights)
    (known : ∀ fragment ∈ fragments, machine.memory.Knows fragment.page)
    (short : ∀ fragment ∈ fragments, fragment.length ≤ Limits.maxFrame) :
    (postFrame fragments).Ends (ring, machine)
      (fun _ after => Flies after (flights ++ Flight.ofFrame fragments))
      (fun _ after => ∃ first, first <+: Flight.ofFrame fragments ∧ Flies after (flights ++ first)) := by
  have seated := flies.carries.wired.seated
  unfold postFrame
  simp only [Step.ends_bind, Step.ends_get, Step.ends_ite, Step.ends_pure, Step.ends_refuse, Step.ends_second,
    count, Step.ends_first, Step.ends_modify, freeSlots, ends_doneRun seated.fits _ seated.tail]
  refine ⟨fun none => ?_, fun _ => ⟨fun _ => flies.adds_none, fun _ => ⟨fun _ => flies.adds_none, fun _ =>
    ⟨fun _ => Flies.adds_none ?_, fun _ => postAll_adds flies known short⟩⟩⟩⟩
  · rw [List.isEmpty_iff.mp none]
    simpa only [Flight.ofFrame, List.append_nil] using flies
  · exact flies.of_same rfl rfl rfl rfl rfl

/-! ### Reclaiming -/

theorem reclaim_flies {ε : Type} (flies : Flies (ring, machine) flights) :
    (reclaim : Step ε _ _).Ends (ring, machine) (fun _ after => Flies after flights) (fun _ _ => False) := by
  refine reclaim_ends flies.carries.wired.seated (fun ring machine slot log _ _ done flies => ?_)
    (fun after log flies => flies.of_same rfl rfl rfl rfl rfl) flies
  -- A slot that is done is not in flight, so its page may go.
  have carries := flies.carries
  have free : slot ∉ Ring.arc ring.capacity machine.device.transmitSide.head flights.length := by
    intro listed
    rw [carries.not_done_of_mem listed] at done
    cases done
  exact carries.freed _ free

end TransmitRing

end PacketPath
