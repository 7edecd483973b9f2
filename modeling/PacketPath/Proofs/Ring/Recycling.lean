import PacketPath.Proofs.Ring.Taking

/-! Recycling: which frames a receive ring has handed back, what they count for in its counters, and
which of them were of use. -/

set_option autoImplicit false

namespace PacketPath

variable {queue : List Arrival} {scope : PageId → Prop}

def clean (arrivals : List Arrival) : List (List UInt8) :=
  (arrivals.filter fun arrival => !arrival.spoiled).map Arrival.frame

theorem clean_append (first second : List Arrival) : clean (first ++ second) = clean first ++ clean second := by
  unfold clean
  rw [List.filter_append, List.map_append]

theorem clean_take_of_length_one {first : Arrival} {rest : List Arrival} {count : Nat} (useful : first.spoiled = false)
    (one : (clean ((first :: rest).take count)).length = 1) : clean ((first :: rest).take count) = [first.frame] := by
  cases count with
  | zero => cases one
  | succ count =>
    simp only [List.take_succ_cons, clean, List.filter_cons, useful, Bool.not_false, if_true, List.map_cons,
      List.length_cons, Nat.add_eq_right, List.length_map] at one ⊢
    rw [List.length_eq_zero_iff.mp one, List.map_nil]

/-- How many frames the ring has handed back to the device. -/
def ReceiveRing.recycled (ring : ReceiveRing) : Nat :=
  ring.counters.packets + ring.counters.dropped

/-- From one state of a ring to another frames at the front of its queue are handed back, and at most
one of them was of use, which was delivered. -/
structure Recycles (queue : List Arrival) (before after : ReceiveRing) (frame : Option (List UInt8))
    (left : List Arrival) : Prop where
  split : ∃ gone, queue = gone ++ left ∧ clean gone = frame.toList ∧
    after.counters.dropped = before.counters.dropped + gone.countP Arrival.spoiled ∧
    after.counters.packets = before.counters.packets + frame.toList.length

theorem length_eq_countP_add_clean (arrivals : List Arrival) :
    arrivals.length = arrivals.countP Arrival.spoiled + (clean arrivals).length := by
  unfold clean
  rw [List.length_map, ← List.countP_eq_length_filter, List.length_eq_countP_add_countP Arrival.spoiled]
  congr 1
  apply List.countP_congr
  intro arrival _
  simp

theorem Recycles.clean_eq {before after : ReceiveRing} {frame : Option (List UInt8)} {left : List Arrival}
    (recycles : Recycles queue before after frame left) : clean queue = frame.toList ++ clean left := by
  obtain ⟨gone, split, useful, -⟩ := recycles.split
  rw [split, clean_append, useful]

theorem Recycles.exists_gone {before after : ReceiveRing} {frame : Option (List UInt8)} {left : List Arrival}
    (recycles : Recycles queue before after frame left) :
    ∃ gone, queue = gone ++ left ∧ after.recycled = before.recycled + gone.length := by
  obtain ⟨gone, split, useful, dropped, packets⟩ := recycles.split
  refine ⟨gone, split, ?_⟩
  unfold ReceiveRing.recycled
  rw [dropped, packets, ← useful, length_eq_countP_add_clean gone]
  omega

theorem Recycles.left_eq {arrivals : List Arrival} {before after : ReceiveRing} {frame : Option (List UInt8)}
    {left : List Arrival} (recycles : Recycles (arrivals.drop before.recycled) before after frame left)
    (consumed : before.recycled ≤ arrivals.length) :
    left = arrivals.drop after.recycled ∧ after.recycled ≤ arrivals.length := by
  obtain ⟨gone, split, recycled⟩ := recycles.exists_gone
  constructor
  · rw [recycled, ← List.drop_drop, split, List.drop_left]
  · have lengths := congrArg List.length split
    rw [List.length_drop, List.length_append] at lengths
    omega

theorem Recycles.exists_taken {arrivals : List Arrival} {before after : ReceiveRing} {frame : Option (List UInt8)}
    {left : List Arrival} (recycles : Recycles (arrivals.drop before.recycled) before after frame left) :
    ∃ gone, arrivals.take after.recycled = arrivals.take before.recycled ++ gone ∧ clean gone = frame.toList ∧
      after.counters.dropped = before.counters.dropped + gone.countP Arrival.spoiled ∧
      after.counters.packets = before.counters.packets + frame.toList.length := by
  obtain ⟨gone, split, useful, dropped, packets⟩ := recycles.split
  refine ⟨gone, ?_, useful, dropped, packets⟩
  have later : after.recycled = before.recycled + gone.length := by
    unfold ReceiveRing.recycled
    rw [dropped, packets, ← useful, length_eq_countP_add_clean gone]
    omega
  rw [later, List.take_add, split, List.take_left]

theorem Recycles.refl (queue : List Arrival) (ring : ReceiveRing) : Recycles queue ring ring none queue :=
  ⟨[], rfl, rfl, rfl, rfl⟩

theorem spoiled_of_mem_takeWhile {arrival : Arrival} (listed : arrival ∈ queue.takeWhile Arrival.spoiled) :
    arrival.spoiled = true :=
  List.all_eq_true.mp List.all_takeWhile arrival listed

theorem clean_takeWhile (queue : List Arrival) : clean (queue.takeWhile Arrival.spoiled) = [] := by
  unfold clean
  rw [List.map_eq_nil_iff, List.filter_eq_nil_iff]
  intro arrival listed
  simp [spoiled_of_mem_takeWhile listed]

theorem head?_clean (queue : List Arrival) :
    (clean queue).head? = (ReceiveRing.upcoming queue).head?.map Arrival.frame := by
  unfold clean
  rw [List.head?_map, List.head?_filter]
  congr 1
  induction queue with
  | nil => rfl
  | cons arrival rest ih =>
    cases spoiled : arrival.spoiled with
    | true => simp [spoiled, ih]
    | false => simp [spoiled]

theorem countP_takeWhile (queue : List Arrival) :
    (queue.takeWhile Arrival.spoiled).countP Arrival.spoiled = (queue.takeWhile Arrival.spoiled).length :=
  List.countP_eq_length.mpr fun _ listed => spoiled_of_mem_takeWhile listed

namespace ReceiveRing

variable {before after : ReceiveRing × Machine Emulator}

theorem Taken.recycles (taken : Taken scope queue before after (upcoming queue).tail
    (tallyTaken (upcoming queue).head?)) :
    Recycles queue before.1 after.1 ((upcoming queue).head?.map Arrival.frame) (upcoming queue).tail := by
  have counters := taken.counters
  have whole : queue.takeWhile Arrival.spoiled ++ upcoming queue = queue := List.takeWhile_append_dropWhile
  have count := countP_takeWhile queue
  have useless := clean_takeWhile queue
  -- Either all that waited was spoiled, or the first frame of use goes with those before it.
  cases rest : upcoming queue with
  | nil =>
    rw [rest] at counters whole
    refine ⟨queue.takeWhile Arrival.spoiled, whole.symm, useless, ?_, ?_⟩
    · rw [counters, count]
      rfl
    · rw [counters]
      rfl
  | cons arrival others =>
    rw [rest] at counters whole
    have good : arrival.spoiled = false := by
      have front := List.head?_dropWhile_not Arrival.spoiled queue
      rw [show queue.dropWhile Arrival.spoiled = arrival :: others from rest] at front
      exact front
    refine ⟨queue.takeWhile Arrival.spoiled ++ [arrival], ?_, ?_, ?_, ?_⟩
    · rw [List.append_assoc]
      exact whole.symm
    · rw [clean_append, useless]
      unfold clean
      simp [good]
    · rw [counters, List.countP_append, count]
      simp [good, tallyTaken, tallyDelivered, tallyDropped]
    · rw [counters]
      rfl

theorem Taken.recycles_none (taken : Taken scope queue before after (upcoming queue) id) :
    Recycles queue before.1 after.1 none (upcoming queue) := by
  refine ⟨queue.takeWhile Arrival.spoiled, List.takeWhile_append_dropWhile.symm, clean_takeWhile queue, ?_, ?_⟩
  · rw [taken.counters, countP_takeWhile]
    rfl
  · rw [taken.counters]
    rfl

end ReceiveRing

end PacketPath
