import PacketPath.Proofs.Ring.TransmitSteps

/-! The handles of a transmit ring. A ring takes one when it posts and gives one back when a slot that kept a page is
reused or reclaimed, and it counts both. -/

set_option autoImplicit false

namespace PacketPath.TransmitRing

variable {ring one other third : TransmitRing} {machine : Machine Emulator} {created more : List PageId} {slot : Nat}

/-- From one ring to another: pages were bound to slots, others were released, and the ring has counted them. A page
that was bound and released in between is among both. -/
structure Rebinds (created : List PageId) (one other : TransmitRing) : Prop where
  posted : other.counters.posted = one.counters.posted + created.length
  pages : ∃ released, (one.pages ++ created).Perm (other.pages ++ released) ∧
    other.counters.released = one.counters.released + released.length

namespace Rebinds

theorem of_same (pages : other.pages = one.pages) (posted : other.counters.posted = one.counters.posted)
    (released : other.counters.released = one.counters.released) : Rebinds [] one other := by
  refine ⟨posted, [], ?_, released⟩
  rw [List.append_nil, List.append_nil, pages]

theorem refl (ring : TransmitRing) : Rebinds [] ring ring :=
  of_same rfl rfl rfl

theorem trans (first : Rebinds created one other) (second : Rebinds more other third) :
    Rebinds (created ++ more) one third := by
  obtain ⟨released, early, counted⟩ := first.pages
  obtain ⟨rest, late, counted'⟩ := second.pages
  refine ⟨?_, rest ++ released, ?_, ?_⟩
  · rw [second.posted, first.posted, List.length_append, Nat.add_assoc]
  · calc one.pages ++ (created ++ more)
      _ = one.pages ++ created ++ more := (List.append_assoc ..).symm
      List.Perm _ (other.pages ++ released ++ more) := early.append_right more
      List.Perm _ (other.pages ++ more ++ released) := by
        rw [List.append_assoc, List.append_assoc]
        exact List.perm_append_comm.append_left _
      List.Perm _ (third.pages ++ rest ++ released) := late.append_right released
      _ = third.pages ++ (rest ++ released) := List.append_assoc ..
  · rw [counted', counted, List.length_append]
    omega

end Rebinds

theorem rebinds_freed (ring : TransmitRing) (slot : Nat) (status : TransmitStatus) :
    Rebinds [] ring (ring.freed slot status) := by
  have pages := ring.perm_pages_freed slot status
  refine ⟨?_, ring.slotPages slot, ?_, ?_⟩
  · unfold freed
    split <;> rfl
  · rw [List.append_nil]
    exact pages.trans List.perm_append_comm
  · unfold freed slotPages
    split
    case h_1 free => rw [free]; rfl
    case h_2 page held => rw [held]; rfl

theorem rebinds_posted (inside : ring.tail < ring.bindings.size) (status : TransmitStatus) (fragment : Fragment)
    (endsFrame : Bool) : Rebinds [fragment.page] ring (ring.posted status fragment endsFrame) := by
  have freed := ring.rebinds_freed ring.tail status
  have free : (ring.freed ring.tail status).binding ring.tail = none := by rw [binding_freed, if_pos rfl]
  have pages : (ring.posted status fragment endsFrame).pages =
      ((ring.freed ring.tail status).bound ring.tail fragment.page).pages := by
    simp only [TransmitRing.pages, posted, bound, table_freed]
  suffices bound : Rebinds [fragment.page] (ring.freed ring.tail status) (ring.posted status fragment endsFrame) from
    freed.trans bound
  refine ⟨rfl, [], ?_, rfl⟩
  rw [pages, List.append_nil]
  refine List.perm_append_comm.trans (perm_pages_bound free ?_).symm
  rwa [size_bindings_freed]

theorem post_rebinds {fragment : Fragment} {endsFrame : Bool} (seated : ring.Seated machine.memory) :
    (post fragment endsFrame).Ends (ring, machine) (fun _ after => Rebinds [fragment.page] ring after.1)
      (fun _ after => Rebinds [] ring after.1) := by
  apply post_ends (Emulator.port .transmitTail) trivial seated
  · exact fun _ _ => .of_same rfl rfl rfl
  · exact fun _ _ _ _ => ring.rebinds_freed ..
  · intro _ _ _ _
    exact rebinds_posted seated.tail_bound ..

theorem reclaim_rebinds {ε : Type} (seated : ring.Seated machine.memory) :
    (reclaim : Step ε _ _).Ends (ring, machine) (fun _ after => Rebinds [] ring after.1) (fun _ _ => False) :=
  reclaim_ends seated (fun freeing _ _ _ _ _ _ rebinds => rebinds.trans (freeing.rebinds_freed ..))
    (fun _ _ rebinds => rebinds) (.refl ring)

end PacketPath.TransmitRing
