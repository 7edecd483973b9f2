import PacketPath.Ring.Receive
import PacketPath.Proofs.Agreement

/-! Receive rings over machines that look the same through the pages of the ring. A receive ring reads memory by the
names of its pages and tells the device of nothing but its tail, so its steps agree. -/

set_option autoImplicit false

namespace PacketPath.ReceiveRing

open Step

variable {ε α : Type} {pages : PageId → Prop} {registers : Register → Prop}
  {like : Machine Emulator → Machine Emulator → Prop} {ring : ReceiveRing} {one other : Machine Emulator}

def Covered (pages : PageId → Prop) (ring : ReceiveRing) : Prop :=
  ∀ id ∈ ring.pages, pages id

theorem Covered.table (covered : ring.Covered pages) : pages ring.table.page :=
  covered _ (List.mem_cons_self ..)

theorem Covered.buffer {slot : Nat} {page : PageId} (covered : ring.Covered pages)
    (found : ring.buffer slot = .ok page) : pages page := by
  unfold ReceiveRing.buffer at found
  cases kept : ring.buffers[slot]? with
  | none =>
    rw [kept] at found
    cases found
  | some other =>
    rw [kept] at found
    cases found
    rw [← Array.getElem?_toList] at kept
    exact covered _ (List.mem_cons_of_mem _ (List.mem_of_getElem? kept))

abbrev Paired (pages : PageId → Prop) (like : Machine Emulator → Machine Emulator → Prop) :
    ReceiveRing × Machine Emulator → ReceiveRing × Machine Emulator → Prop :=
  Machine.Paired (Covered pages) like

variable (view : Machine.View pages registers like) (tells : registers .receiveTail)
include view tells

theorem recycle_agree (covered : ring.Covered pages) (alike : like one other) (slot : Nat) :
    Agree (Paired pages like) (recycle slot : Step ε _ _) (recycle slot) (ring, one) (ring, other) := by
  refine .get_bind (.inspect_bind rfl ⟨rfl, covered, alike⟩ fun page _ => ?_)
  refine .paired_bind (.second (view.baseOf alike page) covered) fun base _ _ _ inside alike => ?_
  refine .paired_bind (.second (view.writeReceive alike covered.table _ _) inside) fun _ _ _ _ inside alike => ?_
  refine .paired_bind (.second (view.write alike tells _) inside) fun _ ring _ _ inside alike => ?_
  refine .paired_bind (.first alike inside) fun _ _ _ _ inside alike => .ite _ (fun _ => ?_) fun _ =>
    .pure _ ⟨rfl, inside, alike⟩
  exact .second (view.note alike ..) inside

theorem seek_agree (covered : ring.Covered pages) (alike : like one other) (limit : Nat) :
    Agree (Paired pages like) (seek limit) (seek limit) (ring, one) (ring, other) := by
  induction limit generalizing ring one other with
  | zero => exact .pure _ ⟨rfl, covered, alike⟩
  | succ limit ih =>
    unfold seek
    refine .get_bind (.paired_bind (.second ?_ covered) fun ready _ _ _ inside alike => ?_)
    · exact .bind (view.receiveStatus alike covered.table _) fun _ _ _ kept => .pure _ kept
    refine .ite _ (fun _ => .pure _ ⟨rfl, inside, alike⟩) fun _ => ?_
    refine .paired_bind (.second (view.readReceive alike covered.table _) inside) fun descriptor _ _ _ inside alike => ?_
    refine .ite _ (fun _ => .refuse _ ⟨rfl, inside, alike⟩) fun _ => .ite _ (fun _ => ?_) fun _ => ?_
    · refine .paired_bind (.first alike inside) fun _ _ _ _ inside alike => ?_
      refine .paired_bind (.second (view.note alike ..) inside) fun _ _ _ _ inside alike => ?_
      exact .paired_bind (recycle_agree view tells inside alike _) fun _ _ _ _ inside alike => ih inside alike
    · exact .ite _ (fun _ => .refuse _ ⟨rfl, inside, alike⟩) fun _ => .pure _ ⟨rfl, inside, alike⟩

theorem take_agree {deliver : PageId → Nat → Step ReceiveError (Machine Emulator) α} (covered : ring.Covered pages)
    (alike : like one other)
    (delivers : ∀ page length one other, pages page → like one other →
      Agree like (deliver page length) (deliver page length) one other) :
    Agree (Paired pages like) (take deliver) (take deliver) (ring, one) (ring, other) := by
  refine .get_bind (.paired_bind (seek_agree view tells covered alike _) fun found _ _ _ inside alike => ?_)
  cases found with
  | none => exact .pure _ ⟨rfl, inside, alike⟩
  | some found =>
    obtain ⟨slot, length⟩ := found
    refine .get_bind (.inspect_bind rfl ⟨rfl, inside, alike⟩ fun page owned => ?_)
    have seen := inside.buffer owned
    refine .paired_bind (.second (delivers page length _ _ seen alike) inside) fun delivered _ _ _ inside alike => ?_
    refine .paired_bind (recycle_agree view tells inside alike slot) fun _ _ _ _ inside alike => ?_
    refine .paired_bind (.first alike inside) fun _ _ _ _ inside alike => ?_
    exact .paired_bind (.second (view.note alike ..) inside) fun _ _ _ _ inside alike => .pure _ ⟨rfl, inside, alike⟩

theorem receive_agree (covered : ring.Covered pages) (alike : like one other) :
    Agree (Paired pages like) receive receive (ring, one) (ring, other) :=
  take_agree view tells covered alike fun _ _ _ _ seen alike => .ite _
    (fun _ => .bind (.refuse _ alike) fun _ _ _ alike => view.readBytes alike seen _ _)
    (fun _ => view.readBytes alike seen _ _)

theorem receiveInto_agree (covered : ring.Covered pages) (alike : like one other) (destination : List UInt8) :
    Agree (Paired pages like) (receiveInto destination) (receiveInto destination) (ring, one) (ring, other) :=
  take_agree view tells covered alike fun _ _ _ _ seen alike => .ite _
    (fun _ => .bind (.refuse _ alike) fun _ _ _ alike =>
      .bind (view.readBytes alike seen _ _) fun _ _ _ alike => .pure _ alike)
    (fun _ => .bind (view.readBytes alike seen _ _) fun _ _ _ alike => .pure _ alike)

theorem receiveIntoPage_agree (covered : ring.Covered pages) (alike : like one other) {target : PageId}
    (written : pages target) (offset : Nat) :
    Agree (Paired pages like) (receiveIntoPage target offset) (receiveIntoPage target offset) (ring, one)
      (ring, other) :=
  take_agree view tells covered alike fun _ _ _ _ seen alike => .bind (view.sizeOf alike written) fun _ _ _ alike =>
    .ite _ (fun _ => .refuse _ alike) fun _ =>
      .bind (view.copy alike written seen _ _ _) fun _ _ _ alike => .pure _ alike

end PacketPath.ReceiveRing
