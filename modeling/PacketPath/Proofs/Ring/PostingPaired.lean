import PacketPath.Ring.Transmit
import PacketPath.Proofs.Agreement

/-! One transmit ring over two machines that look the same through its table. A ring reads no page but the one of
its table, tells the device of nothing but its tail, and keeps and gives back handles, so its steps agree. -/

set_option autoImplicit false

namespace PacketPath

structure Machine.Grips (like : Machine Emulator → Machine Emulator → Prop) : Prop where
  retained : ∀ {one other}, like one other → ∀ id,
    like { one with memory := one.memory.retain id } { other with memory := other.memory.retain id }
  released : ∀ {one other}, like one other → ∀ id,
    like { one with memory := one.memory.release id } { other with memory := other.memory.release id }

namespace TransmitRing

open Step

variable {ε : Type} {pages : PageId → Prop} {registers : Register → Prop}
  {like : Machine Emulator → Machine Emulator → Prop} {ring : TransmitRing} {one other : Machine Emulator}

abbrev Paired (pages : PageId → Prop) (like : Machine Emulator → Machine Emulator → Prop) :
    TransmitRing × Machine Emulator → TransmitRing × Machine Emulator → Prop :=
  Machine.Paired (fun ring => pages ring.table.page) like

variable (view : Machine.View pages registers like)
include view

theorem doneRun_agree (covered : pages ring.table.page) (alike : like one other) (slot limit : Nat) :
    Agree like (ring.doneRun slot limit : Step ε _ _) (ring.doneRun slot limit) one other := by
  induction limit generalizing slot one other with
  | zero => exact .pure _ alike
  | succ limit ih =>
    unfold doneRun
    refine .bind (view.transmitStatus alike covered slot) fun _ _ _ alike => ?_
    exact .ite _ (fun _ => .bind (ih alike _) fun _ _ _ alike => .pure _ alike) fun _ => .pure _ alike

variable (grips : Machine.Grips like)
include grips

theorem release_agree (covered : pages ring.table.page) (alike : like one other) (slot : Nat) :
    Agree (Paired pages like) (release slot : Step ε _ _) (release slot) (ring, one) (ring, other) := by
  unfold release
  refine .get_bind ?_
  dsimp only
  cases ring.binding slot with
  | none => exact .pure _ ⟨rfl, covered, alike⟩
  | some page =>
    -- Whatever was reported about the slot, the page is counted, noted and given back.
    have last (ring : TransmitRing) (one other : Machine Emulator) (covered : pages ring.table.page)
        (alike : like one other) :
        Agree (Paired pages like)
          (do
            count fun counters => { counters with released := counters.released + 1 }
            let base := Text.hex (← Step.second (Machine.baseOf page)).toNat
            Step.second (Machine.note .trace s!"[tx] released slot={slot} page={base}")
            Step.second (Machine.release page) : Step ε _ _)
          (do
            count fun counters => { counters with released := counters.released + 1 }
            let base := Text.hex (← Step.second (Machine.baseOf page)).toNat
            Step.second (Machine.note .trace s!"[tx] released slot={slot} page={base}")
            Step.second (Machine.release page)) (ring, one) (ring, other) := by
      refine .paired_bind (.first alike covered) fun _ _ _ _ inside alike => ?_
      refine .paired_bind (.second (view.baseOf alike page) inside) fun _ _ _ _ inside alike => ?_
      refine .paired_bind (.second (view.note alike ..) inside) fun _ _ _ _ inside alike => ?_
      exact .second (.of_ok rfl rfl (grips.released alike page)) inside
    have counted (change : TransmitCounters → TransmitCounters) (ring : TransmitRing) (one other : Machine Emulator)
        (covered : pages ring.table.page) (alike : like one other) :
        Agree (Paired pages like) (count change : Step ε _ _) (count change) (ring, one) (ring, other) :=
      .first alike covered
    refine .paired_bind (.first alike covered) fun _ _ _ _ inside alike => ?_
    refine .paired_bind (.second (view.transmitStatus alike covered slot) inside) fun _ _ _ _ inside alike => ?_
    refine .ite _ (fun _ => ?_) fun _ => .ite _ (fun _ => ?_) fun _ => last _ _ _ inside alike
    · refine .paired_bind (counted _ _ _ _ inside alike) fun _ _ _ _ inside alike => ?_
      refine .paired_bind (.second (view.note alike ..) inside) fun _ _ _ _ inside alike => ?_
      refine .ite _ (fun _ => ?_) fun _ => last _ _ _ inside alike
      refine .paired_bind (counted _ _ _ _ inside alike) fun _ _ _ _ inside alike => ?_
      exact .paired_bind (.second (view.note alike ..) inside) fun _ _ _ _ inside alike => last _ _ _ inside alike
    · refine .paired_bind (counted _ _ _ _ inside alike) fun _ _ _ _ inside alike => ?_
      exact .paired_bind (.second (view.note alike ..) inside) fun _ _ _ _ inside alike => last _ _ _ inside alike

theorem reclaimFrom_agree (covered : pages ring.table.page) (alike : like one other) (slot count : Nat) :
    Agree (Paired pages like) (reclaimFrom slot count : Step ε _ _) (reclaimFrom slot count) (ring, one)
      (ring, other) := by
  induction count generalizing slot ring one other with
  | zero => exact .pure _ ⟨rfl, covered, alike⟩
  | succ count ih =>
    have later (finished : Bool) (ring : TransmitRing) (one other : Machine Emulator) (covered : pages ring.table.page)
        (alike : like one other) :
        Agree (Paired pages like)
          (if finished = true then do
            release slot
            return (← reclaimFrom (slot + 1) count) + 1
          else reclaimFrom (slot + 1) count : Step ε _ _)
          (if finished = true then do
            release slot
            return (← reclaimFrom (slot + 1) count) + 1
          else reclaimFrom (slot + 1) count) (ring, one) (ring, other) := by
      refine .ite _ (fun _ => ?_) fun _ => ih covered alike _
      refine .paired_bind (release_agree view grips covered alike slot) fun _ _ _ _ inside alike => ?_
      exact .paired_bind (ih inside alike _) fun _ _ _ _ inside alike => .pure _ ⟨rfl, inside, alike⟩
    unfold reclaimFrom
    refine .get_bind (.ite _ (fun _ => ?_) fun _ => ?_)
    · refine .paired_bind (.second (view.transmitStatus alike covered slot) covered) fun _ _ _ _ inside alike => ?_
      exact .paired_bind (.pure _ ⟨rfl, inside, alike⟩) fun _ _ _ _ inside alike => later _ _ _ _ inside alike
    · exact .paired_bind (.pure _ ⟨rfl, covered, alike⟩) fun _ _ _ _ inside alike => later _ _ _ _ inside alike

theorem reclaim_agree (covered : pages ring.table.page) (alike : like one other) :
    Agree (Paired pages like) (reclaim : Step ε _ _) reclaim (ring, one) (ring, other) := by
  refine .get_bind (.paired_bind (reclaimFrom_agree view grips covered alike 0 _) fun _ _ _ _ inside alike => ?_)
  refine .ite _ (fun _ => ?_) fun _ => .pure _ ⟨rfl, inside, alike⟩
  exact .paired_bind (.second (view.note alike ..) inside) fun _ _ _ _ inside alike => .pure _ ⟨rfl, inside, alike⟩

variable (tells : registers .transmitTail)
include tells

theorem post_agree_paired (covered : pages ring.table.page) (alike : like one other) (fragment : Fragment)
    (endsFrame : Bool) :
    Agree (Paired pages like) (post fragment endsFrame) (post fragment endsFrame) (ring, one) (ring, other) := by
  refine .get_bind (.paired_bind (.second (view.transmitStatus alike covered _) covered) fun _ _ _ _ inside alike => ?_)
  refine .ite _ (fun _ => ?_) fun _ => ?_
  · refine .paired_bind (.first alike inside) fun _ _ _ _ inside alike => ?_
    refine .paired_bind (.second (view.note alike ..) inside) fun _ _ _ _ inside alike => ?_
    exact .refuse _ ⟨rfl, inside, alike⟩
  · refine .paired_bind (release_agree view grips inside alike _) fun _ _ _ _ inside alike => ?_
    refine .paired_bind (.second (.inspect ?_ alike) inside) fun address _ _ _ inside alike => ?_
    · rw [view.base alike]
    refine .paired_bind (.second (view.writeTransmit alike covered _ _) inside) fun _ _ _ _ inside alike => ?_
    refine .paired_bind (.first alike inside) fun _ _ _ _ inside alike => ?_
    refine .paired_bind (.second (.of_ok rfl rfl (grips.retained alike fragment.page)) inside)
      fun _ _ _ _ inside alike => ?_
    refine .paired_bind (.first alike inside) fun _ _ _ _ inside alike => ?_
    refine .paired_bind (.second (view.write alike tells _) inside) fun _ _ _ _ inside alike => ?_
    refine .paired_bind (.first alike inside) fun _ _ _ _ inside alike => ?_
    exact .second (view.note alike ..) inside

theorem postAll_agree_paired (covered : pages ring.table.page) (alike : like one other) (fragments : List Fragment) :
    Agree (Paired pages like) (postAll fragments) (postAll fragments) (ring, one) (ring, other) := by
  induction fragments using postAll.induct generalizing ring one other with
  | case1 => exact .pure _ ⟨rfl, covered, alike⟩
  | case2 last => exact post_agree_paired view grips tells covered alike last true
  | case3 fragment rest more ih =>
    rw [postAll]
    · exact .paired_bind (post_agree_paired view grips tells covered alike fragment false)
        fun _ _ _ _ inside alike => ih inside alike
    · exact more

theorem postFrame_agree_paired (covered : pages ring.table.page) (alike : like one other)
    (fragments : List Fragment) :
    Agree (Paired pages like) (postFrame fragments) (postFrame fragments) (ring, one) (ring, other) := by
  unfold postFrame
  refine .ite _ (fun _ => .pure _ ⟨rfl, covered, alike⟩) fun _ => .get_bind ?_
  refine .ite _ (fun _ => .refuse _ ⟨rfl, covered, alike⟩) fun _ => ?_
  refine .ite _ (fun _ => .refuse _ ⟨rfl, covered, alike⟩) fun _ => ?_
  refine .paired_bind (.second (doneRun_agree view covered alike _ _) covered) fun _ _ _ _ inside alike => ?_
  refine .ite _ (fun _ => ?_) fun _ => postAll_agree_paired view grips tells inside alike fragments
  exact .paired_bind (.first alike inside) fun _ _ _ _ inside alike => .refuse _ ⟨rfl, inside, alike⟩

end TransmitRing

end PacketPath
