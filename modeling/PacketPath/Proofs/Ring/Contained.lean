import PacketPath.Proofs.Register.Contained

/-! Rings stay inside the register window. Of the device they know its tail registers, and when they are handed over the
other registers of their direction. -/

set_option autoImplicit false

namespace PacketPath

open Step (Contained)

variable {δ ε α : Type} {placed : δ → Prop}

def Machine.PlacedBeside {τ : Type} (placed : δ → Prop) (pair : τ × Machine δ) : Prop :=
  pair.2.Placed placed

/-! ### The transmit ring -/

namespace TransmitRing

theorem markIdle_contained (table : DescriptorTable) (slot count : Nat) :
    (markIdle table slot count : Step ε _ _).Contained (Machine.Placed placed) := by
  induction count generalizing slot with
  | zero => exact .pure _
  | succ count ih => exact .bind (table.writeRaw_contained _ _) fun _ => ih (slot + 1)

theorem create_contained (table : DescriptorTable) :
    (create table : Step ε _ _).Contained (Machine.Placed placed) :=
  .bind (markIdle_contained _ _ _) fun _ => .pure _

theorem doneRun_contained (ring : TransmitRing) (slot limit : Nat) :
    (ring.doneRun slot limit : Step ε _ _).Contained (Machine.Placed placed) := by
  induction limit generalizing slot with
  | zero => exact .pure _
  | succ limit ih =>
    exact .bind (ring.table.transmitStatus_contained slot) fun _ => .ite (.bind (ih _) fun _ => .pure _) (.pure _)

theorem setBinding_contained (slot : Nat) (page : Option PageId) :
    (setBinding slot page : Step ε _ _).Contained (Machine.PlacedBeside placed) :=
  .first (.modify _)

theorem count_contained (change : TransmitCounters → TransmitCounters) :
    (count change : Step ε _ _).Contained (Machine.PlacedBeside placed) :=
  .first (.modify _)

theorem release_contained (slot : Nat) : (release slot : Step ε _ _).Contained (Machine.PlacedBeside placed) := by
  refine .bind .get fun state => ?_
  dsimp only
  cases state.1.binding slot with
  | none => exact .pure _
  | some page =>
    refine .bind (setBinding_contained _ _) fun _ => .bind (.second (state.1.table.transmitStatus_contained _)) ?_
    intro status
    refine .guard_two (count_contained _) (fun _ => .second (Machine.note_contained _ _)) fun _ => ?_
    refine .guard_two (count_contained _) (fun _ => .second (Machine.note_contained _ _)) fun _ => ?_
    refine .bind (count_contained _) fun _ => .bind (.second (Machine.baseOf_contained _)) fun base => ?_
    exact .bind (.second (Machine.note_contained _ _)) fun _ => .second (Machine.changeMemory_contained _)

theorem reclaimFrom_contained (slot count : Nat) :
    (reclaimFrom slot count : Step ε _ _).Contained (Machine.PlacedBeside placed) := by
  induction count generalizing slot with
  | zero => exact .pure _
  | succ count ih =>
    have goes (finished : Bool) : Contained (Machine.PlacedBeside placed)
        (if finished then do
          release slot
          return (← reclaimFrom (slot + 1) count) + 1
        else reclaimFrom (slot + 1) count : Step ε (TransmitRing × Machine δ) Nat) :=
      .ite (.bind (release_contained slot) fun _ => .bind (ih _) fun _ => .pure _) (ih _)
    refine .bind .get fun state => .ite ?_ (.bind (.pure false) goes)
    exact .bind (.second (state.1.table.transmitStatus_contained slot)) fun _ => .bind (.pure _) goes

theorem reclaim_contained : (reclaim : Step ε _ _).Contained (Machine.PlacedBeside placed) := by
  refine .bind .get fun state => .bind (reclaimFrom_contained _ _) fun released => ?_
  exact .guard (.second (Machine.note_contained _ _)) fun _ => .pure _

variable [RegisterBus δ] (fence : Register.Fence placed)
include fence

theorem program_contained (ring : TransmitRing) : (ring.program : Step ε _ _).Contained (Machine.Placed placed) :=
  .bind (Machine.baseOf_contained _) fun _ => .bind (fence.write _ _) fun _ => .bind (fence.write _ _) fun _ =>
    .bind (fence.write _ _) fun _ => .bind (fence.write _ _) fun _ => fence.write _ _

theorem post_contained (fragment : Fragment) (endsFrame : Bool) :
    (post fragment endsFrame).Contained (Machine.PlacedBeside placed) := by
  refine .bind .get fun state => .bind (.second (state.1.table.transmitStatus_contained _)) fun status => ?_
  refine .ite ?_ ?_
  · exact .bind (count_contained _) fun _ => .bind (.second (Machine.note_contained _ _)) fun _ => .refuse_bind _ _
  · refine .bind (release_contained _) fun _ => .bind (.second fragment.address_contained) fun address => ?_
    refine .bind (.second (state.1.table.writeRaw_contained _ _)) fun _ => .bind (setBinding_contained _ _) fun _ => ?_
    refine .bind (.second (Machine.changeMemory_contained _)) fun _ => .bind (.first (.modify _)) fun _ => ?_
    refine .bind (.second (fence.write _ _)) fun _ => .bind (count_contained _) fun _ => ?_
    exact .second (Machine.note_contained _ _)

theorem postAll_contained (fragments : List Fragment) :
    (postAll fragments : Step _ (TransmitRing × Machine δ) _).Contained (Machine.PlacedBeside placed) := by
  induction fragments using postAll.induct with
  | case1 => exact .pure _
  | case2 last => exact post_contained fence last true
  | case3 fragment rest more ih =>
    rw [postAll]
    · exact .bind (post_contained fence fragment false) fun _ => ih
    · exact more

theorem postFrame_contained (fragments : List Fragment) :
    (postFrame fragments : Step _ (TransmitRing × Machine δ) _).Contained (Machine.PlacedBeside placed) := by
  refine .ite (.pure _) (.bind .get fun state => ?_)
  refine .guard (.refuse _) fun _ => .guard (.refuse _) fun _ => ?_
  refine .bind (.second (state.1.doneRun_contained _ _)) fun free => ?_
  exact .guard_two (count_contained _) (fun _ => .refuse _) fun _ => postAll_contained fence fragments

end TransmitRing

/-! ### The receive ring -/

namespace ReceiveRing

theorem bindPool_contained (table : DescriptorTable) (slot : Nat) (pool : List PageId) :
    (bindPool table slot pool : Step ε _ _).Contained (Machine.Placed placed) := by
  induction pool generalizing slot with
  | nil => exact .pure _
  | cons page rest ih =>
    refine .bind (Machine.sizeOf_contained _) fun size => .guard (.violate not_false) fun _ => ?_
    refine .bind (Machine.fill_contained _ _ _ _) fun _ => .bind (Machine.baseOf_contained _) fun base => ?_
    exact .bind (table.writeRaw_contained _ _) fun _ => ih (slot + 1)

theorem create_contained (table : DescriptorTable) (pool : List PageId) :
    (create table pool : Step ε _ _).Contained (Machine.Placed placed) := by
  unfold create
  exact .guard (.violate not_false) fun _ => .bind (bindPool_contained _ _ _) fun _ => .pure _

theorem isReady_contained (ring : ReceiveRing) : (ring.isReady : Step ε _ _).Contained (Machine.Placed placed) :=
  .bind (ring.table.receiveStatus_contained _) fun _ => .pure _

theorem count_contained (change : ReceiveCounters → ReceiveCounters) :
    (count change : Step ε _ _).Contained (Machine.PlacedBeside placed) :=
  .first (.modify _)

theorem buffer_contained (ring : ReceiveRing) (slot : Nat) :
    (Step.inspect fun _ => ring.buffer slot : Step ε (ReceiveRing × Machine δ) _).Contained
      (Machine.PlacedBeside placed) := by
  refine .inspect fun state violation found => ?_
  unfold buffer at found
  split at found <;> cases found
  exact not_false

variable [RegisterBus δ] (fence : Register.Fence placed)
include fence

theorem program_contained (ring : ReceiveRing) : (ring.program : Step ε _ _).Contained (Machine.Placed placed) := by
  refine .bind (Machine.baseOf_contained _) fun base => ?_
  refine .bind (fence.write _ _) fun _ => .bind (fence.write _ _) fun _ => .bind (fence.write _ _) fun _ => ?_
  refine .bind (fence.write _ _) fun _ => ?_
  exact .guard (.violate not_false) fun _ => fence.write _ _

theorem recycle_contained (slot : Nat) : (recycle slot : Step ε _ _).Contained (Machine.PlacedBeside placed) := by
  refine .bind .get fun state => .bind (buffer_contained state.1 slot) fun page => ?_
  refine .bind (.second (Machine.baseOf_contained _)) fun base => ?_
  refine .bind (.second (state.1.table.writeRaw_contained _ _)) fun _ => .bind (.second (fence.write _ _)) fun _ => ?_
  exact .bind (.first (.modify _)) fun _ => .ite (.second (Machine.note_contained _ _)) (.pure _)

theorem seek_contained (limit : Nat) : (seek limit).Contained (Machine.PlacedBeside placed) := by
  induction limit with
  | zero => exact .pure _
  | succ limit ih =>
    refine .bind .get fun state => .bind (.second state.1.isReady_contained) fun ready => .ite (.pure _) ?_
    refine .bind (.second (state.1.table.readReceive_contained _)) fun descriptor => .guard (.refuse _) fun _ => ?_
    refine .ite ?_ (.ite (.refuse _) (.pure _))
    refine .bind (count_contained _) fun _ => .bind (.second (Machine.note_contained _ _)) fun _ => ?_
    exact .bind (recycle_contained fence _) fun _ => ih

theorem take_contained {deliver : PageId → Nat → Step ReceiveError (Machine δ) α}
    (delivers : ∀ page length, (deliver page length).Contained (Machine.Placed placed)) :
    (take deliver).Contained (Machine.PlacedBeside placed) := by
  refine .bind .get fun state => .bind (seek_contained fence _) fun found => ?_
  cases found with
  | none => exact .pure _
  | some found =>
    obtain ⟨slot, length⟩ := found
    refine .bind .get fun now => .bind (buffer_contained now.1 slot) fun page => ?_
    refine .bind (.second (delivers page length)) fun delivered => .bind (recycle_contained fence _) fun _ => ?_
    exact .bind (count_contained _) fun _ => .bind (.second (Machine.note_contained _ _)) fun _ => .pure _

theorem receive_contained : (receive : Step _ (ReceiveRing × Machine δ) _).Contained (Machine.PlacedBeside placed) :=
  take_contained fence fun _ _ => .guard (.refuse _) fun _ => Machine.readBytes_contained _ _ _

theorem receiveInto_contained (destination : List UInt8) :
    (receiveInto destination : Step _ (ReceiveRing × Machine δ) _).Contained (Machine.PlacedBeside placed) :=
  take_contained fence fun _ _ =>
    .guard (.refuse _) fun _ => .bind (Machine.readBytes_contained _ _ _) fun _ => .pure _

theorem receiveIntoPage_contained (target : PageId) (offset : Nat) :
    (receiveIntoPage target offset : Step _ (ReceiveRing × Machine δ) _).Contained (Machine.PlacedBeside placed) :=
  take_contained fence fun _ _ => .bind (Machine.sizeOf_contained _) fun _ =>
    .guard (.refuse _) fun _ => .bind (Machine.copy_contained _ _ _ _ _) fun _ => .pure _

end ReceiveRing

end PacketPath
