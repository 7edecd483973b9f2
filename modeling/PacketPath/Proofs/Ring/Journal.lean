import Mathlib.Data.List.Induction
import PacketPath.Proofs.Ring.Entries
import PacketPath.Proofs.Ring.Raising

/-! The journal of a transmit ring, over any calls and whatever the device reports between them. A page is given back from
two places, by the next post to its slot and by reclaiming, and the books balance all the same. -/

set_option autoImplicit false

namespace PacketPath.TransmitRing

variable {δ : Type} {ring : TransmitRing} {machine : Machine δ} {before after : TransmitRing × Machine δ}
  {tell : δ → UInt32 → δ} {entries : List Entry} {slot : Nat}

/-! ### States to call from -/

structure Usable (reached : δ → Prop) (state : TransmitRing × Machine δ) : Prop where
  seated : 0 < state.1.capacity → state.1.Seated state.2.memory
  near : reached state.2.device

/-! ### What is done to a slot -/

theorem accounted_freed (tell : δ → UInt32 → δ) (ring : TransmitRing) (machine : Machine δ) (slot : Nat)
    (done : (ring.table.transmitCell machine.memory slot).status.isDone = true) (log : Array LogLine) :
    ∃ entries, Accounted tell entries (ring, machine)
      (ring.freed slot (ring.table.transmitCell machine.memory slot).status,
        { machine with memory := machine.memory.releaseAll (ring.slotPages slot), log := log }) := by
  unfold freed slotPages
  cases held : ring.binding slot with
  | none => exact ⟨[], rfl, rfl, rfl⟩
  | some page => exact ⟨_, .single (show (Entry.released slot page _).Explains tell _ _ from ⟨held, rfl, done, rfl, rfl, rfl⟩)⟩

theorem accounted_posted (tell : δ → UInt32 → δ) (seated : ring.Seated machine.memory) (fragment : Fragment)
    (endsFrame : Bool) (address : UInt64)
    (done : (ring.table.transmitCell machine.memory ring.tail).status.isDone = true) (log : Array LogLine) :
    ∃ entries, Accounted tell entries (ring, machine)
      (ring.posted (ring.table.transmitCell machine.memory ring.tail).status fragment endsFrame,
        { machine with
          memory := ring.postedMemory machine.memory fragment address endsFrame
          device := tell machine.device (UInt32.ofNat (ring.next ring.tail))
          log := log }) := by
  obtain ⟨entries, accounted⟩ := accounted_freed tell ring machine ring.tail done log
  generalize (ring.table.transmitCell machine.memory ring.tail).status = status at accounted
  refine ⟨entries ++ [.posted ring.tail fragment.page], accounted.append (.single ?_)⟩
  refine ⟨(tail_freed ..).symm, ?_, ?_, ⟨fragment, endsFrame⟩, address, rfl, ?_, ?_, ?_⟩
  · rw [size_bindings_freed]
    exact seated.tail_bound
  · rw [binding_freed, if_pos rfl]
  · unfold posted bound next capacity
    rw [table_freed]
  · dsimp only
    rw [table_freed]
    rfl
  · dsimp only
    unfold next capacity
    rw [table_freed]

/-! ### What a call enters -/

/-- A call that stopped has entered what it changed, and one that was refused as busy nothing but the refusal. -/
def Stopped (tell : δ → UInt32 → δ) (before : TransmitRing × Machine δ) (stop : Stop TransmitError)
    (after : TransmitRing × Machine δ) : Prop :=
  (∃ entries, Accounted tell entries before after) ∧
    (stop = .refused .busy → Entry.refused.Explains tell before after)

theorem Stopped.of_other {stop : Stop TransmitError} (other : stop ≠ .refused .busy)
    (accounted : ∃ entries, Accounted tell entries before after) : Stopped tell before stop after :=
  ⟨accounted, fun same => absurd same other⟩

theorem Stopped.of_refusal {stop : Stop TransmitError} (refused : Entry.refused.Explains tell before after) :
    Stopped tell before stop after :=
  ⟨⟨_, .single refused⟩, fun _ => refused⟩

variable {ε : Type}

theorem reclaim_accounted (tell : δ → UInt32 → δ) (seated : 0 < ring.capacity → ring.Seated machine.memory) :
    (reclaim : Step ε _ _).Ends (ring, machine)
      (fun _ after => ∃ entries, Accounted tell entries (ring, machine) after) (fun _ _ => False) := by
  rcases Nat.eq_zero_or_pos ring.capacity with empty | some
  · unfold reclaim
    rw [Step.ends_bind, Step.ends_get, Step.ends_bind, empty]
    exact ⟨[], .refl _⟩
  refine reclaim_ends (seated some) ?_ ?_ ⟨[], .refl _⟩
  · rintro ring machine slot log _ _ done ⟨entries, early⟩
    obtain ⟨more, late⟩ := accounted_freed tell ring machine slot done log
    exact ⟨entries ++ more, early.append late⟩
  · rintro after log ⟨entries, accounted⟩
    exact ⟨entries ++ [], accounted.append (show Accounted tell [] _ _ from ⟨rfl, rfl, rfl⟩)⟩

section Posting

variable [RegisterBus δ] {reached : δ → Prop}

theorem Usable.of_accounted (usable : Usable reached before) (port : Register.transmitTail.Port reached tell)
    (accounted : Accounted tell entries before after) : Usable reached after where
  seated some := accounted.stays.seated (usable.seated (accounted.stays.capacity ▸ some))
  near := accounted.near port usable.near

theorem post_of_empty {fragment : Fragment} {endsFrame : Bool} (empty : ring.capacity = 0) :
    post fragment endsFrame (ring, machine) =
      .error (.violated (.descriptorIndex ring.tail ring.capacity)) (ring, machine) := by
  have outside : ¬ ring.tail < ring.table.length := by
    change ring.table.length = 0 at empty
    omega
  apply Step.Ends.eq_error
  unfold post DescriptorTable.transmitStatus DescriptorTable.readByte DescriptorTable.check
  simp only [Step.ends_bind, Step.ends_get, Step.ends_second, if_neg outside, Step.ends_violate, and_true]
  rfl

theorem post_accounted (port : Register.transmitTail.Port reached tell) (usable : Usable reached (ring, machine))
    (fragment : Fragment) (endsFrame : Bool) :
    (post fragment endsFrame).Ends (ring, machine) (fun _ after => ∃ entries, Accounted tell entries (ring, machine) after)
      (Stopped tell (ring, machine)) := by
  rcases Nat.eq_zero_or_pos ring.capacity with empty | some
  · rw [Step.ends_of_error (post_of_empty empty)]
    exact .of_other nofun ⟨[], .refl _⟩
  · have seated := usable.seated some
    apply post_ends port usable.near seated
    · intro log _
      exact .of_refusal ⟨rfl, rfl, rfl⟩
    · intro violation log done _
      exact .of_other nofun (accounted_freed tell ring machine ring.tail done log)
    · intro address log done _
      exact accounted_posted tell seated fragment endsFrame address done log

theorem postAll_accounted (port : Register.transmitTail.Port reached tell) (usable : Usable reached (ring, machine))
    (fragments : List Fragment) :
    (postAll fragments).Ends (ring, machine) (fun _ after => ∃ entries, Accounted tell entries (ring, machine) after)
      (fun _ after => ∃ entries, Accounted tell entries (ring, machine) after) := by
  induction fragments using postAll.induct generalizing ring machine with
  | case1 => exact ⟨[], .refl _⟩
  | case2 last => exact (post_accounted port usable last true).mono (fun _ _ => id) (fun _ _ => And.left)
  | case3 fragment rest more ih =>
    rw [postAll, Step.ends_bind]
    · refine (post_accounted port usable fragment false).mono ?_ (fun _ _ => And.left)
      rintro - ⟨ring', machine'⟩ ⟨first, early⟩
      have onward (after : TransmitRing × Machine δ) (later : ∃ entries, Accounted tell entries (ring', machine') after) :
          ∃ entries, Accounted tell entries (ring, machine) after := by
        obtain ⟨second, late⟩ := later
        exact ⟨first ++ second, early.append late⟩
      exact (ih (usable.of_accounted port early)).mono (fun _ after => onward after) (fun _ after => onward after)
    · exact more

/-- A frame is refused as busy only before the first of its fragments is posted. -/
theorem postFrame_accounted (port : Register.transmitTail.Port reached tell) (usable : Usable reached (ring, machine))
    (fragments : List Fragment) :
    (postFrame fragments).Ends (ring, machine) (fun _ after => ∃ entries, Accounted tell entries (ring, machine) after)
      (Stopped tell (ring, machine)) := by
  by_cases none : fragments = []
  · rw [none]
    exact ⟨[], .refl _⟩
  · refine (ends_postFrame usable.seated none).mpr ⟨fun _ => .of_other nofun ⟨[], .refl _⟩, fun few =>
      ⟨fun _ => .of_other nofun ⟨[], .refl _⟩, fun short => ⟨fun _ => .of_refusal ⟨rfl, rfl, rfl⟩, fun room => ?_⟩⟩⟩
    have seated := usable.seated (Nat.lt_of_lt_of_le (List.length_pos_iff.mpr none) few)
    have posts := postAll_ends port usable.near seated few fun i early =>
      isDone_of_lt_doneCount seated.tail (Nat.lt_of_lt_of_le early room)
    refine ((postAll_accounted port usable fragments).and posts).mono (fun _ _ => And.left) ?_
    rintro stop after ⟨accounted, _, _, _, _, -, -, rfl, -⟩
    exact .of_other nofun accounted

end Posting

/-! ### Runs -/

/-- What happens to a ring: it is called, or the device reports on a slot. -/
inductive Turn where
  | post (fragment : Fragment) (endsFrame : Bool)
  | postFrame (fragments : List Fragment)
  | reclaim
  /-- The device may report anything about any slot. -/
  | report (slot : Nat) (status : TransmitStatus)

/-- The memory after a report. A slot that the table does not have is not written. -/
def reported (ring : TransmitRing) (memory : Memory) (slot : Nat) (status : TransmitStatus) : Memory :=
  if slot < ring.capacity then
    memory.overwrite ring.table.page (DescriptorTable.position slot + TransmitDescriptor.statusOffset) [status.bits]
  else memory

def Turn.step [RegisterBus δ] : Turn → Step TransmitError (TransmitRing × Machine δ) Unit
  | post fragment endsFrame => TransmitRing.post fragment endsFrame
  | postFrame fragments => TransmitRing.postFrame fragments
  | reclaim => (fun _ => ()) <$> TransmitRing.reclaim
  | report slot status =>
    modify fun (ring, machine) => (ring, { machine with memory := ring.reported machine.memory slot status })

def run [RegisterBus δ] (start : TransmitRing × Machine δ) (turns : List Turn) : TransmitRing × Machine δ :=
  turns.foldl (fun state turn => turn.step.after state) start

theorem run_concat [RegisterBus δ] (start : TransmitRing × Machine δ) (turns : List Turn) (turn : Turn) :
    run start (turns ++ [turn]) = turn.step.after (run start turns) := by
  unfold run
  rw [List.foldl_append]
  rfl

section Runs

variable [RegisterBus δ] {reached : δ → Prop} {table : DescriptorTable} {start : TransmitRing × Machine δ}
  {turns : List Turn}

/-- A call either returns or stops, and both ways all that it changed is in the entries. -/
theorem Turn.accounted (port : Register.transmitTail.Port reached tell) (usable : Usable reached before) {turn : Turn}
    (call : ∀ slot status, turn ≠ report slot status) :
    turn.step.Ends before (fun _ after => ∃ entries, Accounted tell entries before after) (Stopped tell before) := by
  cases turn with
  | post fragment endsFrame => exact post_accounted port usable fragment endsFrame
  | postFrame fragments => exact postFrame_accounted port usable fragments
  | reclaim =>
    refine (Step.ends_map _ _).mpr ?_
    exact (reclaim_accounted tell usable.seated).mono (fun _ _ => id) (fun _ _ => False.elim)
  | report slot status => exact absurd rfl (call slot status)

end Runs

end PacketPath.TransmitRing
