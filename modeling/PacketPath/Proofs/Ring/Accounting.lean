import PacketPath.Proofs.Leaves
import PacketPath.Proofs.Refusals

/-! What a transmit ring counts of the posts that are asked of it. Each post is counted once, as done or as refused,
and giving pages back counts as neither. Nothing has to be known of the device or of the memory. -/

set_option autoImplicit false

namespace PacketPath.TransmitRing

variable {δ ε : Type}

@[ext]
structure Account where
  /-- Descriptors posted. -/
  posted : Nat
  /-- Descriptors posted that end a frame. -/
  packets : Nat
  /-- Posts refused because the ring was full. -/
  busy : Nat
  deriving DecidableEq, Repr

namespace Account

instance : Add Account :=
  ⟨fun one other => ⟨one.posted + other.posted, one.packets + other.packets, one.busy + other.busy⟩⟩

theorem add_assoc (one other third : Account) : one + other + third = one + (other + third) := by
  ext <;> exact Nat.add_assoc ..

def done (endsFrame : Bool) : Account :=
  ⟨1, if endsFrame then 1 else 0, 0⟩

def refused : Account :=
  ⟨0, 0, 1⟩

end Account

def account (ring : TransmitRing) : Account :=
  ⟨ring.counters.posted, ring.counters.packets, ring.counters.busy⟩

/-! ### Giving pages back -/

theorem release_leaves (slot : Nat) :
    (release slot : Step ε (TransmitRing × Machine δ) Unit).Leaves (fun state => state.1.account) := by
  refine .bind .get fun state => ?_
  dsimp only
  cases state.1.binding slot with
  | none => exact .pure _
  | some page =>
    refine .bind (fun _ => rfl) fun _ => .bind (.second account _) fun status => .of_ends fun after => ?_
    simp [count, account]

theorem reclaimFrom_leaves (slot count : Nat) :
    (reclaimFrom slot count : Step ε (TransmitRing × Machine δ) Nat).Leaves (fun state => state.1.account) := by
  induction count generalizing slot with
  | zero => exact .pure _
  | succ count ih =>
    unfold reclaimFrom
    refine .bind .get fun state => ?_
    have next (finished : Bool) : (if finished = true then do
        release slot
        return (← reclaimFrom (slot + 1) count) + 1
      else reclaimFrom (slot + 1) count : Step ε (TransmitRing × Machine δ) Nat).Leaves
        (fun state => state.1.account) :=
      .ite (.bind (release_leaves slot) fun _ => .bind (ih (slot + 1)) fun _ => .pure _) (ih (slot + 1))
    exact .ite (.bind (.second account _) fun _ => .bind (.pure _) next) (.bind (.pure _) next)

theorem reclaim_leaves : (reclaim : Step ε (TransmitRing × Machine δ) Nat).Leaves (fun state => state.1.account) := by
  refine .bind .get fun state => .bind (reclaimFrom_leaves 0 _) fun released => ?_
  exact .ite (.bind (.second account _) fun _ => .pure _) (.pure _)

/-! ### Posting -/

/-- A post is counted once: as done if it is done, and as refused if it is refused. -/
theorem post_accounts [RegisterBus δ] (fragment : Fragment) (endsFrame : Bool) (ring : TransmitRing)
    (machine : Machine δ) :
    (post fragment endsFrame).Ends (ring, machine) (fun _ after => after.1.account = ring.account + .done endsFrame)
      (fun stop after => ∀ error, stop = .refused error →
        error = .busy ∧ after.1.account = ring.account + .refused) := by
  unfold post
  simp only [count, setBinding, Step.ends_bind, Step.ends_get, Step.ends_second, Step.ends_ite, Step.ends_first,
    Step.ends_modify, Machine.ends_note, Step.ends_refuse]
  refine Step.RefusesOnly.ends (DescriptorTable.transmitStatus_refuses _ _) fun status _ _ => ⟨?_, ?_⟩
  · rintro owned _ ⟨⟩
    exact ⟨rfl, rfl⟩
  · intro done
    refine Step.RefusesOnly.ends (release_refuses _) fun _ released ended => ?_
    have kept := (Step.ends_of_ok ended).mp ((release_leaves _).ends _)
    refine Step.RefusesOnly.ends (.inspect _) fun address _ _ => ?_
    refine Step.RefusesOnly.ends (DescriptorTable.writeTransmit_refuses _ _ _) fun _ written _ => ?_
    rw [Machine.ends_retain]
    refine Step.RefusesOnly.ends (Register.write_refuses _ _) fun _ told _ => ?_
    rw [← show released.1.account = ring.account from kept]
    cases endsFrame <;> rfl

end PacketPath.TransmitRing
