import PacketPath.Proofs.Leaves
import PacketPath.Proofs.Register.Port

/-! Bounds of a mapped window. An offset is either admitted, and then it is a word of its own, or each access to it is
stopped and the window stays as it is. Of the offsets that are not admitted one is stopped without a word of the
window: at the last aligned one the end of the access is no address any more. -/

set_option autoImplicit false

namespace PacketPath.Window

variable {ε : Type}

def Admits (window : Window) (offset : UInt64) : Prop :=
  offset.toNat % 4 = 0 ∧ offset.toNat + 4 ≤ window.size

instance (window : Window) (offset : UInt64) : Decidable (window.Admits offset) :=
  inferInstanceAs (Decidable (_ ∧ _))

/-- The aligned offset whose word ends behind the last address. -/
def lastWord : UInt64 := 0xFFFFFFFFFFFFFFFC

def objection (window : Window) (offset : UInt64) : Violation :=
  if offset = lastWord then .addressOverflow offset.toNat 4 else .windowAccess offset.toNat window.size

theorem eq_lastWord_iff (offset : UInt64) :
    offset = lastWord ↔ offset.toNat % 4 = 0 ∧ 2 ^ 64 ≤ offset.toNat + 4 := by
  have bound := offset.toNat_lt
  have place : lastWord.toNat = 2 ^ 64 - 4 := rfl
  rw [← UInt64.toNat_inj, place]
  omega

/-- The window finds words for every offset that it stops but one. -/
theorem message_objection (window : Window) (offset : UInt64) :
    (window.objection offset).message =
      if offset = lastWord then none
      else some s!"mmio offset {Text.hex offset.toNat} outside {Text.hex window.size}-byte window" := by
  unfold objection
  split <;> rfl

theorem check_of_admits {window : Window} {offset : UInt64} (addressed : window.size < 2 ^ 64)
    (admitted : window.Admits offset) : window.check offset.toNat = .ok () :=
  check_of_inside admitted.1 (Nat.lt_of_le_of_lt admitted.2 addressed) admitted.2

theorem check_of_not_admits {window : Window} {offset : UInt64} (outside : ¬ window.Admits offset) :
    window.check offset.toNat = .error (window.objection offset) := by
  have last := eq_lastWord_iff offset
  unfold check objection
  by_cases aligned : offset.toNat % 4 = 0
  · rw [if_neg (not_not.mpr aligned)]
    by_cases past : 0x10000000000000000 ≤ offset.toNat + 4
    · rw [if_pos past, if_pos (last.mpr ⟨aligned, past⟩)]
    · have ends : window.size < offset.toNat + 4 := Nat.lt_of_not_le fun inside => outside ⟨aligned, inside⟩
      rw [if_neg past, if_pos ends, if_neg fun same => past (last.mp same).2]
  · rw [if_pos aligned, if_neg fun same => aligned (last.mp same).1]

section

variable {machine : Machine Window} {offset : UInt64}

theorem load_of_admits (addressed : machine.device.size < 2 ^ 64) (admitted : machine.device.Admits offset) :
    (Machine.load offset.toNat : Step ε _ _) machine = .ok (machine.device.words offset.toNat) machine := by
  have checked := check_of_admits addressed admitted
  simp only [Machine.load, RegisterBus.load, load, checked, Except.map]

theorem store_of_admits (addressed : machine.device.size < 2 ^ 64) (admitted : machine.device.Admits offset)
    (word : UInt32) : (Machine.store offset.toNat word : Step ε _ _) machine =
      .ok () { machine with device := machine.device.put offset.toNat word } := by
  have checked := check_of_admits addressed admitted
  simp only [Machine.store, RegisterBus.store, store, checked, put]

theorem load_of_not_admits (outside : ¬ machine.device.Admits offset) :
    (Machine.load offset.toNat : Step ε _ _) machine =
      .error (.violated (machine.device.objection offset)) machine := by
  have checked := check_of_not_admits outside
  simp only [Machine.load, RegisterBus.load, load, checked, Except.map]

theorem store_of_not_admits (outside : ¬ machine.device.Admits offset) (word : UInt32) :
    (Machine.store offset.toNat word : Step ε _ _) machine =
      .error (.violated (machine.device.objection offset)) machine := by
  have checked := check_of_not_admits outside
  simp only [Machine.store, RegisterBus.store, store, checked]

end

/-! ### Sequences of accesses -/

inductive Access where
  | read (offset : UInt64)
  | write (offset : UInt64) (word : UInt32)
  deriving DecidableEq, Repr

namespace Access

def perform : Access → Step Empty (Machine Window) Unit
  | .read offset => do
    let _ ← Machine.load offset.toNat
  | .write offset word => Machine.store offset.toNat word

def wordAt (offset : UInt64) : Access → Option UInt32
  | .read _ => none
  | .write place word => if place = offset then some word else none

end Access

/-- The machine after some accesses. One that is stopped is followed by the next one all the same. -/
def run (machine : Machine Window) (accesses : List Access) : Machine Window :=
  accesses.foldl (fun machine access => access.perform.after machine) machine

def written (offset : UInt64) (accesses : List Access) : Option UInt32 :=
  accesses.reverse.findSome? (·.wordAt offset)

theorem written_cons (offset : UInt64) (access : Access) (later : List Access) :
    written offset (access :: later) = (written offset later).or (access.wordAt offset) := by
  unfold written
  rw [List.reverse_cons, List.findSome?_append, List.findSome?_singleton]

/-- One access changes no more than the word that it writes, if its offset is admitted. -/
theorem perform_after {machine : Machine Window} (addressed : machine.device.size < 2 ^ 64) (access : Access) :
    (access.perform.after machine).device.size = machine.device.size ∧
      ∀ offset, machine.device.Admits offset → (access.perform.after machine).device.words offset.toNat =
        (access.wordAt offset).getD (machine.device.words offset.toNat) := by
  cases access with
  | read place =>
    have same : (Access.read place).perform.after machine = machine := by
      unfold Access.perform
      rw [Step.after_bind]
      by_cases admitted : machine.device.Admits place
      · rw [load_of_admits addressed admitted]
        rfl
      · rw [load_of_not_admits admitted]
    rw [same]
    exact ⟨rfl, fun _ _ => rfl⟩
  | write place word =>
    unfold Access.perform
    by_cases admitted : machine.device.Admits place
    · rw [Step.after_of_ok (store_of_admits addressed admitted word)]
      refine ⟨rfl, fun offset _ => ?_⟩
      by_cases same : place = offset
      · simp [Access.wordAt, put, same]
      · have apart : offset.toNat ≠ place.toNat := fun equal => same (UInt64.toNat_inj.mp equal.symm)
        simp [Access.wordAt, put, same, apart]
    · -- A write that is stopped names an offset that is not admitted, so no admitted word is meant.
      rw [Step.after_of_error (store_of_not_admits admitted word)]
      refine ⟨rfl, fun offset inside => ?_⟩
      have apart : place ≠ offset := fun same => admitted (same ▸ inside)
      simp [Access.wordAt, apart]

/-- After any accesses each word that is admitted is the one written there last. -/
theorem run_words {machine : Machine Window} (addressed : machine.device.size < 2 ^ 64) (accesses : List Access) :
    (run machine accesses).device.size = machine.device.size ∧
      ∀ offset, machine.device.Admits offset → (run machine accesses).device.words offset.toNat =
        (written offset accesses).getD (machine.device.words offset.toNat) := by
  induction accesses generalizing machine with
  | nil => exact ⟨rfl, fun _ _ => rfl⟩
  | cons access later ih =>
    obtain ⟨size, words⟩ := perform_after addressed access
    obtain ⟨laterSize, laterWords⟩ := ih (size.symm ▸ addressed)
    refine ⟨laterSize.trans size, fun offset admitted => ?_⟩
    have still : (access.perform.after machine).device.Admits offset := by
      unfold Admits
      rwa [size]
    refine (laterWords offset still).trans ?_
    rw [words offset admitted, written_cons]
    cases written offset later <;> rfl

/-- Whatever was read and written before, an access is made exactly if its offset is admitted; then a read gives the
word that was written there last. Every other access is stopped and changes nothing. The window says so, unless the
access is one at the last aligned offset, which is stopped without words. -/
theorem access_decided (machine : Machine Window) (addressed : machine.device.size < 2 ^ 64) (accesses : List Access)
    (offset : UInt64) (word : UInt32) :
    let now := run machine accesses
    now.device.size = machine.device.size ∧
    (now.device.Admits offset →
      (Machine.load offset.toNat : Step ε _ _) now =
        .ok ((written offset accesses).getD (machine.device.words offset.toNat)) now ∧
      (Machine.store offset.toNat word : Step ε _ _) now =
        .ok () { now with device := now.device.put offset.toNat word }) ∧
    (¬ now.device.Admits offset →
      (Machine.load offset.toNat : Step ε _ _) now = .error (.violated (now.device.objection offset)) now ∧
      (Machine.store offset.toNat word : Step ε _ _) now = .error (.violated (now.device.objection offset)) now ∧
      (now.device.objection offset).message =
        if offset = lastWord then none
        else some s!"mmio offset {Text.hex offset.toNat} outside {Text.hex now.device.size}-byte window") := by
  intro now
  obtain ⟨size, words⟩ := run_words addressed accesses
  have sized : now.device.size < 2 ^ 64 := size.symm ▸ addressed
  refine ⟨size, fun admitted => ⟨?_, store_of_admits sized admitted word⟩, fun outside => ?_⟩
  · have before : machine.device.Admits offset := by
      unfold Admits at admitted ⊢
      rwa [size] at admitted
    rw [load_of_admits sized admitted]
    exact congrArg (fun word => EStateM.Result.ok word now) (words offset before)
  · exact ⟨load_of_not_admits outside, store_of_not_admits outside word, message_objection _ _⟩

/-- Two words, the second of them written twice, with accesses past the end in between. -/
theorem access_decided_at_last_word :
    (zeroed 0xFEBC0000 8).size < 2 ^ 64 ∧
    let now := run ⟨.empty, zeroed 0xFEBC0000 8, #[]⟩
      [.write 4 5, .write 8 6, .write 4 7, .read 0xFFFFFFFFFFFFFFFF, .write lastWord 9]
    (Machine.load 4 : Step Empty _ _) now = .ok 7 now ∧
    (Machine.load 0 : Step Empty _ _) now = .ok 0 now ∧
    (Machine.load 8 : Step Empty _ _) now = .error (.violated (.windowAccess 8 8)) now ∧
    (Machine.load 0xFFFFFFFFFFFFFFFC : Step Empty _ _) now =
      .error (.violated (.addressOverflow 0xFFFFFFFFFFFFFFFC 4)) now ∧
    (Violation.addressOverflow 0xFFFFFFFFFFFFFFFC 4).message = none := by
  have small : (zeroed 0xFEBC0000 8).size < 2 ^ 64 := by decide
  refine ⟨small, ?_⟩
  intro now
  have decided := access_decided (ε := Empty) ⟨.empty, zeroed 0xFEBC0000 8, #[]⟩ small
    [.write 4 5, .write 8 6, .write 4 7, .read 0xFFFFFFFFFFFFFFFF, .write lastWord 9]
  obtain ⟨-, second, -⟩ := decided 4 0
  obtain ⟨-, first, -⟩ := decided 0 0
  obtain ⟨-, -, behind⟩ := decided 8 0
  obtain ⟨-, -, last⟩ := decided lastWord 0
  exact ⟨(second (by decide)).1, (first (by decide)).1, (behind (by decide)).1, (last (by decide)).1, rfl⟩

end PacketPath.Window
