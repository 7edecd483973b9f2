import PacketPath.Proofs.Memory.Effects

/-! Copies that overlap. A copy goes upwards byte by byte. Where its target begins inside its source it comes upon bytes
that it has put down itself, so the bytes between the two beginnings are repeated; everywhere else the target holds what
stood in the source before. -/

set_option autoImplicit false

namespace PacketPath.Memory

variable {memory : Memory} {target source : PageId} {targetOffset sourceOffset length i : Nat}

/-- How far into its source stood the byte that a copy puts `i` bytes into its target. A copy to a later place of the
same page starts over once it has gone as far as the two places lie apart. -/
def copiedIndex (target : PageId) (targetOffset : Nat) (source : PageId) (sourceOffset i : Nat) : Nat :=
  if target = source ∧ sourceOffset < targetOffset then i % (targetOffset - sourceOffset) else i

@[simp] theorem copiedIndex_zero (target source : PageId) (targetOffset sourceOffset : Nat) :
    copiedIndex target targetOffset source sourceOffset 0 = 0 := by
  simp [copiedIndex]

@[simp] theorem copiedIndex_shift (target source : PageId) (targetOffset sourceOffset i : Nat) :
    copiedIndex target (targetOffset + 1) source (sourceOffset + 1) i =
      copiedIndex target targetOffset source sourceOffset i := by
  simp [copiedIndex]

theorem copiedIndex_le (target source : PageId) (targetOffset sourceOffset i : Nat) :
    copiedIndex target targetOffset source sourceOffset i ≤ i := by
  unfold copiedIndex
  split
  · exact Nat.mod_le ..
  · exact Nat.le_refl i

theorem copiedIndex_of_apart (apart : source ≠ target) : copiedIndex target targetOffset source sourceOffset i = i :=
  if_neg fun both => apart both.1.symm

theorem copiedIndex_eq (inside : i < length) :
    copiedIndex target targetOffset source sourceOffset i =
      if target = source ∧ 0 < targetOffset - sourceOffset ∧ targetOffset - sourceOffset < length then
        i % (targetOffset - sourceOffset)
      else i := by
  unfold copiedIndex
  by_cases later : target = source ∧ sourceOffset < targetOffset
  · rw [if_pos later]
    split
    case isTrue => rfl
    case isFalse never =>
      have far : length ≤ targetOffset - sourceOffset :=
        Nat.le_of_not_lt fun near => never ⟨later.1, Nat.sub_pos_of_lt later.2, near⟩
      exact Nat.mod_eq_of_lt (Nat.lt_of_lt_of_le inside far)
  · rw [if_neg later, if_neg (fun all => later ⟨all.1, Nat.lt_of_sub_pos all.2.1⟩)]

theorem succ_mod_eq_ite {period : Nat} (positive : 0 < period) (i : Nat) :
    (i + 1) % period = if i % period + 1 = period then 0 else i % period + 1 := by
  have below := Nat.mod_lt i positive
  rw [← Nat.mod_add_mod]
  split
  case isTrue last => rw [last, Nat.mod_self]
  case isFalse => exact Nat.mod_eq_of_lt (by omega)

/-- When the first byte has been put down, the rest of a copy finds what the copy as a whole would find one byte
further on: either a byte that was not touched, or the first one at the place where the copy starts over. -/
theorem byte_copied_first (covered : sourceOffset + 1 + i < (memory.page source).size) :
    ((memory.overwrite target targetOffset [(memory.page source).byte sourceOffset]).page source).byte
        (sourceOffset + 1 + copiedIndex target targetOffset source sourceOffset i) =
      (memory.page source).byte (sourceOffset + copiedIndex target targetOffset source sourceOffset (i + 1)) := by
  rw [page_overwrite]
  by_cases same : source = target
  case neg => rw [if_neg same, copiedIndex_of_apart same, copiedIndex_of_apart same, Nat.add_assoc, Nat.add_comm 1]
  subst same
  rw [if_pos rfl]
  by_cases later : sourceOffset < targetOffset
  case neg =>
    -- the source is always ahead of what has been put down
    simp only [copiedIndex, later, and_false, if_false]
    rw [Page.byte_overwrite_apart (.inr (by rw [List.length_singleton]; omega)), Nat.add_assoc, Nat.add_comm 1]
  have below : i % (targetOffset - sourceOffset) < targetOffset - sourceOffset := Nat.mod_lt _ (by omega)
  have reached : i % (targetOffset - sourceOffset) ≤ i := Nat.mod_le ..
  simp only [copiedIndex, later, and_self, if_true]
  rw [succ_mod_eq_ite (by omega)]
  split
  case isTrue last =>
    have place : sourceOffset + 1 + i % (targetOffset - sourceOffset) = targetOffset := by omega
    rw [place, Page.byte_overwrite (by omega), Nat.add_zero]
  case isFalse =>
    rw [Page.byte_overwrite_apart (.inl (by omega)), Nat.add_assoc, Nat.add_comm 1]

def copied (memory : Memory) (target : PageId) (targetOffset : Nat) (source : PageId) (sourceOffset length : Nat) :
    List UInt8 :=
  (List.range length).map fun i =>
    (memory.page source).byte (sourceOffset + copiedIndex target targetOffset source sourceOffset i)

@[simp] theorem length_copied (memory : Memory) (target : PageId) (targetOffset : Nat) (source : PageId)
    (sourceOffset length : Nat) :
    (memory.copied target targetOffset source sourceOffset length).length = length := by
  simp [copied]

theorem copied_succ (covered : sourceOffset + (length + 1) ≤ (memory.page source).size) :
    memory.copied target targetOffset source sourceOffset (length + 1) =
      (memory.page source).byte sourceOffset ::
        (memory.overwrite target targetOffset [(memory.page source).byte sourceOffset]).copied target
          (targetOffset + 1) source (sourceOffset + 1) length := by
  unfold copied
  rw [List.range_succ_eq_map, List.map_cons, List.map_map, copiedIndex_zero, Nat.add_zero]
  congr 1
  apply List.map_congr_left
  intro i listed
  rw [List.mem_range] at listed
  rw [copiedIndex_shift, byte_copied_first (by omega)]
  rfl

/-- A copy ends as if it had put down all of its bytes at once. -/
theorem copyBytes_eq_overwrite (covered : sourceOffset + length ≤ (memory.page source).size) :
    memory.copyBytes target targetOffset source sourceOffset length =
      memory.overwrite target targetOffset (memory.copied target targetOffset source sourceOffset length) := by
  -- the rest of the copy works on the memory in which the first byte has been put down
  induction length generalizing memory targetOffset sourceOffset with
  | zero => exact (overwrite_nil memory target targetOffset).symm
  | succ length ih =>
    rw [copyBytes, ih (by rw [size_page_overwrite]; omega), copied_succ covered]
    exact (overwrite_cons ..).symm

theorem getElem?_copied (covered : sourceOffset + length ≤ (memory.page source).size) (inside : i < length) :
    (memory.copied target targetOffset source sourceOffset length)[i]? =
      (memory.page source).bytes[sourceOffset + copiedIndex target targetOffset source sourceOffset i]? := by
  have reached := copiedIndex_le target source targetOffset sourceOffset i
  unfold Page.size at covered
  rw [copied, List.getElem?_map, List.getElem?_range inside, Option.map_some, Page.byte,
    Array.getElem?_eq_getElem (by omega), Option.getD_some]

theorem copyBytes_apart (apart : source ≠ target) (targetOffset sourceOffset : Nat)
    (covered : sourceOffset + length ≤ (memory.page source).size) :
    memory.copyBytes target targetOffset source sourceOffset length =
      memory.overwrite target targetOffset (memory.slice source sourceOffset length) := by
  rw [copyBytes_eq_overwrite covered, copied, slice, Page.slice_eq_map covered]
  simp only [copiedIndex_of_apart apart]

end PacketPath.Memory
