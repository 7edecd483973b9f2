import PacketPath.Proofs.Memory.Accounts
import PacketPath.Proofs.Descriptor.Cells

/-! Memory that grows. Pages are added and written in places, and nothing is said about the addresses at
which the device finds them: that is enough for what stands in a page to stay there. -/

set_option autoImplicit false

namespace PacketPath.Memory

/-- Pages are only added. Those that exist stay where they are, and outside the scope they keep their
bytes. -/
structure Grows (scope : PageId → Prop) (before after : Memory) : Prop where
  knows : ∀ id, before.Knows id → after.Knows id
  base : ∀ id, before.Knows id → (after.page id).base = (before.page id).base
  bytes : ∀ id, before.Knows id → ¬ scope id → (after.page id).bytes = (before.page id).bytes

theorem ChangesWithin.grows {scope : PageId → Prop} {before after : Memory}
    (changes : before.ChangesWithin scope after) : before.Grows scope after :=
  ⟨changes.knows, changes.base, changes.bytes⟩

namespace Grows

variable {scope : PageId → Prop} {before middle after : Memory} {id : PageId}

theorem refl (scope : PageId → Prop) (memory : Memory) : memory.Grows scope memory :=
  (ChangesWithin.refl scope memory).grows

theorem of_pages (same : after.pages = before.pages) : before.Grows scope after := by
  have page (id : PageId) : after.page id = before.page id := by
    unfold Memory.page
    rw [same]
  refine ⟨fun id known => ?_, fun id _ => by rw [page], fun id _ _ => by rw [page]⟩
  unfold Knows
  rwa [same]

theorem trans (first : before.Grows scope middle) (second : middle.Grows scope after) :
    before.Grows scope after where
  knows id known := second.knows id (first.knows id known)
  base id known := (second.base id (first.knows id known)).trans (first.base id known)
  bytes id known outside :=
    (second.bytes id (first.knows id known) outside).trans (first.bytes id known outside)

theorem trans_fresh {wider : PageId → Prop} (first : before.Grows scope middle)
    (second : middle.Grows wider after) (fresh : ∀ id, wider id → ¬ before.Knows id) :
    before.Grows scope after where
  knows id known := second.knows id (first.knows id known)
  base id known := (second.base id (first.knows id known)).trans (first.base id known)
  bytes id known outside :=
    (second.bytes id (first.knows id known) fun inside => fresh id inside known).trans
      (first.bytes id known outside)

theorem size (grows : before.Grows scope after) (known : before.Knows id) (outside : ¬ scope id) :
    (after.page id).size = (before.page id).size := by
  unfold Page.size
  rw [grows.bytes id known outside]

theorem cell (grows : before.Grows scope after) {table : DescriptorTable} (known : before.Knows table.page)
    (outside : ¬ scope table.page) : table.cell after = table.cell before := by
  funext slot
  simp only [DescriptorTable.cell, Memory.slice, Page.slice, grows.bytes _ known outside]

end Grows

theorem exists_accounts (memory : Memory) : ∃ owners, memory.Accounts owners := by
  refine ⟨(List.range memory.pages.size).flatMap fun index =>
    List.replicate (memory.handles ⟨index⟩) ⟨index⟩, fun id => ?_⟩
  -- Of the blocks in the list only the one of the page itself counts, and that is there if it is known.
  have block (index : Nat) : (List.replicate (memory.handles ⟨index⟩) (⟨index⟩ : PageId)).count id =
      if index = id.index then memory.handles id else 0 := by
    rw [List.count_replicate]
    by_cases same : index = id.index
    · subst same
      simp
    · have other : ¬ (⟨index⟩ : PageId) = id := fun equal => same (congrArg PageId.index equal)
      simp [same, other]
  have sum (size : Nat) : ((List.range size).flatMap fun index =>
      List.replicate (memory.handles ⟨index⟩) (⟨index⟩ : PageId)).count id =
        if id.index < size then memory.handles id else 0 := by
    induction size with
    | zero => simp
    | succ size ih =>
      rw [List.range_succ, List.flatMap_append, List.flatMap_singleton, List.count_append, ih, block]
      split <;> split <;> split <;> omega
  rw [sum]
  by_cases known : memory.Knows id
  · exact (if_pos known).symm
  · rw [if_neg (show ¬ id.index < memory.pages.size from known), handles, page_of_not_knows known]
    rfl

end PacketPath.Memory
