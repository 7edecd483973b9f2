import PacketPath.Proofs.Memory.Accounts
import PacketPath.Proofs.Descriptor.Cells
import PacketPath.Ring.Fragment

/-! Memories that differ in handles only. Nobody who works with pages by name can tell them apart; the device
can, since it finds live pages only. -/

set_option autoImplicit false

namespace PacketPath.Memory

/-- The same pages with the same bytes, reached by the same addresses. Handles are free. -/
structure Alike (one other : Memory) : Prop where
  reachable : other.reachable = one.reachable
  count : other.pages.size = one.pages.size
  base : ∀ id, (other.page id).base = (one.page id).base
  bytes : ∀ id, (other.page id).bytes = (one.page id).bytes

namespace Alike

variable {one other third memory : Memory} {id : PageId}

theorem refl (memory : Memory) : memory.Alike memory :=
  ⟨rfl, rfl, fun _ => rfl, fun _ => rfl⟩

theorem symm (alike : one.Alike other) : other.Alike one :=
  ⟨alike.reachable.symm, alike.count.symm, fun id => (alike.base id).symm, fun id => (alike.bytes id).symm⟩

theorem trans (first : one.Alike other) (second : other.Alike third) : one.Alike third where
  reachable := second.reachable.trans first.reachable
  count := second.count.trans first.count
  base id := (second.base id).trans (first.base id)
  bytes id := (second.bytes id).trans (first.bytes id)

/-! ### What is read -/

theorem size (alike : one.Alike other) (id : PageId) : (other.page id).size = (one.page id).size :=
  congrArg Array.size (alike.bytes id)

theorem slice (alike : one.Alike other) (id : PageId) (offset length : Nat) :
    other.slice id offset length = one.slice id offset length := by
  simp only [Memory.slice, Page.slice, alike.bytes id]

theorem access (alike : one.Alike other) (id : PageId) (offset length : Nat) :
    other.access id offset length = one.access id offset length := by
  have covers : (other.page id).covers offset length = (one.page id).covers offset length := by
    unfold Page.covers
    rw [alike.size]
  have outside : (other.page id).outside offset length = (one.page id).outside offset length := by
    unfold Page.outside
    rw [alike.size, alike.base]
  unfold Memory.access
  dsimp only
  rw [covers, outside]

theorem fragment (alike : one.Alike other) (id : PageId) (offset length : Nat) :
    other.fragment id offset length = one.fragment id offset length := by
  simp only [Memory.fragment, alike.size id]

theorem knows_iff (alike : one.Alike other) : other.Knows id ↔ one.Knows id := by
  unfold Knows
  rw [alike.count]

theorem reaches_iff (alike : one.Alike other) : other.Reaches id ↔ one.Reaches id := by
  unfold Reaches
  rw [alike.base, alike.reachable]

theorem cell (alike : one.Alike other) (table : DescriptorTable) : table.cell other = table.cell one := by
  funext slot
  exact alike.slice ..

theorem transmitCell (alike : one.Alike other) (table : DescriptorTable) :
    table.transmitCell other = table.transmitCell one := by
  funext slot
  rw [DescriptorTable.transmitCell, alike.cell, DescriptorTable.transmitCell]

/-! ### What is changed -/

theorem release (memory : Memory) (id : PageId) : memory.Alike (memory.release id) where
  reachable := rfl
  count := size_pages_release ..
  base other := by rw [page_release]
  bytes other := by rw [page_release]

theorem retain (memory : Memory) (id : PageId) : memory.Alike (memory.retain id) := by
  refine ⟨rfl, size_pages_retain .., fun other => ?_, fun other => ?_⟩ <;>
    · rw [Memory.retain, page_modify]
      split
      case isTrue same => rw [same.1]
      case isFalse => rfl

theorem releaseAll (memory : Memory) (ids : List PageId) : memory.Alike (memory.releaseAll ids) := by
  induction ids generalizing memory with
  | nil => exact refl memory
  | cons id rest ih => exact (release memory id).trans (ih _)

theorem overwrite (alike : one.Alike other) (id : PageId) (offset : Nat) (data : List UInt8) :
    (one.overwrite id offset data).Alike (other.overwrite id offset data) where
  reachable := alike.reachable
  count := by rw [size_pages_overwrite, size_pages_overwrite, alike.count]
  base place := by
    rw [page_overwrite, page_overwrite]
    split
    · exact alike.base id
    · exact alike.base place
  bytes place := by
    rw [page_overwrite, page_overwrite]
    split
    · simp only [Page.overwrite, alike.bytes id]
    · exact alike.bytes place

theorem adopt (alike : one.Alike other) (base : UInt64) (bytes : Array UInt8) :
    (one.adopt base bytes).2.Alike (other.adopt base bytes).2 where
  reachable := alike.reachable
  count := by simp only [Memory.adopt, Array.size_push, alike.count]
  base id := by
    rw [page_adopt, page_adopt, alike.count]
    split
    · rfl
    · exact alike.base id
  bytes id := by
    rw [page_adopt, page_adopt, alike.count]
    split
    · rfl
    · exact alike.bytes id

theorem allocate (alike : one.Alike other) (base : UInt64) (size : Nat) :
    (one.allocate base size = none ∧ other.allocate base size = none) ∨
      ∃ page after after', one.allocate base size = some (page, after) ∧
        other.allocate base size = some (page, after') ∧ after.Alike after' := by
  unfold Memory.allocate
  by_cases refused : size = 0 ∨ largestPage < size
  · rw [if_pos refused, if_pos refused]
    exact .inl ⟨rfl, rfl⟩
  · rw [if_neg refused, if_neg refused]
    refine .inr ⟨⟨one.pages.size⟩, _, _, rfl, ?_, alike.adopt base (Array.replicate size 0)⟩
    simp only [Memory.adopt, alike.count]

theorem register (alike : one.Alike other) (id : PageId) : (one.register id).Alike (other.register id) where
  reachable := by simp only [Memory.register, alike.base, alike.reachable]
  count := alike.count
  base := alike.base
  bytes := alike.bytes

end Alike

/-- The same pages, reached by the same addresses, and some of them with the same bytes. Handles are free. -/
structure AlikeIn (pages : PageId → Prop) (one other : Memory) : Prop where
  reachable : other.reachable = one.reachable
  count : other.pages.size = one.pages.size
  base : ∀ id, (other.page id).base = (one.page id).base
  bytes : ∀ id, pages id → (other.page id).bytes = (one.page id).bytes

namespace AlikeIn

variable {pages : PageId → Prop} {one other third : Memory} {id : PageId}

theorem refl (memory : Memory) : AlikeIn pages memory memory :=
  ⟨rfl, rfl, fun _ => rfl, fun _ _ => rfl⟩

theorem trans (alike : AlikeIn pages one other) (same : other.Alike third) : AlikeIn pages one third where
  reachable := same.reachable.trans alike.reachable
  count := same.count.trans alike.count
  base id := (same.base id).trans (alike.base id)
  bytes id listed := (same.bytes id).trans (alike.bytes id listed)

theorem euclidean (alike : AlikeIn pages one other) (alike' : AlikeIn pages one third) : AlikeIn pages other third where
  reachable := alike'.reachable.trans alike.reachable.symm
  count := alike'.count.trans alike.count.symm
  base id := (alike'.base id).trans (alike.base id).symm
  bytes id listed := (alike'.bytes id listed).trans (alike.bytes id listed).symm

theorem overwrite (alike : AlikeIn pages one other) (listed : pages id) (offset : Nat) (data : List UInt8) :
    AlikeIn pages (one.overwrite id offset data) (other.overwrite id offset data) where
  reachable := alike.reachable
  count := by rw [size_pages_overwrite, size_pages_overwrite, alike.count]
  base place := by
    rw [page_overwrite, page_overwrite]
    split
    · exact alike.base id
    · exact alike.base place
  bytes place among := by
    rw [page_overwrite, page_overwrite]
    split
    · simp only [Page.overwrite, alike.bytes id listed]
    · exact alike.bytes place among

theorem overwrite_outside (alike : AlikeIn pages one other) (outside : ¬ pages id) (offset : Nat) (data : List UInt8) :
    AlikeIn pages one (other.overwrite id offset data) where
  reachable := alike.reachable
  count := by rw [size_pages_overwrite, alike.count]
  base place := by
    rw [page_overwrite]
    split
    case isTrue same => rw [same]; exact alike.base id
    case isFalse => exact alike.base place
  bytes place among := by
    rw [page_overwrite, if_neg]
    · exact alike.bytes place among
    · rintro rfl
      exact outside among

theorem retain (alike : AlikeIn pages one other) (id : PageId) : AlikeIn pages (one.retain id) (other.retain id) where
  reachable := alike.reachable
  count := by rw [size_pages_retain, size_pages_retain, alike.count]
  base place := by rw [(Alike.retain other id).base, (Alike.retain one id).base, alike.base]
  bytes place among := by rw [(Alike.retain other id).bytes, (Alike.retain one id).bytes, alike.bytes place among]

theorem release (alike : AlikeIn pages one other) (id : PageId) :
    AlikeIn pages (one.release id) (other.release id) where
  reachable := alike.reachable
  count := by rw [size_pages_release, size_pages_release, alike.count]
  base place := by rw [(Alike.release other id).base, (Alike.release one id).base, alike.base]
  bytes place among := by rw [(Alike.release other id).bytes, (Alike.release one id).bytes, alike.bytes place among]

end AlikeIn

theorem eq_of_alikeIn {pages : PageId → Prop} {one other : Memory} (inside : AlikeIn pages one other)
    (outside : AlikeIn (¬ pages ·) one other) (handles : ∀ id, other.handles id = one.handles id) : other = one := by
  have same (id : PageId) : other.page id = one.page id := by
    have bytes : (other.page id).bytes = (one.page id).bytes := by
      by_cases listed : pages id
      · exact inside.bytes id listed
      · exact outside.bytes id listed
    have base := inside.base id
    have kept : (other.page id).handles = (one.page id).handles := handles id
    generalize other.page id = page at bytes base kept
    generalize one.page id = page' at bytes base kept
    cases page
    cases page'
    dsimp only at bytes base kept
    rw [bytes, base, kept]
  have pages : other.pages = one.pages := by
    refine Array.ext inside.count fun i short short' => ?_
    have here := same ⟨i⟩
    unfold page at here
    rwa [Array.getElem?_eq_getElem short, Array.getElem?_eq_getElem short'] at here
  have reachable := inside.reachable
  cases one
  cases other
  dsimp only at pages reachable
  rw [pages, reachable]

end PacketPath.Memory
