import Mathlib.Algebra.Ring.Nat
import PacketPath.Memory.Reach

/-! What each change of memory does to each page. Bytes, bases and handles change independently, so
most of what is known about a page outlives a change of something else. -/

set_option autoImplicit false

namespace PacketPath

namespace Page

@[simp] theorem base_overwrite (page : Page) (offset : Nat) (data : List UInt8) :
    (page.overwrite offset data).base = page.base :=
  rfl

@[simp] theorem handles_overwrite (page : Page) (offset : Nat) (data : List UInt8) :
    (page.overwrite offset data).handles = page.handles :=
  rfl

@[simp] theorem size_overwrite (page : Page) (offset : Nat) (data : List UInt8) :
    (page.overwrite offset data).size = page.size :=
  size_overwriteBytes ..

theorem covers_iff {page : Page} {offset length : Nat} :
    page.covers offset length = true ↔ offset + length ≤ page.size := by
  simp [covers]

theorem getElem?_slice (page : Page) (offset length i : Nat) :
    (page.slice offset length)[i]? = if i < length then page.bytes[offset + i]? else none := by
  simp only [slice, Array.getElem?_toList, Array.getElem?_extract]
  split <;> split <;> first | rfl | grind

theorem length_slice {page : Page} {offset length : Nat} (covered : offset + length ≤ page.size) :
    (page.slice offset length).length = length := by
  unfold size at covered
  rw [slice, Array.length_toList, Array.size_extract, Nat.min_eq_left covered, Nat.add_sub_cancel_left]

theorem slice_eq_map {page : Page} {offset length : Nat} (covered : offset + length ≤ page.size) :
    page.slice offset length = (List.range length).map fun i => page.byte (offset + i) := by
  unfold size at covered
  apply List.ext_getElem?
  intro i
  rw [getElem?_slice, List.getElem?_map]
  by_cases inside : i < length
  · rw [if_pos inside, List.getElem?_range inside, Option.map_some, byte, Array.getElem?_eq_getElem (by omega),
      Option.getD_some]
  · rw [if_neg inside, List.getElem?_eq_none (by rw [List.length_range]; omega)]
    rfl

theorem slice_overwrite {page : Page} {offset : Nat} {data : List UInt8}
    (covered : offset + data.length ≤ page.size) :
    (page.overwrite offset data).slice offset data.length = data := by
  simp only [size] at covered
  apply List.ext_getElem?
  intro i
  rw [getElem?_slice]
  by_cases inside : i < data.length
  · have within : offset ≤ offset + i ∧ offset + i < offset + data.length ∧ offset + i < page.bytes.size := by
      omega
    rw [if_pos inside, overwrite, getElem?_overwriteBytes, if_pos within, Nat.add_sub_cancel_left]
  · rw [if_neg inside, List.getElem?_eq_none (by omega)]

theorem slice_overwrite_apart {page : Page} {offset place length : Nat} {data : List UInt8}
    (apart : offset + data.length ≤ place ∨ place + length ≤ offset) :
    (page.overwrite offset data).slice place length = page.slice place length := by
  apply List.ext_getElem?
  intro i
  rw [getElem?_slice, getElem?_slice, overwrite, getElem?_overwriteBytes]
  by_cases inside : i < length
  · have outside : ¬ (offset ≤ place + i ∧ place + i < offset + data.length ∧
        place + i < page.bytes.size) := by omega
    rw [if_pos inside, if_pos inside, if_neg outside]
  · rw [if_neg inside, if_neg inside]

theorem byte_overwrite {page : Page} {offset : Nat} (inside : offset < page.size) (value : UInt8) :
    (page.overwrite offset [value]).byte offset = value := by
  unfold size at inside
  rw [byte, overwrite, getElem?_overwriteBytes, List.length_singleton, if_pos (by omega), Nat.sub_self]
  rfl

theorem byte_overwrite_apart {page : Page} {offset place : Nat} {data : List UInt8}
    (apart : place < offset ∨ offset + data.length ≤ place) :
    (page.overwrite offset data).byte place = page.byte place := by
  rw [byte, overwrite, getElem?_overwriteBytes, if_neg (by omega), byte]

end Page

namespace Memory

def Knows (memory : Memory) (id : PageId) : Prop :=
  id.index < memory.pages.size

instance (memory : Memory) (id : PageId) : Decidable (memory.Knows id) :=
  inferInstanceAs (Decidable (_ < _))

theorem page_of_not_knows {memory : Memory} {id : PageId} (unknown : ¬ memory.Knows id) :
    memory.page id = Page.absent := by
  unfold Knows at unknown
  simp [page, Array.getElem?_eq_none (Nat.not_lt.mp unknown)]

theorem knows_of_handles {memory : Memory} {id : PageId} (held : 0 < memory.handles id) : memory.Knows id := by
  apply Decidable.byContradiction
  intro unknown
  simp [handles, page_of_not_knows unknown, Page.absent] at held

theorem knows_of_size {memory : Memory} {id : PageId} (filled : 0 < (memory.page id).size) :
    memory.Knows id := by
  apply Decidable.byContradiction
  intro unknown
  simp [page_of_not_knows unknown, Page.absent, Page.size] at filled

theorem page_modify (memory : Memory) (id other : PageId) (change : Page → Page) :
    (memory.modify id change).page other =
      if other = id ∧ memory.Knows id then change (memory.page id) else memory.page other := by
  unfold page modify Knows
  rcases id with ⟨i⟩
  rcases other with ⟨j⟩
  simp only [Array.getElem?_modify, PageId.mk.injEq]
  by_cases same : i = j
  · subst same
    by_cases known : i < memory.pages.size
    · simp [known]
    · simp [known]
  · simp [same, Ne.symm same]

/-! ### Bytes -/

theorem page_overwrite (memory : Memory) (id other : PageId) (offset : Nat) (data : List UInt8) :
    (memory.overwrite id offset data).page other =
      if other = id then (memory.page id).overwrite offset data else memory.page other := by
  have gone : Page.overwriteBytes #[] offset data = #[] := by
    have empty := Page.size_overwriteBytes #[] offset data
    exact Array.eq_empty_of_size_eq_zero empty
  rw [overwrite, page_modify]
  by_cases same : other = id
  · subst same
    by_cases known : memory.Knows other
    · rw [if_pos ⟨rfl, known⟩, if_pos rfl]
    · rw [if_neg (fun both => known both.2), if_pos rfl, page_of_not_knows known]
      simp only [Page.overwrite, Page.absent, gone]
  · rw [if_neg (fun both => same both.1), if_neg same]

theorem base_page_overwrite (memory : Memory) (id other : PageId) (offset : Nat) (data : List UInt8) :
    ((memory.overwrite id offset data).page other).base = (memory.page other).base := by
  rw [page_overwrite]
  split
  case isTrue same => rw [same, Page.base_overwrite]
  case isFalse => rfl

theorem size_page_overwrite (memory : Memory) (id other : PageId) (offset : Nat) (data : List UInt8) :
    ((memory.overwrite id offset data).page other).size = (memory.page other).size := by
  rw [page_overwrite]
  split
  case isTrue same => rw [same, Page.size_overwrite]
  case isFalse => rfl

@[simp] theorem handles_overwrite (memory : Memory) (id other : PageId) (offset : Nat) (data : List UInt8) :
    (memory.overwrite id offset data).handles other = memory.handles other := by
  unfold handles
  rw [page_overwrite]
  split
  case isTrue same => rw [same, Page.handles_overwrite]
  case isFalse => rfl

@[simp] theorem size_pages_overwrite (memory : Memory) (id : PageId) (offset : Nat) (data : List UInt8) :
    (memory.overwrite id offset data).pages.size = memory.pages.size := by
  simp [overwrite, modify]

@[simp] theorem overwrite_nil (memory : Memory) (id : PageId) (offset : Nat) :
    memory.overwrite id offset [] = memory := by
  rcases memory with ⟨pages, reachable⟩
  simp only [overwrite, modify, Memory.mk.injEq, and_true]
  apply Array.ext <;> intros <;> simp [Array.getElem_modify, Page.overwrite, Page.overwriteBytes]

theorem overwrite_cons (memory : Memory) (id : PageId) (offset : Nat) (byte : UInt8) (rest : List UInt8) :
    memory.overwrite id offset (byte :: rest) =
      (memory.overwrite id offset [byte]).overwrite id (offset + 1) rest := by
  rcases memory with ⟨pages, reachable⟩
  simp only [overwrite, modify, Memory.mk.injEq, and_true]
  apply Array.ext <;> intros <;> simp [Array.getElem_modify, Page.overwrite, Page.overwriteBytes]
  split <;> rfl

theorem overwrite_comm {memory : Memory} {one other : PageId} (apart : one ≠ other) (offset place : Nat)
    (data bytes : List UInt8) :
    (memory.overwrite one offset data).overwrite other place bytes =
      (memory.overwrite other place bytes).overwrite one offset data := by
  rcases memory with ⟨pages, reachable⟩
  rcases one with ⟨i⟩
  rcases other with ⟨j⟩
  have indices : i ≠ j := fun same => apart (congrArg PageId.mk same)
  simp only [overwrite, modify, Memory.mk.injEq, and_true]
  apply Array.ext
  · simp
  · intro k inside _
    simp only [Array.getElem_modify]
    split <;> split <;> first | rfl | omega

/-! ### Handles -/

theorem page_retain {memory : Memory} {id : PageId} (known : memory.Knows id) (other : PageId) :
    (memory.retain id).page other =
      { memory.page other with handles := memory.handles other + if other = id then 1 else 0 } := by
  rw [retain, page_modify]
  by_cases same : other = id
  · subst same
    simp [known, handles]
  · simp [same, handles]

theorem page_release (memory : Memory) (id other : PageId) :
    (memory.release id).page other =
      { memory.page other with handles := memory.handles other - if other = id then 1 else 0 } := by
  rw [release, page_modify]
  by_cases same : other = id
  · subst same
    by_cases known : memory.Knows other
    · simp [known, handles]
    · simp [known, handles, page_of_not_knows known, Page.absent]
  · simp [same, handles]

@[simp] theorem size_pages_retain (memory : Memory) (id : PageId) :
    (memory.retain id).pages.size = memory.pages.size := by
  simp [retain, modify]

@[simp] theorem size_pages_release (memory : Memory) (id : PageId) :
    (memory.release id).pages.size = memory.pages.size := by
  simp [release, modify]

@[simp] theorem reachable_retain (memory : Memory) (id : PageId) :
    (memory.retain id).reachable = memory.reachable :=
  rfl

@[simp] theorem reachable_release (memory : Memory) (id : PageId) :
    (memory.release id).reachable = memory.reachable :=
  rfl

/-! ### New pages -/

theorem page_adopt (memory : Memory) (base : UInt64) (bytes : Array UInt8) (other : PageId) :
    (memory.adopt base bytes).2.page other =
      if other = ⟨memory.pages.size⟩ then ⟨base, bytes, 1⟩ else memory.page other := by
  rcases other with ⟨j⟩
  simp only [adopt, page, Array.getElem?_push, PageId.mk.injEq]
  split <;> simp

theorem size_adopt (memory : Memory) (base : UInt64) (bytes : Array UInt8) :
    ((memory.adopt base bytes).2.page (memory.adopt base bytes).1).size = bytes.size := by
  rw [page_adopt]
  exact congrArg Page.size (if_pos rfl)

theorem size_le_adopt (memory : Memory) (base : UInt64) (bytes : Array UInt8) (id : PageId) :
    (memory.page id).size ≤ ((memory.adopt base bytes).2.page id).size := by
  rw [page_adopt]
  split
  case isTrue new =>
    have unknown : ¬ memory.Knows id := new ▸ Nat.lt_irrefl _
    rw [page_of_not_knows unknown]
    exact Nat.zero_le _
  case isFalse => exact Nat.le_refl _

@[simp] theorem page_register (memory : Memory) (id other : PageId) :
    (memory.register id).page other = memory.page other :=
  rfl

end Memory

end PacketPath
