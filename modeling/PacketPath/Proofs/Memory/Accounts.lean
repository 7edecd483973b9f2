import PacketPath.Proofs.Memory.Chart

/-! Accounts of handles. The memory agrees with a list of owners when every page has as many handles
as the list names it; then every page in the list is alive, and a page with one handle is named once. -/

set_option autoImplicit false

namespace PacketPath.Memory

/-- Each handle has its owner in the list, and each owner its handle. -/
def Accounts (memory : Memory) (owners : List PageId) : Prop :=
  ∀ id, memory.handles id = owners.count id

namespace Accounts

variable {memory : Memory} {owners : List PageId} {id : PageId}

theorem congr {others : List PageId} (accounts : memory.Accounts owners)
    (same : ∀ id, others.count id = owners.count id) : memory.Accounts others :=
  fun id => (accounts id).trans (same id).symm

theorem perm {others : List PageId} (accounts : memory.Accounts owners) (same : owners.Perm others) :
    memory.Accounts others :=
  accounts.congr fun _ => same.symm.count_eq _

theorem alive (accounts : memory.Accounts owners) (listed : id ∈ owners) : 0 < memory.handles id := by
  rw [accounts id]
  exact List.count_pos_iff.mpr listed

theorem knows (accounts : memory.Accounts owners) (listed : id ∈ owners) : memory.Knows id :=
  knows_of_handles (accounts.alive listed)

theorem not_mem (accounts : memory.Accounts owners) (unknown : ¬ memory.Knows id) : id ∉ owners :=
  fun listed => unknown (accounts.knows listed)

theorem overwrite (accounts : memory.Accounts owners) (target : PageId) (offset : Nat) (data : List UInt8) :
    (memory.overwrite target offset data).Accounts owners := by
  intro id
  rw [handles_overwrite, accounts id]

theorem retain (accounts : memory.Accounts owners) (known : memory.Knows id) :
    (memory.retain id).Accounts (id :: owners) := by
  intro other
  rw [handles, page_retain known, accounts other]
  by_cases same : other = id
  · rw [same, List.count_cons_self, if_pos rfl]
  · rw [List.count_cons_of_ne (Ne.symm same), if_neg same, Nat.add_zero]

theorem release (accounts : memory.Accounts (id :: owners)) : (memory.release id).Accounts owners := by
  intro other
  have counted := accounts other
  rw [handles, page_release]
  by_cases same : other = id
  · rw [same, List.count_cons_self] at counted
    simp only [same, counted, if_true, Nat.add_sub_cancel]
  · rw [List.count_cons_of_ne (Ne.symm same)] at counted
    simp only [counted, if_neg same, Nat.sub_zero]

theorem retainAll (accounts : memory.Accounts owners) {ids : List PageId}
    (known : ∀ id ∈ ids, memory.Knows id) : (memory.retainAll ids).Accounts (ids ++ owners) := by
  induction ids generalizing memory owners with
  | nil => exact accounts
  | cons id rest ih =>
    have head := known id (List.mem_cons_self ..)
    have later : ∀ other ∈ rest, (memory.retain id).Knows other := by
      intro other listed
      have before := known other (List.mem_cons_of_mem _ listed)
      simpa only [Knows, size_pages_retain] using before
    refine (ih (accounts.retain head) later).congr fun other => ?_
    simp only [List.count_append, List.count_cons]
    omega

theorem releaseAll {ids : List PageId} (accounts : memory.Accounts (ids ++ owners)) :
    (memory.releaseAll ids).Accounts owners := by
  induction ids generalizing memory with
  | nil => exact accounts
  | cons id rest ih => exact ih accounts.release

theorem adopt (accounts : memory.Accounts owners) (base : UInt64) (bytes : Array UInt8) :
    (memory.adopt base bytes).2.Accounts (⟨memory.pages.size⟩ :: owners) := by
  have fresh : ¬ memory.Knows ⟨memory.pages.size⟩ := Nat.lt_irrefl _
  intro other
  rw [handles, page_adopt, List.count_cons]
  by_cases same : other = ⟨memory.pages.size⟩
  · subst same
    rw [List.count_eq_zero.mpr (accounts.not_mem fresh)]
    simp
  · have apart : ¬ ((⟨memory.pages.size⟩ : PageId) == other) = true := by
      simpa only [beq_iff_eq] using Ne.symm same
    rw [if_neg same, if_neg apart, ← accounts other, handles, Nat.add_zero]

end Accounts

theorem changes_retainAll (scope : PageId → Prop) {memory : Memory} {ids : List PageId}
    (known : ∀ id ∈ ids, memory.Knows id) : ChangesWithin scope memory (memory.retainAll ids) := by
  induction ids generalizing memory with
  | nil => exact .refl scope memory
  | cons id rest ih =>
    have first := changes_retain scope (known id (List.mem_cons_self ..))
    exact first.trans (ih fun other listed => first.knows other (known other (List.mem_cons_of_mem _ listed)))

theorem changes_releaseAll (scope : PageId → Prop) (memory : Memory) (ids : List PageId) :
    ChangesWithin scope memory (memory.releaseAll ids) := by
  induction ids generalizing memory with
  | nil => exact .refl scope memory
  | cons id rest ih => exact (changes_release scope memory id).trans (ih _)

theorem reachable_retainAll (memory : Memory) (ids : List PageId) :
    (memory.retainAll ids).reachable = memory.reachable := by
  induction ids generalizing memory with
  | nil => rfl
  | cons id rest ih => exact ih _

theorem reachable_releaseAll (memory : Memory) (ids : List PageId) :
    (memory.releaseAll ids).reachable = memory.reachable := by
  induction ids generalizing memory with
  | nil => rfl
  | cons id rest ih => exact ih _

/-! ### Handles taken and given back -/

theorem ext_pages {one other : Memory} (size : one.pages.size = other.pages.size)
    (page : ∀ id, one.page id = other.page id) (reachable : one.reachable = other.reachable) : one = other := by
  obtain ⟨pages, entries⟩ := one
  obtain ⟨pages', entries'⟩ := other
  dsimp only at size reachable
  subst reachable
  congr 1
  apply Array.ext size
  intro i inside inside'
  have same := page ⟨i⟩
  simpa only [Memory.page, Array.getElem?_eq_getElem inside, Array.getElem?_eq_getElem inside',
    Option.getD_some] using same

theorem size_pages_retainAll (memory : Memory) (ids : List PageId) :
    (memory.retainAll ids).pages.size = memory.pages.size := by
  induction ids generalizing memory with
  | nil => rfl
  | cons id rest ih => exact (ih _).trans (size_pages_retain memory id)

theorem size_pages_releaseAll (memory : Memory) (ids : List PageId) :
    (memory.releaseAll ids).pages.size = memory.pages.size := by
  induction ids generalizing memory with
  | nil => rfl
  | cons id rest ih => exact (ih _).trans (size_pages_release memory id)

theorem page_retainAll {memory : Memory} {id : PageId} (known : memory.Knows id) (ids : List PageId) :
    (memory.retainAll ids).page id = { memory.page id with handles := memory.handles id + ids.count id } := by
  induction ids generalizing memory with
  | nil => rfl
  | cons first rest ih =>
    have first_page : (memory.retain first).page id =
        { memory.page id with handles := memory.handles id + if id = first then 1 else 0 } := by
      by_cases given : memory.Knows first
      · exact page_retain given id
      · have other : id ≠ first := fun same => given (same ▸ known)
        rw [retain, page_modify, if_neg fun both => given both.2, if_neg other]
        rfl
    have later : (memory.retain first).Knows id := by simpa only [Knows, size_pages_retain] using known
    refine (ih later).trans ?_
    rw [handles, first_page, List.count_cons]
    by_cases same : id = first
    · subst same
      simp only [if_true, BEq.rfl]
      rw [Nat.add_assoc, Nat.add_comm 1]
    · simp [same, Ne.symm same]

theorem page_releaseAll (memory : Memory) (ids : List PageId) (id : PageId) :
    (memory.releaseAll ids).page id = { memory.page id with handles := memory.handles id - ids.count id } := by
  induction ids generalizing memory with
  | nil => rfl
  | cons first rest ih =>
    refine (ih _).trans ?_
    rw [handles, page_release, List.count_cons]
    by_cases same : id = first
    · subst same
      simp [Nat.sub_sub, Nat.add_comm]
    · simp [same, Ne.symm same]

theorem base_page_releaseAll (memory : Memory) (ids : List PageId) (id : PageId) :
    ((memory.releaseAll ids).page id).base = (memory.page id).base := by
  rw [page_releaseAll]

/-- Taking handles and giving the same ones back leaves no trace. -/
theorem releaseAll_retainAll (memory : Memory) (ids : List PageId) :
    (memory.retainAll ids).releaseAll ids = memory := by
  apply ext_pages
  · rw [size_pages_releaseAll, size_pages_retainAll]
  · intro id
    rw [page_releaseAll]
    by_cases known : memory.Knows id
    · simp only [handles, page_retainAll known, Nat.add_sub_cancel]
    · have unknown : ¬ (memory.retainAll ids).Knows id := by
        unfold Knows
        rwa [size_pages_retainAll]
      simp only [handles, page_of_not_knows known, page_of_not_knows unknown]
      simp [Page.absent]
  · rw [reachable_releaseAll, reachable_retainAll]

/-! ### New pages -/

theorem changes_adopt (scope : PageId → Prop) (memory : Memory) (base : UInt64) (bytes : Array UInt8) :
    ChangesWithin scope memory (memory.adopt base bytes).2 := by
  have older {id : PageId} (known : memory.Knows id) : (memory.adopt base bytes).2.page id = memory.page id := by
    rw [page_adopt, if_neg]
    rintro rfl
    exact Nat.lt_irrefl _ known
  exact
    { reachable := fun _ listed => listed
      knows := fun id known => Nat.lt_trans known (by simp [adopt])
      base := fun id known => by rw [older known]
      size := fun id known => by rw [older known]
      bytes := fun id known _ => by rw [older known] }

end PacketPath.Memory
