import PacketPath.Address
import PacketPath.Limits
import PacketPath.Proofs.Memory.Effects

/-! Charted memory: the reachable pages lie apart, each where its entry says and as long as a
platform page. In charted memory the device finds a live page by every address inside it, whatever
else has been registered or has died. -/

set_option autoImplicit false

namespace PacketPath.Memory

/-- The reachable pages are platform pages, apart from each other and below a limit. -/
structure Charted (memory : Memory) (limit : Nat) : Prop where
  spaced : memory.reachable.Pairwise fun first second =>
    first.1.toNat + Limits.pageSize ≤ second.1.toNat
  base : ∀ entry ∈ memory.reachable, (memory.page entry.2).base = entry.1
  size : ∀ entry ∈ memory.reachable, (memory.page entry.2).size = Limits.pageSize
  below : ∀ entry ∈ memory.reachable, entry.1.toNat + Limits.pageSize ≤ limit

/-- The device can reach the page at its own base. -/
def Reaches (memory : Memory) (id : PageId) : Prop :=
  ((memory.page id).base, id) ∈ memory.reachable

variable {memory : Memory} {limit : Nat} {id : PageId}

theorem Charted.size_of_reaches (charted : memory.Charted limit) (reached : memory.Reaches id) :
    (memory.page id).size = Limits.pageSize :=
  charted.size _ reached

theorem Charted.knows (charted : memory.Charted limit) {entry : UInt64 × PageId}
    (listed : entry ∈ memory.reachable) : memory.Knows entry.2 := by
  apply knows_of_size
  rw [charted.size entry listed]
  decide

theorem Charted.knows_of_reaches (charted : memory.Charted limit) (reached : memory.Reaches id) :
    memory.Knows id :=
  charted.knows reached

/-! ### Finding pages -/

/-- The last entry not above an address, if those before it are not and those behind it are. -/
theorem getLast?_takeWhile_le {front back : List (UInt64 × PageId)} {entry : UInt64 × PageId} {address : UInt64}
    (early : ∀ other ∈ front, other.1 ≤ address) (here : entry.1 ≤ address)
    (late : ∀ other ∈ back, address < other.1) :
    ((front ++ entry :: back).takeWhile fun other => other.1 ≤ address).getLast? = some entry := by
  have admitted : ∀ other ∈ front, decide (other.1 ≤ address) = true :=
    fun other listed => decide_eq_true (early other listed)
  have stopped : back.takeWhile (fun other => decide (other.1 ≤ address)) = [] := by
    cases back with
    | nil => rfl
    | cons next rest =>
      have passed : ¬ next.1 ≤ address := UInt64.not_le.mpr (late next (List.mem_cons_self ..))
      simp [passed]
  rw [List.takeWhile_append_of_pos admitted, List.takeWhile_cons_of_pos (by simpa using here), stopped]
  simp

/-- The page is entered under its base, and no other entry begins inside it. -/
structure Unshadowed (memory : Memory) (id : PageId) : Prop where
  entered : memory.Reaches id
  ascending : memory.reachable.Pairwise fun first second => first.1 < second.1
  alone : ∀ entry ∈ memory.reachable,
    entry.1 ≤ (memory.page id).base ∨ (memory.page id).base.toNat + (memory.page id).size ≤ entry.1.toNat

namespace Unshadowed

variable {address : UInt64} {offset length : Nat}

theorem entryBelow_eq (clear : memory.Unshadowed id) (place : address.toNat = (memory.page id).base.toNat + offset)
    (inside : offset < (memory.page id).size) : memory.entryBelow address = some ((memory.page id).base, id) := by
  obtain ⟨front, back, split⟩ := List.append_of_mem clear.entered
  have ascending := clear.ascending
  have alone := clear.alone
  rw [split] at ascending alone
  obtain ⟨-, later, earlier⟩ := List.pairwise_append.mp ascending
  rw [entryBelow, split]
  -- The entries are in order: those before the page begin at or below the address, those behind it above.
  apply getLast?_takeWhile_le
  case early =>
    intro other listed
    have before := UInt64.lt_iff_toNat_lt.mp (earlier other listed _ (List.mem_cons_self ..))
    rw [UInt64.le_iff_toNat_le]
    dsimp only at before
    omega
  case here =>
    rw [UInt64.le_iff_toNat_le]
    dsimp only
    omega
  case late =>
    intro other listed
    have behind := UInt64.lt_iff_toNat_lt.mp ((List.pairwise_cons.mp later).1 other listed)
    have apart := alone other (List.mem_append_right _ (List.mem_cons_of_mem _ listed))
    rw [UInt64.le_iff_toNat_le] at apart
    rw [UInt64.lt_iff_toNat_lt]
    dsimp only at behind
    omega

theorem resolve_eq (clear : memory.Unshadowed id) (alive : 0 < memory.handles id)
    (place : address.toNat = (memory.page id).base.toNat + offset) (inside : offset < (memory.page id).size) :
    memory.resolve address = .ok (id, offset) := by
  have below : (memory.page id).base ≤ address := by
    rw [UInt64.le_iff_toNat_le]
    omega
  have distance : (address - (memory.page id).base).toNat = offset := by
    rw [UInt64.toNat_sub_of_le _ _ below]
    omega
  simp only [resolve, clear.entryBelow_eq place inside, distance, isAlive, decide_eq_true_eq]
  rw [if_pos ⟨alive, inside⟩]

theorem locate_eq (clear : memory.Unshadowed id) (alive : 0 < memory.handles id)
    (place : address.toNat = (memory.page id).base.toNat + offset) (inside : offset < (memory.page id).size)
    (fits : offset + length ≤ (memory.page id).size) : memory.locate address length = .ok (id, offset) := by
  simp only [locate, clear.resolve_eq alive place inside]
  rw [if_pos fits]

end Unshadowed

theorem Charted.unshadowed (charted : memory.Charted limit) (reached : memory.Reaches id) : memory.Unshadowed id where
  entered := reached
  ascending := by
    refine charted.spaced.imp fun spaced => ?_
    rw [UInt64.lt_iff_toNat_lt]
    exact Nat.lt_of_lt_of_le (Nat.lt_add_of_pos_right (by decide)) spaced
  alone entry listed := by
    obtain ⟨front, back, split⟩ := List.append_of_mem reached
    have spaced := charted.spaced
    rw [split] at spaced listed
    obtain ⟨-, later, earlier⟩ := List.pairwise_append.mp spaced
    rw [charted.size_of_reaches reached, UInt64.le_iff_toNat_le]
    rcases List.mem_append.mp listed with before | behind
    · have apart := earlier entry before _ (List.mem_cons_self ..)
      exact .inl (Nat.le_trans (Nat.le_add_right ..) apart)
    · rcases List.mem_cons.mp behind with rfl | behind
      · exact .inl (Nat.le_refl _)
      · exact .inr ((List.pairwise_cons.mp later).1 entry behind)

/-- An access that stays inside a live page is made there. -/
theorem Charted.locate_eq (charted : memory.Charted limit) (reached : memory.Reaches id)
    (alive : 0 < memory.handles id) {address : UInt64} {offset length : Nat}
    (place : address.toNat = (memory.page id).base.toNat + offset)
    (inside : offset < Limits.pageSize) (fits : offset + length ≤ Limits.pageSize) :
    memory.locate address length = .ok (id, offset) := by
  rw [← charted.size_of_reaches reached] at inside fits
  exact (charted.unshadowed reached).locate_eq alive place inside fits

theorem Charted.locate_dead (charted : memory.Charted limit) (reached : memory.Reaches id)
    (dead : memory.handles id = 0) {address : UInt64} {offset : Nat} (length : Nat)
    (place : address.toNat = (memory.page id).base.toNat + offset) (inside : offset < Limits.pageSize) :
    memory.locate address length = .error (.unmapped address) := by
  have gone : ¬ memory.isAlive id = true := by
    unfold isAlive
    rw [dead]
    decide
  rw [← charted.size_of_reaches reached] at inside
  simp only [locate, resolve, (charted.unshadowed reached).entryBelow_eq place inside]
  rw [if_neg fun live => gone live.1]

/-! ### Entering pages -/

theorem enter_eq_append {base : UInt64} {entries : List (UInt64 × PageId)}
    (above : ∀ entry ∈ entries, entry.1.toNat < base.toNat) :
    enter base id entries = entries ++ [(base, id)] := by
  induction entries with
  | nil => rfl
  | cons entry rest ih =>
    have lower := above entry (List.mem_cons_self ..)
    have less : ¬ base < entry.1 := by
      rw [UInt64.lt_iff_toNat_lt]
      omega
    have other : ¬ base = entry.1 := by
      rintro rfl
      omega
    rw [enter, if_neg less, if_neg other, ih fun later listed => above later (List.mem_cons_of_mem _ listed),
      List.cons_append]

/-! ### What changes keep -/

/-- Pages and entries are only added, pages that exist stay where they are and as long as they are,
and bytes change only in pages in scope. Handles are free. -/
structure ChangesWithin (scope : PageId → Prop) (before after : Memory) : Prop where
  reachable : ∀ entry ∈ before.reachable, entry ∈ after.reachable
  knows : ∀ id, before.Knows id → after.Knows id
  base : ∀ id, before.Knows id → (after.page id).base = (before.page id).base
  size : ∀ id, before.Knows id → (after.page id).size = (before.page id).size
  bytes : ∀ id, before.Knows id → ¬ scope id → (after.page id).bytes = (before.page id).bytes

namespace ChangesWithin

variable {scope : PageId → Prop} {before middle after : Memory}

theorem refl (scope : PageId → Prop) (memory : Memory) : ChangesWithin scope memory memory :=
  ⟨fun _ listed => listed, fun _ known => known, fun _ _ => rfl, fun _ _ => rfl, fun _ _ _ => rfl⟩

theorem trans (first : ChangesWithin scope before middle) (second : ChangesWithin scope middle after) :
    ChangesWithin scope before after where
  reachable entry listed := second.reachable entry (first.reachable entry listed)
  knows id known := second.knows id (first.knows id known)
  base id known := (second.base id (first.knows id known)).trans (first.base id known)
  size id known := (second.size id (first.knows id known)).trans (first.size id known)
  bytes id known outside :=
    (second.bytes id (first.knows id known) outside).trans (first.bytes id known outside)

theorem mono {wider : PageId → Prop} (changes : ChangesWithin scope before after)
    (covered : ∀ id, scope id → wider id) : ChangesWithin wider before after :=
  { changes with bytes := fun id known outside => changes.bytes id known fun inside => outside (covered id inside) }

theorem slice (changes : ChangesWithin scope before after) (known : before.Knows id) (outside : ¬ scope id)
    (offset length : Nat) : after.slice id offset length = before.slice id offset length := by
  simp only [Memory.slice, Page.slice, changes.bytes id known outside]

theorem reaches (changes : ChangesWithin scope before after) (known : before.Knows id)
    (reached : before.Reaches id) : after.Reaches id := by
  rw [Reaches, changes.base id known]
  exact changes.reachable _ reached

end ChangesWithin

theorem changes_overwrite (memory : Memory) {scope : PageId → Prop} (inside : scope id) (offset : Nat)
    (data : List UInt8) : ChangesWithin scope memory (memory.overwrite id offset data) where
  reachable _ listed := listed
  knows other known := by simpa only [Knows, size_pages_overwrite] using known
  base other _ := base_page_overwrite ..
  size other _ := size_page_overwrite ..
  bytes other _ outside := by
    rw [page_overwrite, if_neg]
    rintro rfl
    exact outside inside

theorem changes_retain (scope : PageId → Prop) (known : memory.Knows id) :
    ChangesWithin scope memory (memory.retain id) where
  reachable _ listed := listed
  knows other known := by simpa only [Knows, size_pages_retain] using known
  base other _ := by rw [page_retain known]
  size other _ := by rw [page_retain known, Page.size, Page.size]
  bytes other _ _ := by rw [page_retain known]

theorem changes_release (scope : PageId → Prop) (memory : Memory) (id : PageId) :
    ChangesWithin scope memory (memory.release id) where
  reachable _ listed := listed
  knows other known := by simpa only [Knows, size_pages_release] using known
  base other _ := by rw [page_release]
  size other _ := by rw [page_release, Page.size, Page.size]
  bytes other _ _ := by rw [page_release]

/-- A chart outlives every change that enters no page. -/
theorem Charted.of_changes {scope : PageId → Prop} {after : Memory} (charted : memory.Charted limit)
    (changes : ChangesWithin scope memory after) (same : after.reachable = memory.reachable) :
    after.Charted limit where
  spaced := same ▸ charted.spaced
  base entry listed := by
    rw [same] at listed
    rw [changes.base _ (charted.knows listed), charted.base entry listed]
  size entry listed := by
    rw [same] at listed
    rw [changes.size _ (charted.knows listed), charted.size entry listed]
  below entry listed := charted.below entry (same ▸ listed)

end PacketPath.Memory
