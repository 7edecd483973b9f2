import PacketPath.Proofs.Memory.Chart

/-! Looking up addresses. In charted memory where every live page is entered, the entry below an address
decides: the address belongs to the one live page around it, or to none. Entries of dead pages, wherever they
are, and addresses never handed out are in nobody's way. -/

set_option autoImplicit false

namespace PacketPath.Memory

structure Holds (memory : Memory) (address : UInt64) (id : PageId) (offset : Nat) : Prop where
  alive : 0 < memory.handles id
  place : address.toNat = (memory.page id).base.toNat + offset
  inside : offset < Limits.pageSize

structure Puts (id : PageId) (offset : Nat) (data : List UInt8) (before after : Memory) : Prop where
  bytes : ∀ other i, (after.page other).bytes[i]? =
    if other = id ∧ offset ≤ i ∧ i < offset + data.length then data[i - offset]?
    else (before.page other).bytes[i]?
  base : ∀ other, (after.page other).base = (before.page other).base
  handles : ∀ other, after.handles other = before.handles other
  reachable : after.reachable = before.reachable

structure Mapped (memory : Memory) : Prop where
  charted : memory.Charted (2 ^ 64)
  entered : ∀ id, 0 < memory.handles id → memory.Reaches id

variable {memory : Memory} {id other : PageId} {address base : UInt64} {offset length limit : Nat}

theorem puts_overwrite {data : List UInt8} (covered : offset + data.length ≤ (memory.page id).size) :
    Puts id offset data memory (memory.overwrite id offset data) where
  bytes other i := by
    unfold Page.size at covered
    rw [page_overwrite]
    by_cases same : other = id
    · subst same
      rw [if_pos rfl, Page.overwrite, Page.getElem?_overwriteBytes]
      by_cases within : offset ≤ i ∧ i < offset + data.length
      · rw [if_pos (by omega), if_pos ⟨rfl, within⟩]
      · rw [if_neg (by omega), if_neg fun both => within both.2]
    · rw [if_neg same, if_neg fun both => same both.1]
  base other := base_page_overwrite ..
  handles other := handles_overwrite ..
  reachable := rfl

/-! ### Entries -/

theorem entryBelow_some {entry : UInt64 × PageId} (found : memory.entryBelow address = some entry) :
    entry ∈ memory.reachable ∧ entry.1 ≤ address := by
  have listed := List.mem_of_getLast? found
  have admitted := List.all_eq_true.mp List.all_takeWhile entry listed
  exact ⟨(List.takeWhile_sublist _).subset listed, of_decide_eq_true admitted⟩

theorem ascending_of_spaced {entries : List (UInt64 × PageId)}
    (spaced : entries.Pairwise fun one two => one.1.toNat + Limits.pageSize ≤ two.1.toNat) :
    entries.Pairwise fun one two => one.1 < two.1 := by
  refine spaced.imp fun apart => ?_
  rw [UInt64.lt_iff_toNat_lt]
  exact Nat.lt_of_lt_of_le (Nat.lt_add_of_pos_right (by decide)) apart

theorem mem_enter_iff {entries : List (UInt64 × PageId)} (ascending : entries.Pairwise fun one two => one.1 < two.1)
    (base : UInt64) (id : PageId) (entry : UInt64 × PageId) :
    entry ∈ enter base id entries ↔ entry = (base, id) ∨ entry ∈ entries ∧ entry.1 ≠ base := by
  induction entries with
  | nil => simp [enter]
  | cons first rest ih =>
    obtain ⟨behind, ascending⟩ := List.pairwise_cons.mp ascending
    -- Behind an entry that is not below the base, nothing has that base.
    have apart (early : base ≤ first.1) (listed : entry ∈ rest) : entry.1 ≠ base := by
      rintro rfl
      exact UInt64.not_le.mpr (behind entry listed) early
    unfold enter
    by_cases below : base < first.1
    · rw [if_pos below, List.mem_cons]
      have other : first.1 ≠ base := (UInt64.ne_of_lt below).symm
      have apart := apart (UInt64.le_of_lt below)
      grind
    · by_cases same : base = first.1
      · rw [if_neg below, if_pos same]
        have apart := apart (same ▸ UInt64.le_refl _)
        grind
      · rw [if_neg below, if_neg same]
        grind

theorem spaced_enter {entries : List (UInt64 × PageId)}
    (spaced : entries.Pairwise fun one two => one.1.toNat + Limits.pageSize ≤ two.1.toNat)
    (room : ∀ entry ∈ entries, entry.1 = base ∨ entry.1.toNat + Limits.pageSize ≤ base.toNat ∨
      base.toNat + Limits.pageSize ≤ entry.1.toNat) :
    (enter base id entries).Pairwise fun one two => one.1.toNat + Limits.pageSize ≤ two.1.toNat := by
  induction entries with
  | nil => exact List.pairwise_singleton ..
  | cons first rest ih =>
    obtain ⟨behind, later⟩ := List.pairwise_cons.mp spaced
    have here := room first (List.mem_cons_self ..)
    unfold enter
    by_cases below : base < first.1
    · rw [if_pos below]
      have apart : base.toNat + Limits.pageSize ≤ first.1.toNat := by
        rw [UInt64.lt_iff_toNat_lt] at below
        rcases here with same | before | after
        · rw [same] at below
          exact absurd below (Nat.lt_irrefl _)
        · omega
        · exact after
      refine List.pairwise_cons.mpr ⟨fun entry listed => ?_, spaced⟩
      rcases List.mem_cons.mp listed with rfl | listed
      · exact apart
      · have next := behind entry listed
        dsimp only
        omega
    · by_cases same : base = first.1
      · rw [if_neg below, if_pos same]
        exact List.pairwise_cons.mpr ⟨fun entry listed => same ▸ behind entry listed, later⟩
      · rw [if_neg below, if_neg same]
        refine List.pairwise_cons.mpr ⟨fun entry listed => ?_, ih later fun entry listed =>
          room entry (List.mem_cons_of_mem _ listed)⟩
        -- Behind the first entry stand the new one, which is above it here, and old ones.
        rcases (mem_enter_iff (ascending_of_spaced later) base id entry).mp listed with rfl | ⟨old, -⟩
        · rw [UInt64.lt_iff_toNat_lt] at below
          rcases here with equal | before | after
          · exact absurd equal.symm same
          · exact before
          · dsimp only
            omega
        · exact behind entry old

theorem Charted.register (charted : memory.Charted limit) (size : (memory.page id).size = Limits.pageSize)
    (below : (memory.page id).base.toNat + Limits.pageSize ≤ limit)
    (room : ∀ entry ∈ memory.reachable, entry.1 = (memory.page id).base ∨
      entry.1.toNat + Limits.pageSize ≤ (memory.page id).base.toNat ∨
      (memory.page id).base.toNat + Limits.pageSize ≤ entry.1.toNat) :
    (memory.register id).Charted limit := by
  have among := mem_enter_iff (ascending_of_spaced charted.spaced) (memory.page id).base id
  refine ⟨spaced_enter charted.spaced room, ?_, ?_, ?_⟩
  · intro entry listed
    rcases (among entry).mp listed with rfl | ⟨old, -⟩
    · rfl
    · exact charted.base entry old
  · intro entry listed
    rcases (among entry).mp listed with rfl | ⟨old, -⟩
    · exact size
    · exact charted.size entry old
  · intro entry listed
    rcases (among entry).mp listed with rfl | ⟨old, -⟩
    · exact below
    · exact charted.below entry old

/-! ### Addresses -/

/-- Each entry stands under the base of its page, as a page is entered. -/
def Entered (memory : Memory) : Prop :=
  ∀ entry ∈ memory.reachable, (memory.page entry.2).base = entry.1

theorem Entered.resolved (entered : memory.Entered) (found : memory.resolve address = .ok (id, offset)) :
    0 < memory.handles id ∧ address.toNat = (memory.page id).base.toNat + offset ∧ offset < (memory.page id).size := by
  unfold resolve at found
  split at found
  · cases found
  · rename_i base page entry
    obtain ⟨listed, below⟩ := entryBelow_some entry
    dsimp only at found
    split at found
    case isFalse => cases found
    case isTrue answers =>
      cases found
      refine ⟨of_decide_eq_true answers.1, ?_, answers.2⟩
      rw [entered _ listed, UInt64.toNat_sub_of_le _ _ below]
      rw [UInt64.le_iff_toNat_le] at below
      dsimp only at below ⊢
      omega

theorem Entered.located (entered : memory.Entered) (found : memory.locate address length = .ok (id, offset)) :
    address.toNat = (memory.page id).base.toNat + offset ∧ offset + length ≤ (memory.page id).size := by
  unfold locate at found
  cases resolved : memory.resolve address with
  | error fault => simp only [resolved, reduceCtorEq] at found
  | ok place =>
    rw [resolved] at found
    dsimp only at found
    split at found
    case isTrue fits =>
      cases found
      exact ⟨(entered.resolved resolved).2.1, fits⟩
    case isFalse => cases found

/-- Where an access is made depends on the entries, the handles and the sizes, and on nothing that stands in a
page. -/
theorem locate_congr {after : Memory} (reachable : after.reachable = memory.reachable)
    (handles : ∀ id, after.handles id = memory.handles id)
    (size : ∀ id, (after.page id).size = (memory.page id).size) (address : UInt64) (length : Nat) :
    after.locate address length = memory.locate address length := by
  unfold locate resolve entryBelow isAlive
  simp only [reachable, handles, size]

/-- The address lies inside the page, whether or not the page is alive. -/
def Encloses (memory : Memory) (id : PageId) (address : UInt64) : Prop :=
  (memory.page id).base.toNat ≤ address.toNat ∧
    address.toNat < (memory.page id).base.toNat + (memory.page id).size

theorem Charted.entryBelow_eq (charted : memory.Charted limit) (reached : memory.Reaches id)
    (encloses : memory.Encloses id address) : memory.entryBelow address = some ((memory.page id).base, id) := by
  obtain ⟨begins, ends⟩ := encloses
  exact (charted.unshadowed reached).entryBelow_eq (Nat.add_sub_of_le begins).symm (by omega)

theorem Charted.encloses_unique (charted : memory.Charted limit) (one : memory.Reaches id)
    (two : memory.Reaches other) (first : memory.Encloses id address) (second : memory.Encloses other address) :
    other = id := by
  have same := (charted.entryBelow_eq two second).symm.trans (charted.entryBelow_eq one first)
  exact congrArg Prod.snd (Option.some.inj same)

/-- Handles matter to an access at the page that encloses its address, and nowhere else. -/
theorem Entered.locate_congr {after : Memory} (entered : memory.Entered)
    (reachable : after.reachable = memory.reachable)
    (size : ∀ id, memory.Reaches id → (after.page id).size = (memory.page id).size)
    (alive : ∀ id, memory.Reaches id → memory.Encloses id address → after.isAlive id = memory.isAlive id)
    (length : Nat) : after.locate address length = memory.locate address length := by
  have below : after.entryBelow address = memory.entryBelow address := by
    unfold entryBelow
    rw [reachable]
  unfold locate resolve
  rw [below]
  cases found : memory.entryBelow address with
  | none => rfl
  | some entry =>
    obtain ⟨base, id⟩ := entry
    obtain ⟨listed, least⟩ := entryBelow_some found
    dsimp only at least ⊢
    have same : (memory.page id).base = base := entered _ listed
    have reached : memory.Reaches id := by
      unfold Reaches
      rwa [same]
    have encloses (inside : (address - base).toNat < (memory.page id).size) : memory.Encloses id address := by
      rw [UInt64.toNat_sub_of_le _ _ least] at inside
      rw [UInt64.le_iff_toNat_le] at least
      unfold Encloses
      rw [same]
      omega
    rw [size id reached]
    by_cases answers : memory.isAlive id = true ∧ (address - base).toNat < (memory.page id).size
    · rw [alive id reached (encloses answers.2), if_pos answers]
      dsimp only
      rw [size id reached]
    · have silent : ¬ (after.isAlive id = true ∧ (address - base).toNat < (memory.page id).size) :=
        fun live => answers ⟨alive id reached (encloses live.2) ▸ live.1, live.2⟩
      rw [if_neg answers, if_neg silent]

namespace Mapped

/-- An address leads to a page exactly if the page is alive and around it. -/
theorem resolve_eq_ok_iff (mapped : memory.Mapped) :
    memory.resolve address = .ok (id, offset) ↔ memory.Holds address id offset := by
  constructor
  · intro resolved
    obtain ⟨alive, place, inside⟩ := Entered.resolved mapped.charted.base resolved
    rw [mapped.charted.size_of_reaches (mapped.entered id alive)] at inside
    exact ⟨alive, place, inside⟩
  · intro holds
    have reached := mapped.entered id holds.alive
    refine (mapped.charted.unshadowed reached).resolve_eq holds.alive holds.place ?_
    rw [mapped.charted.size_of_reaches reached]
    exact holds.inside

theorem holds_unique (mapped : memory.Mapped) {offset' : Nat} (one : memory.Holds address id offset)
    (two : memory.Holds address other offset') : other = id ∧ offset' = offset := by
  have same := (mapped.resolve_eq_ok_iff.mpr two).symm.trans (mapped.resolve_eq_ok_iff.mpr one)
  cases same
  exact ⟨rfl, rfl⟩

theorem apart (mapped : memory.Mapped) (one : 0 < memory.handles id) (two : 0 < memory.handles other)
    (different : id ≠ other) :
    (memory.page id).base.toNat + Limits.pageSize ≤ (memory.page other).base.toNat ∨
      (memory.page other).base.toNat + Limits.pageSize ≤ (memory.page id).base.toNat := by
  have first := (mapped.charted.unshadowed (mapped.entered id one)).alone _ (mapped.entered other two)
  have second := (mapped.charted.unshadowed (mapped.entered other two)).alone _ (mapped.entered id one)
  rw [mapped.charted.size_of_reaches (mapped.entered id one)] at first
  rw [mapped.charted.size_of_reaches (mapped.entered other two)] at second
  rw [UInt64.le_iff_toNat_le] at first second
  dsimp only at first second
  have bases : (memory.page id).base ≠ (memory.page other).base := by
    intro same
    have here : memory.Holds (memory.page id).base id 0 := ⟨one, rfl, by decide⟩
    have there : memory.Holds (memory.page id).base other 0 := ⟨two, by rw [same]; rfl, by decide⟩
    exact different (mapped.holds_unique there here).1
  rw [Ne, ← UInt64.toNat_inj] at bases
  omega

end Mapped

theorem resolve_eq_error (missing : ∀ id offset, memory.resolve address ≠ .ok (id, offset)) :
    memory.resolve address = .error (.unmapped address) := by
  unfold resolve at missing ⊢
  split
  · rfl
  · rename_i base id entry
    simp only [entry] at missing ⊢
    split
    case isTrue answers =>
      have found := missing id (address - base).toNat
      rw [if_pos answers] at found
      exact absurd rfl found
    case isFalse => rfl

namespace Mapped

theorem resolve_eq_unmapped (mapped : memory.Mapped) (nowhere : ∀ id offset, ¬ memory.Holds address id offset) :
    memory.resolve address = .error (.unmapped address) :=
  resolve_eq_error fun id offset found => nowhere id offset (mapped.resolve_eq_ok_iff.mp found)

theorem locate_eq (mapped : memory.Mapped) (holds : memory.Holds address id offset) :
    memory.locate address length =
      if offset + length ≤ Limits.pageSize then .ok (id, offset) else .error (.crossesPage address length) := by
  unfold locate
  rw [mapped.resolve_eq_ok_iff.mpr holds]
  dsimp only
  rw [mapped.charted.size_of_reaches (mapped.entered id holds.alive)]

theorem locate_eq_unmapped (mapped : memory.Mapped) (nowhere : ∀ id offset, ¬ memory.Holds address id offset)
    (length : Nat) : memory.locate address length = .error (.unmapped address) := by
  unfold locate
  rw [mapped.resolve_eq_unmapped nowhere]

theorem locate_eq_ok_iff (mapped : memory.Mapped) :
    memory.locate address length = .ok (id, offset) ↔
      memory.Holds address id offset ∧ offset + length ≤ Limits.pageSize := by
  constructor
  · intro located
    unfold locate at located
    cases found : memory.resolve address with
    | error fault => simp only [found, reduceCtorEq] at located
    | ok place =>
      have holds := mapped.resolve_eq_ok_iff.mp found
      rw [found] at located
      dsimp only at located
      rw [mapped.charted.size_of_reaches (mapped.entered _ holds.alive)] at located
      split at located
      case isTrue fits =>
        cases located
        exact ⟨holds, fits⟩
      case isFalse => cases located
  · rintro ⟨holds, fits⟩
    rw [mapped.locate_eq holds, if_pos fits]

/-- Memory stays mapped as long as no page is entered, moved, or brought back to life. -/
theorem of_changes {scope : PageId → Prop} {after : Memory} (mapped : memory.Mapped)
    (changes : memory.ChangesWithin scope after) (same : after.reachable = memory.reachable)
    (alive : ∀ id, 0 < after.handles id → 0 < memory.handles id) : after.Mapped where
  charted := mapped.charted.of_changes changes same
  entered id lives :=
    changes.reaches (knows_of_handles (alive id lives)) (mapped.entered id (alive id lives))

end Mapped

end PacketPath.Memory
