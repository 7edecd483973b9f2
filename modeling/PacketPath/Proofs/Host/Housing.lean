import PacketPath.Host.Board
import PacketPath.Proofs.Step
import PacketPath.Proofs.Memory.Accounts

/-! Housing: the pages of a board lie apart below the address of its next page, and every handle has
an owner. A new page keeps that, and the device finds it from the start. -/

set_option autoImplicit false

namespace PacketPath

/-- The reachable pages lie below the next one, and the handles are those of the owners. -/
structure Housed (owners : List PageId) (board : Board) (memory : Memory) : Prop where
  charted : memory.Charted board.nextBase.toNat
  accounts : memory.Accounts owners

namespace Housed

variable {owners others : List PageId} {board : Board} {memory after : Memory} {id : PageId}

theorem perm (housed : Housed owners board memory) (same : owners.Perm others) : Housed others board memory :=
  { housed with accounts := housed.accounts.perm same }

theorem congr (housed : Housed owners board memory) (same : ∀ id, others.count id = owners.count id) :
    Housed others board memory :=
  { housed with accounts := housed.accounts.congr same }

theorem alive (housed : Housed owners board memory) (listed : id ∈ owners) : 0 < memory.handles id :=
  housed.accounts.alive listed

theorem of_changes {scope : PageId → Prop} (housed : Housed owners board memory)
    (changes : memory.ChangesWithin scope after) (reachable : after.reachable = memory.reachable)
    (handles : ∀ id, after.handles id = memory.handles id) : Housed owners board after where
  charted := housed.charted.of_changes changes reachable
  accounts id := (handles id).trans (housed.accounts id)

theorem retain (housed : Housed owners board memory) (known : memory.Knows id) :
    Housed (id :: owners) board (memory.retain id) where
  charted := housed.charted.of_changes (Memory.changes_retain (fun _ => False) known) rfl
  accounts := housed.accounts.retain known

theorem release (housed : Housed (id :: owners) board memory) : Housed owners board (memory.release id) where
  charted := housed.charted.of_changes (Memory.changes_release (fun _ => False) memory id) rfl
  accounts := housed.accounts.release

theorem retainAll (housed : Housed owners board memory) {ids : List PageId}
    (known : ∀ id ∈ ids, memory.Knows id) : Housed (ids ++ owners) board (memory.retainAll ids) where
  charted := housed.charted.of_changes (Memory.changes_retainAll (fun _ => False) known)
    (Memory.reachable_retainAll ..)
  accounts := housed.accounts.retainAll known

theorem releaseAll {ids : List PageId} (housed : Housed (ids ++ owners) board memory) :
    Housed owners board (memory.releaseAll ids) where
  charted := housed.charted.of_changes (Memory.changes_releaseAll (fun _ => False) memory ids)
    (Memory.reachable_releaseAll ..)
  accounts := housed.accounts.releaseAll

theorem adopt (housed : Housed owners board memory) (base : UInt64) (bytes : Array UInt8) :
    Housed (⟨memory.pages.size⟩ :: owners) board (memory.adopt base bytes).2 where
  charted := housed.charted.of_changes (Memory.changes_adopt (fun _ => False) memory base bytes) rfl
  accounts := housed.accounts.adopt base bytes

end Housed

theorem Memory.changes_register (scope : PageId → Prop) (memory : Memory) (id : PageId)
    (fresh : ∀ entry ∈ memory.reachable, entry.1.toNat < (memory.page id).base.toNat) :
    memory.ChangesWithin scope (memory.register id) where
  reachable entry listed := by
    unfold register
    dsimp only
    rw [enter_eq_append fresh]
    exact List.mem_append_left _ listed
  knows _ known := known
  base _ _ := rfl
  size _ _ := rfl
  bytes _ _ _ := rfl

namespace Board

variable {δ : Type} {owners : List PageId} {board : Board} {machine : Machine δ}

def grown (board : Board) (memory : Memory) : Memory :=
  (memory.adopt board.nextBase (Array.replicate Limits.pageSize 0)).2.register ⟨memory.pages.size⟩

theorem page_grown (board : Board) (memory : Memory) :
    (board.grown memory).page ⟨memory.pages.size⟩ = ⟨board.nextBase, Array.replicate Limits.pageSize 0, 1⟩ := by
  unfold grown
  rw [Memory.page_register, Memory.page_adopt, if_pos rfl]

theorem reachable_grown {memory : Memory} (charted : memory.Charted board.nextBase.toNat) :
    (board.grown memory).reachable = memory.reachable ++ [(board.nextBase, ⟨memory.pages.size⟩)] := by
  have base : ((memory.adopt board.nextBase (Array.replicate Limits.pageSize 0)).2.page
      ⟨memory.pages.size⟩).base = board.nextBase := by
    rw [Memory.page_adopt, if_pos rfl]
  unfold grown Memory.register
  dsimp only
  rw [base]
  apply Memory.enter_eq_append
  intro entry listed
  have below := charted.below entry listed
  unfold Limits.pageSize at below
  omega

theorem changes_grown {memory : Memory} (scope : PageId → Prop)
    (charted : memory.Charted board.nextBase.toNat) : memory.ChangesWithin scope (board.grown memory) := by
  refine (Memory.changes_adopt scope memory board.nextBase (Array.replicate Limits.pageSize 0)).trans ?_
  apply Memory.changes_register
  intro entry listed
  have below := charted.below entry listed
  rw [Memory.page_adopt, if_pos rfl]
  unfold Limits.pageSize at below
  dsimp only
  omega

theorem charted_grown {memory : Memory} (charted : memory.Charted board.nextBase.toNat) {nextBase : UInt64}
    (advanced : nextBase.toNat = board.nextBase.toNat + Limits.pageSize) :
    (board.grown memory).Charted nextBase.toNat := by
  have changes := changes_grown (fun _ => False) charted
  have fresh := page_grown board memory
  -- The new page is the last one in the chart, right below the next base.
  have split (entry : UInt64 × PageId) (listed : entry ∈ (board.grown memory).reachable) :
      entry ∈ memory.reachable ∨ entry = (board.nextBase, ⟨memory.pages.size⟩) := by
    rwa [reachable_grown charted, List.mem_append, List.mem_singleton] at listed
  refine ⟨?_, ?_, ?_, ?_⟩
  · rw [reachable_grown charted, List.pairwise_append]
    refine ⟨charted.spaced, List.pairwise_singleton .., ?_⟩
    intro entry listed last same
    rw [List.mem_singleton.mp same]
    exact charted.below entry listed
  · intro entry listed
    rcases split entry listed with old | rfl
    · rw [changes.base _ (charted.knows old), charted.base entry old]
    · rw [fresh]
  · intro entry listed
    rcases split entry listed with old | rfl
    · rw [changes.size _ (charted.knows old), charted.size entry old]
    · rw [fresh]
      simp [Page.size]
  · intro entry listed
    rcases split entry listed with old | rfl
    · have below := charted.below entry old
      omega
    · dsimp only
      omega

structure HandsOut (owners : List PageId) (before : Board × Machine δ) (page : PageId)
    (after : Board × Machine δ) : Prop where
  housed : Housed (page :: owners) after.1 after.2.memory
  fresh : ¬ before.2.memory.Knows page
  reached : after.2.memory.Reaches page
  changes : before.2.memory.ChangesWithin (fun _ => False) after.2.memory
  device : after.2.device = before.2.device

theorem handsOut_grown (housed : Housed owners board machine.memory) {nextBase : UInt64}
    (advanced : nextBase.toNat = board.nextBase.toNat + Limits.pageSize) :
    HandsOut owners (board, machine) ⟨machine.memory.pages.size⟩
      ({ board with nextBase := nextBase, allocated := board.allocated + 1 },
        { machine with memory := board.grown machine.memory }) where
  housed :=
    { charted := charted_grown housed.charted advanced
      accounts := fun id => housed.accounts.adopt board.nextBase (Array.replicate Limits.pageSize 0) id }
  fresh := Nat.lt_irrefl _
  reached := by
    unfold Memory.Reaches
    rw [page_grown, reachable_grown housed.charted]
    exact List.mem_append_right _ (List.mem_singleton.mpr rfl)
  changes := changes_grown _ housed.charted
  device := rfl

/-- A page is refused when the budget is spent, and otherwise handed out. One that would end past the last address
is made all the same, and given back at once. -/
theorem allocate_cases (board : Board) (machine : Machine δ) :
    (∃ limit, board.limit = some limit ∧ limit ≤ board.allocated ∧
      allocate (board, machine) = .error (.refused (.outOfPages limit)) (board, machine)) ∨
    (∃ nextBase : UInt64, nextBase.toNat = board.nextBase.toNat + Limits.pageSize ∧
      allocate (board, machine) = .ok ⟨machine.memory.pages.size⟩
        ({ board with nextBase := nextBase, allocated := board.allocated + 1 },
          { machine with memory := board.grown machine.memory })) ∨
    2 ^ 64 ≤ board.nextBase.toNat + Limits.pageSize ∧
      allocate (board, machine) = .error (.violated (.addressOverflow board.nextBase.toNat Limits.pageSize))
        (board, { machine with memory := (board.grown machine.memory).release ⟨machine.memory.pages.size⟩ }) := by
  have made : machine.memory.allocate board.nextBase Limits.pageSize =
      some (machine.memory.adopt board.nextBase (Array.replicate Limits.pageSize 0)) := if_neg (by decide)
  cases spent : board.limit.filter fun limit => limit ≤ board.allocated with
  | some limit =>
    left
    obtain ⟨limited, reached⟩ := Option.filter_eq_some_iff.mp spent
    exact ⟨limit, limited, of_decide_eq_true reached, by simp only [allocate, spent]⟩
  | none =>
    right
    cases advanced : Address.advance board.nextBase Limits.pageSize with
    | ok nextBase =>
      left
      refine ⟨nextBase, Address.advance_eq_ok_iff.mp advanced, ?_⟩
      simp only [allocate, spent, made, advanced, grown, Memory.adopt]
    | error violation =>
      right
      obtain ⟨past, rfl⟩ := Address.advance_eq_error_iff.mp advanced
      refine ⟨past, ?_⟩
      simp only [allocate, spent, made, advanced, grown, Memory.adopt]

def HasRoom (board : Board) (count : Nat) : Prop :=
  (∀ limit, board.limit = some limit → board.allocated + count ≤ limit) ∧
    board.nextBase.toNat + count * Limits.pageSize < 2 ^ 64

theorem HasRoom.mono {less more : Nat} (room : board.HasRoom more) (fewer : less ≤ more) : board.HasRoom less := by
  unfold HasRoom Limits.pageSize at room ⊢
  refine ⟨fun limit limited => ?_, by omega⟩
  have inside := room.1 limit limited
  omega

theorem allocate_room (housed : Housed owners board machine.memory) :
    allocate.Ends (board, machine)
      (fun page after => HandsOut owners (board, machine) page after ∧
        ∀ count, board.HasRoom (count + 1) → after.1.HasRoom count)
      (fun _ _ => ¬ board.HasRoom 1) := by
  unfold HasRoom Limits.pageSize
  obtain ⟨limit, limited, spent, refused⟩ | ⟨nextBase, advanced, given⟩ | ⟨past, spoiled⟩ :=
    allocate_cases board machine
  · rw [Step.ends_of_error refused]
    intro room
    have inside := room.1 limit limited
    omega
  · rw [Step.ends_of_ok given]
    refine ⟨handsOut_grown housed advanced, fun count spare => ⟨fun limit limited => ?_, ?_⟩⟩
    · have inside := spare.1 limit limited
      dsimp only
      omega
    · have room := spare.2
      unfold Limits.pageSize at advanced
      dsimp only
      omega
  · rw [Step.ends_of_error spoiled]
    intro room
    have below := room.2
    unfold Limits.pageSize at past
    omega

end Board

end PacketPath
