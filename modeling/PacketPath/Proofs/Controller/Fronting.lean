import PacketPath.Proofs.Controller.Attached
import PacketPath.Proofs.Memory.Growth

/-! Platforms in front of the emulated device. Their calls may fail in any way of their own; what they hand
out are fresh pages of zeros, and they touch neither the device nor what is in memory. -/

set_option autoImplicit false

namespace PacketPath

variable {π : Type} {owners held : List PageId} {page : PageId} {before middle after : Machine Emulator}
  {stop : Stop String}

structure Machine.Spared (before after : Machine Emulator) : Prop where
  grows : before.memory.Grows (fun _ => False) after.memory
  handles : ∀ id, after.memory.handles id = before.memory.handles id
  device : after.device = before.device

structure Machine.Granted (before : Machine Emulator) (page : PageId) (after : Machine Emulator) : Prop where
  grows : before.memory.Grows (fun _ => False) after.memory
  fresh : ¬ before.memory.Knows page
  zeroed : (after.memory.page page).bytes = Array.replicate Limits.pageSize 0
  handles : ∀ id, after.memory.handles id = before.memory.handles id + if id = page then 1 else 0
  device : after.device = before.device

namespace Machine

theorem Spared.of_pages (pages : after.memory.pages = before.memory.pages) (device : after.device = before.device) :
    before.Spared after where
  grows := .of_pages pages
  handles id := by
    unfold Memory.handles Memory.page
    rw [pages]
  device := device

theorem Spared.trans (first : before.Spared middle) (second : middle.Spared after) : before.Spared after where
  grows := first.grows.trans second.grows
  handles id := (second.handles id).trans (first.handles id)
  device := second.device.trans first.device

theorem Spared.accounts (spared : before.Spared after) (accounts : before.memory.Accounts owners) :
    after.memory.Accounts owners :=
  fun id => (spared.handles id).trans (accounts id)

namespace Granted

theorem accounts (granted : before.Granted page after) (accounts : before.memory.Accounts owners) :
    after.memory.Accounts (page :: owners) := by
  intro id
  rw [granted.handles, accounts id, List.count_cons]
  by_cases same : id = page
  · rw [if_pos same, if_pos (beq_iff_eq.mpr same.symm)]
  · rw [if_neg same, if_neg (fun equal => same (beq_iff_eq.mp equal).symm)]

theorem size (granted : before.Granted page after) : (after.memory.page page).size = Limits.pageSize := by
  unfold Page.size
  rw [granted.zeroed, Array.size_replicate]

theorem knows (granted : before.Granted page after) : after.memory.Knows page := by
  apply Memory.knows_of_size
  rw [granted.size]
  decide

theorem release (granted : before.Granted page middle) (spared : middle.Spared after) :
    before.Spared { after with memory := after.memory.release page } where
  grows := (granted.grows.trans spared.grows).trans (Memory.changes_release _ _ page).grows
  handles id := by
    dsimp only
    rw [Memory.handles, Memory.page_release]
    dsimp only
    rw [spared.handles, granted.handles]
    split <;> omega
  device := spared.device.trans granted.device

end Granted

end Machine

structure Platform.Fails (before : Machine Emulator) (stop : Stop String) (after : Machine Emulator) : Prop where
  own : ∀ offset size, stop ≠ .violated (.windowAccess offset size)
  spared : before.Spared after

theorem Platform.Fails.map_ne {stage : AttachStage} (fails : Fails before stop after) (offset size : Nat) :
    stop.map (AttachError.platform stage) ≠ .violated (.windowAccess offset size) := by
  intro same
  cases stop with
  | violated violation =>
    cases same
    exact fails.own offset size rfl
  | refused | unfinished => cases same

/-- A platform in front of the emulated device. Any of its calls may fail. -/
structure Platform.Fronts (platform : Platform π Emulator) : Prop where
  enable : ∀ pci state, (platform.enable pci).Ends state (fun _ after => state.2.Spared after.2)
    (fun stop after => Fails state.2 stop after.2)
  map : ∀ base size state, (platform.map base size).Ends state (fun _ after => state.2.Spared after.2)
    (fun stop after => Fails state.2 stop after.2)
  allocate : ∀ state, platform.allocate.Ends state (fun page after => state.2.Granted page after.2)
    (fun stop after => Fails state.2 stop after.2)
  route : ∀ line state, (platform.route line).Ends state (fun _ after => state.2.Spared after.2)
    (fun stop after => Fails state.2 stop after.2)

/-! ### Pools -/

namespace Controller

structure Stocked (count : Nat) (before : Machine Emulator) (pool : List PageId) (after : Machine Emulator) : Prop where
  length : pool.length = count
  grows : before.memory.Grows (fun _ => False) after.memory
  fresh : ∀ id ∈ pool, ¬ before.memory.Knows id
  zeroed : ∀ id ∈ pool, (after.memory.page id).bytes = Array.replicate Limits.pageSize 0
  apart : pool.Nodup
  accounts : ∀ owners, before.memory.Accounts owners → after.memory.Accounts (pool ++ owners)
  device : after.device = before.device

theorem Stocked.knows {count : Nat} {pool : List PageId} (stocked : Stocked count before pool after)
    (listed : page ∈ pool) : after.memory.Knows page := by
  apply Memory.knows_of_size
  unfold Page.size
  rw [stocked.zeroed page listed, Array.size_replicate]
  decide

theorem allocatePool_fronts {platform : Platform π Emulator} (fronts : platform.Fronts) (count : Nat)
    (state : π × Machine Emulator) :
    (allocatePool platform count).Ends state (fun pool after => Stocked count state.2 pool after.2)
      (fun stop after => ∃ own, stop = own.map (.platform .receiveBuffer) ∧ Platform.Fails state.2 own after.2) := by
  induction count generalizing state with
  | zero => exact ⟨rfl, .refl _ _, nofun, nofun, List.nodup_nil, fun _ => id, rfl⟩
  | succ count ih =>
    unfold allocatePool atStage keeping
    rw [Step.ends_bind, Step.ends_mapRefusal]
    refine (fronts.allocate state).mono ?_ (fun stop after fails => ⟨stop, rfl, fails⟩)
    rintro page given granted
    rw [Step.ends_thenIfStopped, Step.ends_bind]
    refine (ih given).mono ?_ ?_
    · intro pool after rest
      -- The page was known before the others were allocated, so it is none of them.
      have old : page ∉ pool := fun listed => rest.fresh page listed granted.knows
      rw [Step.ends_pure]
      exact
        { length := congrArg (· + 1) rest.length
          grows := granted.grows.trans rest.grows
          fresh := by
            intro id listed
            rcases List.mem_cons.mp listed with rfl | pooled
            · exact granted.fresh
            · exact fun before => rest.fresh id pooled (granted.grows.knows id before)
          zeroed := by
            intro id listed
            rcases List.mem_cons.mp listed with rfl | pooled
            · rw [rest.grows.bytes _ granted.knows not_false, granted.zeroed]
            · exact rest.zeroed id pooled
          apart := List.nodup_cons.mpr ⟨old, rest.apart⟩
          accounts := fun owners accounts =>
            (rest.accounts _ (granted.accounts accounts)).perm List.perm_middle
          device := rest.device.trans granted.device }
    · rintro _ after ⟨own, rfl, fails⟩
      exact ⟨own, rfl, fails.own, granted.release fails.spared⟩

end Controller

/-! ### The board -/

theorem Board.granted_grown (board : Board) (machine : Machine Emulator) :
    machine.Granted ⟨machine.memory.pages.size⟩ { machine with memory := board.grown machine.memory } where
  grows := by
    have adopted := Memory.changes_adopt (fun _ => False) machine.memory board.nextBase
      (Array.replicate Limits.pageSize 0)
    exact adopted.grows.trans (.of_pages rfl)
  fresh := Nat.lt_irrefl _
  zeroed := by
    dsimp only
    rw [page_grown]
  handles := by
    intro id
    change Page.handles (((machine.memory.adopt _ _).2).page id) = _
    rw [Memory.page_adopt]
    by_cases same : id = ⟨machine.memory.pages.size⟩
    · have unknown : ¬ machine.memory.Knows id := same ▸ Nat.lt_irrefl _
      rw [if_pos same, if_pos same, Memory.handles, Memory.page_of_not_knows unknown]
      rfl
    · rw [if_neg same, if_neg same]
      rfl
  device := rfl

/-- Whatever a board has been through, it is a platform in front of its device. -/
theorem Board.platform_fronts : Board.platform.Fronts where
  enable pci state := .of_pages rfl rfl
  route line state := .of_pages rfl rfl
  map base size state := by
    unfold platform map
    simp only [Step.ends_mapRefusal, Step.ends_ite, Step.ends_refuse, Step.ends_pure]
    exact ⟨fun _ => ⟨by rintro _ _ ⟨⟩, .of_pages rfl rfl⟩, fun _ => .of_pages rfl rfl⟩
  allocate state := by
    obtain ⟨board, machine⟩ := state
    have granted := granted_grown board machine
    unfold platform
    rw [Step.ends_mapRefusal]
    obtain ⟨limit, -, -, refused⟩ | ⟨nextBase, -, given⟩ | ⟨-, spoiled⟩ := allocate_cases board machine
    · rw [Step.ends_of_error refused]
      exact ⟨by rintro _ _ ⟨⟩, .of_pages rfl rfl⟩
    · rw [Step.ends_of_ok given]
      exact granted
    · -- The page was made before its end was found to lie past the last address.
      rw [Step.ends_of_error spoiled]
      exact ⟨by rintro _ _ ⟨⟩, granted.release (.of_pages rfl rfl)⟩

end PacketPath
