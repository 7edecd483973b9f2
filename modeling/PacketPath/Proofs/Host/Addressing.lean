import PacketPath.Proofs.Host.Housing
import PacketPath.Proofs.Machine
import PacketPath.Proofs.Memory.Lookup

/-! Addressing. Whatever pages a board has handed out and whoever still keeps them, an address leads the device
to the one live page around it, and what the device reads there is what was written there last. -/

set_option autoImplicit false

namespace PacketPath

/-! ### What was written -/

/-- What was written, each piece with the address of its first byte, the last one first. -/
abbrev WriteLog : Type :=
  List (Nat × List UInt8)

namespace WriteLog

def byteAt : (log : WriteLog) → (address : Nat) → UInt8
  | [], _ => 0
  | (place, data) :: earlier, address =>
    if place ≤ address ∧ address < place + data.length then data.getD (address - place) 0
    else byteAt earlier address

def span (log : WriteLog) (address length : Nat) : List UInt8 :=
  (List.range length).map fun i => log.byteAt (address + i)

theorem byteAt_eq_zero {log : WriteLog} {address : Nat}
    (untouched : ∀ entry ∈ log, entry.1 + entry.2.length ≤ address) : log.byteAt address = 0 := by
  induction log with
  | nil => rfl
  | cons entry earlier ih =>
    have before := untouched entry (List.mem_cons_self ..)
    rw [byteAt, if_neg (by omega), ih fun other listed => untouched other (List.mem_cons_of_mem _ listed)]

end WriteLog

/-! ### Histories -/

/-- What is done with the memory of a board: pages are handed out, handles come and go, and bytes are read and
written, through a handle or by the device. -/
inductive MemoryUse where
  | allocate
  | retain (id : PageId)
  | release (id : PageId)
  | write (id : PageId) (offset : Nat) (data : List UInt8)
  | fetch (address : UInt64) (length : Nat)
  | deposit (address : UInt64) (data : List UInt8)

structure Chronicle (δ : Type) where
  board : Board
  machine : Machine δ
  written : WriteLog := []

namespace Chronicle

variable {δ : Type}

def start (limit : Option Nat) (device : δ) : Chronicle δ where
  board := .create limit
  machine := { memory := .empty, device := device }

/-- Handles are taken, given back and written through by those who hold one. What fails is not written down. -/
def perform (now : Chronicle δ) : MemoryUse → Chronicle δ
  | .allocate =>
    let (board, machine) := Board.allocate.after (now.board, now.machine)
    { now with board := board, machine := machine }
  | .retain id =>
    if 0 < now.machine.memory.handles id then
      { now with machine := { now.machine with memory := now.machine.memory.retain id } }
    else now
  | .release id =>
    if 0 < now.machine.memory.handles id then
      { now with machine := { now.machine with memory := now.machine.memory.release id } }
    else now
  | .write id offset data =>
    if 0 < now.machine.memory.handles id then
      match (Machine.writeBytes id offset data : Step HostError (Machine δ) Unit) now.machine with
      | .ok _ machine =>
        { now with
          machine := machine
          written := ((now.machine.memory.page id).base.toNat + offset, data) :: now.written }
      | .error _ machine => { now with machine := machine }
    else now
  | .fetch address length => { now with machine := (Machine.fetch address length).after now.machine }
  | .deposit address data =>
    match Machine.deposit address data now.machine with
    | .ok _ machine => { now with machine := machine, written := (address.toNat, data) :: now.written }
    | .error _ machine => { now with machine := machine }

def run (first : Chronicle δ) (uses : List MemoryUse) : Chronicle δ :=
  uses.foldl perform first

/-! ### What holds throughout -/

/-- Live pages are entered below the next one, and hold what was written to them. Only a page that was given back
at once may stand where the next one goes. -/
structure Sound (now : Chronicle δ) : Prop where
  mapped : now.machine.memory.Mapped
  aligned : Limits.pageSize ∣ now.board.nextBase.toNat
  entries : ∀ entry ∈ now.machine.memory.reachable,
    entry.1.toNat + Limits.pageSize ≤ now.board.nextBase.toNat ∨
      entry.1 = now.board.nextBase ∧ now.machine.memory.handles entry.2 = 0
  written : ∀ entry ∈ now.written, entry.1 + entry.2.length ≤ now.board.nextBase.toNat
  bytes : ∀ id, 0 < now.machine.memory.handles id → ∀ i < Limits.pageSize,
    (now.machine.memory.page id).bytes[i]? =
      some (now.written.byteAt ((now.machine.memory.page id).base.toNat + i))

end Chronicle

namespace Board

theorem ne_fresh {memory : Memory} {id : PageId} (alive : 0 < memory.handles id) : id ≠ ⟨memory.pages.size⟩ := by
  rintro rfl
  exact Nat.lt_irrefl _ (Memory.knows_of_handles alive)

theorem page_grown_of_ne {board : Board} {memory : Memory} {id : PageId} (older : id ≠ ⟨memory.pages.size⟩) :
    (board.grown memory).page id = memory.page id := by
  unfold grown
  rw [Memory.page_register, Memory.page_adopt, if_neg older]

end Board

namespace Chronicle

variable {δ : Type} {now : Chronicle δ} {id : PageId}

namespace Sound

theorem below (sound : now.Sound) (alive : 0 < now.machine.memory.handles id) :
    (now.machine.memory.page id).base.toNat + Limits.pageSize ≤ now.board.nextBase.toNat := by
  rcases sound.entries _ (sound.mapped.entered id alive) with early | ⟨-, dead⟩
  · exact early
  · exact absurd dead (Nat.ne_of_gt alive)

theorem room (sound : now.Sound) : now.board.nextBase.toNat + Limits.pageSize ≤ 2 ^ 64 := by
  have bound := now.board.nextBase.toNat_lt
  obtain ⟨count, aligned⟩ := sound.aligned
  unfold Limits.pageSize at aligned ⊢
  omega

theorem reachable_grown (sound : now.Sound) (entry : UInt64 × PageId) :
    entry ∈ (now.board.grown now.machine.memory).reachable ↔
      entry = (now.board.nextBase, ⟨now.machine.memory.pages.size⟩) ∨
        entry ∈ now.machine.memory.reachable ∧ entry.1.toNat + Limits.pageSize ≤ now.board.nextBase.toNat := by
  have among := Memory.mem_enter_iff (Memory.ascending_of_spaced sound.mapped.charted.spaced) now.board.nextBase
    ⟨now.machine.memory.pages.size⟩ entry
  have base : ((now.machine.memory.adopt now.board.nextBase (Array.replicate Limits.pageSize 0)).2.page
      ⟨now.machine.memory.pages.size⟩).base = now.board.nextBase := by
    rw [Memory.page_adopt, if_pos rfl]
  unfold Board.grown Memory.register
  dsimp only
  rw [base]
  refine among.trans (or_congr_right (and_congr_right fun listed => ?_))
  constructor
  · intro apart
    rcases sound.entries entry listed with early | ⟨same, -⟩
    · exact early
    · exact absurd same apart
  · rintro early same
    rw [same] at early
    unfold Limits.pageSize at early
    omega

theorem charted_grown (sound : now.Sound) : (now.board.grown now.machine.memory).Charted (2 ^ 64) := by
  have charted := sound.mapped.charted.of_changes (Memory.changes_adopt (fun _ => False) now.machine.memory
    now.board.nextBase (Array.replicate Limits.pageSize 0)) rfl
  have page : (now.machine.memory.adopt now.board.nextBase (Array.replicate Limits.pageSize 0)).2.page
      ⟨now.machine.memory.pages.size⟩ = ⟨now.board.nextBase, Array.replicate Limits.pageSize 0, 1⟩ := by
    rw [Memory.page_adopt, if_pos rfl]
  refine charted.register ?_ ?_ ?_
  · rw [page]
    simp [Page.size]
  · rw [page]
    exact sound.room
  · rw [page]
    intro entry listed
    rcases sound.entries entry listed with early | ⟨same, -⟩
    · exact .inr (.inl early)
    · exact .inl same

theorem reaches_grown (sound : now.Sound) (alive : 0 < now.machine.memory.handles id) :
    (now.board.grown now.machine.memory).Reaches id := by
  unfold Memory.Reaches
  rw [Board.page_grown_of_ne (Board.ne_fresh alive), sound.reachable_grown]
  exact .inr ⟨sound.mapped.entered id alive, sound.below alive⟩

/-! ### One use -/

theorem allocated (sound : now.Sound) {nextBase : UInt64}
    (advanced : nextBase.toNat = now.board.nextBase.toNat + Limits.pageSize) :
    Sound { now with
      board := { now.board with nextBase := nextBase, allocated := now.board.allocated + 1 }
      machine := { now.machine with memory := now.board.grown now.machine.memory } } where
  mapped :=
    { charted := sound.charted_grown
      entered := by
        intro id alive
        by_cases new : id = ⟨now.machine.memory.pages.size⟩
        · subst new
          unfold Memory.Reaches
          rw [Board.page_grown, sound.reachable_grown]
          exact .inl rfl
        · unfold Memory.handles at alive
          rw [Board.page_grown_of_ne new] at alive
          exact sound.reaches_grown alive }
  aligned := by
    dsimp only
    rw [advanced]
    exact Nat.dvd_add sound.aligned (Nat.dvd_refl _)
  entries := by
    intro entry listed
    left
    rcases (sound.reachable_grown entry).mp listed with rfl | ⟨-, early⟩
    · exact Nat.le_of_eq advanced.symm
    · dsimp only
      omega
  written := by
    intro entry listed
    have early := sound.written entry listed
    dsimp only
    omega
  bytes := by
    intro id alive i inside
    dsimp only at alive ⊢
    by_cases new : id = ⟨now.machine.memory.pages.size⟩
    · subst new
      have fresh : now.written.byteAt (now.board.nextBase.toNat + i) = 0 := by
        apply WriteLog.byteAt_eq_zero
        intro entry listed
        have early := sound.written entry listed
        omega
      rw [Board.page_grown, fresh, Array.getElem?_replicate, if_pos inside]
    · unfold Memory.handles at alive
      rw [Board.page_grown_of_ne new] at alive ⊢
      exact sound.bytes id alive i inside

theorem unallocated (sound : now.Sound) :
    Sound { now with
      machine := { now.machine with
        memory := (now.board.grown now.machine.memory).release ⟨now.machine.memory.pages.size⟩ } } := by
  have gone : ((now.board.grown now.machine.memory).release ⟨now.machine.memory.pages.size⟩).handles
      ⟨now.machine.memory.pages.size⟩ = 0 := by
    rw [Memory.handles, Memory.page_release, if_pos rfl, Memory.handles, Board.page_grown]
    rfl
  have page {id : PageId} (older : id ≠ ⟨now.machine.memory.pages.size⟩) :
      ((now.board.grown now.machine.memory).release ⟨now.machine.memory.pages.size⟩).page id =
        now.machine.memory.page id := by
    rw [Memory.page_release, if_neg older, Nat.sub_zero, Memory.handles, Board.page_grown_of_ne older]
  have alive {id : PageId} (lives : 0 < ((now.board.grown now.machine.memory).release
      ⟨now.machine.memory.pages.size⟩).handles id) :
      id ≠ ⟨now.machine.memory.pages.size⟩ ∧ 0 < now.machine.memory.handles id := by
    have older : id ≠ ⟨now.machine.memory.pages.size⟩ := by
      rintro rfl
      rw [gone] at lives
      exact Nat.lt_irrefl _ lives
    unfold Memory.handles at lives ⊢
    rw [page older] at lives
    exact ⟨older, lives⟩
  refine ⟨⟨?_, ?_⟩, sound.aligned, ?_, sound.written, ?_⟩
  · exact sound.charted_grown.of_changes (Memory.changes_release (fun _ => False) _ _) rfl
  · intro id lives
    obtain ⟨older, lives⟩ := alive lives
    have reached := sound.reaches_grown lives
    unfold Memory.Reaches at reached ⊢
    rw [Board.page_grown_of_ne older] at reached
    dsimp only
    rw [page older]
    exact reached
  · intro entry listed
    rcases (sound.reachable_grown entry).mp listed with rfl | ⟨-, early⟩
    · exact .inr ⟨rfl, gone⟩
    · exact .inl early
  · intro id lives i inside
    obtain ⟨older, lives⟩ := alive lives
    dsimp only
    rw [page older]
    exact sound.bytes id lives i inside

/-- Handles may come and go, as long as nobody takes one to a page that is gone. -/
theorem counted {after : Memory} (sound : now.Sound)
    (changes : now.machine.memory.ChangesWithin (fun _ => False) after)
    (reachable : after.reachable = now.machine.memory.reachable)
    (alive : ∀ id, 0 < after.handles id → 0 < now.machine.memory.handles id) :
    Sound { now with machine := { now.machine with memory := after } } where
  mapped := sound.mapped.of_changes changes reachable alive
  aligned := sound.aligned
  entries entry listed := by
    dsimp only at listed ⊢
    rw [reachable] at listed
    refine (sound.entries entry listed).imp_right fun spoiled => ⟨spoiled.1, ?_⟩
    have gone := mt (alive entry.2)
    rw [spoiled.2] at gone
    exact Nat.eq_zero_of_not_pos (gone (Nat.lt_irrefl 0))
  written := sound.written
  bytes id lives i inside := by
    have known := Memory.knows_of_handles (alive id lives)
    dsimp only
    rw [changes.bytes id known (fun touched => touched), changes.base id known]
    exact sound.bytes id (alive id lives) i inside

/-- What is written to a live page is written down at its addresses, and at no address of another page. -/
theorem overwritten {offset : Nat} {data : List UInt8} (sound : now.Sound)
    (alive : 0 < now.machine.memory.handles id) (fits : offset + data.length ≤ Limits.pageSize) :
    Sound { now with
      machine := { now.machine with memory := now.machine.memory.overwrite id offset data }
      written := ((now.machine.memory.page id).base.toNat + offset, data) :: now.written } where
  mapped :=
    sound.mapped.of_changes (@Memory.changes_overwrite _ _ (fun _ => True) trivial _ _) rfl fun other lives => by
      rwa [Memory.handles_overwrite] at lives
  aligned := sound.aligned
  entries entry listed := by
    dsimp only
    rw [Memory.handles_overwrite]
    exact sound.entries entry listed
  written entry listed := by
    rcases List.mem_cons.mp listed with rfl | earlier
    · have below := sound.below alive
      dsimp only
      omega
    · exact sound.written entry earlier
  bytes other lives i inside := by
    dsimp only at lives ⊢
    rw [Memory.handles_overwrite] at lives
    have before := sound.bytes other lives i inside
    rw [Memory.base_page_overwrite, Memory.page_overwrite, WriteLog.byteAt]
    by_cases same : other = id
    · subst same
      have size := sound.mapped.charted.size_of_reaches (sound.mapped.entered other alive)
      unfold Page.size at size
      rw [if_pos rfl, Page.overwrite, Page.getElem?_overwriteBytes, size]
      by_cases within : offset ≤ i ∧ i < offset + data.length
      · rw [if_pos (by omega), if_pos (by omega), Nat.add_sub_add_left, List.getD_eq_getElem?_getD,
          List.getElem?_eq_getElem (by omega), Option.getD_some]
      · rw [if_neg (by omega), if_neg (by omega), before]
    · have apart := sound.mapped.apart lives alive same
      rw [if_neg same, if_neg (by omega), before]

theorem retained (sound : now.Sound) (alive : 0 < now.machine.memory.handles id) :
    Sound { now with machine := { now.machine with memory := now.machine.memory.retain id } } := by
  have known := Memory.knows_of_handles alive
  refine sound.counted (Memory.changes_retain _ known) rfl fun other lives => ?_
  rw [Memory.handles, Memory.page_retain known] at lives
  by_cases same : other = id
  · rwa [same]
  · simpa only [if_neg same, Nat.add_zero] using lives

theorem released (sound : now.Sound) (id : PageId) :
    Sound { now with machine := { now.machine with memory := now.machine.memory.release id } } := by
  refine sound.counted (Memory.changes_release _ _ _) rfl fun other lives => ?_
  rw [Memory.handles, Memory.page_release] at lives
  exact Nat.lt_of_lt_of_le lives (Nat.sub_le ..)

theorem perform (sound : now.Sound) (use : MemoryUse) : (now.perform use).Sound := by
  cases use with
  | allocate =>
    unfold Chronicle.perform Step.after
    obtain ⟨limit, -, -, refused⟩ | ⟨nextBase, advanced, made⟩ | ⟨-, spoiled⟩ :=
      Board.allocate_cases now.board now.machine
    · rw [refused]
      exact sound
    · rw [made]
      exact sound.allocated advanced
    · rw [spoiled]
      exact sound.unallocated
  | retain id =>
    unfold Chronicle.perform
    dsimp only
    split
    case isTrue alive => exact sound.retained alive
    case isFalse => exact sound
  | release id =>
    unfold Chronicle.perform
    dsimp only
    split
    case isTrue => exact sound.released id
    case isFalse => exact sound
  | write id offset data =>
    unfold Chronicle.perform
    dsimp only
    split
    case isTrue alive =>
      obtain ⟨inside, written⟩ | ⟨-, missed⟩ := Machine.writeBytes_cases now.machine id offset data
      · rw [written]
        rw [sound.mapped.charted.size_of_reaches (sound.mapped.entered id alive)] at inside
        exact sound.overwritten alive inside
      · rw [missed]
        exact sound
    case isFalse => exact sound
  | fetch address length =>
    unfold Chronicle.perform
    dsimp only
    rw [Machine.after_fetch]
    exact sound
  | deposit address data =>
    unfold Chronicle.perform Machine.deposit
    dsimp only
    cases located : now.machine.memory.locate address data.length with
    | error fault => exact sound
    | ok place =>
      obtain ⟨holds, fits⟩ := sound.mapped.locate_eq_ok_iff.mp located
      have written := sound.overwritten holds.alive fits
      rw [← holds.place] at written
      exact written

theorem run (sound : now.Sound) (uses : List MemoryUse) : (now.run uses).Sound := by
  induction uses generalizing now with
  | nil => exact sound
  | cons use rest ih => exact ih (sound.perform use)

end Sound

theorem sound_start (limit : Option Nat) (device : δ) : (start limit device).Sound where
  mapped :=
    { charted := ⟨.nil, nofun, nofun, nofun⟩
      entered := fun _ alive => absurd alive (Nat.lt_irrefl 0) }
  aligned := show Limits.pageSize ∣ Board.firstBase.toNat by decide
  entries := nofun
  written := nofun
  bytes _ alive := absurd alive (Nat.lt_irrefl 0)

/-! ### What the device finds -/

/-- What the device finds at an address. A live page around the address answers, with what was written last and
as far as the page goes; without one, nothing does. Only a write that succeeds changes anything. -/
structure Answers (now : Chronicle δ) (address : UInt64) : Prop where
  resolves : ∀ id offset,
    now.machine.memory.resolve address = .ok (id, offset) ↔ now.machine.memory.Holds address id offset
  unmapped : (∀ id offset, ¬ now.machine.memory.Holds address id offset) →
    now.machine.memory.resolve address = .error (.unmapped address) ∧
      (∀ length, Machine.fetch address length now.machine = .error (.refused (.unmapped address)) now.machine) ∧
      ∀ data, Machine.deposit address data now.machine = .error (.refused (.unmapped address)) now.machine
  crosses : ∀ id offset, now.machine.memory.Holds address id offset →
    (∀ length, Limits.pageSize < offset + length →
      Machine.fetch address length now.machine = .error (.refused (.crossesPage address length)) now.machine) ∧
      ∀ data, Limits.pageSize < offset + data.length →
        Machine.deposit address data now.machine =
          .error (.refused (.crossesPage address data.length)) now.machine
  reads : ∀ id offset, now.machine.memory.Holds address id offset →
    ∀ length, offset + length ≤ Limits.pageSize →
      Machine.fetch address length now.machine = .ok (now.written.span address.toNat length) now.machine
  writes : ∀ id offset, now.machine.memory.Holds address id offset →
    ∀ data, offset + data.length ≤ Limits.pageSize → ∃ memory,
      Machine.deposit address data now.machine = .ok () { now.machine with memory := memory } ∧
        now.machine.memory.Puts id offset data memory

theorem Sound.slice_eq {address : UInt64} {offset length : Nat} (sound : now.Sound)
    (holds : now.machine.memory.Holds address id offset) (fits : offset + length ≤ Limits.pageSize) :
    now.machine.memory.slice id offset length = now.written.span address.toNat length := by
  apply List.ext_getElem?
  intro i
  rw [Memory.slice, Page.getElem?_slice, WriteLog.span, List.getElem?_map]
  by_cases inside : i < length
  · rw [if_pos inside, sound.bytes id holds.alive (offset + i) (by omega), List.getElem?_range inside, Option.map_some,
      holds.place, Nat.add_assoc]
  · rw [if_neg inside, List.getElem?_eq_none (by simpa using inside), Option.map_none]

theorem Sound.answers (sound : now.Sound) (address : UInt64) : now.Answers address where
  resolves _ _ := sound.mapped.resolve_eq_ok_iff
  unmapped nowhere := by
    have missed := sound.mapped.locate_eq_unmapped nowhere
    refine ⟨sound.mapped.resolve_eq_unmapped nowhere, fun length => ?_, fun data => ?_⟩
    · simp only [Machine.fetch, missed]
    · simp only [Machine.deposit, missed]
  crosses id offset holds := by
    have located {length : Nat} (past : Limits.pageSize < offset + length) :
        now.machine.memory.locate address length = .error (.crossesPage address length) := by
      rw [sound.mapped.locate_eq holds, if_neg (Nat.not_le.mpr past)]
    refine ⟨fun length past => ?_, fun data past => ?_⟩
    · simp only [Machine.fetch, located past]
    · simp only [Machine.deposit, located past]
  reads id offset holds length fits := by
    have located := sound.mapped.locate_eq_ok_iff.mpr ⟨holds, fits⟩
    simp only [Machine.fetch, located, sound.slice_eq holds fits]
  writes id offset holds data fits := by
    have located := sound.mapped.locate_eq_ok_iff.mpr ⟨holds, fits⟩
    have size := sound.mapped.charted.size_of_reaches (sound.mapped.entered id holds.alive)
    refine ⟨now.machine.memory.overwrite id offset data, ?_, Memory.puts_overwrite (size ▸ fits)⟩
    simp only [Machine.deposit, located]

end Chronicle

/-- Whatever a board has handed out, with or without a limit, and whatever has become of the handles, each
address of the device belongs to the one live page around it and to no other. -/
theorem addresses_find_live_pages {δ : Type} (limit : Option Nat) (device : δ) (uses : List MemoryUse)
    (address : UInt64) : ((Chronicle.start limit device).run uses).Answers address :=
  ((Chronicle.sound_start limit device).run uses).answers address

end PacketPath
