import PacketPath.Proofs.Register.Contained
import PacketPath.Proofs.Register.Port

/-! Windows under watch. Any device may be behind such a window: what is read can depend on every access before.
Accesses are admitted as by a mapped window, and put on record. -/

set_option autoImplicit false

namespace PacketPath

namespace RegisterEvent

def offset : RegisterEvent → Nat
  | .read offset _ | .write offset _ => offset

/-- The access is to a listed register, its word lies inside the least window, and that is no longer than a window of
this size. -/
structure Sound (size : Nat) (event : RegisterEvent) : Prop where
  listed : Register.Listed event.offset
  aligned : event.offset % 4 = 0
  ends : event.offset + 4 ≤ Register.windowSize
  covers : Register.windowSize ≤ size

theorem Sound.of_listed {size : Nat} {event : RegisterEvent} (listed : Register.Listed event.offset)
    (covers : Register.windowSize ≤ size) : event.Sound size :=
  ⟨listed, listed.inside.1, listed.inside.2, covers⟩

end RegisterEvent

structure WatchedWindow where
  /-- Length in bytes. -/
  size : Nat
  /-- What the device answers at an offset, after the accesses so far. -/
  answers : List RegisterEvent → Nat → UInt32
  /-- The accesses that were admitted, newest first. -/
  events : List RegisterEvent

namespace WatchedWindow

def check (window : WatchedWindow) (offset : Nat) : Except Violation Unit :=
  ((Window.zeroed 0 window.size).check offset).mapError fun _ => .windowAccess offset window.size

def load (window : WatchedWindow) (offset : Nat) : Except Violation (UInt32 × WatchedWindow) := do
  window.check offset
  let word := window.answers window.events offset
  return (word, { window with events := .read offset word :: window.events })

def store (window : WatchedWindow) (offset : Nat) (word : UInt32) : Except Violation WatchedWindow := do
  window.check offset
  return { window with events := .write offset word :: window.events }

instance : RegisterBus WatchedWindow where
  load := load
  store := store

def SoundSince (size : Nat) (before : List RegisterEvent) (window : WatchedWindow) : Prop :=
  ∃ made, window.events = made ++ before ∧ ∀ event ∈ made, event.Sound size

theorem SoundSince.of_same {size : Nat} {before : List RegisterEvent} {window : WatchedWindow}
    (same : window.events = before) : window.SoundSince size before :=
  ⟨[], same, List.forall_mem_nil _⟩

theorem SoundSince.cons {size : Nat} {before : List RegisterEvent} {window next : WatchedWindow}
    (since : window.SoundSince size before) {event : RegisterEvent} (sound : event.Sound size)
    (grown : next.events = event :: window.events) : next.SoundSince size before := by
  obtain ⟨made, recorded, all⟩ := since
  exact ⟨event :: made, by rw [grown, recorded, List.cons_append], List.forall_mem_cons.mpr ⟨sound, all⟩⟩

/-- The window is mapped at this size, and since then every access was sound. -/
structure Mapped (size : Nat) (before : List RegisterEvent) (window : WatchedWindow) : Prop where
  sized : window.size = size
  since : window.SoundSince size before

section

variable {window : WatchedWindow} {offset : Nat}

theorem check_of_inside (covers : Register.windowSize ≤ window.size)
    (inside : offset % 4 = 0 ∧ offset + 4 ≤ Register.windowSize) : window.check offset = .ok () := by
  obtain ⟨aligned, ends⟩ := inside
  have short : offset + 4 < 2 ^ 64 := Nat.lt_of_le_of_lt ends (by decide)
  have inside : offset + 4 ≤ (Window.zeroed 0 window.size).size := Nat.le_trans ends covers
  unfold check
  rw [Window.check_of_inside aligned short inside]
  rfl

theorem load_of_inside (covers : Register.windowSize ≤ window.size)
    (inside : offset % 4 = 0 ∧ offset + 4 ≤ Register.windowSize) :
    let word := window.answers window.events offset
    RegisterBus.load window offset = .ok (word, { window with events := .read offset word :: window.events }) := by
  change load window offset = _
  unfold load
  rw [check_of_inside covers inside]
  rfl

theorem store_of_inside (covers : Register.windowSize ≤ window.size)
    (inside : offset % 4 = 0 ∧ offset + 4 ≤ Register.windowSize) (word : UInt32) :
    RegisterBus.store window offset word = .ok { window with events := .write offset word :: window.events } := by
  change store window offset word = _
  unfold store
  rw [check_of_inside covers inside]
  rfl

end

/-- Steps that keep to listed offsets keep the record sound. -/
theorem fence {size : Nat} (covers : Register.windowSize ≤ size) (before : List RegisterEvent) :
    Register.Fence (Mapped size before) where
  loads window offset mapped listed := by
    have sound : (RegisterEvent.read offset (window.answers window.events offset)).Sound size :=
      .of_listed listed covers
    exact ⟨_, _, load_of_inside (mapped.sized.symm ▸ covers) listed.inside, mapped.sized, mapped.since.cons sound rfl⟩
  stores window offset word mapped listed := by
    have sound : (RegisterEvent.write offset word).Sound size := .of_listed listed covers
    exact ⟨_, store_of_inside (mapped.sized.symm ▸ covers) listed.inside word, mapped.sized, mapped.since.cons sound rfl⟩

/-- An entry of the multicast table is written at its own place and nowhere else, below the address registers. An
entry that the table does not have is not written at all. -/
theorem writeMulticast_ends {ε : Type} {machine : Machine WatchedWindow}
    (covers : Register.windowSize ≤ machine.device.size) (index : Nat) (word : UInt32) :
    (Register.writeMulticast index word : Step ε _ _).Ends machine
      (fun _ after => index < Register.multicastEntries ∧
        after.device.events = .write (Register.multicastTable.offset + index * 4) word :: machine.device.events ∧
        Register.multicastTable.offset + index * 4 + 4 ≤ Register.addressLow.offset)
      (fun stop after => ¬ index < Register.multicastEntries ∧ stop = .violated (.multicastIndex index) ∧
        after = machine) := by
  unfold Register.writeMulticast
  split
  case isTrue few =>
    unfold Machine.store Step.Ends
    dsimp only
    rw [store_of_inside covers (Register.listed_multicast few).inside]
    refine ⟨few, rfl, ?_⟩
    unfold Register.multicastEntries at few
    change 0x5200 + index * 4 + 4 ≤ 0x5400
    omega
  case isFalse many => exact ⟨many, rfl, rfl⟩

end WatchedWindow

end PacketPath
