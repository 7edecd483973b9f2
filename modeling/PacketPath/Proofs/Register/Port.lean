import PacketPath.Register.Recorder
import PacketPath.Register.Window
import PacketPath.Proofs.Machine

/-! Ports: registers that take every word written to them, whatever stands behind the window. A ring needs no more of a
device than such a port for its tail, and tells it of nothing else. -/

set_option autoImplicit false

namespace PacketPath

/-- As long as the device is within reach every word that is written to the register gets there, `tell` is what the
device makes of it, and the device stays within reach. -/
structure Register.Port {δ : Type} [RegisterBus δ] (register : Register) (reached : δ → Prop)
    (tell : δ → UInt32 → δ) : Prop where
  store : ∀ device word, reached device →
    RegisterBus.store device register.offset word = .ok (tell device word)
  stays : ∀ device word, reached device → reached (tell device word)

def tellSlots {δ : Type} (tell : δ → UInt32 → δ) (device : δ) (slots : List Nat) : δ :=
  slots.foldl (fun device slot => tell device (UInt32.ofNat slot)) device

namespace Register.Port

variable {δ ε : Type} [RegisterBus δ] {register : Register} {reached : δ → Prop} {tell : δ → UInt32 → δ}
  {machine : Machine δ}

theorem ends_write (port : register.Port reached tell) (near : reached machine.device)
    {good : Unit → Machine δ → Prop} {bad : Stop ε → Machine δ → Prop} (word : UInt32) :
    (register.write word).Ends machine good bad ↔
      good () { machine with device := tell machine.device word } := by
  unfold Register.write Machine.store Step.Ends
  dsimp only
  rw [port.store _ word near]

theorem tellSlots_stays (port : register.Port reached tell) {device : δ} (near : reached device) (slots : List Nat) :
    reached (tellSlots tell device slots) := by
  induction slots generalizing device with
  | nil => exact near
  | cons slot rest ih => exact ih (port.stays _ _ near)

end Register.Port

/-! ### Three buses -/

theorem Emulator.port (register : Register) :
    register.Port (fun _ : Emulator => True) (fun device word => device.store register.offset word) :=
  ⟨fun _ _ _ => rfl, fun _ _ _ => trivial⟩

theorem Recorder.port (register : Register) :
    register.Port (fun _ : Recorder => True) (fun recorder word => recorder.store register.offset word) :=
  ⟨fun _ _ _ => rfl, fun _ _ _ => trivial⟩

def Window.put (window : Window) (offset : Nat) (word : UInt32) : Window :=
  { window with words := fun place => if place = offset then word else window.words place }

theorem Window.check_of_inside {window : Window} {offset : Nat} (aligned : offset % 4 = 0)
    (short : offset + 4 < 2 ^ 64) (inside : offset + 4 ≤ window.size) : window.check offset = .ok () := by
  have below : ¬ 0x10000000000000000 ≤ offset + 4 := Nat.not_le.mpr short
  unfold Window.check
  rw [if_neg (not_not.mpr aligned), if_neg below, if_neg (Nat.not_lt.mpr inside)]

/-- A mapped window takes the writes to all registers that end inside it. -/
theorem Window.port (register : Register) :
    register.Port (fun window : Window => register.offset + 4 ≤ window.size)
      (fun window word => window.put register.offset word) where
  store window word inside := by
    have aligned : register.offset % 4 = 0 := by cases register <;> decide
    have short : register.offset + 4 < 2 ^ 64 := by cases register <;> decide
    change window.store register.offset word = _
    unfold Window.store
    rw [Window.check_of_inside aligned short inside]
    rfl
  stays _ _ inside := inside

end PacketPath
