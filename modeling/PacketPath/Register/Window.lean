import PacketPath.Register.Access

/-! A mapped register window over plain memory: aligned words between its ends, each of which
keeps what was last written to it. -/

set_option autoImplicit false

namespace PacketPath

structure Window where
  base : UInt64
  /-- Length in bytes. -/
  size : Nat
  /-- The word at each aligned offset. -/
  words : Nat → UInt32

namespace Window

def zeroed (base : UInt64) (size : Nat) : Window :=
  ⟨base, size, fun _ => 0⟩

/-- An access is admitted at an aligned offset whose word ends inside the window. The end is an
address, so an offset whose end is none is stopped on its own account. -/
def check (window : Window) (offset : Nat) : Except Violation Unit :=
  if offset % 4 ≠ 0 then .error (.windowAccess offset window.size)
  else if 0x10000000000000000 ≤ offset + 4 then .error (.addressOverflow offset 4)
  else if window.size < offset + 4 then .error (.windowAccess offset window.size)
  else .ok ()

def load (window : Window) (offset : Nat) : Except Violation UInt32 :=
  match window.check offset with
  | .ok _ => .ok (window.words offset)
  | .error violation => .error violation

def store (window : Window) (offset : Nat) (word : UInt32) : Except Violation Window :=
  match window.check offset with
  | .ok _ => .ok { window with words := fun place => if place = offset then word else window.words place }
  | .error violation => .error violation

end Window

instance : RegisterBus Window where
  load window offset := (window.load offset).map fun word => (word, window)
  store := Window.store

end PacketPath
