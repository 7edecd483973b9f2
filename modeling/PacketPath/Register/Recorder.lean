import PacketPath.Register.Access

/-! A register file that keeps every access made to it, in order. Each word reads as it was last
written, and reading the interrupt causes clears them. -/

set_option autoImplicit false

namespace PacketPath

inductive RegisterEvent where
  | read (offset : Nat) (word : UInt32)
  | write (offset : Nat) (word : UInt32)
  deriving DecidableEq, Repr

structure Recorder where
  words : Nat → UInt32
  /-- The accesses so far, oldest first. -/
  events : Array RegisterEvent

namespace Recorder

def empty : Recorder :=
  ⟨fun _ => 0, #[]⟩

def put (recorder : Recorder) (offset : Nat) (word : UInt32) : Nat → UInt32 :=
  fun place => if place = offset then word else recorder.words place

def load (recorder : Recorder) (offset : Nat) : UInt32 × Recorder :=
  let word := recorder.words offset
  let words := if offset = Register.causeRead.offset then recorder.put offset 0 else recorder.words
  (word, ⟨words, recorder.events.push (.read offset word)⟩)

def store (recorder : Recorder) (offset : Nat) (word : UInt32) : Recorder :=
  ⟨recorder.put offset word, recorder.events.push (.write offset word)⟩

end Recorder

instance : RegisterBus Recorder where
  load recorder offset := .ok (recorder.load offset)
  store recorder offset word := .ok (recorder.store offset word)

end PacketPath
