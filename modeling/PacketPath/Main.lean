import PacketPath.Demonstration

/-! The command line: runs the demonstration and writes its log to standard error. The argument names
the least urgent level to write, or `off`; without one only errors are written. -/

set_option autoImplicit false

open PacketPath

def main (arguments : List String) : IO UInt32 := do
  let threshold := (arguments.head?.bind Level.threshold?).getD (some .error)
  let (log, failure) := Demonstration.outcome
  for line in log do
    if threshold.any (·.admits line.level) then
      IO.eprintln line.text
  match failure with
  | none => return 0
  | some error =>
    IO.eprintln s!"Error: {error}"
    return 1
