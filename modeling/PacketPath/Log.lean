/-! Log lines. Every step appends its lines to the machine's log, so a log is part of the result. -/

set_option autoImplicit false

namespace PacketPath

/-- How urgent a line is, most urgent first. -/
inductive Level where
  | error
  | warn
  | info
  | debug
  | trace
  deriving DecidableEq, Repr

namespace Level

def text : Level → String
  | .error => "ERROR"
  | .warn => "WARN"
  | .info => "INFO"
  | .debug => "DEBUG"
  | .trace => "TRACE"

def rank : Level → Nat
  | .error => 0
  | .warn => 1
  | .info => 2
  | .debug => 3
  | .trace => 4

/-- The threshold that a word names; the inner `none` lets nothing through. -/
def threshold? : String → Option (Option Level)
  | "off" => some none
  | "error" => some (some .error)
  | "warn" => some (some .warn)
  | "info" => some (some .info)
  | "debug" => some (some .debug)
  | "trace" => some (some .trace)
  | _ => none

def admits (threshold level : Level) : Bool :=
  level.rank ≤ threshold.rank

end Level

structure LogLine where
  level : Level
  body : String
  deriving DecidableEq, Repr

def LogLine.text (line : LogLine) : String :=
  line.level.text ++ " " ++ line.body

end PacketPath
