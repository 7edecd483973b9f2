import PacketPath.Text.Hex

/-! Words whose bits have names, and the one form in which they are written out. -/

set_option autoImplicit false

namespace PacketPath

/-- A word type with named bits. Bits without a name are kept and shown as a number. -/
class Flags (α : Type) where
  /-- What the whole word is called. -/
  title : String
  /-- The named bits, lowest first: the word with only that bit, and its name. -/
  named : List (Nat × String)
  /-- The word itself. -/
  bits : α → Nat

namespace Flags

variable {α : Type} [Flags α]

def all (α : Type) [Flags α] : Nat :=
  (named α).foldl (fun word flag => word ||| flag.1) 0

def known (value : α) : Nat :=
  bits value &&& all α

/-- The names of the set bits, then the nameless rest as one number; an empty word is `0x0`. -/
def text (value : α) : String :=
  let word := bits value
  let names := ((named α).filter fun flag => word &&& flag.1 == flag.1).map Prod.snd
  let rest := word ^^^ known value
  let parts := if rest = 0 then names else names ++ [Text.hex rest]
  let body := if word = 0 then Text.hex 0 else " | ".intercalate parts
  title α ++ "(" ++ body ++ ")"

end Flags

end PacketPath
