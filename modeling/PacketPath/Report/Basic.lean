import PacketPath.Text.Hex

/-! Reports: what can be said about a value, as a tree of named fields. Addresses and digests are
given as hexadecimal text, so that no reader of a report needs wide numbers. -/

set_option autoImplicit false

namespace PacketPath

inductive Report where
  | nothing
  | flag (value : Bool)
  | number (value : Nat)
  | text (value : String)
  | list (items : List Report)
  | fields (entries : List (String × Report))
  deriving Repr, Inhabited

namespace Report

def done : Report := .text "ok"

def hex (value : Nat) : Report :=
  .text (Text.hex value)

def optional {α : Type} (report : α → Report) : Option α → Report
  | some value => report value
  | none => .nothing

/-- The 64-bit digest of bytes by the method of Fowler, Noll and Vo that mixes in each byte before it
multiplies. -/
def digest (bytes : List UInt8) : UInt64 :=
  bytes.foldl (fun sum byte => (sum ^^^ byte.toUInt64) * 0x100000001B3) 0xCBF29CE484222325

/-- Up to 64 bytes in full; more as their number, both ends and a digest. -/
def bytes (bytes : List UInt8) : Report :=
  let count := bytes.length
  if count ≤ 64 then .text (Text.hexBytes bytes)
  else
    .fields [("len", .number count), ("head", .text (Text.hexBytes (bytes.take 8))),
      ("tail", .text (Text.hexBytes (bytes.drop (count - 8)))), ("fnv", hex (digest bytes).toNat)]

end Report

end PacketPath
