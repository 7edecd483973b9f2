/-! Hexadecimal text: lower-case digits, most significant first. -/

set_option autoImplicit false

namespace PacketPath.Text

def hexDigits (value : Nat) : String :=
  String.ofList (Nat.toDigits 16 value)

def hex (value : Nat) : String :=
  "0x" ++ hexDigits value

/-- The digits of `value`, filled up with zeros on the left to at least `width` of them. -/
def hexPadded (width value : Nat) : String :=
  let digits := Nat.toDigits 16 value
  String.ofList (List.replicate (width - digits.length) '0' ++ digits)

def hexBytes (bytes : List UInt8) : String :=
  String.join (bytes.map fun byte => hexPadded 2 byte.toNat)

end PacketPath.Text
