/-! Numbers as little-endian byte lists: `bytes` writes a number at a width and `ofBytes` reads
one back. Reading inverts writing up to the width, and writing inverts reading. -/

set_option autoImplicit false

namespace PacketPath.Word

/-- The low `width` bytes of `value`, least significant first. -/
def bytes : (width : Nat) → (value : Nat) → List UInt8
  | 0, _ => []
  | width + 1, value => UInt8.ofNat value :: bytes width (value / 256)

/-- The number whose base-256 digits are the bytes, least significant first. -/
def ofBytes : List UInt8 → Nat
  | [] => 0
  | byte :: rest => byte.toNat + 256 * ofBytes rest

@[simp] theorem length_bytes (width value : Nat) : (bytes width value).length = width := by
  induction width generalizing value with
  | zero => rfl
  | succ width ih => simp [bytes, ih]

theorem bytes_ofBytes (raw : List UInt8) : bytes raw.length (ofBytes raw) = raw := by
  induction raw with
  | nil => rfl
  | cons byte rest ih =>
    have small := byte.toNat_lt
    have low : UInt8.ofNat (byte.toNat + 256 * ofBytes rest) = byte := by
      apply UInt8.toNat_inj.mp
      rw [UInt8.toNat_ofNat']
      omega
    have high : (byte.toNat + 256 * ofBytes rest) / 256 = ofBytes rest := by omega
    simp only [List.length_cons, ofBytes, bytes, low, high, ih]

end PacketPath.Word
