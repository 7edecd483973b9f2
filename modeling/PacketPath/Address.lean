import PacketPath.Violation

/-! Addresses as the device counts them: 64-bit numbers that never wrap. An address that would lie
past the last one is a broken precondition of whoever computes it. -/

set_option autoImplicit false

namespace PacketPath.Address

def advance (base : UInt64) (offset : Nat) : Except Violation UInt64 :=
  if base.toNat + offset < 0x10000000000000000 then .ok (base + UInt64.ofNat offset)
  else .error (.addressOverflow base.toNat offset)

theorem advance_eq_ok_iff {base address : UInt64} {offset : Nat} :
    advance base offset = .ok address ↔ address.toNat = base.toNat + offset := by
  have bound := address.toNat_lt
  unfold advance
  split
  case isTrue fits =>
    rw [Except.ok.injEq, ← UInt64.toNat_inj, UInt64.toNat_add, UInt64.toNat_ofNat']
    omega
  case isFalse past =>
    simp only [reduceCtorEq, false_iff]
    omega

theorem advance_eq_error_iff {base : UInt64} {offset : Nat} {violation : Violation} :
    advance base offset = .error violation ↔
      0x10000000000000000 ≤ base.toNat + offset ∧ violation = .addressOverflow base.toNat offset := by
  unfold advance
  split
  case isTrue fits =>
    simp only [reduceCtorEq, false_iff, not_and]
    omega
  case isFalse past =>
    rw [Except.error.injEq, eq_comm]
    exact (and_iff_right (Nat.le_of_not_lt past)).symm

end PacketPath.Address
