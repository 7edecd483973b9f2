import PacketPath.Proofs.Controller.Exposure

/-! What the script of bringing up leaves behind in the device: a clear multicast table, the controller's
address, and the places in the rings that no write can change. -/

set_option autoImplicit false

namespace PacketPath

theorem MacAddress.ofWords_words (mac : MacAddress) : ofWords? mac.lowWord mac.highWord = some mac := by
  obtain ⟨first, second, third, fourth, fifth, sixth⟩ := mac
  have low : UInt32.toNat (lowWord ⟨first, second, third, fourth, fifth, sixth⟩) =
      Word.ofBytes [first, second, third, fourth] := by
    have bound := Word.ofBytes_lt [first, second, third, fourth]
    simp only [List.length_cons, List.length_nil] at bound
    unfold lowWord
    rw [UInt32.toNat_ofNat']
    exact Nat.mod_eq_of_lt (by omega)
  -- Two bytes stay below the mark that says the address is valid.
  have small : Word.ofBytes [fifth, sixth] < 2 ^ 31 := by
    have bound := Word.ofBytes_lt [fifth, sixth]
    simp only [List.length_cons, List.length_nil] at bound
    omega
  have high : UInt32.toNat (highWord ⟨first, second, third, fourth, fifth, sixth⟩) =
      2 ^ 31 + Word.ofBytes [fifth, sixth] := by
    have valid : Register.addressValid.toNat = 2 ^ 31 := by decide
    unfold highWord
    dsimp only
    rw [UInt32.toNat_or, UInt32.toNat_ofNat', Nat.mod_eq_of_lt (by omega), valid, Nat.or_comm]
    have disjoint := Nat.two_pow_add_eq_or_of_lt small 1
    rw [Nat.mul_one] at disjoint
    exact disjoint.symm
  have marked : ¬ highWord ⟨first, second, third, fourth, fifth, sixth⟩ &&& Register.addressValid = 0 := by
    intro none
    have word := congrArg UInt32.toNat none
    rw [UInt32.toNat_and, high, show Register.addressValid.toNat = 2 ^ 31 by decide] at word
    have bit : (2 ^ 31 + Word.ofBytes [fifth, sixth] &&& 2 ^ 31).testBit 31 = false := by
      rw [word]
      exact Nat.zero_testBit 31
    rw [Nat.testBit_and, Nat.testBit_two_pow_add_eq, Nat.testBit_lt_two_pow small, Nat.testBit_two_pow_self] at bit
    cases bit
  have fifth_lt := fifth.toNat_lt
  have sixth_lt := sixth.toNat_lt
  -- Without the mark the words are the bytes again, four of them and then two.
  have front := Word.bytes_ofBytes [first, second, third, fourth]
  have fifth_eq : UInt8.ofNat (2 ^ 31 + Word.ofBytes [fifth, sixth]) = fifth := by
    simp only [← UInt8.toNat_inj, UInt8.toNat_ofNat', Word.ofBytes]
    omega
  have sixth_eq : UInt8.ofNat ((2 ^ 31 + Word.ofBytes [fifth, sixth]) / 256) = sixth := by
    simp only [← UInt8.toNat_inj, UInt8.toNat_ofNat', Word.ofBytes]
    omega
  unfold ofWords?
  rw [if_neg marked]
  dsimp only
  rw [low, high, show (4 : Nat) = [first, second, third, fourth].length from rfl, front]
  simp only [List.length_cons, List.length_nil, Word.bytes, List.getD_cons_zero, List.getD_cons_succ, fifth_eq, sixth_eq]

namespace Controller

variable {start after : Machine Emulator} {owners : List PageId} {settings : Settings} {controller : Controller}

/-! ### The multicast table and the address -/

theorem registers_clearing (device : Emulator) (index count entry : Nat) :
    (device.storeAll (clearingWrites index count)).registers (Register.multicastTable.offset + entry * 4) =
      if index ≤ entry ∧ entry < index + count then 0
      else device.registers (Register.multicastTable.offset + entry * 4) := by
  induction count generalizing index device with
  | zero => exact (if_neg (by omega)).symm
  | succ count ih =>
    have plain : ∀ register ∈ Emulator.latches, register.offset ≠ Register.multicastTable.offset + index * 4 := by
      have below : ∀ register ∈ Emulator.latches, register.offset < Register.multicastTable.offset := by decide
      intro register listed
      have low := below register listed
      omega
    change ((device.store (Register.multicastTable.offset + index * 4) 0).storeAll
      (clearingWrites (index + 1) count)).registers _ = _
    rw [ih]
    by_cases here : entry = index
    · subst here
      rw [if_neg (by omega), if_pos (by omega)]
      exact device.registers_store_self 0 plain
    · rw [device.registers_store_of_ne 0 (by omega)]
      congr 1
      rw [eq_iff_iff]
      omega

theorem raisingWrites_below {settings : Settings} {transmitBase receiveBase : UInt64} {control : UInt32} :
    ∀ entry ∈ raisingWrites settings transmitBase receiveBase control, entry.1 < Register.multicastTable.offset := by
  have below : ((raisingWrites settings transmitBase receiveBase control).map Prod.fst).all
      (fun offset => decide (offset < Register.multicastTable.offset)) = true := rfl
  intro entry listed
  simpa using List.all_eq_true.mp below entry.1 (List.mem_map_of_mem listed)

theorem clearingWrites_within {entry : Nat × UInt32} (listed : entry ∈ clearingWrites 0 Register.multicastEntries) :
    Register.multicastTable.offset ≤ entry.1 ∧ entry.1 < Register.addressLow.offset := by
  obtain ⟨index, ranged, rfl⟩ := List.mem_map.mp listed
  have bound : index < 128 := by simpa [Register.multicastEntries] using List.mem_range'_1.mp ranged
  change 0x5200 ≤ 0x5200 + index * 4 ∧ 0x5200 + index * 4 < 0x5400
  omega

theorem CameUp.multicast (up : CameUp start owners settings controller after) {index : Nat}
    (inside : index < Register.multicastEntries) :
    after.device.registers (Register.multicastTable.offset + index * 4) = 0 := by
  obtain ⟨transmitBase, receiveBase, control, device⟩ := up.device
  rw [device]
  unfold script
  rw [Emulator.storeAll_append, Emulator.registers_storeAll_of_ne, Emulator.storeAll_append, registers_clearing,
    if_pos ⟨Nat.zero_le _, by omega⟩]
  intro entry listed
  have below := raisingWrites_below entry listed
  omega

theorem CameUp.word_address (up : CameUp start owners settings controller after) {register : Register}
    (address : register = .addressLow ∨ register = .addressHigh) :
    after.device.word register =
      (start.device.storeAll ([(Register.maskClear.offset, 0xFFFFFFFF)] ++ macWrites settings.mac)).word register := by
  obtain ⟨transmitBase, receiveBase, control, device⟩ := up.device
  have high : Register.addressLow.offset ≤ register.offset := by
    rcases address with rfl | rfl <;> decide
  have order : Register.multicastTable.offset < Register.addressLow.offset := by decide
  rw [device]
  unfold script Emulator.word
  rw [Emulator.storeAll_append, Emulator.registers_storeAll_of_ne, Emulator.storeAll_append,
    Emulator.registers_storeAll_of_ne]
  · intro entry listed
    have within := clearingWrites_within listed
    omega
  · intro entry listed
    have below := raisingWrites_below entry listed
    omega

theorem CameUp.address (up : CameUp start owners settings controller after) :
    after.device.mac = some controller.mac := by
  unfold Emulator.mac
  rw [up.word_address (.inl rfl), up.word_address (.inr rfl)]
  rcases up.mac with given | ⟨none, own⟩
  · rw [given]
    exact controller.mac.ofWords_words
  · rw [none]
    exact own

/-! ### Places in the rings -/

def earlyWrites (settings : Settings) (base : UInt64) : List (Nat × UInt32) :=
  [(Register.maskClear.offset, 0xFFFFFFFF)] ++ macWrites settings.mac ++
    clearingWrites 0 Register.multicastEntries ++ (transmitWrites settings base).take 4

def lateWrites (settings : Settings) (transmitBase receiveBase : UInt64) (control : UInt32) : List (Nat × UInt32) :=
  (transmitWrites settings transmitBase).drop 5 ++ receiveWrites settings receiveBase ++
    [(Register.control.offset, control ||| Register.setLinkUp), (Register.maskSet.offset, settings.causes.bits)]

theorem script_split (settings : Settings) (transmitBase receiveBase : UInt64) (control : UInt32) :
    script settings transmitBase receiveBase control = earlyWrites settings transmitBase ++
      (Register.transmitTail.offset, 0) :: lateWrites settings transmitBase receiveBase control := by
  unfold script earlyWrites lateWrites raisingWrites
  simp [transmitWrites]

theorem earlyWrites_apart {settings : Settings} {base : UInt64} :
    ∀ entry ∈ earlyWrites settings base, Register.transmitTail.offset ≠ entry.1 := by
  intro entry listed same
  unfold earlyWrites at listed
  simp only [List.mem_append] at listed
  have order : Register.transmitTail.offset < Register.multicastTable.offset := by decide
  rcases listed with ((listed | listed) | listed) | listed
  · rw [List.mem_singleton.mp listed] at same
    exact absurd same (by decide)
  · revert listed same
    unfold macWrites
    cases settings.mac with
    | none => nofun
    | some mac =>
      simp only [List.mem_cons, List.not_mem_nil, or_false]
      rintro same (rfl | rfl) <;> cases same
  · have within := clearingWrites_within listed
    omega
  · have apart : (((transmitWrites settings base).take 4).map Prod.fst).all
        (fun offset => decide (Register.transmitTail.offset ≠ offset)) = true := rfl
    have other := List.all_eq_true.mp apart entry.1 (List.mem_map_of_mem listed)
    exact of_decide_eq_true other same

theorem lateWrites_apart {settings : Settings} {transmitBase receiveBase : UInt64} {control : UInt32} :
    ∀ entry ∈ lateWrites settings transmitBase receiveBase control, Register.transmitTail.offset ≠ entry.1 := by
  have apart : ((lateWrites settings transmitBase receiveBase control).map Prod.fst).all
      (fun offset => decide (Register.transmitTail.offset ≠ offset)) = true := rfl
  intro entry listed
  have other := List.all_eq_true.mp apart entry.1 (List.mem_map_of_mem listed)
  exact of_decide_eq_true other

theorem length_earlyWrites (device : Emulator) (settings : Settings) (base : UInt64) :
    (device.storeAll (earlyWrites settings base)).word .transmitLength =
      UInt32.ofNat (settings.transmitLength * Limits.descriptorSize) := by
  unfold earlyWrites
  rw [Emulator.storeAll_append]
  generalize device.storeAll _ = cleared
  rfl

/-- Bringing up moves the device in neither ring. What it has still to fetch grows by the distance from the
old tail to the start of the new ring. -/
theorem CameUp.places (up : CameUp start owners settings controller after) :
    after.device.transmitHead = start.device.transmitHead ∧ after.device.receiveHead = start.device.receiveHead ∧
      after.device.transmitPending = min (start.device.transmitPending +
        (settings.transmitLength - (start.device.word .transmitTail).toNat % settings.transmitLength) %
          settings.transmitLength) settings.transmitLength := by
  obtain ⟨transmitBase, receiveBase, control, device⟩ := up.device
  obtain ⟨several, paged⟩ := ringFits_bounds up.transmits
  have small : settings.transmitLength < 2 ^ 16 := DescriptorTable.length_lt_of_paged paged
  have heads := start.device.heads_storeAll (script settings transmitBase receiveBase control)
  rw [← device] at heads
  refine ⟨heads.1, heads.2, ?_⟩
  rw [device, script_split, Emulator.storeAll_append, Emulator.storeAll_cons,
    Emulator.pending_storeAll lateWrites_apart]
  -- The tail is set when the device knows the new length, and still has the old tail.
  have slots := length_earlyWrites start.device settings transmitBase
  have tail : (start.device.storeAll (earlyWrites settings transmitBase)).word .transmitTail =
      start.device.word .transmitTail := Emulator.registers_storeAll_of_ne earlyWrites_apart
  have pending : (start.device.storeAll (earlyWrites settings transmitBase)).transmitPending =
      start.device.transmitPending := Emulator.pending_storeAll earlyWrites_apart
  rw [Emulator.pending_store_tail _ (slots ▸ Emulator.length_of_bytes small) (by omega), tail, pending]

end Controller

end PacketPath
