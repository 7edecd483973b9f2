import PacketPath.Message.Packet
import PacketPath.Proofs.Descriptor.Codec
import PacketPath.Proofs.Machine
import PacketPath.Proofs.Memory.Chart

/-! Packet pages. The header alone decides what all readers of a packet make of it: they find the same frame, or refuse
the same length. The header keeps four bytes of a length, so a length that needs more is told as another one. -/

set_option autoImplicit false

namespace PacketPath

variable {δ ε : Type}

/-! ### Signed words -/

namespace Word

theorem signed_of_small {value : Nat} (small : value < 2 ^ 31) : signed 4 value = value := by
  have width : Nat.pow 256 4 = 2 ^ 32 := rfl
  unfold signed
  rw [width, Int.bmod_def]
  omega

theorem signed_of_large {value : Nat} (large : 2 ^ 31 ≤ value) (short : value < 2 ^ 32) :
    signed 4 value = value - (2 ^ 32 : Nat) := by
  have width : Nat.pow 256 4 = 2 ^ 32 := rfl
  unfold signed
  rw [width, Int.bmod_def]
  omega

end Word

/-! ### What the device reads -/

namespace Fragment

variable {fragment : Fragment} {machine : Machine δ}

theorem address_of_below
    (below : (machine.memory.page fragment.page).base.toNat + fragment.offset < 2 ^ 64) :
    ∃ address : UInt64, (fragment.address : Step ε (Machine δ) UInt64) machine = .ok address machine ∧
      address.toNat = (machine.memory.page fragment.page).base.toNat + fragment.offset := by
  have advanced : Address.advance (machine.memory.page fragment.page).base fragment.offset =
      .ok ((machine.memory.page fragment.page).base + UInt64.ofNat fragment.offset) := if_pos below
  refine ⟨_, ?_, Address.advance_eq_ok_iff.mp advanced⟩
  simp only [address, Step.inspect, advanced]

theorem address_of_past
    (past : 2 ^ 64 ≤ (machine.memory.page fragment.page).base.toNat + fragment.offset) :
    (fragment.address : Step ε (Machine δ) UInt64) machine =
      .error (.violated (.addressOverflow (machine.memory.page fragment.page).base.toNat fragment.offset)) machine := by
  have overflows := Address.advance_eq_error_iff.mpr ⟨past, rfl⟩
  simp only [address, Step.inspect, overflows]

end Fragment

theorem Machine.fetch_eq {machine : Machine δ} {id : PageId} {address : UInt64} {offset length : Nat}
    (clear : machine.memory.Unshadowed id) (alive : 0 < machine.memory.handles id)
    (place : address.toNat = (machine.memory.page id).base.toNat + offset) (some : 0 < length)
    (covered : offset + length ≤ (machine.memory.page id).size) :
    Machine.fetch address length machine = .ok (machine.memory.slice id offset length) machine := by
  have located := clear.locate_eq alive place (by omega) covered
  simp only [Machine.fetch, located]

namespace Packet

variable {packet : Packet} {machine : Machine δ} {memory : Memory} {size : Nat}

/-! ### The header -/

def header (packet : Packet) (memory : Memory) : Int :=
  Word.signed Limits.headerSize (Word.ofBytes (memory.slice packet.grant.page 0 Limits.headerSize))

def Possible (size : Nat) (length : Int) : Prop :=
  1 ≤ length ∧ length ≤ Limits.maxFrame ∧ Limits.headerSize + length ≤ size

instance (size : Nat) (length : Int) : Decidable (Possible size length) :=
  inferInstanceAs (Decidable (_ ∧ _))

theorem possible_signed_iff {value : Nat} (short : value < 2 ^ 32) :
    Possible size (Word.signed 4 value) ↔ Possible size value := by
  rcases Nat.lt_or_ge value (2 ^ 31) with small | large
  · rw [Word.signed_of_small small]
  · have longest : Limits.maxFrame = 1518 := rfl
    rw [Word.signed_of_large large short]
    unfold Possible
    omega

theorem Possible.toNat {length : Int} (possible : Possible size length) : (length.toNat : Int) = length := by
  have := possible.1
  omega

theorem Possible.toNat_pos {length : Int} (possible : Possible size length) : 0 < length.toNat := by
  have := possible.1
  omega

theorem Possible.covers {length : Int} (possible : Possible size length) : Limits.headerSize + length.toNat ≤ size := by
  have fits := possible.2.2
  rw [← possible.toNat] at fits
  exact_mod_cast fits

theorem Possible.fragment {length : Int} (possible : Possible (memory.page packet.grant.page).size length) :
    memory.fragment packet.grant.page Limits.headerSize length.toNat =
      .ok ⟨packet.grant.page, Limits.headerSize, length.toNat⟩ := by
  have covered := possible.covers
  have some : length.toNat ≠ 0 := Nat.ne_of_gt possible.toNat_pos
  have short : ¬ Limits.maxFrame < length.toNat := by
    have := possible.2.1
    omega
  simp only [Memory.fragment, if_neg some, if_neg short, if_neg (Nat.not_lt.mpr covered)]

/-! ### Readers -/

/-- The header decides about the length. -/
theorem ends_frameLength {good : Nat → Machine δ → Prop} {bad : Stop ProtocolError → Machine δ → Prop}
    (room : Limits.headerSize ≤ (machine.memory.page packet.grant.page).size) :
    packet.frameLength.Ends machine good bad ↔
      (Possible (machine.memory.page packet.grant.page).size (packet.header machine.memory) →
        good (packet.header machine.memory).toNat machine) ∧
      (¬ Possible (machine.memory.page packet.grant.page).size (packet.header machine.memory) →
        bad (.refused (.badLength (packet.header machine.memory))) machine) := by
  have checks (length : Int) (size : Nat) : (0 < length ∧ length.toNat ≤ Limits.maxFrame ∧
      Limits.headerSize + length.toNat ≤ size) ↔ Possible size length := by
    unfold Possible
    omega
  unfold frameLength
  rw [Step.ends_bind, Machine.ends_readWord (by rwa [Nat.zero_add])]
  simp only [Step.ends_bind, Machine.ends_sizeOf, Step.ends_ite, Step.ends_pure, Step.ends_refuse, checks]
  exact Iff.rfl

theorem frameLength_of_possible (room : Limits.headerSize ≤ (machine.memory.page packet.grant.page).size)
    (possible : Possible (machine.memory.page packet.grant.page).size (packet.header machine.memory)) :
    packet.frameLength machine = .ok (packet.header machine.memory).toNat machine := by
  apply Step.Ends.eq_ok
  rw [ends_frameLength room]
  exact ⟨fun _ => ⟨rfl, rfl⟩, fun impossible => impossible possible⟩

theorem frameLength_of_impossible (room : Limits.headerSize ≤ (machine.memory.page packet.grant.page).size)
    (impossible : ¬ Possible (machine.memory.page packet.grant.page).size (packet.header machine.memory)) :
    packet.frameLength machine = .error (.refused (.badLength (packet.header machine.memory))) machine := by
  apply Step.Ends.eq_error
  rw [ends_frameLength room]
  exact ⟨fun possible => impossible possible, fun _ => ⟨rfl, rfl⟩⟩

/-- What is refused as a length is refused as a fragment, and what is not is one. -/
theorem fragment_of_possible (room : Limits.headerSize ≤ (machine.memory.page packet.grant.page).size)
    (possible : Possible (machine.memory.page packet.grant.page).size (packet.header machine.memory)) :
    packet.fragment machine =
      .ok ⟨packet.grant.page, Limits.headerSize, (packet.header machine.memory).toNat⟩ machine := by
  apply Step.Ends.eq_ok
  unfold fragment
  rw [Step.ends_bind, Step.ends_of_ok (frameLength_of_possible room possible), Step.ends_bind, Step.ends_get,
    possible.fragment]
  exact ⟨rfl, rfl⟩

theorem fragment_of_impossible (room : Limits.headerSize ≤ (machine.memory.page packet.grant.page).size)
    (impossible : ¬ Possible (machine.memory.page packet.grant.page).size (packet.header machine.memory)) :
    packet.fragment machine = .error (.refused (.badLength (packet.header machine.memory))) machine :=
  Step.bind_of_error (frameLength_of_impossible room impossible) _

def readOver (packet : Packet) : Step ProtocolError (List UInt8 × Machine δ) Nat := do
  let length ← Step.second packet.frameLength
  if (← get).1.length < length then
    Step.refuse (.badLength length)
  let frame ← Step.second (Machine.readBytes packet.grant.page Limits.headerSize length)
  Step.first (modify fun destination => frame ++ destination.drop length)
  return length

theorem readInto_eq_carrying (packet : Packet) (destination : List UInt8) (machine : Machine δ) :
    packet.readInto destination machine = Step.carrying destination packet.readOver machine := by
  unfold readInto readOver Step.carrying
  simp only [bind, EStateM.bind, Step.second, Step.within]
  cases packet.frameLength machine with
  | error stop after => rfl
  | ok length after =>
    have both : (get : Step ProtocolError (List UInt8 × Machine δ) _) (destination, after) =
      .ok (destination, after) (destination, after) := rfl
    simp only [both]
    split
    case isTrue short => rfl
    case isFalse long =>
      simp only [EStateM.bind, Step.within]
      cases (Machine.readBytes packet.grant.page Limits.headerSize length : Step ProtocolError _ _) after with
      | error stop last => rfl
      | ok frame last => rfl

variable {destination : List UInt8}

theorem readOver_of_impossible (room : Limits.headerSize ≤ (machine.memory.page packet.grant.page).size)
    (impossible : ¬ Possible (machine.memory.page packet.grant.page).size (packet.header machine.memory)) :
    packet.readOver (destination, machine) =
      .error (.refused (.badLength (packet.header machine.memory))) (destination, machine) := by
  apply Step.Ends.eq_error
  unfold readOver
  rw [Step.ends_bind, Step.ends_second, Step.ends_of_error (frameLength_of_impossible room impossible)]
  exact ⟨rfl, rfl⟩

theorem readOver_of_short (room : Limits.headerSize ≤ (machine.memory.page packet.grant.page).size)
    (possible : Possible (machine.memory.page packet.grant.page).size (packet.header machine.memory))
    (short : destination.length < (packet.header machine.memory).toNat) :
    packet.readOver (destination, machine) =
      .error (.refused (.badLength (packet.header machine.memory))) (destination, machine) := by
  apply Step.Ends.eq_error
  unfold readOver
  rw [Step.ends_bind, Step.ends_second, Step.ends_of_ok (frameLength_of_possible room possible), Step.ends_bind,
    Step.ends_get, if_pos short, Step.ends_bind, Step.ends_refuse, possible.toNat]
  exact ⟨rfl, rfl⟩

theorem readOver_of_possible (room : Limits.headerSize ≤ (machine.memory.page packet.grant.page).size)
    (possible : Possible (machine.memory.page packet.grant.page).size (packet.header machine.memory))
    (long : (packet.header machine.memory).toNat ≤ destination.length) :
    packet.readOver (destination, machine) = .ok (packet.header machine.memory).toNat
      (machine.memory.slice packet.grant.page Limits.headerSize (packet.header machine.memory).toNat ++
        destination.drop (packet.header machine.memory).toNat, machine) := by
  apply Step.Ends.eq_ok
  unfold readOver
  rw [Step.ends_bind, Step.ends_second, Step.ends_of_ok (frameLength_of_possible room possible), Step.ends_bind,
    Step.ends_get, if_neg (Nat.not_lt.mpr long), Step.ends_bind, Step.ends_second,
    Machine.ends_readBytes possible.covers, Step.ends_bind, Step.ends_first, Step.ends_modify, Step.ends_pure]
  exact ⟨rfl, rfl⟩

/-! ### Writing the header -/

def withHeader (packet : Packet) (length : Nat) (machine : Machine δ) : Machine δ :=
  { machine with memory := machine.memory.overwrite packet.grant.page 0 (Word.bytes Limits.headerSize length) }

theorem setFrameLength_eq (room : Limits.headerSize ≤ (machine.memory.page packet.grant.page).size) (length : Nat) :
    (packet.setFrameLength length : Step ε (Machine δ) Unit) machine = .ok () (packet.withHeader length machine) := by
  apply Step.Ends.eq_ok
  unfold setFrameLength
  rw [Machine.ends_writeWord (by rwa [Nat.zero_add])]
  exact ⟨rfl, rfl⟩

theorem header_withHeader (room : Limits.headerSize ≤ (machine.memory.page packet.grant.page).size) (length : Nat) :
    packet.header (packet.withHeader length machine).memory = Word.signed 4 (length % 2 ^ 32) := by
  have count : (Word.bytes Limits.headerSize length).length = Limits.headerSize := Word.length_bytes _ _
  have written : (packet.withHeader length machine).memory.slice packet.grant.page 0 Limits.headerSize =
      Word.bytes Limits.headerSize length := by
    have covered : 0 + (Word.bytes Limits.headerSize length).length ≤
        (machine.memory.page packet.grant.page).size := by rwa [count, Nat.zero_add]
    have read := Page.slice_overwrite covered
    rw [count] at read
    rw [withHeader, Memory.slice, Memory.page_overwrite, if_pos rfl, read]
  rw [header, written, Word.ofBytes_bytes]
  rfl

/-- A length that was written is told again if its low four bytes are a possible length: as those four bytes. So it is
told as another length exactly if it has more than four bytes and the low four are possible on their own. -/
theorem frameLength_setFrameLength (room : Limits.headerSize ≤ (machine.memory.page packet.grant.page).size)
    (length : Nat) :
    let size := (machine.memory.page packet.grant.page).size
    let kept : Nat := length % 2 ^ 32
    let written := packet.withHeader length machine
    (packet.setFrameLength length : Step ε (Machine δ) Unit) machine = .ok () written ∧
    (Possible size kept → packet.frameLength written = .ok kept written) ∧
    (¬ Possible size kept →
      packet.frameLength written = .error (.refused (.badLength (Word.signed 4 kept))) written) ∧
    ((∃ other, packet.frameLength written = .ok other written ∧ other ≠ length) ↔
      2 ^ 32 ≤ length ∧ Possible size kept) := by
  intro size kept written
  have short : kept < 2 ^ 32 := Nat.mod_lt _ (by decide)
  have same : (written.memory.page packet.grant.page).size = size := Memory.size_page_overwrite ..
  have header : packet.header written.memory = Word.signed 4 kept := header_withHeader room length
  have still : Limits.headerSize ≤ (written.memory.page packet.grant.page).size := by rwa [same]
  -- A possible length stays below the sign bit, so the header is read back as it was written.
  have told (possible : Possible size kept) : packet.frameLength written = .ok kept written := by
    have longest : Limits.maxFrame = 1518 := rfl
    have small : kept < 2 ^ 31 := by
      have := possible.2.1
      omega
    rw [frameLength_of_possible still (by rwa [same, header, possible_signed_iff short]), header,
      Word.signed_of_small small, Int.toNat_natCast]
  have refused (impossible : ¬ Possible size kept) :
      packet.frameLength written = .error (.refused (.badLength (Word.signed 4 kept))) written := by
    rw [frameLength_of_impossible still (by rwa [same, header, possible_signed_iff short]), header]
  refine ⟨setFrameLength_eq room length, told, refused, ?_, ?_⟩
  · rintro ⟨other, answered, different⟩
    rcases Decidable.em (Possible size kept) with possible | impossible
    · rw [told possible, EStateM.Result.ok.injEq] at answered
      obtain ⟨rfl, -⟩ := answered
      exact ⟨Nat.le_of_not_lt fun small => different (Nat.mod_eq_of_lt small), possible⟩
    · rw [refused impossible] at answered
      cases answered
  · rintro ⟨long, possible⟩
    exact ⟨kept, told possible, by omega⟩

def leaflet : Packet :=
  ⟨⟨⟨0⟩, .readable⟩, by decide⟩

def leafletMachine (base : UInt64) : Machine Unit where
  memory := { pages := #[⟨base, #[5, 0, 0, 0, 1, 2, 3, 4, 5, 6, 7, 8, 9, 10, 11, 12], 1⟩], reachable := [(base, ⟨0⟩)] }
  device := ()

/-- Of a length of more than four bytes the header keeps what looks like another length. -/
theorem frameLength_setFrameLength_past_four_bytes :
    Limits.headerSize ≤ ((leafletMachine 0x7000).memory.page leaflet.grant.page).size ∧
    ∃ written, (leaflet.setFrameLength (2 ^ 32 + 7) : Step ProtocolError _ Unit) (leafletMachine 0x7000) =
      .ok () written ∧ leaflet.frameLength written = .ok 7 written := by
  have room : Limits.headerSize ≤ ((leafletMachine 0x7000).memory.page leaflet.grant.page).size := by decide
  obtain ⟨wrote, told, -⟩ := frameLength_setFrameLength room (2 ^ 32 + 7)
  exact ⟨room, _, wrote, told (by decide)⟩

/-! ### The readers together -/

/-- All readers of a packet page find the same frame or refuse the same length, and none of them touches anything. The
frame has an address unless its page begins less than a header before the last one; from there the device reads the
same bytes. -/
theorem readers_agree (room : Limits.headerSize ≤ (machine.memory.page packet.grant.page).size) :
    let page := machine.memory.page packet.grant.page
    let header := packet.header machine.memory
    let length := header.toNat
    let frame := machine.memory.slice packet.grant.page Limits.headerSize length
    let fragment : Fragment := ⟨packet.grant.page, Limits.headerSize, length⟩
    (∀ destination, packet.readInto destination machine = Step.carrying destination packet.readOver machine) ∧
    (Possible page.size header →
      (length : Int) = header ∧ frame.length = length ∧
      packet.frameLength machine = .ok length machine ∧
      packet.fragment machine = .ok fragment machine ∧
      (page.base.toNat + Limits.headerSize < 2 ^ 64 → ∃ address : UInt64,
        (fragment.address : Step ε _ _) machine = .ok address machine ∧
        address.toNat = page.base.toNat + Limits.headerSize ∧
        (machine.memory.Unshadowed packet.grant.page → 0 < machine.memory.handles packet.grant.page →
          Machine.fetch address length machine = .ok frame machine)) ∧
      (2 ^ 64 ≤ page.base.toNat + Limits.headerSize → (fragment.address : Step ε _ _) machine =
        .error (.violated (.addressOverflow page.base.toNat Limits.headerSize)) machine) ∧
      ∀ destination : List UInt8,
        (length ≤ destination.length → packet.readOver (destination, machine) =
          .ok length (frame ++ destination.drop length, machine)) ∧
        (destination.length < length → packet.readOver (destination, machine) =
          .error (.refused (.badLength header)) (destination, machine))) ∧
    (¬ Possible page.size header →
      packet.frameLength machine = .error (.refused (.badLength header)) machine ∧
      packet.fragment machine = .error (.refused (.badLength header)) machine ∧
      ∀ destination : List UInt8, packet.readOver (destination, machine) =
        .error (.refused (.badLength header)) (destination, machine)) := by
  intro page header length frame fragment
  refine ⟨fun destination => readInto_eq_carrying packet destination machine, fun possible => ?_, fun impossible => ?_⟩
  · refine ⟨possible.toNat, Page.length_slice possible.covers, frameLength_of_possible room possible,
      fragment_of_possible room possible, fun below => ?_, fun past => ?_, fun destination =>
      ⟨readOver_of_possible room possible, readOver_of_short room possible⟩⟩
    · have below : (machine.memory.page fragment.page).base.toNat + fragment.offset < 2 ^ 64 := below
      obtain ⟨address, found, place⟩ := Fragment.address_of_below below
      refine ⟨address, found, place, fun clear alive => ?_⟩
      exact Machine.fetch_eq clear alive place possible.toNat_pos possible.covers
    · have past : 2 ^ 64 ≤ (machine.memory.page fragment.page).base.toNat + fragment.offset := past
      exact Fragment.address_of_past past
  · exact ⟨frameLength_of_impossible room impossible, fragment_of_impossible room impossible,
      fun destination => readOver_of_impossible room impossible⟩

theorem header_leaflet (base : UInt64) : leaflet.header (leafletMachine base).memory = 5 := by
  have bytes : (leafletMachine base).memory.slice leaflet.grant.page 0 Limits.headerSize = [5, 0, 0, 0] := rfl
  rw [header, bytes]
  exact Word.signed_of_small (by decide)

theorem leaflet_unshadowed : (leafletMachine 0x7000).memory.Unshadowed leaflet.grant.page where
  entered := by unfold Memory.Reaches; decide
  ascending := List.pairwise_singleton ..
  alone := by decide

/-- In the middle of the address space the device reads what the readers find. In a page that begins at the last four
addresses they find the same, but it has no address. -/
theorem readers_agree_past_last_address :
    Limits.headerSize ≤ ((leafletMachine 0x7000).memory.page leaflet.grant.page).size ∧
    (∃ address : UInt64, (Fragment.address ⟨⟨0⟩, 4, 5⟩ : Step ProtocolError _ _) (leafletMachine 0x7000) =
        .ok address (leafletMachine 0x7000) ∧
      Machine.fetch address 5 (leafletMachine 0x7000) = .ok [1, 2, 3, 4, 5] (leafletMachine 0x7000)) ∧
    Limits.headerSize ≤ ((leafletMachine 0xFFFFFFFFFFFFFFFC).memory.page leaflet.grant.page).size ∧
    leaflet.fragment (leafletMachine 0xFFFFFFFFFFFFFFFC) =
      .ok ⟨⟨0⟩, 4, 5⟩ (leafletMachine 0xFFFFFFFFFFFFFFFC) ∧
    (Fragment.address ⟨⟨0⟩, 4, 5⟩ : Step ProtocolError _ _) (leafletMachine 0xFFFFFFFFFFFFFFFC) =
      .error (.violated (.addressOverflow 0xFFFFFFFFFFFFFFFC 4)) (leafletMachine 0xFFFFFFFFFFFFFFFC) := by
  have low : Limits.headerSize ≤ ((leafletMachine 0x7000).memory.page leaflet.grant.page).size := by decide
  have high : Limits.headerSize ≤ ((leafletMachine 0xFFFFFFFFFFFFFFFC).memory.page leaflet.grant.page).size := by
    decide
  have middle := readers_agree (ε := ProtocolError) low
  have last := readers_agree (ε := ProtocolError) high
  dsimp only at middle last
  rw [header_leaflet] at middle last
  obtain ⟨-, -, -, -, placed, -⟩ := middle.2.1 (by decide)
  obtain ⟨address, found, -, fetched⟩ := placed (by decide)
  obtain ⟨-, -, -, whole, -, past, -⟩ := last.2.1 (by decide)
  exact ⟨low, ⟨address, found, fetched leaflet_unshadowed (by decide)⟩, high, whole, past (by decide)⟩

end Packet

end PacketPath
