import PacketPath.Proofs.Leaves
import PacketPath.Proofs.Machine
import Mathlib.Algebra.BigOperators.Ring.Finset

/-! Pages as arrays of bytes. Whatever is read from a page and written to it, at any offset and in any width, an access
goes through exactly if it ends inside the page. It then finds the bytes that were put down last, and puts down its own
and no others; an access that does not go through changes nothing. Copies are decided in the same way. -/

set_option autoImplicit false

namespace PacketPath

/-! ### Words as sums of digits -/

namespace Word

theorem bytes_eq_map (width value : Nat) :
    bytes width value = (List.range width).map fun i => UInt8.ofNat (value / 256 ^ i) := by
  induction width generalizing value with
  | zero => rfl
  | succ width ih =>
    rw [bytes, ih, List.range_succ_eq_map, List.map_cons, List.map_map, Nat.pow_zero, Nat.div_one]
    congr 2
    funext i
    rw [Nat.div_div_eq_div_mul, ← Nat.pow_succ']
    rfl

theorem ofBytes_map (digits : Nat → UInt8) (width : Nat) :
    ofBytes ((List.range width).map digits) = ∑ i ∈ Finset.range width, (digits i).toNat * 256 ^ i := by
  induction width generalizing digits with
  | zero => rfl
  | succ width ih =>
    rw [List.range_succ_eq_map, List.map_cons, List.map_map, ofBytes, ih, Finset.sum_range_succ', Finset.mul_sum,
      Nat.pow_zero, Nat.mul_one, Nat.add_comm]
    congr 1
    apply Finset.sum_congr rfl
    intro i _
    rw [Function.comp_apply, Nat.pow_succ', Nat.mul_left_comm]

end Word

structure Machine.Alters {δ : Type} (id : PageId) (before after : Machine δ) : Prop where
  size : (after.memory.page id).size = (before.memory.page id).size
  base : (after.memory.page id).base = (before.memory.page id).base
  handles : after.memory.handles id = before.memory.handles id
  others : ∀ other, other ≠ id → after.memory.page other = before.memory.page other
  reachable : after.memory.reachable = before.memory.reachable
  device : after.device = before.device
  log : after.log = before.log

namespace Machine.Alters

variable {δ : Type} {id : PageId} {before middle after : Machine δ}

theorem refl (id : PageId) (machine : Machine δ) : Alters id machine machine :=
  ⟨rfl, rfl, rfl, fun _ _ => rfl, rfl, rfl, rfl⟩

theorem trans (first : Alters id before middle) (second : Alters id middle after) : Alters id before after where
  size := second.size.trans first.size
  base := second.base.trans first.base
  handles := second.handles.trans first.handles
  others other apart := (second.others other apart).trans (first.others other apart)
  reachable := second.reachable.trans first.reachable
  device := second.device.trans first.device
  log := second.log.trans first.log

theorem overwrite (machine : Machine δ) (id : PageId) (offset : Nat) (data : List UInt8) :
    Alters id machine { machine with memory := machine.memory.overwrite id offset data } where
  size := Memory.size_page_overwrite ..
  base := Memory.base_page_overwrite ..
  handles := Memory.handles_overwrite ..
  others other apart := by rw [Memory.page_overwrite, if_neg apart]
  reachable := rfl
  device := rfl
  log := rfl

end Machine.Alters

/-! ### Accesses -/

namespace Page

/-- What can be done with the bytes of a page, at any offset whatever. A word has any number of bytes; of a value that
is too large for it the low ones are stored. -/
inductive Access where
  | read (offset length : UInt64)
  | write (offset : UInt64) (data : List UInt8)
  | fill (offset length : UInt64) (value : UInt8)
  | readWord (width : Nat) (offset : UInt64)
  | writeWord (width : Nat) (offset : UInt64) (value : Nat)
  deriving DecidableEq, Repr

inductive Answer where
  | done
  | bytes (data : List UInt8)
  | word (value : Nat)
  deriving DecidableEq, Repr

variable {δ ε : Type} {machine : Machine δ} {id : PageId} {page : Page}

namespace Access

def perform (id : PageId) : Access → Step ε (Machine δ) Answer
  | .read offset length => return .bytes (← Machine.readBytes id offset.toNat length.toNat)
  | .write offset data => do
    Machine.writeBytes id offset.toNat data
    return .done
  | .fill offset length value => do
    Machine.fill id offset.toNat length.toNat value
    return .done
  | .readWord width offset => return .word (← Machine.readWord width id offset.toNat)
  | .writeWord width offset value => do
    Machine.writeWord width id offset.toNat value
    return .done

def offset : Access → UInt64
  | .read offset _ | .write offset _ | .fill offset _ _ | .readWord _ offset | .writeWord _ offset _ => offset

def extent : Access → Nat
  | .read _ length | .fill _ length _ => length.toNat
  | .write _ data => data.length
  | .readWord width _ | .writeWord width _ _ => width

def Inside (size : Nat) (access : Access) : Prop :=
  access.offset.toNat + access.extent ≤ size

instance (size : Nat) (access : Access) : Decidable (access.Inside size) :=
  inferInstanceAs (Decidable (_ ≤ _))

def data : Access → List UInt8
  | .read .. | .readWord .. => []
  | .write _ data => data
  | .fill _ length value => List.replicate length.toNat value
  | .writeWord width _ value => (List.range width).map fun i => UInt8.ofNat (value / 256 ^ i)

def byteAt (size place : Nat) (access : Access) : Option UInt8 :=
  if access.Inside size ∧ access.offset.toNat ≤ place then access.data[place - access.offset.toNat]? else none

def answer (contents : Nat → UInt8) : Access → Answer
  | .read offset length => .bytes ((List.range length.toNat).map fun i => contents (offset.toNat + i))
  | .readWord width offset => .word (∑ i ∈ Finset.range width, (contents (offset.toNat + i)).toNat * 256 ^ i)
  | .write .. | .fill .. | .writeWord .. => .done

theorem length_data_le (access : Access) : access.data.length ≤ access.extent := by
  cases access <;> simp [data, extent]

/-- To add up the end in 64 bits first, and to refuse an access if that fails, admits the same accesses. -/
theorem inside_iff_advance {size : Nat} (addressed : size < 2 ^ 64) (access : Access) :
    access.Inside size ↔
      ∃ last, Address.advance access.offset access.extent = .ok last ∧ last.toNat ≤ size := by
  simp only [Address.advance_eq_ok_iff]
  constructor
  · intro inside
    unfold Inside at inside
    refine ⟨UInt64.ofNat (access.offset.toNat + access.extent), ?_, ?_⟩ <;>
      rw [UInt64.toNat_ofNat_of_lt' (Nat.lt_of_le_of_lt inside addressed)]
    exact inside
  · rintro ⟨last, sum, inside⟩
    rwa [sum] at inside

/-- An access inside the page finds what stands there, and all it does is to put down its bytes. -/
theorem perform_of_inside (access : Access) (inside : access.Inside (machine.memory.page id).size) :
    (access.perform id : Step ε _ _) machine = .ok (access.answer (machine.memory.page id).byte)
      { machine with memory := machine.memory.overwrite id access.offset.toNat access.data } := by
  apply Step.Ends.eq_ok
  unfold perform
  cases access with
  | read offset length =>
    change offset.toNat + length.toNat ≤ _ at inside
    rw [Step.ends_bind, Machine.ends_readBytes inside, Step.ends_pure]
    simp only [answer, data, Memory.overwrite_nil, Memory.slice, Page.slice_eq_map inside, and_self]
  | write offset data =>
    change offset.toNat + data.length ≤ _ at inside
    rw [Step.ends_bind, Machine.ends_writeBytes inside, Step.ends_pure]
    exact ⟨rfl, rfl⟩
  | fill offset length value =>
    change offset.toNat + length.toNat ≤ _ at inside
    rw [Step.ends_bind, Machine.ends_fill value inside, Step.ends_pure]
    exact ⟨rfl, rfl⟩
  | readWord width offset =>
    change offset.toNat + width ≤ _ at inside
    rw [Step.ends_bind, Machine.ends_readWord inside, Step.ends_pure]
    simp only [answer, data, Memory.overwrite_nil, Memory.slice, Page.slice_eq_map inside, Word.ofBytes_map, and_self]
  | writeWord width offset value =>
    change offset.toNat + width ≤ _ at inside
    rw [Step.ends_bind, Machine.ends_writeWord inside, Step.ends_pure, Word.bytes_eq_map]
    exact ⟨rfl, rfl⟩

theorem perform_of_outside (access : Access) (outside : ¬ access.Inside (machine.memory.page id).size) :
    (access.perform id : Step ε _ _) machine =
      .error (.violated ((machine.memory.page id).outside access.offset.toNat access.extent)) machine := by
  have past := Nat.lt_of_not_le outside
  apply Step.Ends.eq_error
  unfold perform
  cases access with
  | read offset length =>
    change _ < offset.toNat + length.toNat at past
    unfold Machine.readBytes
    rw [Step.ends_bind, Step.ends_bind, Machine.ends_access_of_outside past]
    exact ⟨rfl, rfl⟩
  | write offset data =>
    change _ < offset.toNat + data.length at past
    unfold Machine.writeBytes
    rw [Step.ends_bind, Step.ends_bind, Machine.ends_access_of_outside past]
    exact ⟨rfl, rfl⟩
  | fill offset length value =>
    change _ < offset.toNat + length.toNat at past
    unfold Machine.fill
    rw [Step.ends_bind, Step.ends_bind, Machine.ends_access_of_outside past]
    exact ⟨rfl, rfl⟩
  | readWord width offset =>
    change _ < offset.toNat + width at past
    unfold Machine.readWord Machine.readBytes
    rw [Step.ends_bind, Step.ends_bind, Step.ends_bind, Machine.ends_access_of_outside past]
    exact ⟨rfl, rfl⟩
  | writeWord width offset value =>
    change _ < offset.toNat + width at past
    unfold Machine.writeWord Machine.writeBytes
    rw [Step.ends_bind, Step.ends_bind, Word.length_bytes, Machine.ends_access_of_outside past]
    exact ⟨rfl, rfl⟩

/-- In a page that it lies inside, an access leaves its bytes where it put them and the old ones elsewhere. -/
theorem getElem?_overwrite (access : Access) (inside : access.Inside page.size) (place : Nat) :
    (page.overwrite access.offset.toNat access.data).bytes[place]? =
      if access.offset.toNat ≤ place ∧ place < access.offset.toNat + access.data.length then
        access.data[place - access.offset.toNat]?
      else page.bytes[place]? := by
  have short := access.length_data_le
  unfold Inside Page.size at inside
  rw [overwrite, getElem?_overwriteBytes]
  exact if_congr (by omega) rfl rfl

theorem byte_overwrite (access : Access) (inside : access.Inside page.size) (place : Nat) :
    (page.overwrite access.offset.toNat access.data).byte place =
      (access.byteAt page.size place).getD (page.byte place) := by
  rw [byte, access.getElem?_overwrite inside, byteAt]
  by_cases within : access.offset.toNat ≤ place ∧ place < access.offset.toNat + access.data.length
  · rw [if_pos within, if_pos ⟨inside, within.1⟩, List.getElem?_eq_getElem (by omega)]
    rfl
  · rw [if_neg within]
    split
    case isTrue past => rw [List.getElem?_eq_none (by omega), Option.getD_none, byte]
    case isFalse => rfl

end Access

/-! ### Sequences of accesses -/

/-- The machine after some accesses to a page. One that is refused is followed by the next one all the same. -/
def run (id : PageId) (machine : Machine δ) (accesses : List Access) : Machine δ :=
  accesses.foldl (fun machine access => (access.perform id : Step Empty _ _).after machine) machine

theorem run_concat (id : PageId) (machine : Machine δ) (accesses : List Access) (access : Access) :
    run id machine (accesses ++ [access]) = (access.perform id : Step Empty _ _).after (run id machine accesses) :=
  List.foldl_concat ..

def written (page : Page) (accesses : List Access) (place : Nat) : Option UInt8 :=
  accesses.reverse.findSome? (·.byteAt page.size place)

theorem written_concat (page : Page) (accesses : List Access) (access : Access) (place : Nat) :
    page.written (accesses ++ [access]) place = (access.byteAt page.size place).or (page.written accesses place) := by
  unfold written
  rw [List.reverse_concat, List.findSome?_cons]
  cases access.byteAt page.size place <;> rfl

/-- The array of bytes that some accesses leave: everywhere the byte that was put down last, and where there is none the
one that stood there before. -/
def contents (page : Page) (accesses : List Access) (place : Nat) : UInt8 :=
  (page.written accesses place).getD (page.byte place)

theorem contents_concat (page : Page) (accesses : List Access) (access : Access) (place : Nat) :
    page.contents (accesses ++ [access]) place =
      (access.byteAt page.size place).getD (page.contents accesses place) := by
  rw [contents, written_concat, Option.getD_or, contents]

theorem after_perform (id : PageId) (access : Access) (machine : Machine δ) :
    Machine.Alters id machine ((access.perform id : Step ε _ _).after machine) ∧
      ∀ place, (((access.perform id : Step ε _ _).after machine).memory.page id).byte place =
        (access.byteAt (machine.memory.page id).size place).getD ((machine.memory.page id).byte place) := by
  by_cases inside : access.Inside (machine.memory.page id).size
  · rw [Step.after_of_ok (access.perform_of_inside inside)]
    refine ⟨.overwrite .., fun place => ?_⟩
    rw [Memory.page_overwrite, if_pos rfl, access.byte_overwrite inside]
  · rw [Step.after_of_error (access.perform_of_outside inside)]
    refine ⟨.refl .., fun place => ?_⟩
    rw [Access.byteAt, if_neg (fun both => inside both.1), Option.getD_none]

/-- Whatever was done with a page, it holds what the array holds. -/
theorem run_contents (id : PageId) (machine : Machine δ) (accesses : List Access) :
    Machine.Alters id machine (run id machine accesses) ∧
      ((run id machine accesses).memory.page id).byte = (machine.memory.page id).contents accesses := by
  induction accesses using List.reverseRecOn with
  | nil => exact ⟨.refl .., rfl⟩
  | append_singleton accesses access ih =>
    obtain ⟨altered, held⟩ := ih
    obtain ⟨alters, holds⟩ := after_perform (ε := Empty) id access (run id machine accesses)
    rw [run_concat]
    refine ⟨altered.trans alters, funext fun place => ?_⟩
    -- the page keeps its size, so the same accesses go through now as at first
    rw [holds, held, altered.size, contents_concat]

/-- Whatever was done with a page before, it holds one array of bytes: everywhere the byte that was put down last, the
lowest digit of a word first. An access goes through exactly if it ends inside the page, counting without bound or in
64 bits with overflow refused. It is then answered from the array, a word as the sum of its digits, and it puts down its
bytes and no others. An access that does not go through changes nothing. -/
theorem pages_are_byte_arrays (machine : Machine δ) (id : PageId)
    (addressed : (machine.memory.page id).size < 2 ^ 64) (accesses : List Access) (access : Access) :
    let page := machine.memory.page id
    let now := run id machine accesses
    Machine.Alters id machine now ∧
    (∀ place < page.size, (now.memory.page id).bytes[place]? = some (page.contents accesses place)) ∧
    (access.Inside page.size ↔
      ∃ last, Address.advance access.offset access.extent = .ok last ∧ last.toNat ≤ page.size) ∧
    (access.Inside page.size → ∃ next,
      (access.perform id : Step ε _ _) now = .ok (access.answer (page.contents accesses)) next ∧
      Machine.Alters id now next ∧
      ∀ place, (next.memory.page id).bytes[place]? =
        if access.offset.toNat ≤ place ∧ place < access.offset.toNat + access.data.length then
          access.data[place - access.offset.toNat]?
        else (now.memory.page id).bytes[place]?) ∧
    (¬ access.Inside page.size → (access.perform id : Step ε _ _) now =
      .error (.violated (.pageAccess access.offset.toNat access.extent page.size page.base)) now) := by
  intro page now
  obtain ⟨altered, held⟩ := run_contents id machine accesses
  have size : (now.memory.page id).size = page.size := altered.size
  refine ⟨altered, fun place inside => ?_, access.inside_iff_advance addressed, fun inside => ?_, fun outside => ?_⟩
  · rw [← held]
    have present : place < (now.memory.page id).bytes.size := Nat.lt_of_lt_of_eq inside altered.size.symm
    rw [byte, Array.getElem?_eq_getElem present, Option.getD_some]
  · have decided := access.perform_of_inside (ε := ε) (size.symm ▸ inside)
    rw [held] at decided
    refine ⟨_, decided, .overwrite .., fun place => ?_⟩
    rw [Memory.page_overwrite, if_pos rfl, access.getElem?_overwrite (size.symm ▸ inside)]
  · rw [access.perform_of_outside (size.symm ▸ outside), Page.outside, size, altered.base]

/-- Words of two widths that overlap, read back in a third one, and accesses past the end in between. -/
theorem pages_are_byte_arrays_across_widths :
    let machine : Machine Unit := ⟨(Memory.empty.adopt 0x1000 (Array.replicate 12 7)).2, (), #[]⟩
    let accesses : List Access :=
      [.writeWord 4 2 0x44332211, .write 11 [1, 2], .writeWord 2 4 0xBBAA, .fill 0xFFFFFFFFFFFFFFFF 2 9]
    let now := run ⟨0⟩ machine accesses
    (machine.memory.page ⟨0⟩).size < 2 ^ 64 ∧
    (∃ next, ((Access.readWord 8 0).perform ⟨0⟩ : Step Empty _ _) now = .ok (.word 0x0707BBAA22110707) next) ∧
    ((Access.writeWord 2 11 0).perform ⟨0⟩ : Step Empty _ _) now =
      .error (.violated (.pageAccess 11 2 12 0x1000)) now := by
  intro machine accesses now
  have addressed : (machine.memory.page ⟨0⟩).size < 2 ^ 64 := Nat.lt_of_le_of_lt (Nat.le_refl 12) (by decide)
  obtain ⟨-, -, -, reads, -⟩ := pages_are_byte_arrays (ε := Empty) machine ⟨0⟩ addressed accesses (.readWord 8 0)
  obtain ⟨-, -, -, -, refused⟩ := pages_are_byte_arrays (ε := Empty) machine ⟨0⟩ addressed accesses (.writeWord 2 11 0)
  obtain ⟨next, read, -⟩ := reads (by decide)
  have sum : (Access.readWord 8 0).answer ((machine.memory.page ⟨0⟩).contents accesses) = .word 0x0707BBAA22110707 := by
    decide
  exact ⟨addressed, ⟨next, sum ▸ read⟩, refused (by decide)⟩

end Page

/-! ### Copies -/

namespace Machine

variable {δ ε : Type} {machine : Machine δ} {target source : PageId} {targetOffset sourceOffset length : Nat}

theorem copy_of_target_outside (outside : (machine.memory.page target).size < targetOffset + length) :
    (copy target targetOffset source sourceOffset length : Step ε _ _) machine =
      .error (.violated ((machine.memory.page target).outside targetOffset length)) machine := by
  apply Step.Ends.eq_error
  unfold copy
  rw [Step.ends_bind, ends_access_of_outside outside]
  exact ⟨rfl, rfl⟩

theorem copy_of_source_outside (room : targetOffset + length ≤ (machine.memory.page target).size)
    (outside : (machine.memory.page source).size < sourceOffset + length) :
    (copy target targetOffset source sourceOffset length : Step ε _ _) machine =
      .error (.violated ((machine.memory.page source).outside sourceOffset length)) machine := by
  apply Step.Ends.eq_error
  unfold copy
  rw [Step.ends_bind, ends_access room, Step.ends_bind, ends_access_of_outside outside]
  exact ⟨rfl, rfl⟩

theorem copy_of_inside (room : targetOffset + length ≤ (machine.memory.page target).size)
    (covered : sourceOffset + length ≤ (machine.memory.page source).size) :
    (copy target targetOffset source sourceOffset length : Step ε _ _) machine =
      .ok () { machine with
        memory := machine.memory.overwrite target targetOffset
          (machine.memory.copied target targetOffset source sourceOffset length) } := by
  apply Step.Ends.eq_ok
  rw [ends_copy_covered room covered, Memory.copyBytes_eq_overwrite covered]
  exact ⟨rfl, rfl⟩

/-- A copy is refused, and nothing is changed, exactly if one of its two ranges ends past the end of its page. Otherwise
it goes through and changes its target only. If it goes to a later place of the same page, less than its length away, the
bytes between the two places are repeated all through the target; in every other case the target holds what stood in the
source before. -/
theorem copy_decided (machine : Machine δ) (target source : PageId) (targetOffset sourceOffset length : UInt64) :
    let here := machine.memory.page target
    let there := machine.memory.page source
    let copying : Step ε (Machine δ) Unit :=
      copy target targetOffset.toNat source sourceOffset.toNat length.toNat
    let distance := targetOffset.toNat - sourceOffset.toNat
    (here.size < targetOffset.toNat + length.toNat → copying machine =
      .error (.violated (.pageAccess targetOffset.toNat length.toNat here.size here.base)) machine) ∧
    (targetOffset.toNat + length.toNat ≤ here.size → there.size < sourceOffset.toNat + length.toNat →
      copying machine =
        .error (.violated (.pageAccess sourceOffset.toNat length.toNat there.size there.base)) machine) ∧
    (targetOffset.toNat + length.toNat ≤ here.size → sourceOffset.toNat + length.toNat ≤ there.size →
      ∃ after, copying machine = .ok () after ∧ Alters target machine after ∧
        (∀ i < length.toNat, (after.memory.page target).bytes[targetOffset.toNat + i]? =
          there.bytes[sourceOffset.toNat +
            if target = source ∧ 0 < distance ∧ distance < length.toNat then i % distance else i]?) ∧
        ∀ place, place < targetOffset.toNat ∨ targetOffset.toNat + length.toNat ≤ place →
          (after.memory.page target).bytes[place]? = here.bytes[place]?) := by
  intro here there copying distance
  refine ⟨copy_of_target_outside, copy_of_source_outside, fun room covered => ?_⟩
  refine ⟨_, copy_of_inside room covered, .overwrite .., fun i inside => ?_, fun place outside => ?_⟩
  · change _ ≤ (machine.memory.page target).bytes.size at room
    rw [Memory.page_overwrite, if_pos rfl, Page.overwrite, Page.getElem?_overwriteBytes, Memory.length_copied,
      if_pos (by omega), Nat.add_sub_cancel_left, Memory.getElem?_copied covered inside, Memory.copiedIndex_eq inside]
  · rw [Memory.page_overwrite, if_pos rfl, Page.overwrite, Page.getElem?_overwriteBytes, Memory.length_copied,
      if_neg (by omega)]

/-- Four bytes are copied two places further on, and a copy whose end would wrap is refused. -/
theorem copy_decided_over_itself :
    let machine : Machine Unit := ⟨(Memory.empty.adopt 0x1000 #[1, 2, 3, 4, 5, 6, 7, 8]).2, (), #[]⟩
    (∃ after, (copy ⟨0⟩ 3 ⟨0⟩ 1 4 : Step Empty _ _) machine = .ok () after ∧
      (∀ i < 4, (after.memory.page ⟨0⟩).bytes[3 + i]? = [2, 3, 2, 3][i]?) ∧
      (after.memory.page ⟨0⟩).bytes[2]? = some 3 ∧ (after.memory.page ⟨0⟩).bytes[7]? = some 8) ∧
    (copy ⟨0⟩ 0xFFFFFFFFFFFFFFFF ⟨0⟩ 0 2 : Step Empty _ _) machine =
      .error (.violated (.pageAccess 0xFFFFFFFFFFFFFFFF 2 8 0x1000)) machine := by
  intro machine
  obtain ⟨-, -, goes⟩ := copy_decided (ε := Empty) machine ⟨0⟩ ⟨0⟩ 3 1 4
  obtain ⟨refused, -⟩ := copy_decided (ε := Empty) machine ⟨0⟩ ⟨0⟩ 0xFFFFFFFFFFFFFFFF 0 2
  obtain ⟨after, went, -, inside, outside⟩ := goes (by decide) (by decide)
  refine ⟨⟨after, went, fun i early => (inside i early).trans ?_, (outside 2 (by decide)).trans rfl,
    (outside 7 (by decide)).trans rfl⟩, refused (by decide)⟩
  match i, early with
  | 0, _ | 1, _ | 2, _ | 3, _ => rfl

end Machine

end PacketPath
