import PacketPath.Word
import PacketPath.Violation

/-! Pages: runs of memory that the device reaches by address and that handles keep alive. -/

set_option autoImplicit false

namespace PacketPath

/-- Names a page for as long as the memory exists. -/
structure PageId where
  index : Nat
  deriving DecidableEq, Repr, Inhabited

structure Page where
  /-- The address of the first byte as the device sees it. -/
  base : UInt64
  bytes : Array UInt8
  /-- The handles that exist to the page; it is alive while there is one. -/
  handles : Nat
  deriving Repr

namespace Page

/-- The page behind a name that was never given out: no bytes, and not alive. -/
def absent : Page :=
  ⟨0, #[], 0⟩

instance : Inhabited Page :=
  ⟨absent⟩

def size (page : Page) : Nat :=
  page.bytes.size

/-- An access lies inside the page when its end, as an unbounded number, does. -/
def covers (page : Page) (offset length : Nat) : Bool :=
  offset + length ≤ page.size

def byte (page : Page) (offset : Nat) : UInt8 :=
  page.bytes[offset]?.getD 0

/-- The bytes from `offset` on, at most `length` of them. -/
def slice (page : Page) (offset length : Nat) : List UInt8 :=
  (page.bytes.extract offset (offset + length)).toList

def overwriteBytes (bytes : Array UInt8) : (offset : Nat) → (data : List UInt8) → Array UInt8
  | _, [] => bytes
  | offset, byte :: rest => overwriteBytes (bytes.setIfInBounds offset byte) (offset + 1) rest

def overwrite (page : Page) (offset : Nat) (data : List UInt8) : Page :=
  { page with bytes := overwriteBytes page.bytes offset data }

@[simp] theorem size_overwriteBytes (bytes : Array UInt8) (offset : Nat) (data : List UInt8) :
    (overwriteBytes bytes offset data).size = bytes.size := by
  induction data generalizing bytes offset with
  | nil => rfl
  | cons byte rest ih => simp [overwriteBytes, ih]

theorem getElem?_overwriteBytes (bytes : Array UInt8) (offset : Nat) (data : List UInt8) (i : Nat) :
    (overwriteBytes bytes offset data)[i]? =
      if offset ≤ i ∧ i < offset + data.length ∧ i < bytes.size then data[i - offset]? else bytes[i]? := by
  induction data generalizing bytes offset with
  | nil =>
    have empty : ¬ (offset ≤ i ∧ i < offset + 0 ∧ i < bytes.size) := by omega
    simp only [overwriteBytes, List.length_nil, if_neg empty]
  | cons byte rest ih =>
    rw [overwriteBytes, ih]
    simp only [Array.size_setIfInBounds, Array.getElem?_setIfInBounds, List.length_cons]
    by_cases here : offset = i
    · subst here
      by_cases inside : offset < bytes.size
      · simp [inside, show ¬ (offset + 1 ≤ offset) by omega]
      · simp [inside]
    · by_cases later : offset + 1 ≤ i ∧ i < offset + 1 + rest.length ∧ i < bytes.size
      · have whole : offset ≤ i ∧ i < offset + (rest.length + 1) ∧ i < bytes.size := by omega
        rw [if_pos later, if_pos whole]
        have split : i - offset = (i - (offset + 1)) + 1 := by omega
        rw [split, List.getElem?_cons_succ]
      · have whole : ¬ (offset ≤ i ∧ i < offset + (rest.length + 1) ∧ i < bytes.size) := by omega
        rw [if_neg later, if_neg whole, if_neg here]

def text (page : Page) : String :=
  let base := Text.hex page.base.toNat
  s!"DmaFrame \x7b paddr: {base}, len: {page.size} \x7d"

def outside (page : Page) (offset length : Nat) : Violation :=
  .pageAccess offset length page.size page.base

end Page

end PacketPath
