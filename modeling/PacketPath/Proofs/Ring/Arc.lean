import Mathlib.Logic.Basic

/-! Arcs: runs of slots on a ring, counted on from a first slot past the end to the front again. A
ring with a used arc and a free arc behind it is covered by the two, once each. -/

set_option autoImplicit false

namespace PacketPath

theorem getElem?_push {α : Type} {queue : List α} {item found : α} {i : Nat}
    (here : (queue ++ [item])[i]? = some found) : queue[i]? = some found ∨ i = queue.length ∧ found = item := by
  rcases Nat.lt_or_ge i queue.length with before | last
  · rw [List.getElem?_append_left before] at here
    exact .inl here
  · rw [List.getElem?_append_right last] at here
    rcases Nat.eq_zero_or_pos (i - queue.length) with none | more
    · rw [none, List.getElem?_cons_zero, Option.some.injEq] at here
      exact .inr ⟨by omega, here.symm⟩
    · rw [List.getElem?_eq_none (Nat.succ_le_of_lt more)] at here
      cases here

namespace Ring

theorem mod_eq_of_lt_two_laps {place capacity : Nat} (short : place < 2 * capacity) :
    place % capacity = if place < capacity then place else place - capacity := by
  split
  case isTrue first => exact Nat.mod_eq_of_lt first
  case isFalse second =>
    rw [Nat.mod_eq_sub_mod (by omega), Nat.mod_eq_of_lt (by omega)]

theorem succ_mod_add (capacity start i : Nat) :
    ((start + 1) % capacity + i) % capacity = (start + (i + 1)) % capacity := by
  rw [Nat.mod_add_mod, Nat.add_assoc, Nat.add_comm 1]

theorem succ_mod_pred {capacity start : Nat} (inside : start < capacity) :
    ((start + 1) % capacity + capacity - 1) % capacity = start := by
  rw [mod_eq_of_lt_two_laps (show start + 1 < 2 * capacity by omega)]
  split
  case isTrue =>
    rw [show start + 1 + capacity - 1 = start + capacity by omega, Nat.add_mod_right, Nat.mod_eq_of_lt inside]
  case isFalse =>
    rw [show start + 1 - capacity + capacity - 1 = start by omega, Nat.mod_eq_of_lt inside]

theorem succ_mod_sub {capacity start : Nat} (several : 1 < capacity) (inside : start < capacity) :
    ((start + 1) % capacity + capacity - start) % capacity = 1 := by
  rw [mod_eq_of_lt_two_laps (show start + 1 < 2 * capacity by omega)]
  split
  case isTrue =>
    rw [show start + 1 + capacity - start = 1 + capacity by omega, Nat.add_mod_right, Nat.mod_eq_of_lt several]
  case isFalse =>
    rw [show start + 1 - capacity + capacity - start = 1 by omega, Nat.mod_eq_of_lt several]

/-- So many slots in the order of the ring, from `start` on. -/
def arc (capacity start : Nat) : (count : Nat) → List Nat
  | 0 => []
  | count + 1 => start :: arc capacity ((start + 1) % capacity) count

variable {capacity start count slot : Nat}

@[simp] theorem length_arc (capacity start count : Nat) : (arc capacity start count).length = count := by
  induction count generalizing start with
  | zero => rfl
  | succ count ih => rw [arc, List.length_cons, ih]

theorem arc_append (inside : start < capacity) (first second : Nat) :
    arc capacity start (first + second) =
      arc capacity start first ++ arc capacity ((start + first) % capacity) second := by
  induction first generalizing start with
  | zero => rw [Nat.zero_add, Nat.add_zero, Nat.mod_eq_of_lt inside, arc, List.nil_append]
  | succ first ih =>
    have next : (start + 1) % capacity < capacity := Nat.mod_lt _ (by omega)
    rw [Nat.succ_add_eq_add_succ, Nat.add_succ, arc, ih next, succ_mod_add, arc, List.cons_append]

theorem arc_succ_last (inside : start < capacity) (count : Nat) :
    arc capacity start (count + 1) = arc capacity start count ++ [(start + count) % capacity] := by
  rw [arc_append inside, arc, arc]

theorem mem_arc_iff (inside : start < capacity) :
    slot ∈ arc capacity start count ↔ ∃ i, i < count ∧ slot = (start + i) % capacity := by
  induction count generalizing start with
  | zero => simp [arc]
  | succ count ih =>
    have next : (start + 1) % capacity < capacity := Nat.mod_lt _ (by omega)
    rw [arc, List.mem_cons, ih next]
    constructor
    · rintro (rfl | ⟨i, short, rfl⟩)
      · exact ⟨0, by omega, by rw [Nat.add_zero, Nat.mod_eq_of_lt inside]⟩
      · exact ⟨i + 1, by omega, succ_mod_add capacity start i⟩
    · rintro ⟨i, short, rfl⟩
      cases i with
      | zero => left; rw [Nat.add_zero, Nat.mod_eq_of_lt inside]
      | succ i => exact Or.inr ⟨i, by omega, (succ_mod_add capacity start i).symm⟩

theorem mem_arc_of_lt (inside : start < capacity) {i : Nat} (short : i < count) :
    (start + i) % capacity ∈ arc capacity start count :=
  (mem_arc_iff inside).mpr ⟨i, short, rfl⟩

theorem not_mem_arc_cons_iff :
    slot ∉ arc capacity start (count + 1) ↔ slot ≠ start ∧ slot ∉ arc capacity ((start + 1) % capacity) count := by
  rw [arc, List.mem_cons, not_or]

theorem not_mem_arc_succ_iff (inside : start < capacity) :
    slot ∉ arc capacity start (count + 1) ↔ slot ∉ arc capacity start count ∧ slot ≠ (start + count) % capacity := by
  rw [arc_succ_last inside, List.mem_append, List.mem_singleton, not_or]

theorem lt_of_mem_arc (inside : start < capacity) (listed : slot ∈ arc capacity start count) :
    slot < capacity := by
  obtain ⟨i, -, rfl⟩ := (mem_arc_iff inside).mp listed
  exact Nat.mod_lt _ (by omega)

theorem end_not_mem_arc (inside : start < capacity) (room : count < capacity) :
    (start + count) % capacity ∉ arc capacity start count := by
  intro listed
  obtain ⟨i, short, same⟩ := (mem_arc_iff inside).mp listed
  rw [mod_eq_of_lt_two_laps (by omega), mod_eq_of_lt_two_laps (by omega)] at same
  split at same <;> split at same <;> omega

theorem nodup_arc (inside : start < capacity) (fits : count ≤ capacity) :
    (arc capacity start count).Nodup := by
  induction count with
  | zero => exact List.nodup_nil
  | succ count ih =>
    rw [arc_succ_last inside, List.nodup_append]
    refine ⟨ih (by omega), List.pairwise_singleton .., ?_⟩
    intro earlier listed last same
    rw [List.mem_singleton.mp same]
    rintro rfl
    exact end_not_mem_arc inside (by omega) listed

theorem start_not_mem_arc (inside : start < capacity) (room : count < capacity) :
    start ∉ arc capacity ((start + 1) % capacity) count := by
  have whole : (arc capacity start (count + 1)).Nodup := nodup_arc inside room
  exact (List.nodup_cons.mp whole).1

theorem not_mem_arc_of_mem_rest (inside : start < capacity) (fits : count ≤ capacity)
    (listed : slot ∈ arc capacity ((start + count) % capacity) (capacity - count)) :
    slot ∉ arc capacity start count := by
  intro used
  have whole : (arc capacity start (count + (capacity - count))).Nodup := nodup_arc inside (by omega)
  rw [arc_append inside, List.nodup_append] at whole
  exact whole.2.2 slot used slot listed rfl

/-! ### The front of an arc -/

/-- How many of the next `limit` slots from `start` on hold what is asked for, up to the first that does not. -/
def leading (capacity : Nat) (holds : Nat → Bool) (start : Nat) : (limit : Nat) → Nat
  | 0 => 0
  | limit + 1 => if holds start then leading capacity holds ((start + 1) % capacity) limit + 1 else 0

variable {holds : Nat → Bool} {limit : Nat}

theorem leading_le (capacity : Nat) (holds : Nat → Bool) (start limit : Nat) :
    leading capacity holds start limit ≤ limit := by
  induction limit generalizing start with
  | zero => exact Nat.le_refl _
  | succ limit ih =>
    unfold leading
    split
    · exact Nat.succ_le_succ (ih _)
    · exact Nat.zero_le _

theorem holds_of_lt_leading (inside : start < capacity) {i : Nat}
    (early : i < leading capacity holds start limit) : holds ((start + i) % capacity) = true := by
  induction limit generalizing start i with
  | zero => cases early
  | succ limit ih =>
    unfold leading at early
    split at early
    case isFalse => cases early
    case isTrue here =>
      cases i with
      | zero => rwa [Nat.add_zero, Nat.mod_eq_of_lt inside]
      | succ i =>
        rw [← succ_mod_add]
        exact ih (Nat.mod_lt _ (Nat.zero_lt_of_lt inside)) (Nat.lt_of_succ_lt_succ early)

theorem not_holds_of_leading_lt (inside : start < capacity) (short : leading capacity holds start limit < limit) :
    holds ((start + leading capacity holds start limit) % capacity) = false := by
  induction limit generalizing start with
  | zero => cases short
  | succ limit ih =>
    unfold leading at short ⊢
    split at short
    case isFalse not =>
      rw [if_neg not, Nat.add_zero, Nat.mod_eq_of_lt inside]
      exact eq_false_of_ne_true not
    case isTrue here =>
      rw [if_pos here, ← succ_mod_add]
      exact ih (Nat.mod_lt _ (Nat.zero_lt_of_lt inside)) (Nat.lt_of_succ_lt_succ short)

theorem leading_congr {other : Nat → Bool} (same : ∀ place ∈ arc capacity start limit, other place = holds place) :
    leading capacity other start limit = leading capacity holds start limit := by
  induction limit generalizing start with
  | zero => rfl
  | succ limit ih =>
    unfold leading
    rw [same start (List.mem_cons_self ..), ih fun place listed => same place (List.mem_cons_of_mem _ listed)]

end Ring

end PacketPath
