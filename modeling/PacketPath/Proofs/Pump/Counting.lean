import PacketPath.Proofs.Pump.Attempts

/-! Counting attempts. Of every wait it is told how often the step was asked, how often there was a pause and in which
order. The wait is carried out with a counter of 32 bits, which stays at its largest number; that counter ends a wait
exactly when the limit is reached, and it never ends one that has no limit. -/

set_option autoImplicit false

namespace PacketPath.Retry

variable {ε σ α β : Type}

section

variable {attempt : Step ε σ (Option α)} {pause : Step ε σ Unit} {giveUp : Nat → Step ε σ (Wait α)}
  {further made waits : Nat} {value : α} {state middle next ready last : σ}

/-! ### One round -/

theorem loop_of_found (found : attempt state = .ok (some value) last) :
    loop attempt pause giveUp further made state = .ok ⟨.ok value, made⟩ last := by
  unfold loop
  rw [Step.bind_of_ok found]
  rfl

theorem loop_of_missed_last (missed : attempt state = .ok none middle) :
    loop attempt pause giveUp 0 made state = giveUp (made + 1) middle := by
  unfold loop
  rw [Step.bind_of_ok missed]

theorem loop_of_missed (missed : attempt state = .ok none middle) (paused : pause middle = .ok () next) :
    loop attempt pause giveUp (further + 1) made state = loop attempt pause giveUp further (made + 1) next := by
  rw [loop, Step.bind_of_ok missed]
  exact Step.bind_of_ok paused _

theorem loop_yields {wait : Wait α} (yielded : loop attempt pause giveUp further made state = .ok wait last) :
    (∃ value, attempt state = .ok (some value) last ∧ wait = ⟨.ok value, made⟩) ∨
    (∃ middle, attempt state = .ok none middle ∧ further = 0 ∧ giveUp (made + 1) middle = .ok wait last) ∨
    ∃ middle next rest, attempt state = .ok none middle ∧ further = rest + 1 ∧ pause middle = .ok () next ∧
      loop attempt pause giveUp rest (made + 1) next = .ok wait last := by
  cases attempted : attempt state with
  | error stop after =>
    unfold loop at yielded
    rw [Step.bind_of_error attempted] at yielded
    cases yielded
  | ok found middle =>
    cases found with
    | some value =>
      rw [loop_of_found attempted] at yielded
      cases yielded
      exact .inl ⟨value, rfl, rfl⟩
    | none =>
      cases further with
      | zero =>
        rw [loop_of_missed_last attempted] at yielded
        exact .inr (.inl ⟨middle, rfl, rfl, yielded⟩)
      | succ rest =>
        cases paused : pause middle with
        | error stop after =>
          unfold loop at yielded
          rw [Step.bind_of_ok attempted] at yielded
          dsimp only at yielded
          rw [Step.bind_of_error paused] at yielded
          cases yielded
        | ok rested next =>
          rw [loop_of_missed attempted paused] at yielded
          exact .inr (.inr ⟨middle, next, rest, rfl, rfl, paused, yielded⟩)

/-! ### Whole waits -/

theorem loop_of_waits (waited : Waits attempt pause waits state ready) (found : attempt ready = .ok (some value) last)
    (within : waits ≤ further) (made : Nat) :
    loop attempt pause giveUp further made state = .ok ⟨.ok value, made + waits⟩ last := by
  induction waited generalizing further made with
  | none => exact loop_of_found found
  | @more waits _ _ _ _ missed paused _ ih =>
    obtain ⟨rest, rfl⟩ : ∃ rest, further = rest + 1 := ⟨further - 1, by omega⟩
    rw [loop_of_missed missed paused, ih found (by omega), Nat.add_right_comm, Nat.add_assoc]

theorem loop_of_waits_spent (waited : Waits attempt pause further state ready) (missed : attempt ready = .ok none last)
    (made : Nat) : loop attempt pause giveUp further made state = giveUp (made + further + 1) last := by
  induction waited generalizing made with
  | none => exact loop_of_missed_last missed
  | more missed' paused _ ih =>
    rw [loop_of_missed missed' paused, ih missed, Nat.add_right_comm made, Nat.add_assoc made]

theorem missed_before (waited : Waits attempt pause waits state ready) {fewer : Nat} (before : fewer < waits) :
    ∃ early middle, Waits attempt pause fewer state early ∧ attempt early = .ok none middle := by
  induction waited generalizing fewer with
  | none => omega
  | more missed paused _ ih =>
    cases fewer with
    | zero => exact ⟨_, _, .none, missed⟩
    | succ fewer =>
      obtain ⟨early, middle, waited, missed'⟩ := ih (Nat.lt_of_succ_lt_succ before)
      exact ⟨early, middle, .more missed paused waited, missed'⟩

/-- What never stops either is ready at one of the attempts or is ready at none of them. -/
theorem waits_total (answers : ∀ state, ∃ found after, attempt state = .ok found after)
    (rests : ∀ state, ∃ after, pause state = .ok () after) (further : Nat) (state : σ) :
    (∃ waits ready value last, waits ≤ further ∧ Waits attempt pause waits state ready ∧
      attempt ready = .ok (some value) last) ∨
    ∃ ready last, Waits attempt pause further state ready ∧ attempt ready = .ok none last := by
  induction further generalizing state with
  | zero =>
    obtain ⟨found, after, attempted⟩ := answers state
    cases found with
    | some value => exact .inl ⟨0, _, _, _, Nat.le_refl 0, .none, attempted⟩
    | none => exact .inr ⟨_, _, .none, attempted⟩
  | succ further ih =>
    obtain ⟨found, middle, attempted⟩ := answers state
    cases found with
    | some value => exact .inl ⟨0, _, _, _, Nat.zero_le _, .none, attempted⟩
    | none =>
      obtain ⟨next, paused⟩ := rests middle
      obtain ⟨waits, ready, value, last, within, waited, found⟩ | ⟨ready, last, waited, missed⟩ := ih next
      · exact .inl ⟨_, _, _, _, Nat.succ_le_succ within, .more attempted paused waited, found⟩
      · exact .inr ⟨_, _, .more attempted paused waited, missed⟩

end

/-! ### The record of a wait -/

inductive Move where
  | asked
  | paused
  deriving DecidableEq, Repr

def noting (move : Move) (step : Step ε σ β) : Step ε (List Move × σ) β := do
  modify fun (record, state) => (record ++ [move], state)
  step.second

/-- Some rounds: in each the step is asked and is not ready, and a pause follows. -/
def rounds (waits : Nat) : List Move :=
  (List.replicate waits [.asked, .paused]).flatten

/-- A record with some pauses, each of them between two attempts. -/
def transcript (pauses : Nat) : List Move :=
  rounds pauses ++ [.asked]

theorem rounds_succ (waits : Nat) : rounds (waits + 1) = .asked :: .paused :: rounds waits :=
  rfl

theorem count_transcript (pauses : Nat) :
    (transcript pauses).count .asked = pauses + 1 ∧ (transcript pauses).count .paused = pauses := by
  unfold transcript
  induction pauses with
  | zero => decide
  | succ pauses ih => simp_all [rounds_succ]

theorem noting_of_ok {step : Step ε σ β} {value : β} {state after : σ} (ended : step state = .ok value after)
    (move : Move) (record : List Move) : noting move step (record, state) = .ok value (record ++ [move], after) := by
  have noted : (modify fun (record, state) => (record ++ [move], state) : Step ε (List Move × σ) PUnit)
      (record, state) = .ok ⟨⟩ (record ++ [move], state) := rfl
  unfold noting
  rw [Step.bind_of_ok noted]
  simp only [Step.second, Step.within, ended]

section

variable {attempt : Step ε σ (Option α)} {pause : Step ε σ Unit} {waits : Nat} {state ready : σ}

theorem noting_waits (waited : Waits attempt pause waits state ready) (record : List Move) :
    Waits (noting .asked attempt) (noting .paused pause) waits (record, state) (record ++ rounds waits, ready) := by
  induction waited generalizing record with
  | none =>
    have empty : record ++ rounds 0 = record := List.append_nil record
    rw [empty]
    exact .none
  | @more waits _ _ _ _ missed paused _ ih =>
    have longer : record ++ rounds (waits + 1) = record ++ [.asked] ++ [.paused] ++ rounds waits := by
      simp [rounds_succ]
    rw [longer]
    exact .more (noting_of_ok missed .asked record) (noting_of_ok paused .paused _) (ih _)

end

/-! ### The counter -/

/-- Count one more attempt. The counter stays at its largest number. -/
def tally (count : UInt32) : UInt32 :=
  if count = 0xFFFFFFFF then count else count + 1

/-- Whether one more attempt may follow so many. -/
def Allows : Budget → UInt32 → Prop
  | .unbounded, _ => True
  | .attempts limit, count => count < limit

/-- How a wait goes on from a count: each attempt is counted, and the count decides whether another one follows. -/
inductive Polls (budget : Budget) (attempt : Step ε σ (Option α)) (pause : Step ε σ Unit) :
    UInt32 → σ → Except Exhausted α → σ → Prop where
  | ready {count : UInt32} {value : α} {state last : σ} (found : attempt state = .ok (some value) last) :
      Polls budget attempt pause count state (.ok value) last
  | spent {count : UInt32} {state last : σ} (missed : attempt state = .ok none last)
      (refused : ¬ Allows budget (tally count)) :
      Polls budget attempt pause count state (.error ⟨(tally count).toNat⟩) last
  | again {count : UInt32} {result : Except Exhausted α} {state middle next last : σ}
      (missed : attempt state = .ok none middle) (allowed : Allows budget (tally count))
      (paused : pause middle = .ok () next) (later : Polls budget attempt pause (tally count) next result last) :
      Polls budget attempt pause count state result last

def most (limit : UInt32) : Nat :=
  max limit.toNat 1

theorem toNat_tally (limit : UInt32) {count : UInt32} (below : count.toNat < most limit) :
    (tally count).toNat = count.toNat + 1 := by
  have largest := limit.toNat_lt
  have room : count.toNat + 1 < 2 ^ 32 := by
    unfold most at below
    omega
  have narrow : count ≠ 0xFFFFFFFF := by
    rintro rfl
    exact absurd room (by decide)
  unfold tally
  rw [if_neg narrow, UInt32.toNat_add, UInt32.toNat_one, Nat.mod_eq_of_lt room]

section

variable {attempt : Step ε σ (Option α)} {pause : Step ε σ Unit} {state last : σ} {result : Except Exhausted α}

theorem allows_attempts_iff {limit count : UInt32} (further : Nat) (room : count.toNat + further + 1 = most limit) :
    Allows (.attempts limit) (tally count) ↔ further ≠ 0 := by
  have counted : (tally count).toNat = count.toNat + 1 := toNat_tally limit (by omega)
  unfold most at room
  change tally count < limit ↔ further ≠ 0
  rw [UInt32.lt_iff_toNat_lt, counted]
  omega

/-- The counter of 32 bits gives up after the same attempt as the loop, and reports the same number. -/
theorem polls_attempts_iff {limit count : UInt32} {further : Nat} (room : count.toNat + further + 1 = most limit) :
    Polls (.attempts limit) attempt pause count state result last ↔
      ∃ waits, loop attempt pause (fun made => return ⟨.error ⟨made⟩, made⟩) further count.toNat state =
        .ok ⟨result, waits⟩ last := by
  -- Induction on the attempts that are left, whatever has been counted.
  induction further generalizing count state with
  | zero =>
    have counted : (tally count).toNat = count.toNat + 1 := toNat_tally limit (by omega)
    have allowed := allows_attempts_iff 0 room
    constructor
    · intro polls
      cases polls with
      | ready found => exact ⟨_, loop_of_found found⟩
      | spent missed _ => exact ⟨count.toNat + 1, by rw [loop_of_missed_last missed, counted]; rfl⟩
      | again _ more _ _ => exact absurd rfl (allowed.mp more)
    · rintro ⟨waits, ran⟩
      obtain ⟨value, found, same⟩ | ⟨middle, missed, -, gave⟩ | ⟨_, _, _, _, more, _⟩ := loop_yields ran
      · cases same
        exact .ready found
      · cases gave
        rw [← counted]
        exact .spent missed fun more => allowed.mp more rfl
      · cases more
  | succ further ih =>
    have counted : (tally count).toNat = count.toNat + 1 := toNat_tally limit (by omega)
    have allowed : Allows (.attempts limit) (tally count) := (allows_attempts_iff _ room).mpr (Nat.succ_ne_zero _)
    have later (next : σ) := @ih next (tally count) (by omega)
    rw [counted] at later
    constructor
    · intro polls
      cases polls with
      | ready found => exact ⟨_, loop_of_found found⟩
      | spent _ refused => exact absurd allowed refused
      | again missed _ paused rest =>
        rw [loop_of_missed missed paused]
        exact (later _).mp rest
    · rintro ⟨waits, ran⟩
      obtain ⟨value, found, same⟩ | ⟨_, _, none, _⟩ | ⟨middle, next, rest, missed, same, paused, ran⟩ := loop_yields ran
      · cases same
        exact .ready found
      · cases none
      · cases same
        exact .again missed allowed paused ((later _).mpr ⟨waits, ran⟩)

theorem polls_unbounded_iff {count : UInt32} (made : Nat) :
    Polls .unbounded attempt pause count state result last ↔
      ∃ further waits, loop attempt pause (fun _ => Step.cutOff) further made state = .ok ⟨result, waits⟩ last := by
  constructor
  · intro polls
    induction polls generalizing made with
    | ready found => exact ⟨0, _, loop_of_found found⟩
    | spent _ refused => exact absurd trivial refused
    | again missed _ paused _ ih =>
      obtain ⟨further, waits, ran⟩ := ih (made + 1)
      exact ⟨further + 1, waits, (loop_of_missed missed paused).trans ran⟩
  · rintro ⟨further, waits, ran⟩
    induction further generalizing count made state with
    | zero =>
      obtain ⟨value, found, same⟩ | ⟨_, _, _, gave⟩ | ⟨_, _, _, _, more, _⟩ := loop_yields ran
      · cases same
        exact .ready found
      · cases gave
      · cases more
    | succ further ih =>
      obtain ⟨value, found, same⟩ | ⟨_, _, none, _⟩ | ⟨middle, next, rest, missed, same, paused, ran⟩ := loop_yields ran
      · cases same
        exact .ready found
      · cases none
      · cases same
        exact .again missed trivial paused (ih _ ran)

theorem polls_iff (budget : Budget) :
    Polls budget attempt pause 0 state result last ↔
      ∃ fuel waits, untilReady budget fuel attempt pause state = .ok ⟨result, waits⟩ last := by
  cases budget with
  | unbounded => exact polls_unbounded_iff 0
  | attempts limit =>
    have room : (0 : UInt32).toNat + (limit.toNat - 1) + 1 = most limit := by
      unfold most
      rw [UInt32.toNat_zero]
      omega
    refine (polls_attempts_iff room).trans ⟨fun ⟨waits, ran⟩ => ⟨0, waits, ran⟩, fun ⟨_, waits, ran⟩ => ⟨waits, ran⟩⟩

theorem untilReady_of_found {budget : Budget} {fuel waits : Nat} {value : α} {ready : σ}
    (waited : Waits attempt pause waits state ready) (found : attempt ready = .ok (some value) last)
    (within : waits ≤ budget.further fuel) :
    untilReady budget fuel attempt pause state = .ok ⟨.ok value, waits⟩ last := by
  have ended {giveUp : Nat → Step ε σ (Wait α)} :
      loop attempt pause giveUp (budget.further fuel) 0 state = .ok ⟨.ok value, waits⟩ last := by
    rw [loop_of_waits waited found within, Nat.zero_add]
  cases budget with
  | unbounded => exact ended
  | attempts limit => exact ended

theorem untilReady_of_spent {limit : UInt32} {ready : σ}
    (waited : Waits attempt pause (most limit - 1) state ready) (missed : attempt ready = .ok none last) (fuel : Nat) :
    untilReady (.attempts limit) fuel attempt pause state = .ok ⟨.error ⟨most limit⟩, most limit⟩ last := by
  have further : limit.toNat - 1 = most limit - 1 := by
    unfold most
    omega
  have all : 0 + (most limit - 1) + 1 = most limit := by
    unfold most
    omega
  unfold untilReady
  dsimp only
  rw [further, loop_of_waits_spent waited missed, all]
  rfl

end

/-! ### Exact accounts -/

variable {attempt : Step ε σ (Option α)} {pause : Step ε σ Unit} {waits : Nat} {value : α} {state ready last : σ}

/-- A wait ended so after so many pauses, carried out with the counter or without it. -/
structure Took (budget : Budget) (fuel : Nat) (attempt : Step ε σ (Option α)) (pause : Step ε σ Unit) (state : σ)
    (wait : Wait α) (pauses : Nat) (last : σ) : Prop where
  ended : untilReady budget fuel attempt pause state = .ok wait last
  counted : Polls budget attempt pause 0 state wait.result last
  noted : untilReady budget fuel (noting .asked attempt) (noting .paused pause) ([], state) =
    .ok wait (transcript pauses, last)

theorem took_of_found {budget : Budget} {fuel : Nat} (waited : Waits attempt pause waits state ready)
    (found : attempt ready = .ok (some value) last) (within : waits ≤ budget.further fuel) :
    Took budget fuel attempt pause state ⟨.ok value, waits⟩ waits last where
  ended := untilReady_of_found waited found within
  counted := (polls_iff budget).mpr ⟨fuel, waits, untilReady_of_found waited found within⟩
  noted := untilReady_of_found (noting_waits waited []) (noting_of_ok found .asked _) within

theorem took_of_spent {limit : UInt32} (waited : Waits attempt pause (most limit - 1) state ready)
    (missed : attempt ready = .ok none last) (fuel : Nat) :
    Took (.attempts limit) fuel attempt pause state ⟨.error ⟨most limit⟩, most limit⟩ (most limit - 1) last where
  ended := untilReady_of_spent waited missed fuel
  counted := (polls_iff _).mpr ⟨fuel, most limit, untilReady_of_spent waited missed fuel⟩
  noted := untilReady_of_spent (noting_waits waited []) (noting_of_ok missed .asked _) fuel

/-- If a step is not ready so many times in a row and then is, a wait with a limit above that yields what was found,
and one with a lower limit gives up at the limit; a wait without a limit always yields what was found. It makes one
pause less than attempts, each between two of them. If neither the attempts nor the pauses stop, every wait with a
limit ends. -/
theorem waits_exact (attempt : Step ε σ (Option α)) (pause : Step ε σ Unit) :
    (∀ limit fuel waits state ready value last, Waits attempt pause waits state ready →
      attempt ready = .ok (some value) last →
      if waits < most limit then Took (.attempts limit) fuel attempt pause state ⟨.ok value, waits⟩ waits last
      else ∃ final, Took (.attempts limit) fuel attempt pause state ⟨.error ⟨most limit⟩, most limit⟩
        (most limit - 1) final) ∧
    (∀ fuel waits state ready value last, Waits attempt pause waits state ready →
      attempt ready = .ok (some value) last → waits ≤ fuel →
      Took .unbounded fuel attempt pause state ⟨.ok value, waits⟩ waits last) ∧
    ((∀ state, ∃ found after, attempt state = .ok found after) → (∀ state, ∃ after, pause state = .ok () after) →
      ∀ limit fuel state,
        (∃ waits < most limit, ∃ value last,
          Took (.attempts limit) fuel attempt pause state ⟨.ok value, waits⟩ waits last) ∨
        ∃ last, Took (.attempts limit) fuel attempt pause state ⟨.error ⟨most limit⟩, most limit⟩
          (most limit - 1) last) ∧
    ∀ pauses, (transcript pauses).count .asked = pauses + 1 ∧ (transcript pauses).count .paused = pauses := by
  have further (limit : UInt32) (fuel : Nat) : (Budget.attempts limit).further fuel = most limit - 1 := by
    change limit.toNat - 1 = max limit.toNat 1 - 1
    omega
  have positive (limit : UInt32) : 0 < most limit := Nat.le_max_right _ _
  refine ⟨fun limit fuel waits state ready value last waited found => ?_,
    fun _ _ _ _ _ _ waited found within => took_of_found waited found within,
    fun answers rests limit fuel state => ?_, count_transcript⟩
  · split
    case isTrue below =>
      apply took_of_found waited found
      rw [further]
      exact Nat.le_sub_one_of_lt below
    case isFalse above =>
      have before : most limit - 1 < waits := by
        have := positive limit
        omega
      obtain ⟨_, final, waited, missed⟩ := missed_before waited before
      exact ⟨final, took_of_spent waited missed fuel⟩
  · obtain ⟨waits, ready, value, last, within, waited, found⟩ | ⟨ready, last, waited, missed⟩ :=
      waits_total answers rests (most limit - 1) state
    · have below : waits < most limit := Nat.lt_of_le_pred (positive limit) within
      exact .inl ⟨waits, below, value, last, took_of_found waited found (by rwa [further])⟩
    · exact .inr ⟨last, took_of_spent waited missed fuel⟩

/-- A step that is ready when nothing is left, where each pause takes away one. With two left, a limit of zero ends the
wait after one attempt, and a limit of three is enough. -/
theorem waits_exact_of_two :
    let attempt : Step Empty Nat (Option String) := fun left => .ok (if left = 0 then some "done" else none) left
    let pause : Step Empty Nat Unit := modify (· - 1)
    (∃ final, Took (.attempts 0) 0 attempt pause 2 ⟨.error ⟨1⟩, 1⟩ 0 final) ∧
    Took (.attempts 3) 0 attempt pause 2 ⟨.ok "done", 2⟩ 2 0 ∧
    Took .unbounded 2 attempt pause 2 ⟨.ok "done", 2⟩ 2 0 := by
  intro attempt pause
  have waited : Waits attempt pause 2 2 0 := .more rfl rfl (.more rfl rfl .none)
  have found : attempt 0 = .ok (some "done") 0 := rfl
  obtain ⟨limited, unlimited, -, -⟩ := waits_exact attempt pause
  exact ⟨limited 0 0 2 2 0 "done" 0 waited found, limited 3 0 2 2 0 "done" 0 waited found,
    unlimited 2 2 2 0 "done" 0 waited found (by decide)⟩

end PacketPath.Retry
