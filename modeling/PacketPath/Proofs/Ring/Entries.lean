import PacketPath.Proofs.Ring.Framing

/-! Entries in the journal of a transmit ring: a page is bound to a slot, or given back, or a call is refused. An entry
explains one change of the ring, of its memory and of the device, and the books that are kept from entries balance. -/

set_option autoImplicit false

namespace PacketPath.TransmitRing

/-! ### Entries -/

/-- One entry of the journal. -/
inductive Entry where
  /-- A page was bound to a slot. -/
  | posted (slot : Nat) (page : PageId)
  /-- The page of a slot was given back; the slot had this status then. -/
  | released (slot : Nat) (page : PageId) (status : TransmitStatus)
  /-- A call was refused since the device owned a slot that it needed. -/
  | refused
  deriving DecidableEq, Repr

namespace Entry

def isRefusal : Entry → Bool
  | refused => true
  | _ => false

def binds (slots : Nat → Bool) : Entry → Bool
  | posted slot _ => slots slot
  | _ => false

def frees (slots : Nat → Bool) (reads : TransmitStatus → Bool) : Entry → Bool
  | released slot _ status => slots slot && reads status
  | _ => false

def lastBound (slot : Nat) (entries : List Entry) : Option PageId :=
  entries.foldl (fun last entry =>
    match entry with
    | posted place page => if place = slot then some page else last
    | _ => last) none

end Entry

variable {δ : Type} {ring : TransmitRing} {machine : Machine δ} {before middle after last : TransmitRing × Machine δ}
  {tell : δ → UInt32 → δ} {entry : Entry} {entries more first second : List Entry} {slot : Nat}

/-- What an entry says about the states before and after it. A page is bound to an empty slot at the tail, and it is
given back from a slot that is done. -/
def Entry.Explains (tell : δ → UInt32 → δ) (before after : TransmitRing × Machine δ) : Entry → Prop
  | .posted slot page =>
    slot = before.1.tail ∧ slot < before.1.bindings.size ∧ before.1.binding slot = none ∧
      ∃ flight address, flight.fragment.page = page ∧
        after.1 = { before.1.bound slot page with
          tail := before.1.next slot
          counters := tallyPost flight.endsFrame before.1.counters } ∧
        after.2.memory = (before.2.memory.overwrite before.1.table.page (DescriptorTable.position slot)
          (asking flight address).encode).retain page ∧
        after.2.device = tell before.2.device (UInt32.ofNat (before.1.next slot))
  | .released slot page status =>
    before.1.binding slot = some page ∧ (before.1.table.transmitCell before.2.memory slot).status = status ∧
      status.isDone = true ∧
      after.1 = { before.1.unbound slot with counters := tally status before.1.counters } ∧
      after.2.memory = before.2.memory.release page ∧ after.2.device = before.2.device
  | .refused =>
    after.1 = { before.1 with counters.busy := before.1.counters.busy + 1 } ∧
      after.2.memory = before.2.memory ∧ after.2.device = before.2.device

/-- From `before` to `after` everything that changed, but for the log, is in the entries. -/
def Accounted (tell : δ → UInt32 → δ) : (entries : List Entry) → (before after : TransmitRing × Machine δ) → Prop
  | [], before, after => after.1 = before.1 ∧ after.2.memory = before.2.memory ∧ after.2.device = before.2.device
  | entry :: rest, before, after => ∃ middle, entry.Explains tell before middle ∧ Accounted tell rest middle after

theorem Entry.Explains.of_same (explains : entry.Explains tell before after) {start : TransmitRing × Machine δ}
    (ring : before.1 = start.1) (memory : before.2.memory = start.2.memory) (device : before.2.device = start.2.device) :
    entry.Explains tell start after := by
  cases entry <;> simpa only [Explains, ← ring, ← memory, ← device] using explains

namespace Accounted

theorem refl (before : TransmitRing × Machine δ) : Accounted tell [] before before :=
  ⟨rfl, rfl, rfl⟩

theorem single (explains : entry.Explains tell before after) : Accounted tell [entry] before after :=
  ⟨after, explains, refl _⟩

theorem append (one : Accounted tell first before middle) (other : Accounted tell second middle after) :
    Accounted tell (first ++ second) before after := by
  -- Induction on the first entries; the log alone may differ where the others begin.
  induction first generalizing before with
  | nil =>
    obtain ⟨ring, memory, device⟩ := one
    cases second with
    | nil =>
      obtain ⟨ring', memory', device'⟩ := other
      exact ⟨ring'.trans ring, memory'.trans memory, device'.trans device⟩
    | cons entry rest =>
      obtain ⟨next, explains, later⟩ := other
      exact ⟨next, explains.of_same ring memory device, later⟩
  | cons entry rest ih =>
    obtain ⟨next, explains, later⟩ := one
    exact ⟨next, explains, ih later⟩

end Accounted

/-! ### The balance -/

/-- What the entries from the first day on say about the ring. -/
structure Books (entries : List Entry) (ring : TransmitRing) : Prop where
  posted : ring.counters.posted = entries.countP (Entry.binds fun _ => true)
  released : ring.counters.released = entries.countP (Entry.frees (fun _ => true) fun _ => true)
  collisions : ring.counters.collisions = entries.countP (Entry.frees (fun _ => true) TransmitStatus.hasCollision)
  underruns : ring.counters.underruns = entries.countP (Entry.frees (fun _ => true) TransmitStatus.hasUnderrun)
  busy : ring.counters.busy = entries.countP Entry.isRefusal
  tail : ring.tail = ring.counters.posted % ring.capacity
  balance : ring.counters.posted = ring.counters.released + ring.boundCount
  /-- A slot keeps no page but the one that was bound to it last. -/
  bound : ∀ slot page, ring.binding slot = some page → Entry.lastBound slot entries = some page
  /-- All that was bound to a slot was given back once, but for the page that it still keeps. -/
  once : ∀ slot, entries.countP (Entry.binds (· == slot)) =
    entries.countP (Entry.frees (· == slot) fun _ => true) + if (ring.binding slot).isSome then 1 else 0

theorem length_pages (ring : TransmitRing) : ring.pages.length = ring.boundCount + 1 := by
  unfold pages boundCount
  rw [List.length_cons, List.length_filterMap_eq_countP, ← Array.countP_toList]
  rfl

theorem boundCount_unbound {page : PageId} (held : ring.binding slot = some page) :
    ring.boundCount = (ring.unbound slot).boundCount + 1 := by
  have lengths := (perm_pages_unbound held).length_eq
  rw [List.length_cons, length_pages, length_pages] at lengths
  omega

theorem boundCount_bound (free : ring.binding slot = none) (inside : slot < ring.bindings.size) (page : PageId) :
    (ring.bound slot page).boundCount = ring.boundCount + 1 := by
  have pages : (ring.bound slot page).pages.Perm (page :: ring.pages) := perm_pages_bound free inside
  have lengths := pages.length_eq
  rw [List.length_cons, length_pages, length_pages] at lengths
  omega

theorem lastBound_append (slot : Nat) (entries : List Entry) (entry : Entry) :
    Entry.lastBound slot (entries ++ [entry]) =
      match entry with
      | .posted place page => if place = slot then some page else Entry.lastBound slot entries
      | _ => Entry.lastBound slot entries := by
  unfold Entry.lastBound
  rw [List.foldl_append]
  rfl

namespace Books

theorem enter_refusal (books : Books entries before.1) (refused : Entry.refused.Explains tell before after) :
    Books (entries ++ [.refused]) after.1 := by
  obtain ⟨ring, -, -⟩ := refused
  rw [ring]
  exact
    { posted := by simpa [Entry.binds] using books.posted
      released := by simpa [Entry.frees] using books.released
      collisions := by simpa [Entry.frees] using books.collisions
      underruns := by simpa [Entry.frees] using books.underruns
      busy := by simpa [Entry.isRefusal] using books.busy
      tail := books.tail
      balance := books.balance
      bound := fun slot page held => by
        rw [lastBound_append]
        exact books.bound slot page held
      once := fun slot => by
        rw [List.countP_append, List.countP_append]
        exact books.once slot }

theorem enter_release {page : PageId} {status : TransmitStatus} (books : Books entries before.1)
    (released : (Entry.released slot page status).Explains tell before after) :
    Books (entries ++ [.released slot page status]) after.1 := by
  obtain ⟨held, -, -, ring, -, -⟩ := released
  have count := boundCount_unbound held
  -- The slot keeps nothing any more, so what was bound to it was given back as often.
  have emptied := before.1.binding_unbound slot
  have balance := books.balance
  rw [ring]
  exact
    { posted := by simpa [Entry.binds, tally] using books.posted
      released := by simpa [Entry.frees, tally] using books.released
      collisions := by
        cases collided : status.hasCollision <;> simpa [Entry.frees, tally, collided] using books.collisions
      underruns := by
        cases starved : status.hasUnderrun <;> simpa [Entry.frees, tally, starved] using books.underruns
      busy := by simpa [Entry.isRefusal, tally] using books.busy
      tail := books.tail
      balance := by
        change before.1.counters.posted = before.1.counters.released + 1 + (before.1.unbound slot).boundCount
        omega
      bound := fun other kept held => by
        change (before.1.unbound slot).binding other = some kept at held
        rw [emptied] at held
        rw [lastBound_append]
        split at held
        · cases held
        · exact books.bound other kept held
      once := fun other => by
        have once := books.once other
        change _ = _ + if ((before.1.unbound slot).binding other).isSome then 1 else 0
        rw [emptied, List.countP_append, List.countP_append, once]
        by_cases same : other = slot
        · subst same
          simp [held, Entry.binds, Entry.frees]
        · have apart : (slot == other) = false := beq_false_of_ne (Ne.symm same)
          simp [same, apart, Entry.binds, Entry.frees] }

theorem enter_post {page : PageId} (books : Books entries before.1)
    (posted : (Entry.posted slot page).Explains tell before after) :
    Books (entries ++ [.posted slot page]) after.1 := by
  obtain ⟨rfl, inside, free, flight, address, -, ring, -, -⟩ := posted
  have count := boundCount_bound free inside page
  -- The slot keeps the page that is bound now; it was empty before, so nothing is pushed out.
  have filled := binding_bound inside page
  have balance := books.balance
  rw [ring]
  exact
    { posted := by simpa [Entry.binds, tallyPost] using books.posted
      released := by simpa [Entry.frees, tallyPost] using books.released
      collisions := by simpa [Entry.frees, tallyPost] using books.collisions
      underruns := by simpa [Entry.frees, tallyPost] using books.underruns
      busy := by simpa [Entry.isRefusal, tallyPost] using books.busy
      tail := by
        change (before.1.tail + 1) % before.1.capacity = (before.1.counters.posted + 1) % before.1.capacity
        rw [books.tail, Nat.mod_add_mod]
      balance := by
        change before.1.counters.posted + 1 =
          before.1.counters.released + (before.1.bound before.1.tail page).boundCount
        omega
      bound := fun other kept held => by
        change (before.1.bound before.1.tail page).binding other = some kept at held
        rw [filled] at held
        rw [lastBound_append]
        dsimp only
        split at held
        case isTrue same => rw [if_pos same.symm, held]
        case isFalse apart => rw [if_neg (Ne.symm apart), books.bound other kept held]
      once := fun other => by
        have once := books.once other
        change _ = _ + if ((before.1.bound before.1.tail page).binding other).isSome then 1 else 0
        rw [filled, List.countP_append, List.countP_append, once]
        by_cases same : other = before.1.tail
        · subst same
          simp [free, Entry.binds, Entry.frees]
        · have apart : (before.1.tail == other) = false := beq_false_of_ne (Ne.symm same)
          simp [same, apart, Entry.binds, Entry.frees] }

/-- One more entry keeps the books in balance. -/
theorem enter (books : Books entries before.1) (explains : entry.Explains tell before after) :
    Books (entries ++ [entry]) after.1 := by
  cases entry with
  | refused => exact books.enter_refusal explains
  | released slot page status => exact books.enter_release explains
  | posted slot page => exact books.enter_post explains

end Books

/-! ### What entries keep -/

theorem Entry.Explains.stays (explains : entry.Explains tell before after) : Stays before after := by
  cases entry with
  | refused =>
    obtain ⟨ring, memory, -⟩ := explains
    exact .of_same (by rw [ring]) (by rw [ring]) (by rw [ring]) memory
  | released slot page status =>
    obtain ⟨-, -, -, ring, memory, -⟩ := explains
    have alike := Memory.Alike.release before.2.memory page
    exact
      { table := by rw [ring]; rfl
        bindings := by simp [ring, unbound]
        tail := by rw [ring]; exact id
        count := by rw [memory, alike.count]
        sizes := fun id => by rw [memory, alike.size] }
  | posted slot page =>
    obtain ⟨-, -, -, flight, address, -, ring, memory, -⟩ := explains
    exact
      { table := by rw [ring]; rfl
        bindings := by simp [ring, bound]
        tail := fun inside => by
          rw [ring]
          exact Nat.mod_lt _ (Nat.zero_lt_of_lt inside)
        count := by rw [memory, (Memory.Alike.retain ..).count, Memory.size_pages_overwrite]
        sizes := fun id => by rw [memory, (Memory.Alike.retain ..).size, Memory.size_page_overwrite] }

theorem Accounted.stays (accounted : Accounted tell entries before after) : Stays before after := by
  induction entries generalizing before with
  | nil =>
    obtain ⟨ring, memory, -⟩ := accounted
    exact .of_same (by rw [ring]) (by rw [ring]) (by rw [ring]) memory
  | cons entry rest ih =>
    obtain ⟨middle, explains, later⟩ := accounted
    exact explains.stays.trans (ih later)

variable [RegisterBus δ] {reached : δ → Prop}

theorem Entry.Explains.near (port : Register.transmitTail.Port reached tell) (near : reached before.2.device)
    (explains : entry.Explains tell before after) : reached after.2.device := by
  cases entry with
  | refused =>
    obtain ⟨-, -, device⟩ := explains
    rwa [device]
  | released slot page status =>
    obtain ⟨-, -, -, -, -, device⟩ := explains
    rwa [device]
  | posted slot page =>
    obtain ⟨-, -, -, flight, address, -, -, -, device⟩ := explains
    rw [device]
    exact port.stays _ _ near

theorem Accounted.near (port : Register.transmitTail.Port reached tell) (near : reached before.2.device)
    (accounted : Accounted tell entries before after) : reached after.2.device := by
  induction entries generalizing before with
  | nil =>
    obtain ⟨-, -, device⟩ := accounted
    rwa [device]
  | cons entry rest ih =>
    obtain ⟨middle, explains, later⟩ := accounted
    exact ih (explains.near port near) later

end PacketPath.TransmitRing
