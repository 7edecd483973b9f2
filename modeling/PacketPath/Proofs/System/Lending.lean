import Mathlib.Logic.Relation
import PacketPath.Proofs.System.PumpStart
import PacketPath.Proofs.System.Queued

/-! Lending: a page that the input pump has lent is not written again before the last other handle to it
is gone. Whoever forwards it to the output pump can rely on that up to the wire. -/

set_option autoImplicit false

namespace PacketPath

variable {rules : Rules} {rotation hands fewer : List PageId} {page : PageId} {controller later : Controller}
  {scope : PageId → Prop} {site next : Site} {recycled since : Nat} {posted : List Posted}
  {past : List (Machine Emulator)} {machine : Machine Emulator}

/-! ### Lent pages -/

/-- There are more handles to the page than those of the pump whose pages take turns. -/
def Lent (rotation : List PageId) (memory : Memory) (page : PageId) : Prop :=
  rotation.count page < memory.handles page

def LentFrom (rotation : List PageId) (past : List (Machine Emulator)) (since : Nat) (page : PageId) : Prop :=
  ∀ k machine, since ≤ k → past[k]? = some machine → Lent rotation machine.memory page

def SinceLent (rotation : List PageId) (past : List (Machine Emulator)) (page : PageId) (agrees : Memory → Prop) :
    Prop :=
  ∀ i machine, past[i]? = some machine → LentFrom rotation past i page → agrees machine.memory

theorem LentFrom.of_push (lent : LentFrom rotation (past ++ [machine]) since page) :
    LentFrom rotation past since page := by
  intro k old behind here
  refine lent k old behind ?_
  rw [List.getElem?_append_left (List.getElem?_eq_some_iff.mp here).1]
  exact here

theorem LentFrom.push (lent : LentFrom rotation past since page) (now : Lent rotation machine.memory page) :
    LentFrom rotation (past ++ [machine]) since page := by
  intro k old behind here
  rcases getElem?_push here with before | ⟨-, rfl⟩
  · exact lent k old behind before
  · exact now

theorem LentFrom.last {i : Nat} {old : Machine Emulator} (lent : LentFrom rotation past i page)
    (here : past[i]? = some old) (last : past.getLast? = some machine) : Lent rotation machine.memory page := by
  have inside := (List.getElem?_eq_some_iff.mp here).1
  rw [List.getLast?_eq_getElem?] at last
  exact lent _ machine (by omega) last

theorem SinceLent.push {agrees : Memory → Prop} (since : SinceLent rotation past page agrees)
    (now : agrees machine.memory) :
    SinceLent rotation (past ++ [machine]) page agrees := by
  intro i old here lent
  rcases getElem?_push here with before | ⟨-, rfl⟩
  · exact since i old before lent.of_push
  · exact now

/-! ### Who holds what -/

theorem Sound.lent_of_count (sound : Sound controller (hands ++ rotation) recycled site)
    (more : 0 < hands.count page + controller.pages.count page + site.owned.count page) :
    Lent rotation site.machine.memory page := by
  have count := sound.housed.accounts page
  simp only [List.count_append] at count
  unfold Lent
  omega

theorem Sound.lent_of_mem_hands (sound : Sound controller (hands ++ rotation) recycled site) (held : page ∈ hands) :
    Lent rotation site.machine.memory page := by
  have more := List.count_pos_iff.mpr held
  exact sound.lent_of_count (by omega)

theorem Sound.lent_of_bound (sound : Sound controller (hands ++ rotation) recycled site) {slot : Nat}
    (bound : controller.transmitRing.binding slot = some page) : Lent rotation site.machine.memory page := by
  have listed : page ∈ controller.pages := List.mem_append_left _ (TransmitRing.mem_pages_of_binding bound)
  have more := List.count_pos_iff.mpr listed
  exact sound.lent_of_count (by omega)

theorem Sound.lent_of_mem_owned (sound : Sound controller (hands ++ rotation) recycled site)
    (held : page ∈ site.owned) : Lent rotation site.machine.memory page := by
  have more := List.count_pos_iff.mpr held
  exact sound.lent_of_count (by omega)

theorem Sound.lent_of_flies {flights : List Flight} {flight : Flight}
    (sound : Sound controller (hands ++ rotation) recycled site)
    (flies : TransmitRing.Flies (controller.transmitRing, site.machine) flights) (listed : flight ∈ flights) :
    Lent rotation site.machine.memory flight.fragment.page := by
  obtain ⟨_, _, asks⟩ := flies.carries.exists_asks listed
  exact sound.lent_of_bound asks.binding

theorem Sound.not_mem_own (sound : Sound controller (hands ++ rotation) recycled site) (turns : page ∈ rotation) :
    page ∉ controller.own := fun own =>
  (sound.sole page own).1 (List.mem_append_right _ turns)

theorem Sound.knows_rotation (sound : Sound controller (hands ++ rotation) recycled site) (turns : page ∈ rotation) :
    site.machine.memory.Knows page :=
  sound.knows_extra (List.mem_append_right _ turns)

/-! ### The record -/

/-- What is on record of a rotation. No page changed while it was lent, and the page of a frame that was posted
stays lent until the frame is out. The pages that the output pump has in hand have been lent since it took their
message. -/
structure LendingInvariant (rotation : List PageId) (posted : List Posted) (since : Nat) (hands : List PageId)
    (controller : Controller) (site : Site) : Prop where
  reached : ∀ page ∈ rotation, site.machine.memory.Reaches page
  queued : Queued (· ∈ rotation) posted controller site
  recorded : ∀ j machine, site.others.points[j]? = some machine → ∀ page ∈ rotation,
    SinceLent rotation (site.others.points.take j) page fun memory =>
      (machine.memory.page page).bytes = (memory.page page).bytes
  unspoilt : ∀ page ∈ rotation, SinceLent rotation site.others.points page fun memory =>
    (site.machine.memory.page page).bytes = (memory.page page).bytes
  kept : ∀ n (request : Posted), posted[n]? = some request → request.fragment.page ∈ rotation →
    ∀ k machine, request.since ≤ k → site.others.points[k]? = some machine → machine.outs ≤ n →
      Lent rotation machine.memory request.fragment.page
  started : since ≤ site.others.points.length
  held : ∀ page ∈ hands, page ∈ rotation → LentFrom rotation site.others.points since page

namespace LendingInvariant

theorem seen (lending : LendingInvariant rotation posted since hands controller site)
    (sound : Sound controller (hands ++ rotation) recycled site) :
    LendingInvariant rotation posted since hands controller site.seen where
  reached := lending.reached
  queued := lending.queued.seen
  recorded := by
    intro j machine here page turns
    dsimp only [Site.seen] at here ⊢
    rcases getElem?_push here with before | ⟨rfl, rfl⟩
    · rw [List.take_append_of_le_length (Nat.le_of_lt (List.getElem?_eq_some_iff.mp before).1)]
      exact lending.recorded j machine before page turns
    · rw [List.take_left]
      exact lending.unspoilt page turns
  unspoilt page turns := (lending.unspoilt page turns).push rfl
  kept := by
    intro n request asked turns k machine behind here fewer
    rcases getElem?_push here with before | ⟨-, rfl⟩
    · exact lending.kept n request asked turns k machine behind before fewer
    · -- A frame that is not out yet is in flight.
      exact sound.lent_of_flies lending.queued.inFlight.flies (List.mem_map_of_mem (Posted.mem_drop asked fewer))
  started := by
    rw [Site.seen, List.length_append]
    exact Nat.le_add_right_of_le lending.started
  held page listed turns := (lending.held page listed turns).push (sound.lent_of_mem_hands listed)

theorem unmoved (lending : LendingInvariant rotation posted since hands controller site)
    (sound : Sound controller (hands ++ rotation) recycled site) (among : ∀ page ∈ fewer, page ∈ hands)
    (unmoved : KeepsFlights scope controller later site next)
    (free : ∀ page ∈ rotation, scope page →
      ∃ last, site.others.points.getLast? = some last ∧ ¬ Lent rotation last.memory page) :
    LendingInvariant rotation posted since fewer later next where
  reached page turns := unmoved.changes.reaches (sound.knows_rotation turns) (lending.reached page turns)
  queued := lending.queued.unmoved unmoved
  recorded := unmoved.points ▸ lending.recorded
  unspoilt := by
    intro page turns i old here lent
    rw [unmoved.points] at here lent
    by_cases written : scope page
    · -- Then the page was not lent at the last point, so it was not lent from any point on.
      obtain ⟨last, final, unlent⟩ := free page turns written
      exact absurd (lent.last here final) unlent
    · rw [unmoved.changes.bytes page (sound.knows_rotation turns) written]
      exact lending.unspoilt page turns i old here lent
  kept := unmoved.points ▸ lending.kept
  started := unmoved.points ▸ lending.started
  held page listed := unmoved.points ▸ lending.held page (among page listed)

theorem adds (lending : LendingInvariant rotation posted since hands controller site)
    (sound : Sound controller (hands ++ rotation) recycled site) {fragment : Fragment}
    {after : Controller × Machine Emulator} (held : fragment.page ∈ hands)
    (inside : fragment.Inside site.machine.memory) (adds : Controller.Adds fragment (controller, site.machine) after) :
    LendingInvariant rotation (posted ++ [⟨fragment, since⟩]) since hands after.1 { site with machine := after.2 } where
  reached page turns := adds.transmitOnly.leads.changes.reaches (sound.knows_rotation turns)
    (lending.reached page turns)
  queued := lending.queued.adds sound (List.mem_append_left _ held) inside (lending.reached _) lending.started adds
  recorded := lending.recorded
  unspoilt := by
    intro page turns i old here lent
    have same := adds.transmitOnly.leads.changes.bytes page (sound.knows_rotation turns)
    rw [same]
    · exact lending.unspoilt page turns i old here lent
    · rintro rfl
      exact sound.not_mem_own turns (Sound.table_mem_own controller)
  kept := by
    intro n request asked turns k machine behind here fewer
    rw [List.getElem?_append] at asked
    split at asked
    · exact lending.kept n request asked turns k machine behind here fewer
    · -- The new frame is of a page in hand, which was lent ever since its message was taken.
      obtain rfl := List.mem_singleton.mp (List.mem_of_getElem? asked)
      exact lending.held _ held turns k machine behind here
  started := lending.started
  held := lending.held

theorem move (lending : LendingInvariant rotation posted since hands controller site) (recorded : site.Recorded)
    (sound : Sound controller (hands ++ rotation) recycled site) (reserved : ∀ page ∈ rotation, rules.reserved page)
    (move : Move rules site next) : LendingInvariant rotation posted since hands controller next := by
  have keepsReserved := (move.keepsReserved sound).2
  have points := move.points_eq sound
  have same (page : PageId) (turns : page ∈ rotation) :
      (next.machine.memory.page page).bytes = (site.machine.memory.page page).bytes :=
    keepsReserved.changes.bytes page (sound.knows_rotation turns)
      (sound.outside_of_reserved (List.mem_append_right _ turns) (reserved page turns))
  exact
    { reached := fun page turns => keepsReserved.changes.reaches (sound.knows_rotation turns)
        (lending.reached page turns)
      queued := lending.queued.move recorded sound move
      recorded := points ▸ lending.recorded
      unspoilt := by
        intro page turns
        rw [points, same page turns]
        exact lending.unspoilt page turns
      kept := points ▸ lending.kept
      started := points ▸ lending.started
      held := points ▸ lending.held }

theorem moves (lending : LendingInvariant rotation posted since hands controller site) (recorded : site.Recorded)
    (sound : Sound controller (hands ++ rotation) recycled site) (reserved : ∀ page ∈ rotation, rules.reserved page)
    (moves : Moves rules site next) : LendingInvariant rotation posted since hands controller next ∧ next.Recorded := by
  induction moves with
  | none => exact ⟨lending, recorded⟩
  | @more middle last before move ih =>
    have middle := (before.keepsReserved sound).1
    exact ⟨(ih.1.move ih.2 middle reserved move).seen (move.keepsReserved middle).1, last.recorded_seen⟩

/-! ### Pumps at work -/

/-- The output pump writes no page of the rotation, and what it has in hand was lent to it. -/
theorem outbound (pause : Pause Emulator Others) (rotation : List PageId)
    (reserved : ∀ page ∈ rotation, rules.reserved page) (posted : List Posted) (since : Nat) :
    OutboundPump.Keeps rules pause rotation fun fragments hands controller site =>
      LendingInvariant rotation (posted ++ fragments.map fun fragment => ⟨fragment, since⟩)
        since hands controller site where
  pauses := by
    intro fragments hands controller site sound lending moves
    exact ((lending.seen sound).moves site.recorded_seen sound.seen reserved moves).1
  notes := by
    intro fragments hands controller site log lending
    exact { lending with queued := lending.queued.unmoved (.of_memory (.refl _ _) site.bus) }
  posts := by
    intro fragments hands controller site fragment after sound lending held inside adds
    rw [List.map_append, ← List.append_assoc]
    exact lending.adds sound held inside adds
  upkeep := by
    intro fragments hands controller site after sound lending upkeep
    apply lending.unmoved sound (fun _ => id) upkeep.unmoved
    -- All that is written is the table of the ring, which is no page of the rotation.
    rintro page turns rfl
    exact absurd (Sound.table_mem_own controller) (sound.not_mem_own turns)
  grips := by
    intro fragments hands pages controller site sound lending held
    have known (page : PageId) (listed : page ∈ pages) : site.machine.memory.Knows page :=
      sound.knows_extra (List.mem_append_left _ (held page listed))
    refine lending.unmoved sound ?_ (.of_memory (Memory.changes_retainAll _ known) _) (fun _ _ => False.elim)
    intro page listed
    exact (List.mem_append.mp listed).elim (held page) id
  drops sound lending :=
    lending.unmoved sound (fun _ => List.mem_append_right _) (.of_memory (Memory.changes_releaseAll _ _ _) _)
      (fun _ _ => False.elim)

/-- The input pump writes a page only once it is the last one that holds it, and that is still on record then. -/
theorem inbound (reserved : ∀ page ∈ rotation, rules.reserved page) (turns : page ∈ rotation) (posted : List Posted)
    (endpoint : Endpoint) (stack : ProcessId) :
    InboundPump.Keeps rules rotation page endpoint stack fun phase controller site =>
      LendingInvariant rotation posted 0 [] controller site ∧ (phase = .idle → site.Recorded) := by
  have draws {controller : Controller} {site : Site} {frame : Option (List UInt8)}
      {after : Controller × Machine Emulator} (sound : Sound controller rotation controller.receiveRing.recycled site)
      (lending : LendingInvariant rotation posted 0 [] controller site) (recorded : site.Recorded)
      (alone : site.machine.memory.handles page = 1) (draws : Draws rotation page controller site frame after) :
      LendingInvariant rotation posted 0 [] after.1 { site with machine := after.2 } := by
    have once := (sound.alone turns alone).1
    have sound : Sound controller ([] ++ rotation) controller.receiveRing.recycled site := sound
    apply lending.unmoved sound (fun _ => id) (draws.unmoved sound turns)
    rintro other listed (rfl | rfl)
    · exact absurd (List.mem_cons_of_mem _ (List.mem_cons_self ..)) (sound.not_mem_own listed)
    · -- There is one handle, that of the pump, and so there was at the last point.
      obtain ⟨last, final, same⟩ := recorded
      refine ⟨last, final, ?_⟩
      unfold Lent
      rw [same, once, alone]
      exact Nat.lt_irrefl 1
  -- One case for each thing that may happen in a step.
  refine ⟨?_, ?_, ?_, ?_, ?_, ?_⟩
  · intro phase controller site next sound ⟨lending, _⟩ moves
    have sound : Sound controller ([] ++ rotation) controller.receiveRing.recycled site := sound
    obtain ⟨moved, recorded⟩ := (lending.seen sound).moves site.recorded_seen sound.seen reserved moves
    exact ⟨moved, fun _ => recorded⟩
  · intro phase controller site log ⟨lending, recorded⟩
    exact ⟨{ lending with queued := lending.queued.unmoved (.of_memory (.refl _ _) site.bus) }, recorded⟩
  · intro controller site after sound ⟨lending, recorded⟩ alone drawn
    exact ⟨draws sound lending (recorded rfl) alone drawn, nofun⟩
  · intro controller site frame after sound ⟨lending, recorded⟩ alone drawn _
    exact ⟨draws sound lending (recorded rfl) alone drawn, nofun⟩
  · intro controller site frame sender bus sound ⟨lending, _⟩ _ _
    have sound : Sound controller ([] ++ rotation) controller.receiveRing.recycled site := sound
    refine ⟨lending.unmoved sound (fun _ => id) (.of_memory (Memory.changes_retain _ (sound.knows_rotation turns)) _)
      (fun _ _ => False.elim), nofun⟩
  · intro controller site frame sound ⟨lending, _⟩
    have sound : Sound controller ([] ++ rotation) controller.receiveRing.recycled site := sound
    have retained := Memory.changes_retain (fun _ => False) (sound.knows_rotation turns)
    exact ⟨lending.unmoved sound (fun _ => id) (.of_memory (retained.trans (Memory.changes_release _ _ page)) _)
      (fun _ _ => False.elim), nofun⟩

end LendingInvariant

end PacketPath
