import PacketPath.Proofs.Controller.Attached
import PacketPath.Proofs.Host.ReceiveEngine
import PacketPath.Proofs.System.Site

/-! A sound site: every handle has its owner, the pages that the driver works on are held by nobody
else, and both engines of the device work on the rings of the driver. Whatever the others do, the site
stays sound. -/

set_option autoImplicit false

namespace PacketPath

variable {rules : Rules} {site next : Site} {owners extra : List PageId} {controller : Controller}
  {recycled : Nat}

/-! ### Actions on pages and messages -/

structure PageActionEffect (rules : Rules) (owners : List PageId) (site next : Site) : Prop where
  housed : Housed (owners ++ next.owned) next.others.board next.machine.memory
  distinct : next.bus.Distinct
  changes : site.machine.memory.ChangesWithin (fun id => id ∈ site.others.held ∧ ¬ rules.reserved id)
    next.machine.memory
  /-- Nobody comes to hold a page that was not held before. -/
  owned : ∀ id ∈ next.owned, id ∈ site.owned ∨ ¬ site.machine.memory.Knows id
  device : next.machine.device = site.machine.device
  arrivals : next.others.arrivals = site.others.arrivals
  points : next.others.points = site.others.points

theorem PageActionEffect.of_perm (housed : Housed (owners ++ site.owned) site.others.board site.machine.memory)
    (distinct : next.bus.Distinct) (same : next.owned.Perm site.owned)
    (memory : next.machine.memory = site.machine.memory) (device : next.machine.device = site.machine.device)
    (board : next.others.board = site.others.board) (arrivals : next.others.arrivals = site.others.arrivals)
    (points : next.others.points = site.others.points) : PageActionEffect rules owners site next where
  housed := by
    rw [memory, board]
    exact housed.perm (same.symm.append_left owners)
  distinct := distinct
  changes := memory ▸ .refl _ _
  owned _ listed := .inl (same.mem_iff.mp listed)
  device := device
  arrivals := arrivals
  points := points

theorem PageActionEffect.of_cons {page : PageId} (more : next.owned = page :: site.owned)
    (housed : Housed (page :: (owners ++ site.owned)) next.others.board next.machine.memory)
    (source : page ∈ site.owned ∨ ¬ site.machine.memory.Knows page) (distinct : next.bus.Distinct)
    (changes : site.machine.memory.ChangesWithin (fun _ => False) next.machine.memory)
    (device : next.machine.device = site.machine.device) (arrivals : next.others.arrivals = site.others.arrivals)
    (points : next.others.points = site.others.points) : PageActionEffect rules owners site next where
  housed := by
    rw [more]
    exact housed.perm List.perm_middle.symm
  distinct := distinct
  changes := changes.mono fun _ => False.elim
  owned id listed := by
    rw [more] at listed
    rcases List.mem_cons.mp listed with rfl | old
    · exact source
    · exact .inl old
  device := device
  arrivals := arrivals
  points := points

theorem PageActionEffect.of_released {gone : List PageId}
    (housed : Housed (owners ++ site.owned) site.others.board site.machine.memory)
    (less : site.owned.Perm (gone ++ next.owned))
    (memory : next.machine.memory = site.machine.memory.releaseAll gone) (bus : next.bus = site.bus)
    (distinct : site.bus.Distinct) (device : next.machine.device = site.machine.device)
    (board : next.others.board = site.others.board) (arrivals : next.others.arrivals = site.others.arrivals)
    (points : next.others.points = site.others.points) : PageActionEffect rules owners site next where
  housed := by
    rw [memory, board]
    refine Housed.releaseAll (housed.perm ?_)
    exact (less.append_left owners).trans (List.perm_append_comm_assoc ..)
  distinct := bus ▸ distinct
  changes := memory ▸ Memory.changes_releaseAll _ _ _
  owned _ listed := .inl (less.mem_iff.mpr (List.mem_append_right _ listed))
  device := device
  arrivals := arrivals
  points := points

theorem PageAction.effect (housed : Housed (owners ++ site.owned) site.others.board site.machine.memory)
    (distinct : site.bus.Distinct) (action : PageAction rules site next) : PageActionEffect rules owners site next := by
  cases action with
  | @allocate page board machine allocated =>
    have out := ((Step.ends_of_ok allocated).mp (Board.allocate_room housed)).1
    exact .of_cons rfl out.housed (.inr out.fresh) distinct out.changes out.device rfl rfl
  | @make page memory base size made =>
    unfold Memory.allocate at made
    split at made
    · cases made
    rw [Option.some.injEq, Prod.ext_iff] at made
    obtain ⟨rfl, rfl⟩ := made
    exact .of_cons rfl (housed.adopt base _) (.inr (Nat.lt_irrefl _)) distinct (Memory.changes_adopt _ _ _ _) rfl
      rfl rfl
  | retain page holds =>
    have owned : page ∈ site.owned := List.mem_append_left _ holds
    have known := housed.accounts.knows (List.mem_append_right owners owned)
    exact .of_cons rfl (housed.retain known) (.inl owned) distinct (Memory.changes_retain _ known) rfl rfl rfl
  | release page holds =>
    have split : site.owned.Perm ([page] ++ (site.others.held.erase page ++ site.bus.pages)) :=
      (List.perm_cons_erase holds).append_right _
    exact .of_released housed split rfl rfl distinct rfl rfl rfl rfl
  | write page offset data holds free inside =>
    have changes : site.machine.memory.ChangesWithin (fun id => id ∈ site.others.held ∧ ¬ rules.reserved id)
        (site.machine.memory.overwrite page offset data) := Memory.changes_overwrite _ ⟨holds, free⟩ _ _
    exact ⟨housed.of_changes changes rfl fun _ => Memory.handles_overwrite .., distinct, changes,
      fun _ listed => .inl listed, rfl, rfl, rfl⟩
  | register process =>
    have same : (site.bus.register process).pages = site.bus.pages := MessageBus.pages_register ..
    exact .of_perm housed (distinct.register process) (.of_eq (congrArg (site.others.held ++ ·) same))
      rfl rfl rfl rfl rfl
  | setReceiving process receiving =>
    have same := MessageBus.perm_pages_setReceiving distinct process receiving
    exact .of_perm housed (distinct.setReceiving process receiving) (same.append_left _) rfl rfl rfl rfl rfl
  | @send rest sender receiver code attachment holds allowed =>
    apply Step.Ends.after
    apply Surroundings.send_ends
    · intro error _
      have split := holds.append_right site.bus.pages
      rw [List.append_assoc] at split
      exact .of_released housed split rfl rfl distinct rfl rfl rfl rfl
    · intro sender bus log same sent
      cases same
      have lent := MessageBus.perm_pages_deliver distinct sent
      have same : (rest ++ bus.pages).Perm (site.others.held ++ site.bus.pages) := by
        refine (lent.append_left rest).trans ?_
        rw [← List.append_assoc]
        exact (List.perm_append_comm.trans holds.symm).append_right _
      exact .of_perm housed (MessageBus.distinct_deliver distinct sent) same rfl rfl rfl rfl rfl
  | @fetch message bus process taken =>
    have lent := MessageBus.perm_pages_take distinct taken
    have same : (message.pages ++ site.others.held ++ bus.pages).Perm (site.others.held ++ site.bus.pages) := by
      rw [List.append_assoc]
      exact (List.perm_append_comm_assoc ..).trans (lent.symm.append_left _)
    exact .of_perm housed (MessageBus.distinct_take distinct taken) same rfl rfl rfl rfl rfl
  | wait clock => exact .of_perm housed distinct (.refl _) rfl rfl rfl rfl rfl

/-! ### Sound sites -/

/-- A controller at a site where `extra` pages are held besides by the pumps, and the first `recycled`
of the frames that came in are out of the ring again. -/
structure Sound (controller : Controller) (extra : List PageId) (recycled : Nat) (site : Site) : Prop where
  housed : Housed (controller.pages ++ extra ++ site.owned) site.others.board site.machine.memory
  distinct : site.bus.Distinct
  apart : controller.own.Nodup
  reached : ∀ id ∈ controller.own, site.machine.memory.Reaches id
  /-- Nobody else holds a page that the controller works on. -/
  sole : ∀ id ∈ controller.own, id ∉ extra ∧ id ∉ site.owned
  wired : controller.transmitRing.Wired site.machine.memory site.machine.device.transmitSide
  consumed : recycled ≤ site.others.arrivals.length
  stands : ReceiveRing.Stands (controller.receiveRing, site.machine) (site.others.arrivals.drop recycled)

namespace Sound

variable {machine : Machine Emulator} {scope : PageId → Prop}

theorem own_subset_pages {id : PageId} (listed : id ∈ controller.own) : id ∈ controller.pages := by
  rcases List.mem_cons.mp listed with rfl | pooled
  · exact List.mem_append_left _ (List.mem_cons_self ..)
  · exact List.mem_append_right _ pooled

theorem alive (sound : Sound controller extra recycled site) {id : PageId} (listed : id ∈ controller.pages) :
    0 < site.machine.memory.handles id :=
  sound.housed.alive (List.mem_append_left _ (List.mem_append_left _ listed))

theorem knows (sound : Sound controller extra recycled site) {id : PageId} (listed : id ∈ controller.pages) :
    site.machine.memory.Knows id :=
  Memory.knows_of_handles (sound.alive listed)

theorem knows_extra (sound : Sound controller extra recycled site) {id : PageId} (listed : id ∈ extra) :
    site.machine.memory.Knows id :=
  sound.housed.accounts.knows (List.mem_append_left _ (List.mem_append_right _ listed))

theorem knows_held (sound : Sound controller extra recycled site) {id : PageId} (held : id ∈ site.others.held) :
    site.machine.memory.Knows id :=
  sound.housed.accounts.knows (List.mem_append_right _ (List.mem_append_left _ held))

theorem foreign (sound : Sound controller extra recycled site) {id : PageId} (held : id ∈ site.others.held) :
    id ∉ controller.own := fun own =>
  (sound.sole id own).2 (List.mem_append_left _ held)

theorem fillable (sound : Sound controller extra recycled site) {id : PageId} (held : id ∈ site.others.held) :
    site.machine.memory.Knows id ∧ id ∉ controller.receiveRing.pages :=
  ⟨sound.knows_held held, fun pooled => sound.foreign held (List.mem_cons_of_mem _ pooled)⟩

theorem table_not_mem (sound : Sound controller extra recycled site) :
    controller.transmitRing.table.page ∉ controller.receiveRing.pages :=
  (List.nodup_cons.mp sound.apart).1

theorem tables_apart (sound : Sound controller extra recycled site) :
    controller.transmitRing.table.page ≠ controller.receiveRing.table.page := by
  intro same
  apply sound.table_not_mem
  rw [same]
  exact List.mem_cons_self ..

theorem table_mem_own (controller : Controller) : controller.transmitRing.table.page ∈ controller.own :=
  List.mem_cons_self ..

theorem bounded (site : Site) : site.others.board.nextBase.toNat < 2 ^ 64 :=
  UInt64.toNat_lt _

theorem roomy (sound : Sound controller extra recycled site) :
    controller.receiveRing.Roomy site.machine.memory := by
  intro page listed
  have owned : page ∈ controller.own := List.mem_cons_of_mem _ (List.mem_cons_of_mem _ listed)
  exact sound.housed.charted.size_of_reaches (sound.reached page owned)

theorem seen (sound : Sound controller extra recycled site) : Sound controller extra recycled site.seen :=
  { sound with }

theorem tableReady (sound : Sound controller extra recycled site) :
    Emulator.TableReady site.others.board.nextBase.toNat controller.transmitRing site.machine where
  wired := sound.wired
  charted := sound.housed.charted
  bounded := bounded site
  reached := sound.reached _ (table_mem_own controller)
  kept := sound.alive (own_subset_pages (table_mem_own controller))

theorem transmitReady {flights : List Flight} (sound : Sound controller extra recycled site)
    (flies : TransmitRing.Flies (controller.transmitRing, site.machine) flights) :
    Emulator.TransmitReady site.others.board.nextBase.toNat controller.transmitRing site.machine flights where
  toTableReady := sound.tableReady
  flies := flies
  alive _ listed := sound.alive (List.mem_append_left _ listed)

theorem receiveReady (sound : Sound controller extra recycled site) :
    Emulator.ReceiveReady site.others.board.nextBase.toNat controller.receiveRing site.machine
      (site.others.arrivals.drop recycled) where
  stands := sound.stands
  charted := sound.housed.charted
  bounded := bounded site
  reached id listed := sound.reached id (List.mem_cons_of_mem _ listed)
  alive _ listed := sound.alive (List.mem_append_right _ listed)

/-! ### Steps of the controller -/

theorem transmitStep (sound : Sound controller extra recycled site) {ring : TransmitRing}
    (leads : TransmitRing.Leads (controller.transmitRing, site.machine) (ring, machine)) :
    Sound { controller with transmitRing := ring } extra recycled { site with machine := machine } := by
  have table : ring.table = controller.transmitRing.table := leads.table
  have own : Controller.own { controller with transmitRing := ring } = controller.own := by
    simp only [Controller.own, table]
  obtain ⟨tail, pending, side⟩ := leads.transmitSide
  dsimp only at side
  have wired := sound.wired.of_changes leads.changes
  exact
    { housed :=
        { charted := sound.housed.charted.of_changes leads.changes leads.reachable
          accounts := by
            have accounts := leads.accounts (controller.receiveRing.pages ++ (extra ++ site.owned)) (by
              have accounts := sound.housed.accounts
              simp only [Controller.pages, List.append_assoc] at accounts
              exact accounts)
            simp only [Controller.pages, List.append_assoc]
            exact accounts }
      distinct := sound.distinct
      apart := own ▸ sound.apart
      reached := by
        rw [own]
        intro id listed
        exact leads.changes.reaches (sound.knows (own_subset_pages listed)) (sound.reached id listed)
      sole := own ▸ sound.sole
      wired :=
        { seated := leads.seated sound.wired.seated
          several := leads.capacity ▸ wired.several
          small := leads.capacity ▸ wired.small
          base := by
            dsimp only
            rw [side, table]
            exact wired.base
          length := by
            dsimp only
            rw [side]
            exact wired.length.trans leads.capacity.symm
          enabled := by
            dsimp only
            rw [side]
            exact wired.enabled
          head := by
            dsimp only
            rw [side]
            exact leads.capacity ▸ wired.head }
      consumed := sound.consumed
      -- A transmit step writes the transmit table alone, and the receive ring has no page in common with it.
      stands := by
        have stands := sound.stands
        unfold ReceiveRing.Stands at stands ⊢
        have same : machine.device.receiveSide = site.machine.device.receiveSide := leads.receiveSide
        dsimp only at stands ⊢
        rw [same]
        refine stands.of_changes leads.changes ?_
        rintro id listed rfl
        exact sound.table_not_mem listed }

theorem receiveStep (sound : Sound controller extra recycled site) {ring : ReceiveRing} {later : Nat}
    (leads : ReceiveRing.Leads scope (controller.receiveRing, site.machine) (ring, machine))
    (consumed : later ≤ site.others.arrivals.length)
    (stands : ReceiveRing.Stands (ring, machine) (site.others.arrivals.drop later)) :
    Sound { controller with receiveRing := ring } extra later { site with machine := machine } := by
  have pages : ring.pages = controller.receiveRing.pages := leads.pages
  have own : Controller.own { controller with receiveRing := ring } = controller.own := by
    simp only [Controller.own, pages]
  have side : machine.device.transmitSide = site.machine.device.transmitSide := leads.transmitSide
  exact
    { housed := by
        have housed := sound.housed.of_changes leads.changes leads.reachable leads.handles
        simp only [Controller.pages, pages] at housed ⊢
        exact housed
      distinct := sound.distinct
      apart := own ▸ sound.apart
      reached := by
        rw [own]
        intro id listed
        exact leads.changes.reaches (sound.knows (own_subset_pages listed)) (sound.reached id listed)
      sole := own ▸ sound.sole
      wired := by
        dsimp only
        rw [side]
        exact sound.wired.of_changes leads.changes
      consumed := consumed
      stands := stands }

/-! ### Moves of the others -/

theorem shift {less : List PageId} (sound : Sound controller extra recycled site)
    (housed : Housed (controller.pages ++ less ++ next.owned) next.others.board next.machine.memory)
    (distinct : next.bus.Distinct)
    (owned : ∀ id, id ∈ less ∨ id ∈ next.owned →
      (id ∈ extra ∨ id ∈ site.owned) ∨ ¬ site.machine.memory.Knows id)
    (changes : site.machine.memory.ChangesWithin scope next.machine.memory)
    (outside : ∀ id ∈ controller.own, ¬ scope id) (device : next.machine.device = site.machine.device)
    (arrivals : next.others.arrivals = site.others.arrivals) : Sound controller less recycled next where
  housed := housed
  distinct := distinct
  apart := sound.apart
  reached id listed := changes.reaches (sound.knows (own_subset_pages listed)) (sound.reached id listed)
  sole id listed := by
    rw [← not_or]
    intro held
    rcases owned id held with (before | before) | unknown
    · exact (sound.sole id listed).1 before
    · exact (sound.sole id listed).2 before
    · exact unknown (sound.knows (own_subset_pages listed))
  wired := by
    rw [device]
    exact sound.wired.of_changes changes
  consumed := arrivals ▸ sound.consumed
  stands := by
    have stands := sound.stands
    unfold ReceiveRing.Stands at stands ⊢
    rw [device, arrivals]
    exact stands.of_changes changes fun id listed => outside id (List.mem_cons_of_mem _ listed)

theorem of_effect (sound : Sound controller extra recycled site)
    (effect : PageActionEffect rules (controller.pages ++ extra) site next) : Sound controller extra recycled next := by
  refine sound.shift effect.housed effect.distinct ?_ effect.changes ?_ effect.device effect.arrivals
  · rintro id (kept | held)
    · exact .inl (.inl kept)
    · exact (effect.owned id held).imp .inr fun unknown => unknown
  · rintro id listed ⟨held, -⟩
    exact sound.foreign held listed

theorem served (sound : Sound controller extra recycled site)
    (serves : Emulator.Serves controller.transmitRing site.machine machine) :
    Sound controller extra recycled { site with machine := machine } where
  housed := sound.housed.of_changes serves.changes serves.reachable serves.handles
  distinct := sound.distinct
  apart := sound.apart
  reached id listed := serves.changes.reaches (sound.knows (own_subset_pages listed)) (sound.reached id listed)
  sole := sound.sole
  wired := serves.wired sound.wired
  consumed := sound.consumed
  stands := by
    have stands := sound.stands
    unfold ReceiveRing.Stands at stands ⊢
    dsimp only at stands ⊢
    rw [serves.receiveSide]
    refine stands.of_changes serves.changes ?_
    rintro id listed rfl
    exact sound.table_not_mem listed

theorem filled (sound : Sound controller extra recycled site) {arrivals : List Arrival}
    (fills : Emulator.Fills controller.receiveRing site.machine machine) (consumed : recycled ≤ arrivals.length)
    (stands : ReceiveRing.Stands (controller.receiveRing, machine) (arrivals.drop recycled)) :
    Sound controller extra recycled { site with machine := machine, others.arrivals := arrivals } where
  housed := sound.housed.of_changes fills.changes fills.reachable fills.handles
  distinct := sound.distinct
  apart := sound.apart
  reached id listed := fills.changes.reaches (sound.knows (own_subset_pages listed)) (sound.reached id listed)
  sole := sound.sole
  wired := by
    dsimp only
    rw [fills.transmitSide]
    exact sound.wired.of_changes fills.changes
  consumed := consumed
  stands := stands

theorem receive_ends (sound : Sound controller extra recycled site) (frame : List UInt8)
    (errors : ReceiveErrors) :
    (Emulator.receive frame errors).Ends site.machine
      (fun _ after => Emulator.Fills controller.receiveRing site.machine after ∧
        frame.length ≤ Limits.receiveBuffer ∧
        (site.others.arrivals.drop recycled).length < controller.receiveRing.capacity - 1 ∧
        ReceiveRing.Stands (controller.receiveRing, after) (site.others.arrivals.drop recycled ++ [⟨frame, errors⟩]))
      (fun stop after => Emulator.Fills controller.receiveRing site.machine after ∧
        ReceiveRing.Stands (controller.receiveRing, after) (site.others.arrivals.drop recycled) ∧
        (stop = .refused (.frameTooLong frame.length) ∧ Limits.receiveBuffer < frame.length ∨
          stop = .refused .ringFull ∧ frame.length ≤ Limits.receiveBuffer ∧
            (site.others.arrivals.drop recycled).length = controller.receiveRing.capacity - 1)) := by
  exact Emulator.receive_stands sound.receiveReady frame errors

end Sound

/-- What the others leave alone: the pages that are reserved, unless the controller works on them, and
the frames that came in before. -/
structure KeepsReserved (rules : Rules) (controller : Controller) (site next : Site) : Prop where
  changes : site.machine.memory.ChangesWithin (fun id => id ∈ controller.own ∨ ¬ rules.reserved id)
    next.machine.memory
  arrivals : ∃ more, next.others.arrivals = site.others.arrivals ++ more

theorem KeepsReserved.refl (rules : Rules) (controller : Controller) (site : Site) :
    KeepsReserved rules controller site site :=
  ⟨.refl _ _, [], (List.append_nil _).symm⟩

theorem KeepsReserved.trans {middle : Site} (first : KeepsReserved rules controller site middle)
    (second : KeepsReserved rules controller middle next) : KeepsReserved rules controller site next := by
  obtain ⟨some, early⟩ := first.arrivals
  obtain ⟨more, late⟩ := second.arrivals
  exact ⟨first.changes.trans second.changes, some ++ more, by rw [late, early, List.append_assoc]⟩

theorem Sound.outside_of_reserved (sound : Sound controller extra recycled site) {id : PageId} (listed : id ∈ extra)
    (reserved : rules.reserved id) : ¬ (id ∈ controller.own ∨ ¬ rules.reserved id) := by
  rintro (own | free)
  · exact (sound.sole id own).1 listed
  · exact free reserved

theorem Move.keepsReserved (sound : Sound controller extra recycled site) (move : Move rules site next) :
    Sound controller extra recycled next ∧ KeepsReserved rules controller site next := by
  cases move with
  | action action =>
    have effect := action.effect sound.housed sound.distinct
    exact ⟨sound.of_effect effect, effect.changes.mono fun _ kept => .inr kept.2, [], by
      rw [effect.arrivals, List.append_nil]⟩
  | transmit limit =>
    have serves := (Emulator.transmit_serves sound.tableReady limit).after
    refine ⟨sound.served serves, serves.changes.mono ?_, [], (List.append_nil _).symm⟩
    rintro id rfl
    exact .inl (Sound.table_mem_own controller)
  | @inject machine frame errors taken =>
    obtain ⟨fills, -, -, stands⟩ := (Step.ends_of_ok taken).mp (sound.receive_ends frame errors)
    refine ⟨sound.filled fills ?_ ?_, fills.changes.mono fun _ pooled => .inl (List.mem_cons_of_mem _ pooled),
      [⟨frame, errors⟩], rfl⟩
    · rw [List.length_append]
      exact Nat.le_add_right_of_le sound.consumed
    · rwa [List.drop_append_of_le_length sound.consumed]
  | lose frame errors refused =>
    obtain ⟨fills, stands, -⟩ := (Step.ends_of_error refused).mp (sound.receive_ends frame errors)
    exact ⟨sound.filled fills sound.consumed stands,
      fills.changes.mono fun _ pooled => .inl (List.mem_cons_of_mem _ pooled), [], (List.append_nil _).symm⟩
  | raise cause => exact ⟨{ sound with }, .refl _ _, [], (List.append_nil _).symm⟩

/-- Whatever the others do, the site stays sound. -/
theorem Moves.keepsReserved (sound : Sound controller extra recycled site) (moves : Moves rules site next) :
    Sound controller extra recycled next ∧ KeepsReserved rules controller site next := by
  induction moves with
  | none => exact ⟨sound, .refl ..⟩
  | more before move ih =>
    obtain ⟨middle, early⟩ := ih
    obtain ⟨last, late⟩ := move.keepsReserved middle
    exact ⟨last.seen, early.trans ⟨late.changes, late.arrivals⟩⟩

/-! ### Flights -/

def Leaving (ring : TransmitRing) (flights : List Flight) (before after : Machine Emulator) : Prop :=
  ∃ count, count ≤ flights.length ∧ TransmitRing.Flies (ring, after) (flights.drop count) ∧
    Gathers ring before.memory (flights.take count) before.device.wire after.device.wire

theorem Leaving.of_changes {ring : TransmitRing} {flights : List Flight} {before after : Machine Emulator}
    {scope : PageId → Prop} (flies : TransmitRing.Flies (ring, before) flights)
    (changes : before.memory.ChangesWithin scope after.memory) (outside : ¬ scope ring.table.page)
    (transmitSide : after.device.transmitSide = before.device.transmitSide) :
    Leaving ring flights before after := by
  have carries : ring.Carries before.memory before.device.transmitSide flights := flies
  refine ⟨0, Nat.zero_le _, ?_, ?_⟩
  · unfold TransmitRing.Flies
    dsimp only
    rw [transmitSide]
    exact carries.of_changes changes outside
  · rw [Emulator.wire_of_transmitSide transmitSide]
    exact .done _

theorem Move.leaving {flights : List Flight} (sound : Sound controller extra recycled site)
    (flies : TransmitRing.Flies (controller.transmitRing, site.machine) flights) (move : Move rules site next) :
    Leaving controller.transmitRing flights site.machine next.machine := by
  have table := Sound.table_mem_own controller
  cases move with
  | action action =>
    have effect := action.effect sound.housed sound.distinct
    refine .of_changes flies effect.changes ?_ (by rw [effect.device])
    rintro ⟨held, -⟩
    exact sound.foreign held table
  | transmit limit =>
    apply Step.Ends.after
    refine (Emulator.transmit_flies (sound.transmitReady flies) limit).mono ?_ ?_
    · rintro count after ⟨all, fetched⟩
      exact ⟨count, by omega, fetched.flies, fetched.gathers⟩
    · rintro _ after ⟨stuck, some, fetched, _⟩
      exact ⟨stuck, by omega, fetched.flies, fetched.gathers⟩
  | @inject machine frame errors taken =>
    obtain ⟨fills, _⟩ := (Step.ends_of_ok taken).mp (sound.receive_ends frame errors)
    exact .of_changes flies fills.changes sound.table_not_mem fills.transmitSide
  | lose frame errors refused =>
    obtain ⟨fills, _⟩ := (Step.ends_of_error refused).mp (sound.receive_ends frame errors)
    exact .of_changes flies fills.changes sound.table_not_mem fills.transmitSide
  | raise cause =>
    exact .of_changes flies (.refl (fun _ => False) _) id rfl

end PacketPath
