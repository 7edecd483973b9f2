import PacketPath.Proofs.Pump.Inbound

/-! The start of an input pump. A controller has been attached, whatever happened since then, and the pump is given
pages of the board that somebody held. -/

set_option autoImplicit false

namespace PacketPath

variable {rules : Rules} {settings : Settings} {pumpSettings : PumpSettings} {controller : Controller}
  {pump : InboundPump} {site next : Site} {extra : List PageId} {recycled : Nat}

/-! ### Pages that change hands -/

theorem Sound.takesOver {pages rest : List PageId} (sound : Sound controller extra recycled site)
    (given : site.others.held.Perm (pages ++ rest)) :
    Sound controller (pages ++ extra) recycled { site with others.held := rest } := by
  refine sound.shift (sound.housed.congr fun id => ?_) sound.distinct (fun id listed => .inl ?_)
    (.refl (fun _ => False) _) (fun _ _ => id) rfl rfl
  · have same := given.count_eq id
    simp only [Site.owned, List.count_append] at same ⊢
    omega
  · simp only [Site.owned, List.mem_append, given.mem_iff] at listed ⊢
    rcases listed with (turns | kept) | held | lent
    · exact .inr (.inl (.inl turns))
    · exact .inl kept
    · exact .inr (.inl (.inr held))
    · exact .inr (.inr lent)

theorem Sound.handsOver {pages : List PageId} (sound : Sound controller (pages ++ extra) recycled site) :
    Sound controller extra recycled { site with others.held := pages ++ site.others.held } := by
  refine sound.shift (sound.housed.congr fun id => ?_) sound.distinct (fun id listed => .inl ?_)
    (.refl (fun _ => False) _) (fun _ _ => id) rfl rfl
  · simp only [Site.owned, List.count_append]
    omega
  · simp only [Site.owned, List.mem_append] at listed ⊢
    rcases listed with kept | (turns | held) | lent
    · exact .inl (.inr kept)
    · exact .inl (.inl turns)
    · exact .inr (.inl held)
    · exact .inr (.inr lent)

/-! ### Pumps that take up their work -/

/-- A pump that was just given its pages. From here on the machine is on record. -/
inductive PumpCreated (settings : Settings) (pumpSettings : PumpSettings) :
    Controller → InboundPump → Site → Prop where
  | intro {rules : Rules} {controller : Controller} {pump : InboundPump} {first site : Site}
      {pages rest : List PageId} (attached : Attached settings controller first) (moves : Moves rules first site)
      (created : InboundPump.create pumpSettings pages = .ok pump)
      (given : site.others.held.Perm (pages ++ rest))
      (reached : ∀ page ∈ pages, site.machine.memory.Reaches page) :
      PumpCreated settings pumpSettings controller pump
        (Site.seen { site with others.held := rest, others.points := [] })

theorem Moves.idle {wire : Wire} (sound : Sound controller extra recycled site)
    (flies : TransmitRing.Flies (controller.transmitRing, site.machine) [])
    (unmoved : site.machine.device.wire = wire) (moves : Moves rules site next) :
    TransmitRing.Flies (controller.transmitRing, next.machine) [] ∧ next.machine.device.wire = wire := by
  induction moves with
  | none => exact ⟨flies, unmoved⟩
  | more before move ih =>
    obtain ⟨_, _, flies, gathers⟩ := move.leaving (before.keepsReserved sound).1 ih.1
    rw [List.drop_nil] at flies
    rw [List.take_nil] at gathers
    exact ⟨flies, gathers.eq_of_nil.trans ih.2⟩

structure Ready (controller : Controller) (pump : InboundPump) (site : Site) : Prop where
  sound : Sound controller pump.pages.toList controller.receiveRing.recycled site
  reached : ∀ page ∈ pump.pages.toList, site.machine.memory.Reaches page
  turn : pump.turn < pump.pages.size
  counters : pump.counters = {}
  received : controller.receiveRing.counters = {}
  flies : TransmitRing.Flies (controller.transmitRing, site.machine) []
  wire : site.machine.device.wire = ⟨[], []⟩
  points : site.others.points = [site.machine]

theorem InboundPump.create_eq_ok {pages : List PageId} (created : create pumpSettings pages = .ok pump) :
    pump.pages.toList = pages ∧ pump.settings = pumpSettings ∧ pump.turn = 0 ∧ pump.counters = {} ∧ pages ≠ [] := by
  unfold create PumpSettings.validate at created
  split at created
  · cases created
  · rename_i valid
    split at valid
    · cases valid
    · rename_i some
      split at created
      · rename_i whole
        cases created
        refine ⟨rfl, rfl, rfl, rfl, ?_⟩
        rintro rfl
        exact some (.inl whole.symm)
      · cases created

theorem PumpCreated.ready (pumpCreated : PumpCreated settings pumpSettings controller pump site) :
    Ready controller pump site := by
  cases pumpCreated with
  | @intro rules controller pump first site pages rest attached moves created given reached =>
    obtain ⟨rfl, -, turn, counters, some⟩ := InboundPump.create_eq_ok created
    have started := attached.started
    obtain ⟨_, _, blank⟩ := started.receiveBlank
    have recycled : controller.receiveRing.recycled = 0 := by rw [blank]; rfl
    have sound := (moves.keepsReserved started.sound).1
    obtain ⟨flies, wire⟩ := moves.idle started.sound started.flies started.wire
    refine ⟨?_, reached, ?_, counters, by rw [blank]; rfl, flies, wire, rfl⟩
    · rw [recycled]
      have sound := sound.takesOver given
      rw [List.append_nil] at sound
      exact { sound with }
    · rw [turn]
      exact Array.size_pos_iff.mpr fun none => some (by rw [none])

theorem exists_pumpCreated : ∃ controller pump site page, PumpCreated {} { inputPages := 1 } controller pump site ∧
    pump.pages = #[page] ∧ pump.settings = { inputPages := 1 } ∧ pump.turn = 0 ∧
    site.machine.memory.handles page = 1 ∧ site.bus = ⟨[(⟨0x1001⟩, {})]⟩ ∧ site.others.held = [] ∧
    site.others.receipts = [] ∧ site.others.arrivals = [] := by
  obtain ⟨controller, site, page, attached, bus, held, receipts, reached⟩ := exists_attached_beside
  have registered : Moves .free site _ := .more (.none site) (.action (.register ⟨0x1001⟩))
  have created : InboundPump.create { inputPages := 1 } [page] = .ok ⟨{ inputPages := 1 }, #[page], 0, {}⟩ := rfl
  have given : site.others.held.Perm ([page] ++ []) := .of_eq held
  have pumpCreated := PumpCreated.intro attached registered created given
    (fun id listed => List.mem_singleton.mp listed ▸ reached)
  have started := attached.started
  refine ⟨controller, _, _, page, pumpCreated, rfl, rfl, rfl, ?_, ?_, rfl, receipts, started.arrivals⟩
  · obtain ⟨table, blank⟩ := started.transmitBlank
    have foreign : page ∉ controller.own := started.sound.foreign (held ▸ List.mem_singleton_self page)
    have pages : controller.pages = controller.own := by
      unfold Controller.pages Controller.own
      rw [blank, TransmitRing.pages_blank]
      rfl
    have count := started.sound.housed.accounts page
    rw [pages, Site.owned, held, bus, List.count_append, List.count_append, List.count_eq_zero.mpr foreign] at count
    refine count.trans ?_
    simp [MessageBus.pages, MessageBus.empty]
  · change site.bus.register ⟨0x1001⟩ = _
    rw [bus]
    rfl

end PacketPath
