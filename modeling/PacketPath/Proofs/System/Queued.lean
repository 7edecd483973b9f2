import PacketPath.Proofs.System.InFlight

/-! The frames that output pumps post, each a flight of its own. The device sends them in the order in which
they were posted, each with the bytes that stood in its packet at a point on record before it was out. -/

set_option autoImplicit false

namespace PacketPath

variable {rules : Rules} {extra hands pages : List PageId} {recycled : Nat} {site next : Site}
  {controller later : Controller} {scope plain : PageId → Prop} {page : PageId} {machine : Machine Emulator}
  {past : List (Machine Emulator)}

structure Posted where
  fragment : Fragment
  /-- So many points were on record when its message was taken. -/
  since : Nat

def Posted.flight (posted : Posted) : Flight :=
  ⟨posted.fragment, true⟩

theorem Posted.mem_drop {posted : List Posted} {request : Posted} {outs n : Nat} (asked : posted[n]? = some request)
    (behind : outs ≤ n) : request ∈ posted.drop outs := by
  apply List.mem_of_getElem? (i := n - outs)
  rwa [List.getElem?_drop, Nat.add_sub_cancel' behind]

def Endpoint.posts (endpoint : Endpoint) (site : Site) (count : Nat) : List Posted :=
  ((endpoint.frames site).take count).map fun fragment => ⟨fragment, site.others.points.length⟩

theorem Endpoint.posts_length {endpoint : Endpoint} {site : Site} {first : List Fragment}
    (among : first <+: endpoint.frames site) :
    endpoint.posts site first.length = first.map fun fragment => ⟨fragment, site.others.points.length⟩ := by
  obtain ⟨rest, frames⟩ := among
  rw [posts, ← frames, List.take_left]

/-! ### The record -/

/-- The memory is on record as it is now. -/
def Site.Recorded (site : Site) : Prop :=
  ∃ last, site.others.points.getLast? = some last ∧ last.memory = site.machine.memory

theorem Site.recorded_seen (site : Site) : site.seen.Recorded :=
  ⟨site.machine, List.getLast?_concat, rfl⟩

theorem Move.points_eq (sound : Sound controller extra recycled site) (move : Move rules site next) :
    next.others.points = site.others.points := by
  cases move with
  | action action => exact (action.effect sound.housed sound.distinct).points
  | transmit | inject | lose | raise => rfl

def Machine.outs (machine : Machine Emulator) : Nat :=
  machine.device.sent.length

def Posted.Granted (past : List (Machine Emulator)) (n : Nat) (posted : Posted) (frame : List UInt8) : Prop :=
  ∃ k machine, posted.since ≤ k + 1 ∧ past[k]? = some machine ∧
    (∀ before ∈ past.take (k + 1), before.outs ≤ n) ∧ frame = posted.flight.bytes machine.memory

theorem Posted.Granted.push {n : Nat} {posted : Posted} {frame : List UInt8} (granted : posted.Granted past n frame) :
    posted.Granted (past ++ [machine]) n frame := by
  obtain ⟨k, old, after, here, fewer, same⟩ := granted
  have inside := (List.getElem?_eq_some_iff.mp here).1
  refine ⟨k, old, after, ?_, ?_, same⟩
  · rw [List.getElem?_append_left inside]
    exact here
  · rw [List.take_append_of_le_length inside]
    exact fewer

theorem Posted.Granted.eq_of_unwritten {n : Nat} {posted : Posted} {frame bytes : List UInt8}
    (granted : posted.Granted past n frame)
    (unwritten : ∀ k machine, posted.since ≤ k + 1 → past[k]? = some machine → machine.outs ≤ n →
      posted.flight.bytes machine.memory = bytes) : frame = bytes := by
  obtain ⟨k, machine, after, here, fewer, rfl⟩ := granted
  apply unwritten k machine after here
  apply fewer
  apply List.mem_of_getElem? (i := k)
  rw [List.getElem?_take_of_lt (Nat.lt_succ_self k)]
  exact here

/-! ### Frames that were posted -/

/-- Of the frames that were posted the first are out, each as it was granted, and the others are in flight. -/
structure Queued (plain : PageId → Prop) (posted : List Posted) (controller : Controller) (site : Site) : Prop where
  gathered : site.machine.device.wire.gathered = []
  within : site.machine.outs ≤ posted.length
  inFlight : InFlight plain controller site.machine ((posted.drop site.machine.outs).map Posted.flight)
  known : ∀ request ∈ posted, request.since ≤ site.others.points.length
  past : ∀ before ∈ site.others.points, before.outs ≤ site.machine.outs
  granted : ∀ n (request : Posted) frame, posted[n]? = some request → site.machine.device.wire.sent[n]? = some frame →
    plain request.fragment.page → request.Granted site.others.points n frame

theorem Gathers.exists_frames {ring : TransmitRing} {memory : Memory} {flights : List Flight} {first last : Wire}
    (gathers : Gathers ring memory flights first last) (whole : ∀ flight ∈ flights, flight.endsFrame = true)
    (gathered : first.gathered = []) :
    ∃ frames, last = ⟨[], first.sent ++ frames⟩ ∧
      List.Forall₂ (fun flight frame => flight.Visible ring memory → frame = flight.bytes memory) flights frames := by
  induction gathers with
  | done wire => exact ⟨[], by rw [List.append_nil, ← gathered], .nil⟩
  | @next flight rest wire last bytes shown later ih =>
    have ends := whole flight (List.mem_cons_self ..)
    rw [ends] at ih
    obtain ⟨frames, rfl, others⟩ := ih (fun other listed => whole other (List.mem_cons_of_mem _ listed)) rfl
    refine ⟨bytes :: frames, ?_, .cons shown others⟩
    rw [Wire.gather, if_pos rfl, gathered, List.nil_append, List.append_assoc, List.singleton_append]

namespace Queued

variable {posted more : List Posted}

theorem start (flies : TransmitRing.Flies (controller.transmitRing, site.machine) [])
    (wire : site.machine.device.wire = ⟨[], []⟩) (past : ∀ before ∈ site.others.points, before = site.machine) :
    Queued plain [] controller site where
  gathered := by rw [wire]
  within := by
    have sent : site.machine.device.wire.sent = [] := by rw [wire]
    exact Nat.le_of_eq (congrArg List.length sent)
  inFlight := by
    rw [List.drop_nil]
    exact ⟨flies, nofun⟩
  known := nofun
  past before listed := Nat.le_of_eq (congrArg (·.device.wire.sent.length) (past before listed))
  granted := nofun

theorem seen (queued : Queued plain posted controller site) : Queued plain posted controller site.seen where
  gathered := queued.gathered
  within := queued.within
  inFlight := queued.inFlight
  known request listed := by
    rw [Site.seen, List.length_append]
    exact Nat.le_add_right_of_le (queued.known request listed)
  past := by
    intro before listed
    rcases List.mem_append.mp listed with earlier | now
    · exact queued.past before earlier
    · rw [List.mem_singleton.mp now]
      exact Nat.le_refl _
  granted n request frame asked sent matters := (queued.granted n request frame asked sent matters).push

theorem outs_eq (wire : next.machine.device.wire = site.machine.device.wire) : next.machine.outs = site.machine.outs :=
  congrArg (List.length ∘ Wire.sent) wire

theorem unmoved (queued : Queued plain posted controller site)
    (unmoved : KeepsFlights scope controller later site next) :
    Queued plain posted later next where
  gathered := unmoved.wire ▸ queued.gathered
  within := outs_eq unmoved.wire ▸ queued.within
  inFlight := by
    rw [outs_eq unmoved.wire]
    exact queued.inFlight.unmoved unmoved
  known := unmoved.points ▸ queued.known
  past := by
    rw [unmoved.points, outs_eq unmoved.wire]
    exact queued.past
  granted := by
    rw [unmoved.points, unmoved.wire]
    exact queued.granted

theorem adds (queued : Queued plain posted controller site) (sound : Sound controller extra recycled site)
    {request : Posted} {after : Controller × Machine Emulator} (held : request.fragment.page ∈ extra)
    (inside : request.fragment.Inside site.machine.memory)
    (reached : plain request.fragment.page → site.machine.memory.Reaches request.fragment.page)
    (since : request.since ≤ site.others.points.length)
    (adds : Controller.Adds request.fragment (controller, site.machine) after) :
    Queued plain (posted ++ [request]) after.1 { site with machine := after.2 } := by
  have outs : after.2.outs = site.machine.outs := congrArg (List.length ∘ Wire.sent) adds.transmitOnly.wire
  have inFlight := queued.inFlight.adds adds (sound.knows_extra held)
    fun matters => sound.accessible (fun own => (sound.sole _ own).1 held) inside (reached matters) true
  constructor
  · exact adds.transmitOnly.wire ▸ queued.gathered
  · rw [outs, List.length_append]
    exact Nat.le_add_right_of_le queued.within
  · rw [outs, List.drop_append_of_le_length queued.within, List.map_append]
    exact inFlight
  · intro other listed
    rcases List.mem_append.mp listed with before | new
    · exact queued.known other before
    · rw [List.mem_singleton.mp new]
      exact since
  · rw [outs]
    exact queued.past
  · intro n other frame asked sent matters
    dsimp only at sent
    rw [adds.transmitOnly.wire] at sent
    -- What is on the wire was posted earlier, so the new request grants nothing yet.
    have short : n < posted.length := Nat.lt_of_lt_of_le (List.getElem?_eq_some_iff.mp sent).1 queued.within
    rw [List.getElem?_append_left short] at asked
    exact queued.granted n other frame asked sent matters

/-- Each frame that leaves the ring is that of the request whose turn it was. -/
theorem eq_bytes_of_leaves {ring : TransmitRing} {memory : Memory} {outs count n : Nat} {frames : List (List UInt8)}
    {request : Posted} {frame : List UInt8}
    (shown : List.Forall₂ (fun flight frame => flight.Visible ring memory → frame = flight.bytes memory)
      ((List.take count (posted.drop outs)).map Posted.flight) frames)
    (behind : outs ≤ n) (asked : posted[n]? = some request) (sent : frames[n - outs]? = some frame)
    (visible : request.flight.Visible ring memory) : frame = request.flight.bytes memory := by
  obtain ⟨among, found⟩ := List.getElem?_eq_some_iff.mp sent
  have inside : n - outs < ((List.take count (posted.drop outs)).map Posted.flight).length := shown.length_eq ▸ among
  have here : ((List.take count (posted.drop outs)).map Posted.flight)[n - outs] = request.flight := by
    apply Option.some.inj
    rw [← List.getElem?_eq_getElem, List.getElem?_map, List.getElem?_take_of_lt, List.getElem?_drop,
      Nat.add_sub_cancel' behind, asked]
    · rfl
    · rw [List.length_map, List.length_take] at inside
      omega
  have bytes := (List.forall₂_iff_get.mp shown).2 _ inside among
  rw [List.get_eq_getElem, List.get_eq_getElem, here, found] at bytes
  exact bytes visible

/-- Frames that go out in a move are granted as they stand on record at the last point. -/
theorem move (queued : Queued plain posted controller site) (recorded : site.Recorded)
    (sound : Sound controller extra recycled site) (move : Move rules site next) :
    Queued plain posted controller next := by
  obtain ⟨count, bounded, inFlight, gathers⟩ := queued.inFlight.move sound move
  have points := move.points_eq sound
  rw [List.length_map, List.length_drop] at bounded
  rw [← List.map_drop, List.drop_drop] at inFlight
  rw [← List.map_take] at gathers
  have whole : ∀ flight ∈ (List.take count (posted.drop site.machine.outs)).map Posted.flight,
      flight.endsFrame = true := by
    intro flight listed
    obtain ⟨request, -, rfl⟩ := List.mem_map.mp listed
    rfl
  -- Nothing was gathered before, so what leaves the ring comes out as whole frames.
  obtain ⟨frames, wire, shown⟩ := gathers.exists_frames whole queued.gathered
  have size : frames.length = count := by
    rw [← shown.length_eq, List.length_map, List.length_take, List.length_drop]
    exact Nat.min_eq_left bounded
  have outs : next.machine.outs = site.machine.outs + count := by
    have length := congrArg (List.length ∘ Wire.sent) wire
    simp only [Function.comp_apply, List.length_append, size] at length
    exact length
  have within := queued.within
  constructor
  · rw [wire]
  · rw [outs]
    omega
  · rwa [outs]
  · rw [points]
    exact queued.known
  · rw [points, outs]
    intro before listed
    exact Nat.le_add_right_of_le (queued.past before listed)
  · intro n request frame asked sent matters
    rw [points]
    rw [wire] at sent
    rcases Nat.lt_or_ge n site.machine.device.wire.sent.length with before | new
    · rw [List.getElem?_append_left before] at sent
      exact queued.granted n request frame asked sent matters
    · rw [List.getElem?_append_right new] at sent
      -- The device reads the memory of the last point, which no move has changed in between.
      obtain ⟨last, final, same⟩ := recorded
      rw [List.getLast?_eq_getElem?] at final
      refine ⟨site.others.points.length - 1, last, ?_, final, ?_, ?_⟩
      · have known := queued.known request (List.mem_of_getElem? asked)
        omega
      · intro before earlier
        exact Nat.le_trans (queued.past before (List.mem_of_mem_take earlier)) new
      · rw [same]
        apply eq_bytes_of_leaves shown new asked sent
        have waits := Posted.mem_drop asked new
        exact (queued.inFlight.accessible request.flight (List.mem_map_of_mem waits) matters).visible

theorem moves (queued : Queued plain posted controller site) (recorded : site.Recorded)
    (sound : Sound controller extra recycled site) (moves : Moves rules site next) :
    Queued plain posted controller next ∧ next.Recorded := by
  induction moves with
  | none => exact ⟨queued, recorded⟩
  | @more middle last before move ih =>
    have middle := (before.keepsReserved sound).1
    exact ⟨(ih.1.move ih.2 middle move).seen, last.recorded_seen⟩

end Queued

/-! ### Pumps at work -/

theorem Moves.points_prefix (sound : Sound controller extra recycled site) (moves : Moves rules site next) :
    site.others.points <+: next.others.points := by
  induction moves with
  | none => exact List.prefix_rfl
  | more before move ih =>
    rw [Site.seen, move.points_eq (before.keepsReserved sound).1]
    exact ih.trans (List.prefix_append ..)

/-- An invariant of what was posted that every step keeps which moves no flight. It is kept, too, when the others
and the device do something, and when a frame joins the flights whose page is one of the board's if it matters. -/
structure Preserved (rules : Rules) (plain : PageId → Prop) (invariant : List Posted → Controller → Site → Prop) :
    Prop where
  moves : ∀ {extra posted controller site next}, Sound controller extra controller.receiveRing.recycled site →
    invariant posted controller site → Moves rules site.seen next → invariant posted controller next
  unmoved : ∀ {scope posted controller later site next}, invariant posted controller site →
    KeepsFlights scope controller later site next → invariant posted later next
  adds : ∀ {extra posted controller site request after},
    Sound controller extra controller.receiveRing.recycled site → invariant posted controller site →
    request.fragment.page ∈ extra → request.fragment.Inside site.machine.memory →
    (plain request.fragment.page → site.machine.memory.Reaches request.fragment.page) →
    request.since ≤ site.others.points.length →
    Controller.Adds request.fragment (controller, site.machine) after →
    invariant (posted ++ [request]) after.1 { site with machine := after.2 }

theorem Queued.preserved (rules : Rules) (plain : PageId → Prop) : Preserved rules plain (Queued plain) where
  moves sound queued moves := (queued.seen.moves (Site.recorded_seen _) sound.seen moves).1
  unmoved queued unmoved := queued.unmoved unmoved
  adds sound queued held inside reached since adds := queued.adds sound held inside reached since adds

/-- While a message is served: its first frames have joined those that were posted before, and the pages at hand
that matter are pages of the board. -/
structure Serving (plain : PageId → Prop) (invariant : List Posted → Controller → Site → Prop) (posted : List Posted)
    (since : Nat) (fragments : List Fragment) (hands : List PageId) (controller : Controller) (site : Site) : Prop where
  holds : invariant (posted ++ fragments.map fun fragment => ⟨fragment, since⟩) controller site
  started : since ≤ site.others.points.length
  reached : ∀ page ∈ hands, plain page → site.machine.memory.Reaches page

namespace Preserved

variable {invariant : List Posted → Controller → Site → Prop} {posted : List Posted} {since : Nat}
  {fragments : List Fragment} {fewer : List PageId}

theorem inbound (preserved : Preserved rules plain invariant) (turns : page ∈ extra) (endpoint : Endpoint)
    (stack : ProcessId)
    (posted : List Posted) : InboundPump.Keeps rules extra page endpoint stack fun _ => invariant posted where
  moves := preserved.moves
  notes log holds := preserved.unmoved holds (.of_memory (.refl _ _) _)
  misses sound holds _ draws := preserved.unmoved holds (draws.unmoved sound turns)
  draws sound holds _ draws _ := preserved.unmoved holds (draws.unmoved sound turns)
  lends sound holds _ _ := preserved.unmoved holds (.of_memory (Memory.changes_retain _ (sound.knows_extra turns)) _)
  takesBack sound holds := by
    have retained := Memory.changes_retain (fun _ => False) (sound.knows_extra turns)
    exact preserved.unmoved holds (.of_memory (retained.trans (Memory.changes_release _ _ page)) _)

theorem serving_unmoved (preserved : Preserved rules plain invariant)
    (serving : Serving plain invariant posted since fragments hands controller site)
    (known : ∀ page ∈ hands, site.machine.memory.Knows page) (among : ∀ page ∈ fewer, page ∈ hands)
    (unmoved : KeepsFlights scope controller later site next) :
    Serving plain invariant posted since fragments fewer later next where
  holds := preserved.unmoved serving.holds unmoved
  started := unmoved.points ▸ serving.started
  reached page held matters :=
    unmoved.changes.reaches (known page (among page held)) (serving.reached page (among page held) matters)

theorem outbound (preserved : Preserved rules plain invariant) (pause : Pause Emulator Others) (extra : List PageId)
    (posted : List Posted) (since : Nat) :
    OutboundPump.Keeps rules pause extra (Serving plain invariant posted since) where
  pauses := by
    intro fragments hands controller site sound serving moves
    have changes := (moves.keepsReserved sound.seen).2.changes
    refine ⟨preserved.moves sound serving.holds moves, ?_, fun page held matters => ?_⟩
    · -- Points are only added to the record.
      have longer := (moves.points_prefix sound.seen).length_le
      rw [Site.seen, List.length_append] at longer
      have before := serving.started
      omega
    · exact changes.reaches (sound.knows_extra (List.mem_append_left _ held)) (serving.reached page held matters)
  notes log serving := { serving with holds := preserved.unmoved serving.holds (.of_memory (.refl _ _) _) }
  posts := by
    intro fragments hands controller site fragment after sound serving held inside adds
    refine ⟨?_, serving.started, fun page held matters => ?_⟩
    · rw [List.map_append, ← List.append_assoc]
      exact preserved.adds sound serving.holds (List.mem_append_left _ held) inside (serving.reached _ held)
        serving.started adds
    · have known := sound.knows_extra (List.mem_append_left _ held)
      exact adds.transmitOnly.leads.changes.reaches known (serving.reached page held matters)
  upkeep sound serving upkeep :=
    preserved.serving_unmoved serving (fun _ held => sound.knows_extra (List.mem_append_left _ held))
      (fun _ => id) upkeep.unmoved
  grips := by
    intro fragments hands pages controller site sound serving held
    have known (page : PageId) (listed : page ∈ hands) : site.machine.memory.Knows page :=
      sound.knows_extra (List.mem_append_left _ listed)
    have changes := Memory.changes_retainAll (fun _ => False) fun page listed => known page (held page listed)
    apply preserved.serving_unmoved serving known ?_ (.of_memory changes _)
    intro page listed
    exact (List.mem_append.mp listed).elim (held page) id
  drops sound serving :=
    preserved.serving_unmoved serving (fun _ held => sound.knows_extra (List.mem_append_left _ held))
      (fun _ => List.mem_append_right _) (.of_memory (Memory.changes_releaseAll _ _ _) _)

end Preserved

end PacketPath
