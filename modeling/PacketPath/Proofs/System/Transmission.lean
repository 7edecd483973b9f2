import PacketPath.Proofs.System.Session

/-! Transmission: seen from its user, the transmit side is a bounded queue. The frames that were
accepted go out in order, once each and with the bytes that they had when they were accepted, and a
frame is turned away only when too few slots are left for it. -/

set_option autoImplicit false

namespace PacketPath

/-! ### Frames in pieces -/

def framePieces : List (List UInt8) → List (List UInt8 × Bool)
  | [] => []
  | [last] => [(last, true)]
  | bytes :: rest => (bytes, false) :: framePieces rest

def Wire.gatherAll (wire : Wire) (pieces : List (List UInt8 × Bool)) : Wire :=
  pieces.foldl (fun wire piece => wire.gather piece.1 piece.2) wire

@[simp] theorem length_framePieces (frame : List (List UInt8)) : (framePieces frame).length = frame.length := by
  induction frame with
  | nil => rfl
  | cons bytes rest ih =>
    cases rest with
    | nil => rfl
    | cons next later => exact congrArg Nat.succ ih

theorem Wire.gatherAll_append (wire : Wire) (first second : List (List UInt8 × Bool)) :
    wire.gatherAll (first ++ second) = (wire.gatherAll first).gatherAll second :=
  List.foldl_append ..

theorem Wire.gatherAll_framePieces {frame : List (List UInt8)} (some : frame ≠ []) (gathered : List UInt8)
    (sent : List (List UInt8)) :
    (Wire.mk gathered sent).gatherAll (framePieces frame) = ⟨[], sent ++ [gathered ++ frame.flatten]⟩ := by
  induction frame generalizing gathered with
  | nil => exact absurd rfl some
  | cons bytes rest ih =>
    cases rest with
    | nil =>
      rw [List.flatten_cons, List.flatten_nil, List.append_nil]
      rfl
    | cons next later =>
      change (Wire.mk (gathered ++ bytes) sent).gatherAll (framePieces (next :: later)) = _
      rw [ih nofun, List.append_assoc]
      rfl

theorem continues_of_framePieces {frame : List (List UInt8)} {past left : List (List UInt8 × Bool)}
    (split : framePieces frame = past ++ left) (missing : left ≠ []) : ∀ piece ∈ past, piece.2 = false := by
  induction frame generalizing past with
  | nil =>
    rw [List.eq_nil_of_append_eq_nil split.symm |>.1]
    nofun
  | cons bytes rest ih =>
    cases past with
    | nil => nofun
    | cons piece past =>
      cases rest with
      | nil =>
        rw [framePieces, List.cons_append, List.cons.injEq] at split
        exact absurd (List.append_eq_nil_iff.mp split.2.symm).2 missing
      | cons next later =>
        rw [framePieces, List.cons_append, List.cons.injEq] at split
        · intro other listed
          rcases List.mem_cons.mp listed with rfl | behind
          · rw [← split.1]
          · exact ih split.2 other behind
        · nofun

theorem Wire.sent_gatherAll {pieces : List (List UInt8 × Bool)} (goes : ∀ piece ∈ pieces, piece.2 = false)
    (wire : Wire) : (wire.gatherAll pieces).sent = wire.sent := by
  induction pieces generalizing wire with
  | nil => rfl
  | cons piece rest ih =>
    change ((wire.gather piece.1 piece.2).gatherAll rest).sent = _
    rw [ih fun other listed => goes other (List.mem_cons_of_mem _ listed), goes piece (List.mem_cons_self ..)]
    rfl

def pieceCount (frames : List (List (List UInt8))) : Nat :=
  (frames.map List.length).sum

theorem length_flatMap_framePieces (frames : List (List (List UInt8))) :
    (frames.flatMap framePieces).length = pieceCount frames := by
  unfold pieceCount
  simp only [List.length_flatMap, length_framePieces]

/-- Once some pieces of all frames are over, the first frames have been sent, and of every later frame
at least the last piece is still to come. -/
theorem exists_sent {frames : List (List (List UInt8))} {past left : List (List UInt8 × Bool)}
    (whole : ∀ frame ∈ frames, frame ≠ []) (split : frames.flatMap framePieces = past ++ left)
    (sent : List (List UInt8)) :
    ∃ gone rest, frames = gone ++ rest ∧
      ((Wire.mk [] sent).gatherAll past).sent = sent ++ gone.map List.flatten ∧
      left.length ≤ pieceCount rest ∧
      ∀ frame later, rest = frame :: later → pieceCount later < left.length := by
  induction frames generalizing past sent with
  | nil =>
    obtain ⟨rfl, rfl⟩ := List.append_eq_nil_iff.mp split.symm
    exact ⟨[], [], rfl, (List.append_nil _).symm, Nat.le_refl _, nofun⟩
  | cons frame frames ih =>
    have some := whole frame (List.mem_cons_self ..)
    have others : ∀ frame ∈ frames, frame ≠ [] := fun other listed => whole other (List.mem_cons_of_mem _ listed)
    rw [List.flatMap_cons] at split
    -- Either the first frame is over as a whole, or the past ends inside it.
    by_cases beyond : ∃ more, past = framePieces frame ++ more
    · obtain ⟨more, rfl⟩ := beyond
      rw [List.append_assoc] at split
      obtain ⟨gone, rest, parts, out, few, last⟩ :=
        ih others (List.append_cancel_left split) (sent ++ [frame.flatten])
      refine ⟨frame :: gone, rest, by rw [parts, List.cons_append], ?_, few, last⟩
      rw [Wire.gatherAll_append, Wire.gatherAll_framePieces some, List.nil_append, out, List.map_cons,
        List.append_assoc, List.singleton_append]
    · obtain ⟨more, past_eq, -⟩ | ⟨missing, frame_eq, left_eq⟩ := List.append_eq_append_iff.mp split
      · exact absurd ⟨more, past_eq⟩ beyond
      · have rest : missing ≠ [] := by
          rintro rfl
          exact beyond ⟨[], by rw [List.append_nil, frame_eq, List.append_nil]⟩
        have count := congrArg List.length left_eq
        have whole := congrArg List.length frame_eq
        have behind := List.length_pos_iff.mpr rest
        rw [List.length_append, length_flatMap_framePieces] at count
        rw [length_framePieces, List.length_append] at whole
        refine ⟨[], frame :: frames, rfl, ?_, ?_, ?_⟩
        · rw [Wire.sent_gatherAll (continues_of_framePieces frame_eq rest), List.map_nil, List.append_nil]
        · change _ ≤ frame.length + pieceCount frames
          omega
        · rintro _ _ ⟨⟩
          omega

/-! ### Slots that are not done -/

namespace TransmitRing

variable {ring : TransmitRing} {memory : Memory} {side : Emulator.TransmitSide} {flights : List Flight}

def outstanding (ring : TransmitRing) (memory : Memory) : Nat :=
  (List.range ring.capacity).countP fun slot => !(ring.table.transmitCell memory slot).status.isDone

/-- A slot that is not done keeps the page. -/
def Awaits (ring : TransmitRing) (memory : Memory) (page : PageId) : Prop :=
  ∃ slot < ring.capacity, ring.binding slot = some page ∧
    (ring.table.transmitCell memory slot).status.isDone = false

theorem Carries.outstanding_eq (carries : ring.Carries memory side flights) :
    ring.outstanding memory = flights.length := by
  have head := carries.wired.head
  have same : ((List.range ring.capacity).filter fun slot =>
      !(ring.table.transmitCell memory slot).status.isDone).Perm (Ring.arc ring.capacity side.head flights.length) := by
    rw [List.perm_ext_iff_of_nodup (List.nodup_range.filter _) (Ring.nodup_arc head carries.bounded)]
    intro slot
    rw [List.mem_filter, List.mem_range, Bool.not_eq_true']
    constructor
    · rintro ⟨inside, waiting⟩
      exact carries.mem_arc_of_waiting inside waiting
    · intro listed
      exact ⟨Ring.lt_of_mem_arc head listed, carries.not_done_of_mem listed⟩
  unfold outstanding
  rw [List.countP_eq_length_filter, same.length_eq, Ring.length_arc]

theorem Carries.awaits (carries : ring.Carries memory side flights) {flight : Flight} (listed : flight ∈ flights) :
    ring.Awaits memory flight.fragment.page := by
  obtain ⟨slot, stands, asks⟩ := carries.exists_asks listed
  exact ⟨slot, Ring.lt_of_mem_arc carries.wired.head stands, asks.binding, asks.not_done⟩

end TransmitRing

/-! ### What flights carry -/

def Flight.piece (memory : Memory) (flight : Flight) : List UInt8 × Bool :=
  (flight.bytes memory, flight.endsFrame)

theorem map_piece_ofFrame (memory : Memory) (fragments : List Fragment) :
    (Flight.ofFrame fragments).map (Flight.piece memory) =
      framePieces (fragments.map fun fragment => memory.slice fragment.page fragment.offset fragment.length) := by
  induction fragments with
  | nil => rfl
  | cons fragment rest ih =>
    cases rest with
    | nil => rfl
    | cons next later => exact congrArg (List.cons _) ih

theorem Gathers.eq_gatherAll {ring : TransmitRing} {memory : Memory} {flights : List Flight} {first last : Wire}
    (gathers : Gathers ring memory flights first last) (visible : ∀ flight ∈ flights, flight.Visible ring memory) :
    last = first.gatherAll (flights.map (Flight.piece memory)) := by
  induction gathers with
  | done => rfl
  | @next flight rest wire last bytes shown later ih =>
    rw [ih fun other listed => visible other (List.mem_cons_of_mem _ listed),
      shown (visible flight (List.mem_cons_self ..))]
    rfl

/-- The bytes of a flight lie in a page that the device can see and that the controller does not work on. -/
structure Flight.Accessible (flight : Flight) (controller : Controller) (memory : Memory) : Prop where
  reached : memory.Reaches flight.fragment.page
  foreign : flight.fragment.page ∉ controller.own
  begins : flight.fragment.offset < Limits.pageSize
  ends : flight.fragment.offset + flight.fragment.length ≤ Limits.pageSize

theorem Flight.Accessible.visible {flight : Flight} {controller : Controller} {memory : Memory}
    (accessible : flight.Accessible controller memory) : flight.Visible controller.transmitRing memory where
  reached := accessible.reached
  apart same := accessible.foreign (same ▸ Sound.table_mem_own controller)
  begins := accessible.begins
  ends := accessible.ends

theorem Flight.Accessible.of_changes {flight : Flight} {controller later : Controller} {memory after : Memory}
    {limit : Nat}
    {scope : PageId → Prop} (accessible : flight.Accessible controller memory) (own : later.own = controller.own)
    (charted : memory.Charted limit) (changes : memory.ChangesWithin scope after)
    (outside : ¬ scope flight.fragment.page) :
    flight.Accessible later after ∧ flight.piece after = flight.piece memory := by
  have known := charted.knows_of_reaches accessible.reached
  refine ⟨⟨changes.reaches known accessible.reached, own ▸ accessible.foreign, accessible.begins, accessible.ends⟩, ?_⟩
  exact congrArg (·, flight.endsFrame) (changes.slice known outside _ _)

theorem Sound.accessible {controller : Controller} {extra : List PageId} {recycled : Nat} {site : Site}
    (sound : Sound controller extra recycled site) {fragment : Fragment} (foreign : fragment.page ∉ controller.own)
    (inside : fragment.Inside site.machine.memory) (reached : site.machine.memory.Reaches fragment.page)
    (endsFrame : Bool) : Flight.Accessible ⟨fragment, endsFrame⟩ controller site.machine.memory := by
  obtain ⟨nonempty, -, ends⟩ := inside
  rw [sound.housed.charted.size_of_reaches reached] at ends
  refine ⟨reached, foreign, ?_, ends⟩
  dsimp only
  omega

theorem Sound.sendable {controller : Controller} {extra : List PageId} {recycled : Nat} {site : Site}
    (sound : Sound controller extra recycled site) {fragment : Fragment}
    (inside : fragment.Inside site.machine.memory) (reached : site.machine.memory.Reaches fragment.page) :
    fragment.Sendable site.machine.memory := by
  have charted := sound.housed.charted
  have below := charted.below _ reached
  have limit := Sound.bounded site
  obtain ⟨nonempty, short, ends⟩ := inside
  rw [charted.size_of_reaches reached] at ends
  dsimp only at below
  refine ⟨charted.knows_of_reaches reached, short, _, if_pos ?_⟩
  omega

/-! ### Sessions -/

variable {settings : Settings} {session next : Session} {controller : Controller} {site : Site}

namespace Session

/-- A call that may be made: of fragments in pages of the board, and into a page of the user that no slot
still keeps for sending. -/
structure Permits (session : Session) (call : Call) : Prop where
  fragments : ∀ fragment ∈ call.fragments,
    session.Offers fragment ∧ session.site.machine.memory.Reaches fragment.page
  target : ∀ target, call.target = some target → target ∈ session.site.others.held ∧
    ¬ session.controller.transmitRing.Awaits session.site.machine.memory target

/-- The others do not write to a page that a slot keeps for sending. -/
def rules (session : Session) : Rules :=
  ⟨session.controller.transmitRing.Awaits session.site.machine.memory, fun _ _ => False⟩

end Session

theorem Session.Permits.allows {call : Call} (permits : session.Permits call) (sound : session.Sound settings) :
    session.Allows call where
  fragments fragment listed := (permits.fragments fragment listed).1
  target target here := sound.site.fillable (permits.target target here).1

theorem Session.Offers.accessible {fragment : Fragment} (offers : session.Offers fragment)
    (sound : session.Sound settings)
    (reached : session.site.machine.memory.Reaches fragment.page) (endsFrame : Bool) :
    Flight.Accessible ⟨fragment, endsFrame⟩ session.controller session.site.machine.memory ∧
      fragment.Sendable session.site.machine.memory := by
  obtain ⟨held, valid⟩ := offers
  obtain ⟨-, inside⟩ := Memory.fragment_eq_ok valid
  exact ⟨sound.site.accessible (sound.site.foreign held) inside reached endsFrame, sound.site.sendable inside reached⟩

theorem Session.Permits.sendable {call : Call} (permits : session.Permits call) (sound : session.Sound settings) :
    ∀ fragment ∈ call.fragments, fragment.Sendable session.site.machine.memory := by
  intro fragment listed
  obtain ⟨offers, reached⟩ := permits.fragments fragment listed
  exact (offers.accessible sound reached true).2

theorem Session.Permits.ne_table {call : Call} (permits : session.Permits call) (sound : session.Sound settings) :
    call.target ≠ some session.controller.transmitRing.table.page := fun target =>
  sound.site.foreign (permits.target _ target).1 (Sound.table_mem_own _)

/-! ### Steps -/

/-- What has gone out and the flights, with their bytes as they stand in memory, make up what was
accepted. -/
structure WireInvariant (controller : Controller) (machine : Machine Emulator) (accepted : List (List (List UInt8)))
    (flights : List Flight) : Prop where
  flies : TransmitRing.Flies (controller.transmitRing, machine) flights
  accessible : ∀ flight ∈ flights, flight.Accessible controller machine.memory
  whole : ∀ frame ∈ accepted, frame ≠ []
  split : ∃ past, accepted.flatMap framePieces = past ++ flights.map (Flight.piece machine.memory) ∧
    machine.device.wire = (Wire.mk [] []).gatherAll past

theorem WireInvariant.of_changes {later : Controller} {before after : Machine Emulator} {limit : Nat}
    {scope : PageId → Prop} {accepted : List (List (List UInt8))} {flights : List Flight}
    (past : List (List UInt8 × Bool)) (own : later.own = controller.own) (charted : before.memory.Charted limit)
    (changes : before.memory.ChangesWithin scope after.memory)
    (flies : TransmitRing.Flies (later.transmitRing, after) flights)
    (accessible : ∀ flight ∈ flights, flight.Accessible controller before.memory ∧ ¬ scope flight.fragment.page)
    (whole : ∀ frame ∈ accepted, frame ≠ [])
    (split : accepted.flatMap framePieces = past ++ flights.map (Flight.piece before.memory))
    (wire : after.device.wire = (Wire.mk [] []).gatherAll past) : WireInvariant later after accepted flights := by
  have kept (flight : Flight) (listed : flight ∈ flights) :=
    (accessible flight listed).1.of_changes own charted changes (accessible flight listed).2
  refine ⟨flies, fun flight listed => (kept flight listed).1, whole, past, ?_, wire⟩
  rw [split, List.map_congr_left fun flight listed => (kept flight listed).2]

theorem Call.frames_whole {call : Call} {memory : Memory} {frame : List (List UInt8)}
    (listed : frame ∈ call.frames memory) : frame ≠ [] := by
  unfold Call.frames at listed
  split at listed
  · cases listed
  · rename_i some
    rw [List.mem_singleton] at listed
    rw [listed]
    simpa using some

theorem Call.flatMap_framePieces_frames (call : Call) (memory : Memory) :
    (call.frames memory).flatMap framePieces = (Flight.ofFrame call.fragments).map (Flight.piece memory) := by
  rw [map_piece_ofFrame]
  unfold Call.frames
  split
  case isTrue none =>
    rw [none]
    rfl
  case isFalse => exact List.append_nil _

theorem Call.target_eq_none {call : Call} {fragment : Fragment} (listed : fragment ∈ call.fragments) :
    call.target = none := by
  cases call <;> first | rfl | cases listed

theorem Flight.exists_of_mem_ofFrame {fragments : List Fragment} {flight : Flight}
    (listed : flight ∈ Flight.ofFrame fragments) : flight.fragment ∈ fragments := by
  induction fragments with
  | nil => cases listed
  | cons fragment rest ih =>
    cases rest with
    | nil =>
      rw [Flight.ofFrame, List.mem_singleton] at listed
      rw [listed]
      exact List.mem_singleton_self _
    | cons next later =>
      rw [Flight.ofFrame] at listed
      · rcases List.mem_cons.mp listed with rfl | behind
        · exact List.mem_cons_self ..
        · exact List.mem_cons_of_mem _ (ih behind)
      · exact List.cons_ne_nil next later

namespace WireInvariant

variable {flights : List Flight}

theorem carries (onWire : WireInvariant session.controller session.site.machine session.accepted flights) :
    session.controller.transmitRing.Carries session.site.machine.memory
      session.site.machine.device.transmitSide flights :=
  onWire.flies

theorem apart {call : Call} (onWire : WireInvariant session.controller session.site.machine session.accepted flights)
    (permits : session.Permits call) {flight : Flight} (listed : flight ∈ flights) :
    flight.Accessible session.controller session.site.machine.memory ∧
      ¬ (flight.fragment.page ∈ session.controller.own ∨ call.target = some flight.fragment.page) := by
  refine ⟨onWire.accessible flight listed, ?_⟩
  rintro (own | target)
  · exact (onWire.accessible flight listed).foreign own
  · exact (permits.target _ target).2 (onWire.carries.awaits listed)

theorem move {after : Site} (onWire : WireInvariant session.controller session.site.machine session.accepted flights)
    (sound : session.Sound settings) (move : Move session.rules session.site after) :
    ∃ flights, WireInvariant session.controller after.machine session.accepted flights := by
  obtain ⟨past, split, wire⟩ := onWire.split
  obtain ⟨count, bounded, flies, gathers⟩ := move.leaving sound.site onWire.flies
  have keepsReserved := (move.keepsReserved sound.site).2
  refine ⟨flights.drop count, .of_changes (past ++ (flights.take count).map (Flight.piece session.site.machine.memory))
    rfl sound.site.housed.charted keepsReserved.changes flies ?_ onWire.whole ?_ ?_⟩
  · intro flight listed
    have before := List.mem_of_mem_drop listed
    refine ⟨onWire.accessible flight before, ?_⟩
    rintro (own | free)
    · exact (onWire.accessible flight before).foreign own
    · exact free (onWire.carries.awaits before)
  · rw [List.append_assoc, ← List.map_append, List.take_append_drop]
    exact split
  · rw [Wire.gatherAll_append, ← wire]
    exact gathers.eq_gatherAll fun flight listed => (onWire.accessible flight (List.mem_of_mem_take listed)).visible

/-- A call that is answered puts its frame behind the flights. -/
theorem answered {call : Call} {frame : Option (List UInt8)} {controller : Controller} {machine : Machine Emulator}
    (onWire : WireInvariant session.controller session.site.machine session.accepted flights)
    (sound : session.Sound settings) (permits : session.Permits call)
    (ended : call.perform (session.controller, session.site.machine) = .ok frame (controller, machine)) :
    WireInvariant controller machine (session.accepted ++ call.frames session.site.machine.memory)
      (flights ++ Flight.ofFrame call.fragments) := by
  obtain ⟨past, split, wire⟩ := onWire.split
  have allows := permits.allows sound
  have leaves := sound.answered allows ended
  have flies := (Step.ends_of_ok ended).mp (Call.perform_flies sound.site onWire.flies (allows.pagesKnown sound)
    (permits.sendable sound) (permits.ne_table sound))
  refine .of_changes past leaves.own sound.site.housed.charted leaves.changes flies ?_ ?_ ?_ (leaves.wire.trans wire)
  · intro flight listed
    rcases List.mem_append.mp listed with before | posted
    · exact onWire.apart permits before
    · have among := Flight.exists_of_mem_ofFrame posted
      obtain ⟨offers, reached⟩ := permits.fragments _ among
      have accessible := (offers.accessible sound reached flight.endsFrame).1
      refine ⟨accessible, ?_⟩
      rw [Call.target_eq_none among]
      rintro (own | ⟨⟨⟩⟩)
      exact accessible.foreign own
  · intro frame listed
    rcases List.mem_append.mp listed with before | posted
    · exact onWire.whole frame before
    · exact Call.frames_whole posted
  · rw [List.flatMap_append, split, Call.flatMap_framePieces_frames, List.map_append, List.append_assoc]

theorem stopped {call : Call} {stop : Stop CallError} {controller : Controller} {machine : Machine Emulator}
    (onWire : WireInvariant session.controller session.site.machine session.accepted flights)
    (sound : session.Sound settings) (permits : session.Permits call)
    (ended : call.perform (session.controller, session.site.machine) = .error stop (controller, machine)) :
    WireInvariant controller machine session.accepted flights := by
  obtain ⟨past, split, wire⟩ := onWire.split
  have allows := permits.allows sound
  have leaves := sound.stopped allows ended
  have flies := (Step.ends_of_error ended).mp (Call.perform_flies sound.site onWire.flies (allows.pagesKnown sound)
    (permits.sendable sound) (permits.ne_table sound))
  exact .of_changes past leaves.own sound.site.housed.charted leaves.changes flies
    (fun _ listed => onWire.apart permits listed) onWire.whole split (leaves.wire.trans wire)

end WireInvariant

theorem Event.onWire {flights : List Flight} (sound : session.Sound settings)
    (onWire : WireInvariant session.controller session.site.machine session.accepted flights)
    (event : Event Session.rules Session.Permits session next) :
    ∃ flights, WireInvariant next.controller next.site.machine next.accepted flights := by
  cases event with
  | move move => exact onWire.move sound move
  | answered call permits ended => exact ⟨_, onWire.answered sound permits ended⟩
  | stopped call permits ended => exact ⟨_, onWire.stopped sound permits ended⟩

/-! ### The queue -/

namespace Session

def outstanding (session : Session) : Nat :=
  session.controller.transmitRing.outstanding session.site.machine.memory

/-- A session keeps a queue of frames to be sent. The first of the accepted frames are on the wire, each
once and with all of its bytes; of every later frame at least the last slot is outstanding. A frame in
one fragment is turned away exactly when all slots are outstanding, and a frame in several, if it could
be sent at all, exactly when too few are left. The tail of the ring is the one that the device knows, and
the one that it works towards. -/
structure Sends (settings : Settings) (session : Session) : Prop where
  sent : ∃ gone rest, session.accepted = gone ++ rest ∧
    session.site.machine.device.sent = gone.map List.flatten ∧
    session.outstanding ≤ pieceCount rest ∧
    ∀ frame later, rest = frame :: later → pieceCount later < session.outstanding
  transmit : ∀ fragment, session.Permits (.transmit fragment) →
    (Controller.transmit fragment).Ends (session.controller, session.site.machine)
      (fun _ _ => session.outstanding < settings.transmitLength)
      (fun stop _ => stop = .refused .busy ∧ session.outstanding = settings.transmitLength)
  transmitFrame : ∀ fragments, session.Permits (.transmitFrame fragments) →
    (Controller.transmitFrame fragments).Ends (session.controller, session.site.machine)
      (fun _ _ => fragments ≠ [] → fragments.length ≤ settings.transmitLength ∧
        (fragments.map Fragment.length).sum ≤ Limits.maxFrame ∧
        fragments.length ≤ settings.transmitLength - session.outstanding)
      (fun stop _ =>
        stop = .refused (.invalid .tooMany) ∧ settings.transmitLength < fragments.length ∨
          stop = .refused (.invalid .frameTooLong) ∧ Limits.maxFrame < (fragments.map Fragment.length).sum ∨
          stop = .refused .busy ∧ fragments.length ≤ settings.transmitLength ∧
            (fragments.map Fragment.length).sum ≤ Limits.maxFrame ∧
            settings.transmitLength - session.outstanding < fragments.length)
  tail : (session.site.machine.device.word .transmitTail).toNat = session.controller.transmitRing.tail
  head : session.controller.transmitRing.tail =
    (session.site.machine.device.transmitHead + session.site.machine.device.transmitPending) %
      settings.transmitLength
  pending : session.site.machine.device.transmitPending = session.outstanding

end Session

theorem WireInvariant.sends {flights : List Flight} (sound : session.Sound settings)
    (onWire : WireInvariant session.controller session.site.machine session.accepted flights) :
    session.Sends settings := by
  have carries := onWire.carries
  have outstanding : session.outstanding = flights.length := carries.outstanding_eq
  have capacity := sound.transmitCapacity
  obtain ⟨past, split, wire⟩ := onWire.split
  refine ⟨?_, ?_, ?_, ?_, ?_, ?_⟩
  · obtain ⟨gone, rest, parts, out, few, last⟩ := exists_sent onWire.whole split []
    rw [List.length_map, ← outstanding] at few last
    refine ⟨gone, rest, parts, ?_, few, last⟩
    rw [← wire, List.nil_append] at out
    exact out
  · intro fragment permits
    unfold Controller.transmit
    rw [Controller.ends_onTransmit, outstanding, ← capacity]
    exact (TransmitRing.post_flies_of_sendable onWire.flies
      (permits.sendable sound fragment (List.mem_singleton_self _))).mono (fun _ _ posted => posted.1)
      (fun _ _ refused => refused.2)
  · intro fragments permits
    unfold Controller.transmitFrame
    rw [Controller.ends_onTransmit, outstanding, ← capacity]
    exact (TransmitRing.postFrame_flies onWire.flies (permits.sendable sound)).mono (fun _ _ posted => posted.2)
      (fun _ _ refused => refused.2)
  · have word : session.site.machine.device.word .transmitTail = UInt32.ofNat session.controller.transmitRing.tail :=
      carries.word
    rw [word]
    exact TransmitRing.toNat_ofNat_of_small (Nat.lt_trans carries.wired.seated.tail carries.wired.small)
  · have pending : session.site.machine.device.transmitPending = flights.length := carries.pending
    rw [pending, ← capacity]
    exact carries.tail
  · exact carries.pending.trans outstanding.symm

/-- Whatever calls are made of an attached controller and whatever happens around it, in any order, its
transmit side is a bounded queue that loses nothing, repeats nothing and changes nothing, as long as
nobody writes to a page that is kept for sending. -/
theorem transmission_refines_queue (attached : Attached settings controller site)
    (run : Relation.ReflTransGen (Event Session.rules Session.Permits) (.opened controller site) session) :
    session.Sends settings := by
  suffices kept : session.Sound settings ∧
      ∃ flights, WireInvariant session.controller session.site.machine session.accepted flights by
    obtain ⟨sound, flights, onWire⟩ := kept
    exact onWire.sends sound
  induction run with
  | refl =>
    have started := attached.started
    exact ⟨attached.begins, [], started.flies, nofun, nofun, [], rfl, started.wire⟩
  | tail _ event ih =>
    obtain ⟨sound, flights, onWire⟩ := ih
    exact ⟨event.sound sound fun _ permits => permits.allows sound, event.onWire sound onWire⟩

/-- A frame is posted and the device transmits it. -/
theorem transmission_refines_queue_once : ∃ controller site session, Attached {} controller site ∧
    Relation.ReflTransGen (Event Session.rules Session.Permits) (.opened controller site) session ∧
    session.accepted ≠ [] ∧ session.Sends {} := by
  obtain ⟨controller, site, page, attached, -, held, -, reached⟩ := exists_attached_beside
  have size := attached.begins.site.housed.charted.size_of_reaches reached
  have valid : site.machine.memory.fragment page 0 60 = .ok ⟨page, 0, 60⟩ :=
    Memory.fragment_of_whole size (by decide) (by decide)
  have offers : (Session.opened controller site).Offers ⟨page, 0, 60⟩ :=
    ⟨held ▸ List.mem_singleton_self page, valid⟩
  have permits : (Session.opened controller site).Permits (.transmit ⟨page, 0, 60⟩) := by
    refine ⟨fun fragment listed => ?_, nofun⟩
    rw [List.mem_singleton.mp listed]
    exact ⟨offers, reached⟩
  have none : Relation.ReflTransGen (Event Session.rules Session.Permits) (.opened controller site) _ := .refl
  have start := transmission_refines_queue attached none
  have idle : (Session.opened controller site).outstanding = 0 := by
    obtain ⟨gone, rest, parts, -, few, -⟩ := start.sent
    rw [(List.append_eq_nil_iff.mp parts.symm).2] at few
    exact Nat.le_zero.mp few
  have answer : (Call.transmit ⟨page, 0, 60⟩).perform.Ends (controller, site.machine) (fun _ _ => True)
      (fun _ _ => False) := by
    unfold Call.perform
    simp only [Step.ends_bind, Step.ends_mapRefusal, Step.ends_pure]
    refine (start.transmit _ permits).mono (fun _ _ _ => trivial) ?_
    rintro _ _ ⟨-, full⟩
    rw [idle] at full
    exact absurd full (by decide)
  obtain ⟨_, ⟨controller', machine'⟩, ended, -⟩ := answer.exists_ok
  have posted : Event Session.rules Session.Permits (.opened controller site) _ := .answered _ permits ended
  have run := (Relation.ReflTransGen.single posted).tail (.move (.transmit 1))
  exact ⟨controller, site, _, attached, run, List.cons_ne_nil _ _, transmission_refines_queue attached run⟩

end PacketPath
