import PacketPath.Proofs.Pump.Outbound

/-! Where the output pump pauses. It pauses only while it waits for a slot for one of its frames, and of what the others
would do in a pause a run depends on nothing but what they do there. -/

set_option autoImplicit false

namespace PacketPath

variable {ε σ α β δ ω : Type}

theorem Step.bind_congr {first first' : Step ε σ β} {rest rest' : β → Step ε σ α} {state : σ}
    (same : first state = first' state)
    (later : ∀ value after, first' state = .ok value after → rest value after = rest' value after) :
    (first >>= rest) state = (first' >>= rest') state := by
  simp only [bind, EStateM.bind, same]
  cases ended : first' state with
  | ok value after => exact later value after ended
  | error stop after => rfl

namespace Retry

variable {attempt : Step ε σ (Option α)} {pause other : Step ε σ Unit} {further made : Nat} {state last : σ}

/-- A loop that may make some further attempts pauses: it has made one in vain. -/
inductive PausesAt (attempt : Step ε σ (Option α)) (pause : Step ε σ Unit) : Nat → σ → σ → Prop where
  | now {further : Nat} {state last : σ} (missed : attempt state = .ok none last) :
      PausesAt attempt pause (further + 1) state last
  | later {further : Nat} {state middle next last : σ} (missed : attempt state = .ok none middle)
      (paused : pause middle = .ok () next) (later : PausesAt attempt pause further next last) :
      PausesAt attempt pause (further + 1) state last

theorem loop_congr {giveUp : Nat → Step ε σ (Wait α)}
    (agree : ∀ last, PausesAt attempt pause further state last → other last = pause last) :
    loop attempt other giveUp further made state = loop attempt pause giveUp further made state := by
  induction further generalizing made state with
  | zero =>
    unfold loop
    rfl
  | succ further ih =>
    unfold loop
    refine Step.bind_congr rfl ?_
    rintro (_ | value) middle missed
    · refine Step.bind_congr (agree middle (.now missed)) ?_
      intro _ next paused
      exact ih fun last later => agree last (.later missed paused later)
    · rfl

theorem untilReady_congr {budget : Budget} {fuel : Nat}
    (agree : ∀ last, PausesAt attempt pause (budget.further fuel) state last → other last = pause last) :
    untilReady budget fuel attempt other state = untilReady budget fuel attempt pause state := by
  cases budget with
  | unbounded => exact loop_congr agree
  | attempts limit => exact loop_congr agree

theorem PausesAt.pending {idle pending : σ → Prop} {ready : α → σ → Prop} {bad : Stop ε → σ → Prop}
    (pauses : PausesAt attempt pause further state last)
    (attempts : ∀ state, idle state → attempt.Ends state (found pending ready) bad)
    (resumes : ∀ state, pending state → pause.Ends state (fun _ => idle) bad) (start : idle state) : pending last := by
  induction pauses with
  | now missed => exact (Step.ends_of_ok missed).mp (attempts _ start)
  | later missed paused _ ih =>
    have waits := (Step.ends_of_ok missed).mp (attempts _ start)
    exact ih ((Step.ends_of_ok paused).mp (resumes _ waits))

end Retry

namespace Running

variable {ρ : Type} {pause other : Pause δ ω} {running : Running ρ δ ω}

theorem yield_congr (same : other running.around = pause running.around) :
    (yield other : Step ε (Running ρ δ ω) Unit) running = yield pause running := by
  change EStateM.Result.ok () { running with around := other running.around } = _
  rw [same]
  rfl

theorem await_congr {attempt : Step PumpFault (Running ρ δ ω) (Option α)} {awaited : Awaited} {budget : Budget}
    {fuel : Nat} {tally : Nat → ρ → ρ}
    (agree : ∀ last, Retry.PausesAt attempt (yield pause) (budget.further fuel) running last →
      other last.around = pause last.around) :
    await awaited budget fuel other tally attempt running = await awaited budget fuel pause tally attempt running :=
  Step.bind_congr (Retry.untilReady_congr fun last pauses => yield_congr (agree last pauses)) fun _ _ _ => rfl

theorem consuming_congr {pages : List PageId} {step step' : Step ε (Running ρ δ ω) α}
    (same : step running = step' running) : consuming pages step running = consuming pages step' running := by
  unfold consuming Step.thenAlways
  rw [same]

theorem holding_congr {pages : List PageId} {step step' : Step ε (Running ρ δ ω) α}
    (same : step { running with around.machine.memory := running.around.machine.memory.retainAll pages } =
      step' { running with around.machine.memory := running.around.machine.memory.retainAll pages }) :
    holding pages step running = holding pages step' running := by
  refine Step.bind_congr rfl ?_
  rintro _ _ ⟨⟩
  exact consuming_congr same

theorem exists_of_onMachine {ε' : Type} {reword : ε → ε'} {step : Step ε (Machine δ) α} {value : α}
    {after : Running ρ δ ω} (ended : (onMachine step).mapRefusal reword running = .ok value after) :
    ∃ machine, step running.around.machine = .ok value machine ∧
      after = { running with around.machine := machine } := by
  unfold onMachine onAround Surroundings.onMachine Step.mapRefusal Step.within at ended
  cases looked : step running.around.machine with
  | ok found machine =>
    simp only [looked] at ended
    cases ended
    exact ⟨machine, rfl, rfl⟩
  | error stop machine =>
    simp only [looked] at ended
    cases stop <;> cases ended

end Running

namespace OutboundPump

variable {fuel : Nat}

/-- The frames of a request, as they are looked up before the first one is posted. -/
def lookUp : Request → Step ProtocolError (Machine δ) (List Fragment)
  | .input _ => Step.refuse (.unexpectedRequest Request.inputCode)
  | .output packet => do return [← packet.fragment]
  | .outputBatch batch => fragments batch.pieces

section

variable [RegisterBus δ] {pause other : Pause δ ω} {running last : Running OutboundPump δ ω}

def AwaitsAt (pause : Pause δ ω) (fuel : Nat) (fragment : Fragment) (running last : Running OutboundPump δ ω) : Prop :=
  Retry.PausesAt (tryPost fragment : Step PumpFault _ _) (Running.yield pause)
    (running.pump.settings.budget.further fuel) running last

/-- Some frames are posted one after the other, and the pump pauses at one of them. -/
inductive PostsAt (pause : Pause δ ω) (fuel : Nat) :
    List Fragment → Running OutboundPump δ ω → Running OutboundPump δ ω → Prop where
  | first {fragment : Fragment} {rest : List Fragment} {running last : Running OutboundPump δ ω}
      (awaits : AwaitsAt pause fuel fragment running last) : PostsAt pause fuel (fragment :: rest) running last
  | later {fragment : Fragment} {rest : List Fragment} {running next last : Running OutboundPump δ ω}
      (posted : post pause fuel fragment running = .ok () next) (later : PostsAt pause fuel rest next last) :
      PostsAt pause fuel (fragment :: rest) running last

/-- The pump serves a request and pauses: it has found all frames to be valid, has taken handles of its own to their
pages, and posts them. -/
def ServesAt (pause : Pause δ ω) (fuel : Nat) (request : Request) (frames : List Fragment)
    (running last : Running OutboundPump δ ω) : Prop :=
  ∃ machine, lookUp request running.around.machine = .ok frames machine ∧
    PostsAt pause fuel frames
      { running with around.machine := { machine with memory := machine.memory.retainAll (frames.map Fragment.page) } }
      last

def PausesAt (pause : Pause δ ω) (fuel : Nat) (message : Message) (frames : List Fragment)
    (running last : Running OutboundPump δ ω) : Prop :=
  ∃ request, message.request = .ok request ∧ ServesAt pause fuel request frames running last

theorem post_congr {fragment : Fragment}
    (agree : ∀ last, AwaitsAt pause fuel fragment running last → other last.around = pause last.around) :
    post other fuel fragment running = post pause fuel fragment running := by
  refine Step.bind_congr rfl ?_
  rintro _ _ ⟨⟩
  exact Step.bind_congr (Running.await_congr agree) fun _ _ _ => rfl

theorem posts_congr {frames : List Fragment}
    (agree : ∀ last, PostsAt pause fuel frames running last → other last.around = pause last.around) :
    frames.forM (post other fuel) running = frames.forM (post pause fuel) running := by
  rw [List.forM_eq_forM]
  induction frames generalizing running with
  | nil => rfl
  | cons fragment rest ih =>
    rw [List.forM_cons, List.forM_cons]
    refine Step.bind_congr (post_congr fun last awaits => agree last (.first awaits)) ?_
    intro _ next posted
    exact ih fun last later => agree last (.later posted later)

theorem serve_congr {request : Request}
    (agree : ∀ frames last, ServesAt pause fuel request frames running last → other last.around = pause last.around) :
    serve other fuel request running = serve pause fuel request running := by
  cases request with
  | input packet => rfl
  | output packet =>
    refine Step.bind_congr rfl ?_
    intro fragment middle looked
    obtain ⟨machine, found, rfl⟩ := Running.exists_of_onMachine looked
    have listed : lookUp (.output packet) running.around.machine = .ok [fragment] machine := by
      unfold lookUp
      simp only [bind, EStateM.bind, found]
      rfl
    refine Step.bind_congr (Running.holding_congr (post_congr fun last awaits => ?_)) fun _ _ _ => rfl
    exact agree _ last ⟨machine, listed, .first awaits⟩
  | outputBatch batch =>
    refine Step.bind_congr rfl ?_
    intro frames middle looked
    obtain ⟨machine, found, rfl⟩ := Running.exists_of_onMachine looked
    refine Step.bind_congr (Running.holding_congr (posts_congr fun last posts => ?_)) fun _ _ _ => rfl
    exact agree _ last ⟨machine, found, posts⟩

/-- What the others would do elsewhere makes no difference to a step. -/
theorem serveOne_congr {reader : ProcessId} {message : Message} {bus : MessageBus}
    (taken : running.around.bus.take reader = .ok (some message, bus))
    (agree : ∀ frames last, PausesAt pause fuel message frames { running with around.bus := bus } last →
      other last.around = pause last.around) :
    serveOne (.process reader) other fuel running = serveOne (.process reader) pause fuel running := by
  refine Step.bind_congr rfl ?_
  intro found middle fetched
  have fetches : ((Running.onAround (Surroundings.fetchMessage (.process reader))).mapRefusal .delivery :
      Step PumpFault (Running OutboundPump δ ω) _).Ends running
      (fun found middle => found = some message ∧ middle = { running with around.bus := bus }) (fun _ _ => False) := by
    unfold Surroundings.fetchMessage
    simp only [Step.ends_mapRefusal, Running.ends_onAround, Step.ends_bind, Step.ends_get, taken, Step.ends_modify,
      Step.ends_pure, and_self]
  obtain ⟨rfl, rfl⟩ := (Step.ends_of_ok fetched).mp fetches
  refine Step.bind_congr (Running.consuming_congr ?_) fun _ _ _ => rfl
  cases decoded : message.request with
  | error error => rfl
  | ok request => exact serve_congr fun frames last serves => agree frames last ⟨request, decoded, serves⟩

end

/-! ### What holds in a pause -/

variable {rules : Rules} {extra hands : List PageId} {packets : Nat}
  {invariant : List Fragment → List PageId → Controller → Site → Prop} {posted left frames : List Fragment}
  {pause : Pause Emulator Others} {running last : Running OutboundPump Emulator Others}

theorem lookUp_ends (request : Request) (machine : Machine Emulator) :
    (lookUp request).Ends machine
      (fun frames after => after = machine ∧ frames = request.frames machine.memory ∧
        ∀ fragment ∈ frames, fragment.Inside machine.memory)
      (fun _ after => after = machine) := by
  cases request with
  | input packet => rfl
  | output packet =>
    unfold lookUp
    rw [Step.ends_bind]
    refine (packet.fragment_ends machine).mono ?_ (fun _ _ => id)
    rintro fragment _ ⟨rfl, inside, frames⟩
    exact ⟨rfl, frames.symm, fun other listed => List.mem_singleton.mp listed ▸ inside⟩
  | outputBatch batch =>
    refine (fragments_ends batch.pieces machine).mono ?_ (fun _ _ stopped => stopped.1)
    rintro frames _ ⟨rfl, valid, asked⟩
    exact ⟨rfl, asked, fun fragment listed => (Memory.fragment_eq_ok (valid fragment listed)).2⟩

theorem AwaitsAt.reached {fragment : Fragment} (awaits : AwaitsAt pause fuel fragment running last)
    (keeps : Keeps rules pause extra invariant) (lawful : Lawful rules pause)
    (start : At packets extra invariant posted (fragment :: left) hands running) :
    At packets extra invariant posted (fragment :: left) hands last :=
  Retry.PausesAt.pending awaits (fun _ here => tryPost_ends keeps here)
    (fun _ here => (Running.ends_yield pause).mpr (here.paused keeps lawful)) start

/-- In a pause the pump still has everything in hand, however many of its frames are posted by then. -/
theorem PostsAt.stops (posts : PostsAt pause fuel left running last) (keeps : Keeps rules pause extra invariant)
    (lawful : Lawful rules pause) (start : At packets extra invariant posted left hands running) :
    Stops packets extra invariant posted left hands last := by
  induction posts generalizing packets posted with
  | first awaits => exact (awaits.reached keeps lawful start).stops
  | later done _ ih => exact (ih ((Step.ends_of_ok done).mp (post_ends keeps lawful start fuel))).later

theorem PausesAt.stops {message : Message} (pauses : PausesAt pause fuel message frames running last)
    (keeps : Keeps rules pause extra invariant) (lawful : Lawful rules pause)
    (start : At packets extra invariant [] [] hands running) (among : ∀ page ∈ message.pages, page ∈ hands) :
    frames = message.frames running.around.machine.memory ∧
      Stops packets extra invariant [] frames (frames.map Fragment.page ++ hands) last := by
  obtain ⟨request, decoded, machine, found, posts⟩ := pauses
  obtain ⟨rfl, rfl, inside⟩ := (Step.ends_of_ok found).mp (lookUp_ends request running.around.machine)
  refine ⟨?_, posts.stops keeps lawful (start.readied keeps fun fragment listed => ⟨?_, inside fragment listed⟩)⟩
  · rw [Message.frames, decoded]
  · have lent := Request.mem_pages_of_frames listed
    rw [Request.attachment_of_decode decoded] at lent
    exact among _ lent

end OutboundPump

end PacketPath
