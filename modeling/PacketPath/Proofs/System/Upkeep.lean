import PacketPath.Proofs.System.Bisimilar

/-! Runs that differ in upkeep of the transmit ring alone. Bisimilar sessions stay bisimilar through them; and if both
runs end with a reclaim, the rings are the same to the last counter. -/

set_option autoImplicit false

namespace PacketPath

variable {settings : Settings} {settles : Prop} {session one other : Session} {flights : List Flight} {act : Act}
  {acts more : List Act} {controller : Controller} {site : Site}

def Act.plain (acts : List Act) : List Act :=
  acts.filter fun act => !act.isUpkeep

namespace Session

def after (session : Session) : (acts : List Act) → Session
  | [] => session
  | act :: rest => (act.perform session).2.after rest

/-- What is seen of a run: the answers to all acts but upkeep of the transmit ring. -/
def answers (session : Session) : (acts : List Act) → List Answer
  | [] => []
  | act :: rest =>
    let (answer, next) := act.perform session
    if act.isUpkeep then next.answers rest else answer :: next.answers rest

def Admits (proper : Session → Act → Prop) (session : Session) : (acts : List Act) → Prop
  | [] => True
  | act :: rest => proper session act ∧ Admits proper (act.perform session).2 rest

theorem after_append (session : Session) (acts more : List Act) :
    session.after (acts ++ more) = (session.after acts).after more := by
  induction acts generalizing session with
  | nil => rfl
  | cons act rest ih => exact ih _

theorem answers_append (session : Session) (acts more : List Act) :
    session.answers (acts ++ more) = session.answers acts ++ (session.after acts).answers more := by
  induction acts generalizing session with
  | nil => rfl
  | cons act rest ih =>
    rw [List.cons_append, answers, answers, after]
    dsimp only
    rw [ih]
    split <;> rfl

theorem Admits.of_append {proper : Session → Act → Prop} (admits : session.Admits proper (acts ++ more)) :
    session.Admits proper acts := by
  induction acts generalizing session with
  | nil => trivial
  | cons act rest ih => exact ⟨admits.1, ih admits.2⟩

theorem Admits.append {proper : Session → Act → Prop} (first : session.Admits proper acts)
    (second : (session.after acts).Admits proper more) : session.Admits proper (acts ++ more) := by
  induction acts generalizing session with
  | nil => exact second
  | cons act rest ih => exact ⟨first.1, ih first.2 second⟩

theorem Admits.mono {proper looser : Session → Act → Prop} (admits : session.Admits proper acts)
    (covered : ∀ session act, proper session act → looser session act) : session.Admits looser acts := by
  induction acts generalizing session with
  | nil => trivial
  | cons act rest ih => exact ⟨covered _ _ admits.1, ih admits.2⟩

theorem answers_cons_of_isUpkeep (isUpkeep : act.isUpkeep = true) :
    session.answers (act :: acts) = (act.perform session).2.answers acts := by
  rw [answers]
  exact if_pos isUpkeep

theorem answers_cons_of_plain (busy : act.isUpkeep = false) :
    session.answers (act :: acts) = (act.perform session).1 :: (act.perform session).2.answers acts := by
  rw [answers]
  exact if_neg (by rw [busy]; decide)

end Session

namespace Bisimilar

theorem skips (bisimilar : Bisimilar settings settles one other flights) (idle : ∀ act ∈ more, act.isUpkeep = true) :
    other.answers more = [] ∧ Bisimilar settings settles one (other.after more) flights := by
  induction more generalizing other with
  | nil => exact ⟨rfl, bisimilar⟩
  | cons act rest ih =>
    have isUpkeep := idle act (List.mem_cons_self ..)
    rw [Session.answers_cons_of_isUpkeep isUpkeep]
    exact ih (bisimilar.skip isUpkeep) fun other listed => idle other (List.mem_cons_of_mem _ listed)

/-- Runs of bisimilar sessions that are the same but for upkeep are answered alike, and end in bisimilar sessions. -/
theorem run (bisimilar : Bisimilar settings settles one other flights) (admits : one.Admits Act.Unaliased acts)
    (fixed : settles → ∀ act ∈ acts, ¬ act.Revises) (same : Act.plain more = Act.plain acts) :
    other.answers more = one.answers acts ∧
      ∃ later, Bisimilar settings settles (one.after acts) (other.after more) later := by
  induction acts generalizing one other flights more with
  | nil =>
    have idle : ∀ act ∈ more, act.isUpkeep = true := by
      simpa [Act.plain] using same
    obtain ⟨answers, kept⟩ := bisimilar.skips idle
    exact ⟨answers, _, kept⟩
  | cons act rest ih =>
    have later (asked : settles) (other : Act) (listed : other ∈ rest) : ¬ other.Revises :=
      fixed asked other (List.mem_cons_of_mem _ listed)
    cases isUpkeep : act.isUpkeep with
    | true =>
      rw [Session.answers_cons_of_isUpkeep isUpkeep]
      exact ih (bisimilar.symm.skip isUpkeep).symm admits.2 later
        (same.trans (List.filter_cons_of_neg (by simp [isUpkeep])))
    | false =>
      -- The act has its like in the other run, after some upkeep.
      have here : Act.plain more = act :: Act.plain rest :=
        same.trans (List.filter_cons_of_pos (by simp [isUpkeep]))
      obtain ⟨front, back, rfl, idle, -, rest'⟩ := List.filter_eq_cons_iff.mp here
      obtain ⟨nothing, waiting⟩ := bisimilar.skips fun act listed => by simpa using idle act listed
      obtain ⟨proper, admits⟩ := admits
      obtain ⟨answer, _, kept⟩ := waiting.perform isUpkeep (fun asked => fixed asked act (List.mem_cons_self ..)) proper
      obtain ⟨answers, flights, ended⟩ := ih kept admits later rest'
      rw [Session.answers_append, Session.after_append, nothing, Session.answers_cons_of_plain isUpkeep,
        Session.answers_cons_of_plain isUpkeep, answer, answers]
      exact ⟨rfl, flights, ended⟩

end Bisimilar

/-! ### Rings that were reclaimed -/

theorem Attached.bisimilar (attached : Attached settings controller site) :
    Bisimilar settings settles (.opened controller site) (.opened controller site) [] :=
  ⟨.refl _, attached.mapped.consistent, attached.mapped.consistent⟩

theorem Session.Consistent.reclaimed (consistent : session.Consistent settings flights) :
    ((Act.ask .reclaim).perform session).2.controller.transmitRing.settled
        ((Act.ask .reclaim).perform session).2.site.machine.memory =
      ((Act.ask .reclaim).perform session).2.controller.transmitRing := by
  have settles : Call.reclaim.perform.Ends (session.controller, session.site.machine)
      (fun _ after => after.1.transmitRing.settled after.2.memory = after.1.transmitRing) (fun _ _ => False) := by
    unfold Call.perform Controller.reclaim
    simp only [Step.ends_bind, Step.ends_pure, Controller.ends_onTransmit]
    exact TransmitRing.reclaim_settles consistent.flies.carries.wired.seated
  obtain ⟨_, after, ended, settled⟩ := settles.exists_ok
  simp only [Act.perform, ended]
  exact settled

/-- Runs that are the same but for upkeep, and that both end with a reclaim, leave the same ring. -/
theorem Bisimilar.rings (bisimilar : Bisimilar settings True one other flights)
    (admits : one.Admits Act.Unaliased (acts ++ [.ask .reclaim])) (fixed : ∀ act ∈ acts, ¬ act.Revises)
    (same : Act.plain (more ++ [.ask .reclaim]) = Act.plain (acts ++ [.ask .reclaim])) :
    (other.after (more ++ [.ask .reclaim])).controller.transmitRing =
      (one.after (acts ++ [.ask .reclaim])).controller.transmitRing := by
  have fronts : Act.plain more = Act.plain acts := by
    simpa [Act.plain, Act.isUpkeep] using same
  obtain ⟨-, flights, before⟩ := bisimilar.run admits.of_append (fun _ => fixed) fronts
  have isUpkeep : (Act.ask .reclaim).isUpkeep = true := rfl
  -- Both rings are settled by the last act, and settling them anyhow gives the same ring.
  have reclaimed := (before.skip isUpkeep).symm.skip isUpkeep
  have settled : ((Act.ask .reclaim).perform (other.after more)).2.controller.transmitRing.settled
        ((Act.ask .reclaim).perform (other.after more)).2.site.machine.memory =
      ((Act.ask .reclaim).perform (one.after acts)).2.controller.transmitRing.settled
        ((Act.ask .reclaim).perform (one.after acts)).2.site.machine.memory :=
    reclaimed.symm.alike.controller.transmit.settled trivial
  rw [before.one.reclaimed, before.other.reclaimed] at settled
  rw [Session.after_append, Session.after_append]
  exact settled

end PacketPath
