import Turnstile.Run.Loop

/-!
This module contains what the loop of a run can do when it takes an event off its queue: it writes one
record about the event, and then it is finished or invokes an action.
-/

namespace Turnstile

namespace Loop

variable {E : Extension}

structure Invokes (machine : Machine) (context : Context E) (id : StateId) (i : Invocation E) :
    Prop where
  state : machine.state? id = some i.state
  name : i.state.action = some i.name
  action : context.action? i.name = some i.action

theorem Invokes.state_id {machine : Machine} {context : Context E} {id : StateId}
    {i : Invocation E} (h : Invokes machine context id i) : i.state.id = id := by
  have found := List.find?_some h.state
  simpa using found

inductive Barred (machine : Machine) (context : Context E) (id : StateId) : RunError → Prop where
  | unknownState (h : machine.state? id = none) : Barred machine context id (.unknownState id)
  | noAction {state : State} (h : machine.state? id = some state) (ha : state.action = none) :
    Barred machine context id (.noAction id)
  | unknownAction {state : State} {name : String} (h : machine.state? id = some state)
    (ha : state.action = some name) (hc : context.action? name = none) :
    Barred machine context id (.unknownAction id name)

theorem enter_cases (l : Loop E) (id : StateId) (event : Event) (feedback : Option Failure)
    (attempt : UInt32) :
    (∃ i, Invokes l.machine l.context id i ∧ i.event = event ∧ i.feedback = feedback
      ∧ i.attempt = attempt ∧ l.enter id event feedback attempt = { l with phase := .invoking i })
    ∨ (∃ error, Barred l.machine l.context id error
      ∧ l.enter id event feedback attempt = { l with phase := .finished (.error error) }) := by
  unfold enter
  split
  . next hstate =>
    right
    exact ⟨_, .unknownState hstate, rfl⟩
  . next state hstate =>
    split
    . next hname =>
      right
      exact ⟨_, .noAction hstate hname, rfl⟩
    . next name hname =>
      split
      . next haction =>
        right
        exact ⟨_, .unknownAction hstate hname haction, rfl⟩
      . next action haction =>
        left
        exact ⟨_, ⟨hstate, hname, haction⟩, rfl, rfl, rfl, rfl⟩

def recordOf (machine : Machine) (event : Event) : Verdict → TrailRecord
  | .accepted =>
    ⟨machine.id, machine.version, event.edge.source, some event.edge.target, event, none⟩
  | .rejected failure | .unusable failure _ =>
    ⟨machine.id, machine.version, event.edge.source, none, event, some failure⟩

/-- May the action that has emitted a rejected event try again? -/
def MayRetry (l : Loop E) (p : Provenance) : Prop :=
  p.attempt < l.maxAttempts ∧ l.retries p.state = true

/-- How the loop goes on with an event that is off its queue. -/
inductive Turn (provide : Provide E) (l : Loop E) (work : Work) : Phase E → Prop where
  | complete (hv : l.judge provide work = .accepted) (hend : work.event.edge.isTerminal = true) :
    Turn provide l work (.finished (.ok ()))
  | enter {i : Invocation E} (hv : l.judge provide work = .accepted)
    (hend : work.event.edge.isTerminal = false)
    (hi : Invokes l.machine l.context work.event.edge.target i) (hevent : i.event = work.event)
    (hfeedback : i.feedback = none) (hattempt : i.attempt = 1) :
    Turn provide l work (.invoking i)
  | barred {error : RunError} (hv : l.judge provide work = .accepted)
    (hend : work.event.edge.isTerminal = false)
    (hb : Barred l.machine l.context work.event.edge.target error) :
    Turn provide l work (.finished (.error error))
  | unusable {failure : Failure} {error : RunError}
    (hv : l.judge provide work = .unusable failure error) :
    Turn provide l work (.finished (.error error))
  | retry {failure : Failure} {p : Provenance} {i : Invocation E}
    (hv : l.judge provide work = .rejected failure) (ho : work.origin = .action p)
    (hp : l.MayRetry p) (hi : Invokes l.machine l.context p.state i)
    (hevent : i.event = p.enteredBy) (hfeedback : i.feedback = some failure)
    (hattempt : i.attempt = p.attempt + 1) :
    Turn provide l work (.invoking i)
  | barredRetry {failure : Failure} {p : Provenance} {error : RunError}
    (hv : l.judge provide work = .rejected failure) (ho : work.origin = .action p)
    (hp : l.MayRetry p) (hb : Barred l.machine l.context p.state error) :
    Turn provide l work (.finished (.error error))
  | giveUp {failure : Failure} (hv : l.judge provide work = .rejected failure)
    (hp : ∀ p, work.origin = .action p → ¬ l.MayRetry p) :
    Turn provide l work (.finished (.error (.rejected work.event.edge failure)))

def noted (provide : Provide E) (l : Loop E) (work : Work) : Loop E :=
  { l with trail := l.trail ++ [recordOf l.machine work.event (l.judge provide work)] }

theorem recordEntry_eq_noted {provide : Provide E} {l : Loop E} {work : Work}
    (h : l.judge provide work = .accepted) :
    l.recordEntry work.event = l.noted provide work := by
  unfold noted
  rw [h]
  rfl

theorem recordFailure_eq_noted {provide : Provide E} {l : Loop E} {work : Work} {failure : Failure}
    (h : l.judge provide work = .rejected failure
      ∨ ∃ error, l.judge provide work = .unusable failure error) :
    l.recordFailure work.event failure = l.noted provide work := by
  unfold noted
  rcases h with h | ⟨error, h⟩
  . rw [h]
    rfl
  . rw [h]
    rfl

theorem reject_turn (provide : Provide E) (l : Loop E) (work : Work) (failure : Failure)
    (hv : l.judge provide work = .rejected failure) :
    ∃ phase, Turn provide l work phase
      ∧ (l.noted provide work).reject work.event.edge work.origin failure
          =
        { l.noted provide work with phase := phase } := by
  unfold reject
  split
  . next p ho =>
    split
    . next hp =>
      have hp : (l.noted provide work).MayRetry p := by simpa [MayRetry] using hp
      rcases enter_cases (l.noted provide work) p.state p.enteredBy (some failure) (p.attempt + 1) with
        ⟨i, hi, hevent, hfeedback, hattempt, heq⟩ | ⟨error, hb, heq⟩
      . exact ⟨_, .retry hv ho hp hi hevent hfeedback hattempt, heq⟩
      . exact ⟨_, .barredRetry hv ho hp hb, heq⟩
    . next hp =>
      -- The provenance is the only one of the event, and it does not allow for a further attempt.
      refine ⟨_, .giveUp hv ?_, rfl⟩
      intro q hq hmay
      have heq : p = q := by simpa [ho] using hq
      subst heq
      have hmay : (l.noted provide work).MayRetry p := hmay
      apply hp
      simpa [MayRetry] using hmay
  . next ho =>
    refine ⟨_, .giveUp hv ?_, rfl⟩
    simp [ho]

theorem process_turn (provide : Provide E) (l : Loop E) (work : Work) :
    ∃ phase, Turn provide l work phase
      ∧ l.process provide work = { l.noted provide work with phase := phase } := by
  unfold process
  -- On every path the record is written before anything else, and then only the phase changes.
  split
  . next failure hv =>
    rw [recordFailure_eq_noted (.inl hv)]
    exact reject_turn provide l work failure hv
  . next failure error hv =>
    rw [recordFailure_eq_noted (.inr ⟨error, hv⟩)]
    exact ⟨_, .unusable hv, rfl⟩
  . next hv =>
    rw [recordEntry_eq_noted hv]
    dsimp only
    split
    . next hend =>
      exact ⟨_, .complete hv hend, rfl⟩
    . next hend =>
      have hend : work.event.edge.isTerminal = false := by simpa using hend
      rcases enter_cases (l.noted provide work) work.event.edge.target work.event none 1 with
        ⟨i, hi, hevent, hfeedback, hattempt, heq⟩ | ⟨error, hb, heq⟩
      . exact ⟨_, .enter hv hend hi hevent hfeedback hattempt, heq⟩
      . exact ⟨_, .barred hv hend hb, heq⟩

def dequeued (l : Loop E) : Loop E :=
  { l with queue := l.queue.tail }

theorem take_of_cons {provide : Provide E} {l : Loop E} {work : Work} {rest : List Work}
    (hphase : l.phase = .waiting) (hqueue : l.queue = work :: rest) :
    l.take provide = l.dequeued.process provide work := by
  unfold take dequeued
  simp [hphase, hqueue]

end Loop

end Turnstile
