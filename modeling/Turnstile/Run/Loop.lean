import Turnstile.Machine.Document
import Turnstile.Run.Config
import Turnstile.Run.Context
import Turnstile.Run.Error
import Turnstile.Schema.Validation

/-!
This module contains the loop of a run as a value with one function for each kind of step. The loop takes
events off its queue one at a time, holds each against the transition that it names, and writes one record
about it. An accepted event enters its target state, and the action of that state is invoked; what the
action returns is a step of its own, and so is the queueing of each event that it emits, so that nothing
is assumed about what comes in before and in between.
-/

namespace Turnstile

/-- Makes the schema of a transition, given the context of the moment. -/
abbrev Provide (E : Extension) :=
  Provider E → Context E → Transition → Except ProviderError Json

/-- What the loop does after an action has returned. -/
inductive Step where
  | emit (event : Event)
  | fanOut (events : List Event)
  | wait
  deriving DecidableEq

namespace Step

def events : Step → List Event
  | emit event => [event]
  | fanOut events => events
  | wait => []

end Step

/-- The invocation that an event comes from. -/
structure Provenance where
  /-- The state whose action has emitted the event. -/
  state : StateId
  /-- The event that this action was invoked for. -/
  enteredBy : Event
  attempt : UInt32
  deriving DecidableEq

inductive Origin where
  | external
  | action (provenance : Provenance)
  deriving DecidableEq

namespace Origin

def attempt : Origin → UInt32
  | external => 1
  | action provenance => provenance.attempt

end Origin

/-- An event on the queue. -/
structure Work where
  event : Event
  origin : Origin
  deriving DecidableEq

/-- What an action is invoked with, besides the context and the trail of the moment. -/
structure Invocation (E : Extension) where
  state : State
  name : String
  action : Action E
  /-- The event that enters the state. -/
  event : Event
  /-- Why the event was rejected that the action emitted at its attempt before this one. -/
  feedback : Option Failure
  attempt : UInt32

inductive Phase (E : Extension) where
  /-- The next event can be taken. -/
  | waiting
  | invoking (invocation : Invocation E)
  /-- The action has returned, and these of its events are still to be queued. -/
  | emitting (provenance : Provenance) (events : List Event)
  | finished (result : Except RunError Unit)
  /-- The loop has left without a result. -/
  | cancelled
  /-- An action has broken off in a way that is not an error of its own. -/
  | crashed

structure Loop (E : Extension) where
  machine : Machine
  /-- How often an action that retries is invoked for one event. -/
  maxAttempts : UInt32
  context : Context E
  trail : Trail
  queue : List Work
  phase : Phase E

namespace Loop

variable {E : Extension}

/-- Does the loop take events? -/
def isOpen (l : Loop E) : Bool :=
  match l.phase with
  | .waiting | .invoking _ | .emitting _ _ => true
  | _ => false

/-- The result of the run, once there is one. -/
def result? (l : Loop E) : Option (Except RunError Unit) :=
  match l.phase with
  | .finished result => some result
  | _ => none

/-- The first state that cannot be entered since it has no action in the context. -/
def actionProblem? (context : Context E) : List State → Option RunError
  | [] => none
  | state :: rest =>
    match state.action with
    | none => some (.noAction state.id)
    | some name =>
      if context.hasAction name then actionProblem? context rest
      else some (.unknownAction state.id name)

/-- A loop that goes on from a trail, if the machine is in order and its states have their actions. -/
def start (machine : Machine) (context : Context E) (trail : Trail) (config : RunConfig) :
    Except RunError (Loop E) :=
  match machine.check with
  | .error errors => .error (.definition errors)
  | .ok () =>
    match actionProblem? context machine.states with
    | some error => .error error
    | none => .ok ⟨machine, config.attempts, context, trail, [], .waiting⟩

def send (l : Loop E) (origin : Origin) (events : List Event) : Loop E :=
  { l with queue := l.queue ++ events.map fun event => ⟨event, origin⟩ }

/-- Queues an event from outside. -/
def submit (l : Loop E) (event : Event) : Except RunError (Loop E) :=
  if l.isOpen then .ok (l.send .external [event]) else .error .notRunning

def finish (l : Loop E) (result : Except RunError Unit) : Loop E :=
  { l with phase := .finished result }

/-- Writes the record of an event that was accepted. -/
def recordEntry (l : Loop E) (event : Event) : Loop E :=
  { l with trail := l.trail ++
    [⟨l.machine.id, l.machine.version, event.edge.source, some event.edge.target, event, none⟩] }

/-- Writes the record of an event that was rejected. -/
def recordFailure (l : Loop E) (event : Event) (failure : Failure) : Loop E :=
  { l with trail := l.trail ++
    [⟨l.machine.id, l.machine.version, event.edge.source, none, event, some failure⟩] }

def enter (l : Loop E) (id : StateId) (event : Event) (feedback : Option Failure)
    (attempt : UInt32) : Loop E :=
  match l.machine.state? id with
  | none => l.finish (.error (.unknownState id))
  | some state =>
    match state.action with
    | none => l.finish (.error (.noAction id))
    | some name =>
      match l.context.action? name with
      | none => l.finish (.error (.unknownAction id name))
      | some action =>
        { l with phase := .invoking ⟨state, name, action, event, feedback, attempt⟩ }

def retries (l : Loop E) (id : StateId) : Bool :=
  match (l.machine.state? id).bind (·.action) with
  | none => false
  | some name => (l.context.action? name).any (·.retries)

/-- Goes on after a rejection: with a further attempt of the action that emitted the event, or not. -/
def reject (l : Loop E) (edge : Edge) (origin : Origin) (failure : Failure) : Loop E :=
  match origin with
  | .action p =>
    if p.attempt < l.maxAttempts && l.retries p.state then
      l.enter p.state p.enteredBy (some failure) (p.attempt + 1)
    else
      l.finish (.error (.rejected edge failure))
  | .external => l.finish (.error (.rejected edge failure))

def schemaFor (provide : Provide E) (context : Context E) (t : Transition) :
    Except RunError Json :=
  match t.schema with
  | .provided key =>
    match context.provider? key with
    | none => .error (.unknownProvider key t.id)
    | some provider => (provide provider context t).mapError fun e => .provider key e.reason
  | .literal schema => .ok schema
  | .named name => .ok (SchemaSource.referTo name)

/-- What becomes of an event. -/
inductive Verdict where
  | accepted
  /-- The event is rejected, and its producer may try again. -/
  | rejected (failure : Failure)
  /-- The schema is not available or not usable, which ends the run. -/
  | unusable (failure : Failure) (error : RunError)

/-- Holds an event against the transition that it names. -/
def judge (provide : Provide E) (l : Loop E) (work : Work) : Verdict :=
  let attempt := work.origin.attempt
  match l.machine.transition? work.event.edge with
  | none =>
    .rejected (.ofMessage .unknownTransition s!"machine has no xition {work.event.edge}" attempt)
  | some t =>
    match schemaFor provide l.context t with
    | .error error => .unusable (.ofMessage .schema error.message attempt) error
    | .ok schema =>
      match validate work.event.message schema l.machine.definitions with
      | .error error =>
        .unusable (.ofMessage .schema error.message attempt) (.schema work.event.edge error)
      | .ok validation =>
        if validation.isValid then .accepted
        else .rejected ⟨.validation, validation.violations, attempt⟩

/-- Deals with an event that is off the queue. -/
def process (provide : Provide E) (l : Loop E) (work : Work) : Loop E :=
  match l.judge provide work with
  | .rejected failure =>
    (l.recordFailure work.event failure).reject work.event.edge work.origin failure
  | .unusable failure error => (l.recordFailure work.event failure).finish (.error error)
  | .accepted =>
    let l := l.recordEntry work.event
    if work.event.edge.isTerminal then l.finish (.ok ())
    else l.enter work.event.edge.target work.event none 1

/-- Takes the next event, if the loop waits for one and there is one. -/
def take (provide : Provide E) (l : Loop E) : Loop E :=
  match l.phase, l.queue with
  | .waiting, work :: rest => { l with queue := rest }.process provide work
  | _, _ => l

/-- The action that was invoked returns. Only then does its context come into force. -/
def settle (l : Loop E) (outcome : Except ActionError (Context E × Step)) : Loop E :=
  match l.phase with
  | .invoking i =>
    match outcome with
    | .error error => l.finish (.error (.action error))
    | .ok (context, step) =>
      { l with context, phase := .emitting ⟨i.state.id, i.event, i.attempt⟩ step.events }
  | _ => l

/-- Queues the next event of the action that has returned. After the last one the loop waits again. -/
def emit (l : Loop E) : Loop E :=
  match l.phase with
  | .emitting p (event :: rest) => { l.send (.action p) [event] with phase := .emitting p rest }
  | .emitting _ [] => { l with phase := .waiting }
  | _ => l

/-- Queues all events of the action that has returned. -/
def emitAll (l : Loop E) : Loop E :=
  match l.phase with
  | .emitting p events => { l with phase := .waiting }.send (.action p) events
  | _ => l

/-- The action that was invoked returns, and nothing comes in while its events are queued. -/
def resume (l : Loop E) (outcome : Except ActionError (Context E × Step)) : Loop E :=
  (l.settle outcome).emitAll

/--
Leaves without a result. The loop looks for this only while it waits or an action is invoked. What is on
the queue stays there.
-/
def cancel (l : Loop E) : Loop E :=
  match l.phase with
  | .waiting | .invoking _ => { l with phase := .cancelled }
  | _ => l

def crash (l : Loop E) : Loop E :=
  match l.phase with
  | .invoking _ => { l with phase := .crashed }
  | _ => l

end Loop

end Turnstile
