import Turnstile.Run.Loop
import Turnstile.Run.StopHooks
import Turnstile.Uuid

/-!
This module contains runs: a loop together with what its owner can do with it, which is to submit events,
to ask for the outcome, and to stop it.
-/

namespace Turnstile

inductive Lifecycle where
  | idle
  | running
  | stopped
  deriving DecidableEq, Repr

namespace Lifecycle

def name : Lifecycle → String
  | idle => "Idle"
  | running => "Running"
  | stopped => "Stopped"

instance : ToString Lifecycle := ⟨name⟩

end Lifecycle

inductive Outcome (E : Extension) where
  | completed (context : Context E)
  | failed (error : RunError) (context : Context E)
  /-- The run has not finished in time. -/
  | timedOut
  /-- The run has left without a result. -/
  | stopped

structure Run (E : Extension) where
  id : RunId
  loop : Loop E
  config : RunConfig
  lifecycle : Lifecycle
  released : Bool

namespace Run

variable {E : Extension} {σ : Type}

def start (id : RunId) (machine : Machine) (context : Context E) (trail : Trail)
    (config : RunConfig) : Except RunError (Run E) := do
  return ⟨id, ← Loop.start machine context trail config, config, .running, false⟩

def submit (r : Run E) (event : Event) : Except RunError (Run E) := do
  return { r with loop := ← r.loop.submit event }

def isFinished (r : Run E) : Bool :=
  r.loop.result?.isSome

/-- How the run has ended, once its loop has left. -/
def outcome? (r : Run E) : Option (Outcome E) :=
  match r.loop.phase with
  | .waiting | .invoking _ | .emitting _ _ => none
  | .finished (.ok ()) => some (.completed r.loop.context)
  | .finished (.error error) => some (.failed error r.loop.context)
  | .cancelled | .crashed => some .stopped

/--
Ends the loop and runs the stop hooks. This can be done once; and the hooks of a run whose action has
crashed are lost.
-/
def stop (release : RunRelease E σ) (r : Run E) (world : σ) :
    Except RunError (Context E × StopReport) × Run E × σ :=
  if r.released then (.error .notRunning, r, world)
  else
    let r := { r with loop := r.loop.emitAll.cancel, released := true }
    match r.loop.phase with
    | .crashed => (.error (.internal "the run loop has crashed"), r, world)
    | _ =>
      let (context, report, world) :=
        r.loop.context.runStopHooks release r.config.hookDuration world
      (.ok (context, report), { r with lifecycle := .stopped }, world)

def inspect (r : Run E) : String :=
  described "Run"
    [("id", s!"RunId({r.id.uuid})"), ("machine", quoted r.loop.machine.id),
      ("state", r.lifecycle.name)]
    true

end Run

end Turnstile
