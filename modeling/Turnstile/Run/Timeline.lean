import Turnstile.Run.Basic

/-!
This module contains runs on a timeline. It is known in advance how long an action takes and how it ends,
so that the clock can go straight to the next moment at which something happens.
-/

namespace Turnstile

inductive Ending (E : Extension) where
  | returned (outcome : Except ActionError (Context E × Step))
  | crashed

structure Course (E : Extension) where
  /-- Events that the action submits when it starts, as if they came from outside. -/
  submissions : List Event
  takes : Duration
  ending : Ending E

/-- What surrounds a run: how actions and hooks go, and which schemas are provided. -/
structure Surroundings (E : Extension) (σ : Type) where
  act : Loop E → Invocation E → σ → Course E × σ
  provide : σ → Provide E
  release : RunRelease E σ

structure Timeline (E : Extension) (σ : Type) where
  run : Run E
  world : σ
  now : Duration
  /-- When the action that is being invoked ends, and how. -/
  due : Option (Duration × Ending E)

namespace Timeline

variable {E : Extension} {σ : Type}

def start (run : Run E) (world : σ) : Timeline E σ :=
  ⟨run, world, .zero, none⟩

def setLoop (t : Timeline E σ) (loop : Loop E) : Timeline E σ :=
  { t with run := { t.run with loop } }

def begin (s : Surroundings E σ) (t : Timeline E σ) (i : Invocation E) : Timeline E σ :=
  let (course, world) := s.act t.run.loop i t.world
  let loop := t.run.loop.send .external course.submissions
  { t.setLoop loop with world, due := some (t.now + course.takes, course.ending) }

def settle (t : Timeline E σ) (moment : Duration) (ending : Ending E) : Timeline E σ :=
  let loop := match ending with
    | .returned outcome => t.run.loop.resume outcome
    | .crashed => t.run.loop.crash
  { t.setLoop loop with now := moment, due := none }

/--
Lets the run go on until it has left its loop, has nothing to do, or sleeps up to the deadline. The
number bounds how much can happen without time going by.
-/
def advance (s : Surroundings E σ) (deadline : Duration) : Nat → Timeline E σ → Timeline E σ
  | 0, t => t
  | steps + 1, t =>
    match t.run.loop.phase with
    | .waiting =>
      if t.run.loop.queue.isEmpty then { t with now := deadline }
      else advance s deadline steps (t.setLoop (t.run.loop.take (s.provide t.world)))
    | .invoking i =>
      match t.due with
      | none => advance s deadline steps (t.begin s i)
      | some (moment, ending) =>
        if moment ≤ t.now then advance s deadline steps (t.settle t.now ending)
        else if moment < deadline then advance s deadline steps (t.settle moment ending)
        else { t with now := deadline }
    | _ => t

/-- How much can happen before somebody waits in vain. -/
def patience : Nat := 100000

/-- Waits for the outcome, but no longer than the given time. -/
def wait (s : Surroundings E σ) (limit : Duration) (t : Timeline E σ) :
    Outcome E × Timeline E σ :=
  match t.run.outcome? with
  | some outcome => (outcome, t)
  | none =>
    if limit = .zero then (.timedOut, t)
    else
      let t := t.advance s (t.now + limit) patience
      (t.run.outcome?.getD .timedOut, t)

def submit (t : Timeline E σ) (event : Event) : Except RunError (Timeline E σ) := do
  return { t with run := ← t.run.submit event }

def stop (s : Surroundings E σ) (t : Timeline E σ) :
    Except RunError (Context E × StopReport) × Timeline E σ :=
  let (result, run, world) := t.run.stop s.release t.world
  (result, { t with run, world })

end Timeline

end Turnstile
