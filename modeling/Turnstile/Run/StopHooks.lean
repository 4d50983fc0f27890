import Turnstile.Run.Context
import Turnstile.Text.Duration

/-!
This module contains the running of stop hooks. They run one after the other, the newest first, and each
gets the same time; one that fails or takes too long does not keep the others from running.
-/

namespace Turnstile

/-- How a stop hook ends, given the time it needs. -/
inductive HookEnding where
  | completed
  | failed (reason : String)
  /-- The hook breaks off in a way that is not a failure of its own. -/
  | crashed (reason : String)
  deriving DecidableEq, Repr

structure HookCourse where
  takes : Duration
  ending : HookEnding
  deriving DecidableEq, Repr

/-- Runs what is behind a hook. The new state of the world is the one at the end of the hook. -/
abbrev RunRelease (E : Extension) (σ : Type) :=
  Release E → σ → HookCourse × σ

/-- What came of the stop hooks, each list in the order in which they ran. -/
structure StopReport where
  completed : List String
  failed : List (String × String)
  timedOut : List String
  deriving DecidableEq, Repr

namespace StopReport

def empty : StopReport :=
  ⟨[], [], []⟩

instance : EmptyCollection StopReport := ⟨empty⟩

def isClean (r : StopReport) : Bool :=
  r.failed.isEmpty && r.timedOut.isEmpty

/-- Puts the end of a hook in front of what came of the hooks after it. -/
def cons (name : String) (ending : HookEnding) (r : StopReport) : StopReport :=
  match ending with
  | .completed => { r with completed := name :: r.completed }
  | .failed reason | .crashed reason => { r with failed := (name, reason) :: r.failed }

end StopReport

/-- Runs hooks in the order of the list. A hook that is abandoned leaves the world as it was. -/
def runHooks {E : Extension} {σ : Type} (release : RunRelease E σ) (timeout : Duration) :
    List (StopHook E) → σ → StopReport × σ
  | [], world => ({}, world)
  | hook :: rest, world =>
    let (course, next) := release hook.release world
    if timeout = .zero ∨ timeout < course.takes then
      let (report, world) := runHooks release timeout rest world
      ({ report with timedOut := hook.name :: report.timedOut }, world)
    else
      let (report, world) := runHooks release timeout rest next
      (report.cons hook.name course.ending, world)

namespace Context

/-- Runs the stop hooks of a context, which has none left after that. -/
def runStopHooks {E : Extension} {σ : Type} (release : RunRelease E σ) (timeout : Duration)
    (context : Context E) (world : σ) : Context E × StopReport × σ :=
  let (report, world) := runHooks release timeout context.stopHooks.reverse world
  ({ context with stopHooks := [] }, report, world)

end Context

end Turnstile
