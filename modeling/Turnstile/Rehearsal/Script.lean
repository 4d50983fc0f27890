import Turnstile.Hat.Composition
import Turnstile.Run.Event
import Turnstile.Run.Loop
import Turnstile.Run.StopHooks

/-!
This module contains scripts: JSON descriptions of actions, schema providers, stop hooks and hats, with
which a machine can be tried out before there are any programs behind it. Whatever a script leaves out
has no effect.
-/

namespace Turnstile

namespace Rehearsal

namespace Script

def text (script : Json) (name : String) : String :=
  ((script.get? name).bind Json.string?).getD ""

def flag (script : Json) (name : String) : Bool :=
  ((script.get? name).bind Json.bool?).getD false

def list (script : Json) (name : String) : List Json :=
  ((script.get? name).bind Json.list?).getD []

def entries (script : Json) (name : String) : List (String × Json) :=
  ((script.get? name).bind Json.members?).getD []

def natural (script : Json) (name : String) : Nat :=
  match script.get? name with
  | some (.number n) => n.toNat?.getD 0
  | _ => 0

def value (script : Json) (name : String) : Json :=
  (script.get? name).getD .null

def event? (script : Json) : Option Event :=
  (Document.ofJson script : Except Fault Event).toOption

end Script

structure ScriptedAction where
  serial : Nat
  retries : Bool
  /-- Does the attempt choose the step, and not the number of invocations? -/
  byAttempt : Bool
  steps : List Json
  deriving DecidableEq

namespace ScriptedAction

/-- Each invocation gets the next step, and the last step over and over again. -/
def step (a : ScriptedAction) (played : Nat) (attempt : UInt32) : Json :=
  let k := if a.byAttempt then attempt.toNat - 1 else played
  ((a.steps[k]?).orElse fun _ => a.steps.getLast?).getD (.object [])

end ScriptedAction

inductive ScriptedProvider where
  | fails (reason : String)
  | data (name : String)
  /-- Accepts nothing but the text of the transition. -/
  | transition
  | schema (schema : Json)
  deriving DecidableEq

namespace ScriptedProvider

def ofJson (script : Json) : ScriptedProvider :=
  if (script.get? "fail").isSome then .fails (Script.text script "fail")
  else if (script.get? "data").isSome then .data (Script.text script "data")
  else if Script.flag script "xition" then .transition
  else .schema (Script.value script "schema")

def schemaFor {E : Extension} (p : ScriptedProvider) (context : Context E) (t : Transition) :
    Except ProviderError Json :=
  match p with
  | fails reason => .error ⟨reason⟩
  | data name => (context.data? name).elim (.error ⟨s!"no data {name}"⟩) .ok
  | transition => .ok (.object [("const", .string (toString t.id))])
  | schema given => .ok given

end ScriptedProvider

structure ScriptedHook where
  name : String
  sleep : Duration
  crash : Bool
  failure : Option String
  deriving DecidableEq

namespace ScriptedHook

def ofJson (script : Json) : ScriptedHook where
  name := Script.text script "name"
  sleep := .ofMilliseconds (Script.natural script "sleep_ms")
  crash := Script.flag script "panic"
  failure := (script.get? "fail").bind Json.string?

def crashReason : String := "<panic>"

def course (hook : ScriptedHook) : HookCourse where
  takes := hook.sleep
  ending :=
    if hook.crash then .crashed crashReason
    else match hook.failure with
      | some reason => .failed reason
      | none => .completed

end ScriptedHook

inductive StoredValue where
  | number (n : Int64)
  | text (text : String)
  deriving DecidableEq

/-- Everything that is not part of this library follows a script. -/
def extension : Extension where
  Action := ScriptedAction
  retries := ScriptedAction.retries
  Provider := ScriptedProvider
  Hook := ScriptedHook
  Value := StoredValue

end Rehearsal

end Turnstile
