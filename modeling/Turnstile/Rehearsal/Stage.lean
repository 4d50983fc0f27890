import Turnstile.Hat.Echo
import Turnstile.Rehearsal.Script
import Turnstile.Run.Timeline

/-!
This module contains the stage of a rehearsal: what scripted actions, hooks and hats do, and the notes
that are taken of it.
-/

namespace Turnstile

namespace Rehearsal

structure Call where
  action : String
  state : StateId
  edge : Edge
  attempt : UInt32
  message : Json
  extra : List (String × Json)
  trail : Nat
  machine : String
  prompts : Nat
  isOpen : Bool
  feedback : Option Failure
  data : List (String × Json)
  deriving DecidableEq

structure Stage where
  /-- How often each action was invoked, for the actions that there are so far. -/
  played : List Nat
  /-- The invocations, the last one first. -/
  calls : List Call
  /-- The hooks that have come to their end, the last one first. -/
  finished : List String

namespace Stage

def empty : Stage :=
  ⟨[], [], []⟩

instance : EmptyCollection Stage := ⟨empty⟩

def cast (stage : Stage) (script : Json) : Action extension × Stage :=
  match script with
  | .string _ => (.echo, stage)
  | script =>
    (.custom ⟨stage.played.length, Script.flag script "retry", Script.flag script "by_attempt",
      Script.list script "steps"⟩, { stage with played := stage.played ++ [0] })

def addActions (stage : Stage) (context : Context extension) :
    List (String × Json) → Context extension × Stage
  | [] => (context, stage)
  | (name, script) :: rest =>
    let (action, stage) := stage.cast script
    stage.addActions (context.addAction name action) rest

def addProviders (context : Context extension) (providers : List (String × Json)) :
    Context extension :=
  providers.foldl (fun context (key, script) =>
    context.addProvider key (.custom (.ofJson script))) context

def addData (context : Context extension) (data : List (String × Json)) : Context extension :=
  data.foldl (fun context (name, value) => context.setData name value) context

def addHook (context : Context extension) (script : Json) : Context extension :=
  let hook := ScriptedHook.ofJson script
  context.addStopHook ⟨hook.name, .custom hook⟩

def extend (stage : Stage) (step : Json) (context : Context extension) :
    Context extension × Stage :=
  let context := if Script.flag step "fresh" then {} else context
  let context := addData context (Script.entries step "data")
  let context := ((Script.list step "forget").filterMap Json.string?).foldl
    (fun context key => context.removeHatState key) context
  let context := addProviders context (Script.entries step "providers")
  let (context, stage) := stage.addActions context (Script.entries step "actions")
  ((Script.list step "hooks").foldl addHook context, stage)

def ending (step : Json) (name : String) (i : Invocation extension) (trail : Trail)
    (context : Context extension) : Ending extension :=
  let goOn (step : Step) := Ending.returned (.ok (context, step))
  let fail (error : ActionError) := Ending.returned (.error error)
  let replyTo (target : Json) (message : Json) :=
    goOn (.emit (.new ⟨i.state.id, ⟨target.string?.getD ""⟩⟩ message))
  match Script.entries step "then" with
  | ("emit", event) :: _ => goOn ((Script.event? event).elim .wait .emit)
  | ("fan_out", events) :: _ =>
    goOn (.fanOut ((events.list?.getD []).filterMap Script.event?))
  | ("reply", target) :: _ => replyTo target i.event.message
  | ("reply_trail", target) :: _ => replyTo target (.list (trail.promptLines.map .string))
  | ("bounce", message) :: _ => goOn (.emit (.new i.event.edge.reversed message))
  | ("fail", reason) :: _ => fail (.failed name (reason.string?.getD ""))
  | ("bad_input", reason) :: _ => fail (.badInput name (reason.string?.getD ""))
  | ("tool_failed", tool) :: _ =>
    fail (.toolFailed name (Script.text tool "tool") (Script.value tool "arguments")
      (Script.text tool "error"))
  | ("panic", _) :: _ => .crashed
  | _ => goOn .wait

def note (loop : Loop extension) (i : Invocation extension) : Call where
  action := i.name
  state := i.state.id
  edge := i.event.edge
  attempt := i.attempt
  message := i.event.message
  extra := i.event.extra
  trail := loop.trail.length
  machine := loop.machine.id
  prompts := i.state.prompts.length
  isOpen := loop.isOpen
  feedback := i.feedback
  data := loop.context.data

def perform (stage : Stage) (a : ScriptedAction) (loop : Loop extension)
    (i : Invocation extension) : Course extension × Stage :=
  let step := a.step (stage.played.getD a.serial 0) i.attempt
  let stage := { stage with
    calls := note loop i :: stage.calls
    played := stage.played.modify a.serial (· + 1) }
  let (context, stage) := stage.extend step loop.context
  ({  submissions := (Script.list step "submit").filterMap Script.event?
      takes := .ofMilliseconds (Script.natural step "sleep_ms")
      ending := ending step i.name i loop.trail context }, stage)

/-- Runs a scripted hook, and notes it when it does not break off. -/
def release (stage : Stage) (hook : ScriptedHook) : HookCourse × Stage :=
  (hook.course,
    if hook.crash then stage else { stage with finished := hook.name :: stage.finished })

/-- A context with the actions, providers, data and hooks of a script. -/
def context (stage : Stage) (actions providers data : List (String × Json)) (hooks : List Json) :
    Context extension × Stage :=
  let (context, stage) := stage.addActions {} actions
  (hooks.foldl addHook (addData (addProviders context providers) data), stage)

end Stage

/-! ## Hats -/

def fillIn (text name replacement : String) : String :=
  text.replace name replacement

def noteHat (context : Context extension) (entry : String) : Context extension :=
  let noted := ((context.data? "hats").bind Json.list?).getD []
  context.setData "hats" (.list (noted ++ [.string entry]))

def scriptedFragment (script : Json) (state : StateId) : Fragment :=
  match (Document.ofText (fillIn (Script.text script "fragment") "$state" state.name) :
      Except Fault Fragment) with
  | .ok fragment => fragment
  | .error _ => {}

def scriptedHat {σ : Type} (name : String) (script : Json) (state : StateId) :
    Hat extension σ where
  kind := if Script.text script "kind" = "dynamic" then .dynamic else .static
  apply context world :=
    match (script.get? "apply_error").bind Json.string? with
    | some reason => (.error (.failed name state reason), world)
    | none =>
      let context := noteHat context s!"{name}@{state}"
      (.ok (Stage.addData context (Script.entries script "data"), scriptedFragment script state),
        world)

def scriptedMaker {σ : Type} (name : String) (script : Json) : HatMaker extension σ :=
  fun state config =>
    match (script.get? "make_error").bind Json.string? with
    | some reason => .error (.invalidConfig name state (fillIn reason "$config" config.compact))
    | none => .ok (scriptedHat name script state)

end Rehearsal

end Turnstile
