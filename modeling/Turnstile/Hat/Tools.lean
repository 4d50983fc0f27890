import Turnstile.Bridge.Pool
import Turnstile.Hat.Echo
import Turnstile.Run.Timeline
import Turnstile.Tool.Schema

/-!
This module contains the hat `mcp`, which gives a state the tools of a server. The first time that it is
put on a state it starts a bridge, which is used again whenever it is put on this state later. The hat adds
a state whose action makes the calls it is sent and returns the results; the schemas of these messages
follow the catalogue of the server.
-/

namespace Turnstile

namespace Tools

def name : String := "mcp"

def sessionKey (state : StateId) : String :=
  s!"tool/{state}"

def stateOf (state : StateId) : StateId :=
  state.suffixed "tool"

def requestKey (state : StateId) : String :=
  s!"{state}-request"

def responseKey (state : StateId) : String :=
  s!"{state}-response"

/-- How tools are used, for the prompts of a state. -/
def advice (state : StateId) : String :=
  "To use a tool, send \x7b\"name\": ..., \"arguments\": \x7b...\x7d\x7d (or a list of them) along " ++
    s!"[{state}, {stateOf state}]."

def fragment (state : StateId) (tools : List Tool) : Fragment :=
  let tool := stateOf state
  let base := Fragment.empty
    |>.addState { State.new tool with
        action := some tool.name
        prompts := ["Runs tool calls and returns their results."] }
    |>.addTransition { Transition.new state tool with
        schema := .provided (requestKey state)
        description := some "call one tool, or a list of tools in order" }
    |>.addTransition { Transition.new tool state with
        schema := .provided (responseKey state)
        description := some "tool results" }
    |>.addPrompt state (advice state)
  tools.foldl (fun fragment tool => fragment.addPrompt state tool.describe) base

section

variable {E : Extension} {σ : Type}

def extend (context : Context E) (state : StateId) : Context E :=
  context
    |>.addProvider (requestKey state) (.catalogue (sessionKey state) .request)
    |>.addProvider (responseKey state) (.catalogue (sessionKey state) .response)
    |>.addAction (stateOf state).name (.tool state)

/-- Puts a session into a context, and a hook that ends it. -/
def keep (context : Context E) (state : StateId) (bridge : BridgeRef) : Context E :=
  context.setHatState (sessionKey state) (.session ⟨state, bridge⟩)
    |>.addStopHook ⟨s!"{name}:{state}", .bridge bridge⟩

variable [HasPool σ]

/-- The session of a state, which is started if there is none. -/
def openSession (state : StateId) (config : Option BridgeConfig) (context : Context E) (world : σ) :
    Except HatError (Context E × BridgeRef) × σ :=
  match context.session? (sessionKey state), config with
  | some session, _ => (.ok (context, session.bridge), world)
  | none, none =>
    (.error (.invalidConfig name state "no session to reuse and no command"), world)
  | none, some config =>
    let (started, pool) := (HasPool.pool world).start config
    let world := HasPool.setPool world pool
    match started with
    | .ok bridge => (.ok (keep context state bridge, bridge), world)
    | .error error => (.error (.failed name state error.message), world)

def hat (state : StateId) (config : Option BridgeConfig) : Hat E σ where
  kind := .dynamic
  apply context world :=
    match openSession state config context world with
    | (.ok (context, bridge), world) =>
      (.ok (extend context state, fragment state ((HasPool.pool world).tools bridge)), world)
    | (.error error, world) => (.error error, world)

def maker : HatMaker E σ := fun state config =>
  match config with
  | .null => .ok (hat state none)
  | config =>
    match (Document.ofJson config : Except Fault BridgeConfig) with
    | .ok config => .ok (hat state (some config))
    | .error fault => .error (.invalidConfig name state fault.reason)

end

/-! ## Actions and schemas -/

section

variable {E : Extension} {σ : Type} [HasPool σ]

def actionError (action : String) : BridgeError → ActionError
  | .toolCallFailed tool arguments error => .toolFailed action tool arguments error
  | error => .failed action error.message

/-- The event with the results, and with the notifications that have come, if there are any. -/
def resultEvent (state : StateId) (result : Json) (notifications : List Rpc.Notification) : Event :=
  let event := Event.new ⟨stateOf state, state⟩ result
  if notifications.isEmpty then event
  else event.withField "notifications" (Document.encode notifications)

def act (state : StateId) (context : Context E) (message : Json) (world : σ) :
    Course E × σ :=
  let action := (stateOf state).name
  let pool := HasPool.pool world
  let fail (takes : Duration) (error : ActionError) : Course E :=
    ⟨[], takes, .returned (.error error)⟩
  let session := (context.session? (sessionKey state)).bind fun session =>
    (pool.bridge? session.bridge).map fun bridge => (session.bridge, bridge)
  match session, (Document.ofJson message : Except Fault ToolCalls) with
  | none, _ => (fail .zero (.failed action "no tool session"), world)
  | some _, .error fault => (fail .zero (.badInput action fault.reason), world)
  | some (ref, bridge), .ok calls =>
    let (result, later) := bridge.callAll calls bridge.config.timeoutDuration
    let takes : Duration := ⟨later.link.now.nanoseconds - bridge.link.now.nanoseconds⟩
    match result with
    | .error error =>
      (fail takes (actionError action error), HasPool.setPool world (pool.replace ref later))
    | .ok result =>
      let (notifications, later) := later.drain
      let event := resultEvent state result notifications
      (⟨[], takes, .returned (.ok (context, .emit event))⟩,
        HasPool.setPool world (pool.replace ref later))

def provide (pool : Pool) (context : Context E) (session : String) (direction : Direction) :
    Except ProviderError Json :=
  match context.session? session with
  | none => .error ⟨s!"no tool session {session}"⟩
  | some found =>
    let tools := pool.tools found.bridge
    .ok <| match direction with
      | .request => Tool.requestSchema tools
      | .response => Tool.responseSchema tools

end

end Tools

namespace HatRegistry

def standard {E : Extension} {σ : Type} [HasPool σ] : HatRegistry E σ :=
  builtin.insert Tools.name Tools.maker

end HatRegistry

structure Conduct (E : Extension) (σ : Type) where
  act : E.Action → Loop E → Invocation E → σ → Course E × σ
  provide : E.Provider → Context E → Transition → Except ProviderError Json
  release : E.Hook → σ → HookCourse × σ

namespace Conduct

variable {E : Extension} {σ : Type} [HasPool σ]

/-- How everything in contexts behaves. What belongs to this library takes no time of its own. -/
def surroundings (conduct : Conduct E σ) : Surroundings E σ where
  act loop i world :=
    match i.action with
    | .echo => (⟨[], .zero, .returned (.ok (loop.context, .emit (Echo.answer i.event)))⟩, world)
    | .tool state => Tools.act state loop.context i.event.message world
    | .custom action => conduct.act action loop i world
  provide world provider context t :=
    match provider with
    | .catalogue session direction =>
      Tools.provide (HasPool.pool world) context session direction
    | .custom provider => conduct.provide provider context t
  release release world :=
    match release with
    | .bridge bridge =>
      (⟨.zero, .completed⟩, HasPool.setPool world ((HasPool.pool world).shutdown bridge))
    | .custom hook => conduct.release hook world

end Conduct

end Turnstile
